import Multiplextashtic.Lib.Table
import Multiplextashtic.StateCache

/-! # The channel table

`StateCache.channels` is searched, changed in place or appended to, and sorted
again. Together these make it a finite map that stands in the order of its
indices: what `update_channel` was last given for an index is its channel. -/
namespace Multiplextashtic.Cache
open Multiplextashtic.Protocol Table

instance int32_strictOrder : IsStrictOrder Int32 (· < ·) where
  irrefl _ := Int32.lt_irrefl
  trans _ _ _ := Int32.lt_trans

variable {cache : StateCache}

/-! ## One update -/

theorem sortChannels_perm (channels : List CachedChannel) :
    (sortChannels channels).Perm channels := List.perm_insertionSort _ _

theorem sortChannels_sorted (channels : List CachedChannel) :
    (sortChannels channels).Pairwise fun a b => a.index ≤ b.index := by
  let r (a b : CachedChannel) : Prop := a.index ≤ b.index
  have : Std.Total r := ⟨fun a b => Int32.le_total a.index b.index⟩
  have : IsTrans CachedChannel r := ⟨fun a b c => Int32.le_trans⟩
  exact List.pairwise_insertionSort r channels

/-- Sorting puts channels with different indices in strict order. -/
theorem sortChannels_ordered {channels : List CachedChannel}
    (h : Unique CachedChannel.index channels) :
    Ordered (· < ·) CachedChannel.index (sortChannels channels) := by
  have hne := List.pairwise_map.mp (h.perm (sortChannels_perm channels).symm)
  refine ((sortChannels_sorted channels).and hne).imp ?_
  intro a b hab
  exact Int32.lt_of_le_of_ne hab.1 hab.2

theorem updateChannel_eq (cache : StateCache) (ch : CachedChannel) :
    updateChannel cache ch =
      { cache with channels := sortChannels (write CachedChannel.index ch cache.channels) } := by
  have hp (c : CachedChannel) : (c.index == ch.index) = true ↔ c.index = ch.index := beq_iff_eq
  unfold updateChannel
  split
  · next i hi => rw [write_of_findIdx?_some hp hi]
  · next hi => rw [write_of_findIdx?_none hp hi]

theorem updateChannel_channels (cache : StateCache) (ch : CachedChannel) :
    (updateChannel cache ch).channels =
      sortChannels (write CachedChannel.index ch cache.channels) := by
  rw [updateChannel_eq]

theorem updateChannel_ordered (h : Ordered (· < ·) CachedChannel.index cache.channels)
    (ch : CachedChannel) :
    Ordered (· < ·) CachedChannel.index (updateChannel cache ch).channels := by
  rw [updateChannel_channels]
  exact sortChannels_ordered (h.unique.write ch)

theorem get_updateChannel (h : Ordered (· < ·) CachedChannel.index cache.channels)
    (ch : CachedChannel) (k : Int32) : get CachedChannel.index (updateChannel cache ch).channels k =
      if ch.index = k then some ch else get CachedChannel.index cache.channels k := by
  have hu := h.unique.write ch
  rw [updateChannel_channels, ← get_perm hu (sortChannels_perm _).symm, get_write]

/-- Updates of different indices can change places. -/
theorem updateChannel_comm (h : Ordered (· < ·) CachedChannel.index cache.channels)
    {a b : CachedChannel} (hab : a.index ≠ b.index) :
    updateChannel (updateChannel cache a) b = updateChannel (updateChannel cache b) a := by
  have ha := updateChannel_ordered h a
  have hb := updateChannel_ordered h b
  have hchannels : (updateChannel (updateChannel cache a) b).channels =
      (updateChannel (updateChannel cache b) a).channels := by
    refine (updateChannel_ordered ha b).ext (updateChannel_ordered hb a) ?_
    intro k
    simp only [get_updateChannel ha, get_updateChannel hb, get_updateChannel h]
    by_cases hk : a.index = k
    · subst hk
      simp [Ne.symm hab]
    · simp [hk]
  simp only [updateChannel_eq] at hchannels ⊢
  rw [hchannels]

/-! ## Any number of updates -/

/-- The cache after the updates. -/
def channelCache (chs : List CachedChannel) : StateCache := chs.foldl updateChannel {}

theorem channels_channelCache (chs : List CachedChannel) : (channelCache chs).channels =
    chs.foldl (fun t ch => sortChannels (write CachedChannel.index ch t)) [] :=
  (List.foldl_hom StateCache.channels fun c ch => (updateChannel_channels c ch).symm).symm

theorem channelCache_ordered (chs : List CachedChannel) :
    Ordered (· < ·) CachedChannel.index (channelCache chs).channels := by
  induction chs using List.reverseRecOn with
  | nil => exact .nil
  | append_singleton chs ch ih =>
    rw [channelCache, List.foldl_concat]
    exact updateChannel_ordered ih ch

theorem get_channelCache (chs : List CachedChannel) (k : Int32) :
    get CachedChannel.index (channelCache chs).channels k = lastOf CachedChannel.index chs k := by
  rw [channels_channelCache, get_foldl (fun _ _ => sortChannels_perm _) (.nil _)]
  exact Option.or_none

/-- `ch` is what was given last for its index. -/
def Latest (chs : List CachedChannel) (ch : CachedChannel) : Prop :=
  lastOf CachedChannel.index chs ch.index = some ch

theorem mem_channelCache (chs : List CachedChannel) (ch : CachedChannel) :
    ch ∈ (channelCache chs).channels ↔ Latest chs ch := by
  have hget := get_eq_some_iff (channelCache_ordered chs).unique (a := ch) (k := ch.index)
  rw [and_iff_left rfl, get_channelCache] at hget
  exact hget.symm

theorem mem_indices_channelCache (chs : List CachedChannel) (k : Int32) :
    k ∈ (channelCache chs).channels.map CachedChannel.index ↔ k ∈ chs.map CachedChannel.index := by
  simp only [List.mem_map, mem_channelCache]
  constructor
  · intro ⟨ch, hlast, hk⟩
    exact ⟨ch, mem_of_lastOf hlast, hk⟩
  · intro ⟨ch, hch, hk⟩
    subst hk
    cases hlast : lastOf CachedChannel.index chs ch.index with
    | none => exact absurd rfl (lastOf_eq_none_iff.mp hlast ch hch)
    | some last =>
      have hkey := key_of_get hlast
      exact ⟨last, by rw [Latest, hkey, hlast], hkey⟩

theorem channelCache_swap (chs later : List CachedChannel) {a b : CachedChannel}
    (hab : a.index ≠ b.index) :
    channelCache (chs ++ a :: b :: later) = channelCache (chs ++ b :: a :: later) := by
  have hcomm := updateChannel_comm (channelCache_ordered chs) hab
  simp only [channelCache, List.foldl_append, List.foldl_cons] at hcomm ⊢
  rw [hcomm]

/-! ## The primary channel -/

/-- `ch` has the lowest index of those whose latest role is PRIMARY. -/
structure LowestPrimary (chs : List CachedChannel) (ch : CachedChannel) : Prop where
  latest : Latest chs ch
  primary : ch.role = 1
  lowest : ∀ other, Latest chs other → other.role = 1 → ch.index ≤ other.index

theorem find?_primary_iff (chs : List CachedChannel) (ch : CachedChannel) :
    ((channelCache chs).channels.find? fun ch => ch.role = 1) = some ch ↔
      LowestPrimary chs ch := by
  simp only [(channelCache_ordered chs).find?_eq_some_iff, mem_channelCache, decide_eq_true_eq,
    Int32.not_lt]
  constructor
  · intro ⟨hlast, hrole, hleast⟩
    exact ⟨hlast, hrole, hleast⟩
  · intro ⟨hlast, hrole, hleast⟩
    exact ⟨hlast, hrole, hleast⟩

theorem getPrimaryChannelPsk_some_iff (chs : List CachedChannel) (psk : Bytes) :
    getPrimaryChannelPsk (channelCache chs) = some psk ↔
      ∃ ch, LowestPrimary chs ch ∧ ch.psk = psk := by
  simp only [getPrimaryChannelPsk, Option.map_eq_some_iff, find?_primary_iff]

theorem getPrimaryChannelPsk_none_iff (chs : List CachedChannel) :
    getPrimaryChannelPsk (channelCache chs) = none ↔ ∀ ch, Latest chs ch → ch.role ≠ 1 := by
  simp [getPrimaryChannelPsk, mem_channelCache]

/-- **The channels are a finite map in index order**: strictly increasing, with the
indices that were updated and for each what was given last. So updates of
different indices can change places, and the primary psk is that of the lowest
index whose latest role is PRIMARY. -/
theorem channelCache_table (chs : List CachedChannel) :
    ((channelCache chs).channels.Pairwise fun a b => a.index < b.index) ∧
      (∀ k, k ∈ (channelCache chs).channels.map CachedChannel.index ↔
        k ∈ chs.map CachedChannel.index) ∧
      (∀ ch, ch ∈ (channelCache chs).channels ↔ Latest chs ch) ∧
      (∀ a b later, a.index ≠ b.index →
        channelCache (chs ++ a :: b :: later) = channelCache (chs ++ b :: a :: later)) ∧
      (∀ psk, getPrimaryChannelPsk (channelCache chs) = some psk ↔
        ∃ ch, LowestPrimary chs ch ∧ ch.psk = psk) ∧
      (getPrimaryChannelPsk (channelCache chs) = none ↔
        ∀ ch, Latest chs ch → ch.role ≠ 1) :=
  ⟨channelCache_ordered chs, mem_indices_channelCache chs, mem_channelCache chs,
    fun _ _ later hab => channelCache_swap chs later hab, getPrimaryChannelPsk_some_iff chs,
    getPrimaryChannelPsk_none_iff chs⟩

end Multiplextashtic.Cache
