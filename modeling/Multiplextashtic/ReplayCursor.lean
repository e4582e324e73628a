import Multiplextashtic.Lib.Cursor
import Multiplextashtic.ReplaySequence

/-! # Channels that arrive during a replay

`send_channels` goes through the cache's own list of channels by position, and
waits for the writer behind each. Meanwhile `update_channel` may insert a channel
into that list, at the place of its index. -/
namespace Multiplextashtic.ConfigReplay
open Multiplextashtic.Protocol Multiplextashtic.Messages Multiplextashtic.Config
open Multiplextashtic.Cache Multiplextashtic.Capture Multiplextashtic.Server Run Table

/-! ## A replay and the cache under it -/

/-- A replay between its turns: what the next one finds, how the last one ended,
and what has been written. -/
structure Session where
  env : Env
  turn : Turn
  written : List Bytes

/-- What can happen while a replay waits: an `update_channel`, any other change of
the cache, a new capture, and the end of the wait. -/
inductive Session.Event where
  | updateChannel (channel : CachedChannel)
  | elsewhere (config : AppConfig) (cache : StateCache)
  | captureDefaults (nodeNum : NodeNum) (syntheticNodes : Nat) (firmwareVersion : Option String)
  | drain (lost : Option PyError)
  deriving DecidableEq

variable {E : Type}

section
variable (pb : Protobuf E)

def Session.follow (s : Session) : Turn → Session
  | .wrote data r => { s with turn := .wrote data r, written := s.written ++ [data] }
  | turn => { s with turn }

def Session.start (env : Env) (myNodeNum : NodeNum) (configId : UInt32) : Session :=
  Session.follow ⟨env, .returned 0, []⟩ (proceed pb env (Replay.new myNodeNum configId))

def Session.step (s : Session) : Session.Event → Option Session
  | .updateChannel channel =>
    some { s with env := { s.env with cache := updateChannel s.env.cache channel } }
  | .elsewhere config cache =>
    some { s with env := { s.env with
      config, cache := { cache with channels := s.env.cache.channels } } }
  | .captureDefaults nodeNum syntheticNodes firmwareVersion =>
    some { s with env := { s.env with
      capture := captureDefaults pb nodeNum syntheticNodes firmwareVersion } }
  | .drain lost =>
    match s.turn with
    | .wrote _ r => some (s.follow (resume pb s.env r lost))
    | _ => none

/-- The indices of the channels a client has been sent. -/
def sentIndices (ws : List Bytes) : List Int32 := (sentChannels pb ws).map Channel.index

end

/-- The indices in the cache. -/
def Env.indices (env : Env) : List Int32 := env.cache.channels.map CachedChannel.index

/-- How many channels the loop over the cache has behind it. -/
def Phase.cursor : Phase → Nat
  | .channel next _ => next
  | _ => 0

/-- `send_channels` has returned. -/
def Phase.past : Phase → Bool
  | .config _ => true
  | .knownNode _ _ => true
  | .syntheticNode _ => true
  | .configComplete => true
  | _ => false

/-- The phase a replay waits in. -/
def Session.phase (s : Session) : Option Phase :=
  match s.turn with
  | .wrote _ r => some r.phase
  | _ => none

def Session.cursor (s : Session) : Nat :=
  match s.turn with
  | .wrote _ r => r.phase.cursor
  | _ => 0

def Session.past (s : Session) : Bool :=
  match s.turn with
  | .wrote _ r => r.phase.past
  | .returned _ => true
  | .raised _ => false

/-- No index is sent twice, and behind `send_channels` each index in `known` has been
sent once. -/
structure SentOnce (pb : Protobuf E) (known : List Int32) (s : Session) : Prop where
  nodup : (sentIndices pb s.written).Nodup
  all : s.past = true → ∀ index ∈ known, (sentIndices pb s.written).count index = 1

/-- A channel that arrives is one of the cache, or comes behind the channels the
loop over the cache has sent. -/
def InOrder (s : Session) : Session.Event → Prop
  | .updateChannel channel => channel.index ∈ s.env.indices ∨
      ∀ index ∈ s.env.indices.take s.cursor, index < channel.index
  | _ => True

instance (s : Session) : ∀ e, Decidable (InOrder s e)
  | .updateChannel channel =>
    have : Decidable (∀ index ∈ s.env.indices.take s.cursor, index < channel.index) :=
      List.decidableBAll _ _
    inferInstanceAs (Decidable (channel.index ∈ s.env.indices ∨
      ∀ index ∈ s.env.indices.take s.cursor, index < channel.index))
  | .elsewhere _ _ => isTrue trivial
  | .captureDefaults _ _ _ => isTrue trivial
  | .drain _ => isTrue trivial

/-! ## Insertions -/

/-- The channels stand in increasing order. -/
def Sorted (env : Env) : Prop := env.indices.Pairwise (· < ·)

theorem Sorted.reached {pb : Protobuf E} {env : Env} (h : Reached pb env) : Sorted env := by
  obtain ⟨config, es, s, hr, rfl⟩ := h
  show (s.cache.channels.map CachedChannel.index).Pairwise (· < ·)
  rw [run_cache config es hr]
  exact List.pairwise_map.mpr (channels_sorted pb _)

/-- The indices `k` after an update of the channel `x`. -/
inductive Inserted (k : List Int32) (x : Int32) : List Int32 → Prop
  | known : x ∈ k → Inserted k x k
  | new {k' : List Int32} : x ∉ k → k'.Perm (k ++ [x]) → Inserted k x k'

variable {k k' : List Int32} {x : Int32}

theorem Inserted.subset (h : Inserted k x k') : k ⊆ k' := by
  cases h with
  | known => exact List.Subset.refl _
  | new hx hp => exact fun _ hy => (Cursor.mem_insert hp).mpr (.inl hy)

theorem Inserted.eq (h : Inserted k x k') (hx : x ∈ k) : k' = k := by
  cases h with
  | known => rfl
  | new hnew => exact absurd hx hnew

theorem Inserted.perm (h : Inserted k x k') (hx : x ∉ k) : k'.Perm (k ++ [x]) := by
  cases h with
  | known hmem => exact absurd hmem hx
  | new _ hp => exact hp

theorem updateChannel_inserted {cache : StateCache} (ch : CachedChannel)
    (hs : (cache.channels.map CachedChannel.index).Pairwise (· < ·)) :
    ((updateChannel cache ch).channels.map CachedChannel.index).Pairwise (· < ·) ∧
      Inserted (cache.channels.map CachedChannel.index) ch.index
        ((updateChannel cache ch).channels.map CachedChannel.index) := by
  have hsorted := List.pairwise_map.mpr (updateChannel_ordered (List.pairwise_map.mp hs) ch)
  refine ⟨hsorted, ?_⟩
  rw [updateChannel_channels] at hsorted ⊢
  have hperm := (sortChannels_perm (write CachedChannel.index ch cache.channels)).map
    CachedChannel.index
  rw [keys_write] at hperm
  by_cases hx : ch.index ∈ cache.channels.map CachedChannel.index
  · rw [if_pos hx] at hperm
    have heq := hperm.eq_of_pairwise (fun a b _ _ hab hba => absurd hba (asymm hab))
      hsorted hs
    rw [heq]
    exact .known hx
  · rw [if_neg hx] at hperm
    exact .new hx hperm

/-! ## Where a replay stands -/

/-- The indices sent so far, where a replay stands: in the loop over the cache, those
of the channels before the cursor. `known` are the ones that have to be sent. -/
inductive Stands (pb : Protobuf E) (known k : List Int32) : List Int32 → Phase → Prop
  | start : known = [] → Stands pb known k [] .start
  | myInfo : known = [] → Stands pb known k [] .myInfo
  | ownNodeInfo : known = [] → Stands pb known k [] .ownNodeInfo
  | metadata : known ⊆ k → Stands pb known k [] .metadata
  | channel {next : Nat} : known ⊆ k → next ≤ k.length →
      Stands pb known k (k.take next) (.channel next next)
  | capturedChannel {sent : List Int32} {rest : List Entry} :
      (sent ++ (capturedChannels pb rest).map Channel.index).Nodup → known ⊆ sent →
      Stands pb known k sent (.capturedChannel rest)
  | past {sent : List Int32} {phase : Phase} : phase.past = true → sent.Nodup → known ⊆ sent →
      Stands pb known k sent phase

variable {pb : Protobuf E} {env : Env} {known sent : List Int32} {r r' : Replay} {phase : Phase}

theorem Stands.nodup (h : Stands pb known k sent phase) (hk : k.Pairwise (· < ·)) :
    sent.Nodup := by
  cases h with
  | channel => exact hk.nodup.sublist (List.take_sublist _ _)
  | capturedChannel hnodup => exact (List.nodup_append.mp hnodup).1
  | past _ hnodup => exact hnodup
  | _ => exact List.nodup_nil

/-- An insertion in order changes nothing before the cursor. -/
theorem Stands.inserted (h : Stands pb known k sent phase) (hk : k.Pairwise (· < ·))
    (hk' : k'.Pairwise (· < ·)) (hi : Inserted k x k')
    (hx : x ∈ k ∨ ∀ y ∈ k.take phase.cursor, y < x) : Stands pb known k' sent phase := by
  cases h with
  | start hknown => exact .start hknown
  | myInfo hknown => exact .myInfo hknown
  | ownNodeInfo hknown => exact .ownNodeInfo hknown
  | metadata hknown => exact .metadata (List.Subset.trans hknown hi.subset)
  | capturedChannel hnodup hknown => exact .capturedChannel hnodup hknown
  | past hpast hnodup hknown => exact .past hpast hnodup hknown
  | @channel next hknown hlen =>
    cases hi with
    | known => exact .channel hknown hlen
    | new hnew hp =>
      have htake := Cursor.take_insert hk hk' hp hlen (hx.resolve_left hnew)
      have hlen' : next ≤ k'.length := by
        rw [hp.length_eq, List.length_append]
        exact Nat.le_add_right_of_le hlen
      rw [← htake]
      exact .channel (List.Subset.trans hknown (Inserted.new hnew hp).subset) hlen'

/-- The captured channels have different indices. -/
theorem capturedChannels_nodup (hrt : pb.FromRadioRoundTrip) (hc : Captured pb env.capture) :
    ((capturedChannels pb (env.entries .channel)).map Channel.index).Nodup := by
  generalize hcap : env.capture = capture at hc
  cases hc with
  | nothing =>
    unfold Env.entries
    rw [hcap]
    exact List.nodup_nil
  | defaults nodeNum syntheticNodes firmwareVersion =>
    rw [(entries_of_defaults hcap).1, Env.ofCapture]
    split
    · exact List.nodup_nil
    · rw [capturedChannels, channelEntries, pick_entries hrt channelIn]
      show ((List.range 8).map fun index => (defaultChannel index).index).Nodup
      decide

theorem Skips.stands (hrt : pb.FromRadioRoundTrip) (hc : Captured pb env.capture)
    (hk : Sorted env) (hs : Skips pb env r r') (h : Stands pb known env.indices sent r.phase) :
    Stands pb known env.indices sent r'.phase := by
  cases hs with
  | nodesOnly hp =>
    rw [hp] at h
    cases h with
    | ownNodeInfo hknown => exact .past rfl List.nodup_nil (hknown ▸ List.Subset.refl _)
    | past hpast => cases hpast
  | channels hp =>
    rw [hp] at h
    cases h with
    | metadata hknown => exact .channel hknown (Nat.zero_le _)
    | past hpast => cases hpast
  | @noChannel next count hp hch =>
    rw [hp] at h
    cases h with
    | channel hknown hlen =>
      have hall : env.indices.take next = env.indices := by
        refine List.take_of_length_le ?_
        rw [Env.indices, List.length_map]
        exact List.getElem?_eq_none_iff.mp hch
      rw [hall]
      refine .capturedChannel ?_ hknown
      unfold Env.fallback
      split
      · next hzero =>
        cases hzero
        rw [← hall]
        exact capturedChannels_nodup hrt hc
      · show (_ ++ []).Nodup
        rw [List.append_nil]
        exact hk.nodup
    | past hpast => cases hpast
  | configs hp =>
    rw [hp] at h
    cases h with
    | capturedChannel hnodup hknown => exact .past rfl (List.nodup_append.mp hnodup).1 hknown
    | past hpast => cases hpast
  | configOnly hp | nodes hp | noNode hp =>
    rw [hp] at h
    cases h with
    | past _ hnodup hknown => exact .past rfl hnodup hknown
  | @unparsed phase entry rest hl hp _ | @tooLarge phase entry rest _ _ hl hp _ _ =>
    rw [hp] at h
    cases hl with
    | channel =>
      cases h with
      | capturedChannel hnodup hknown =>
        have hsub : (capturedChannels pb rest).Sublist (capturedChannels pb (entry :: rest)) :=
          (List.sublist_cons_self _ _).filterMap _
        exact .capturedChannel (hnodup.sublist ((hsub.map _).append_left _)) hknown
      | past hpast => cases hpast
    | config | node =>
      cases h with
      | past _ hnodup hknown => exact .past rfl hnodup hknown

theorem sentIndices_append (ws ws' : List Bytes) :
    sentIndices pb (ws ++ ws') = sentIndices pb ws ++ sentIndices pb ws' := by
  unfold sentIndices sentChannels received
  rw [List.filterMap_append, List.filterMap_append, List.map_append]

theorem sentIndices_encode (hrt : pb.FromRadioRoundTrip) {variant : FromRadioVariant E}
    {data : Bytes} (he : encode pb r variant = .ok data) :
    sentIndices pb [data] = ((channelIn variant).map Channel.index).toList := by
  rw [sentIndices, sentChannels, received, List.filterMap_cons_some (b := variant)]
  · cases hv : channelIn variant <;> simp [hv]
  · rw [encode_parses hrt he]
    rfl

/-- Past the channels, no entry of a loop holds one. -/
theorem Proper.channelIn_none {phase : List Entry → Phase} (hl : Loop phase) {e : Entry}
    {rest : List Entry} (h : Proper pb (phase (e :: rest)))
    (hpast : (phase (e :: rest)).past = true) {fr : FromRadio E}
    (hfr : pb.parseFromRadio e.data = some fr) : channelIn fr.variant = none := by
  refine (h.head hl hfr).1.channelIn ?_
  intro htype
  cases hl with
  | channel => cases hpast
  | config =>
    have hskip := (h e List.mem_cons_self).2
    rw [htype] at hskip
    cases hskip
  | node =>
    have hnode := (h e List.mem_cons_self).2
    rw [htype] at hnode
    cases hnode

theorem Sends.stands (ht : ∀ e ∈ env.capture.captured, Typed pb e)
    {variant : FromRadioVariant E} (hs : Sends pb env r variant phase)
    (h : Stands pb known env.indices sent r.phase) :
    Stands pb known env.indices (sent ++ ((channelIn variant).map Channel.index).toList)
      phase := by
  cases hs with
  | myInfo hp =>
    rw [hp] at h
    cases h with
    | start hknown => exact .myInfo hknown
    | past hpast => cases hpast
  | ownFirst hp =>
    rw [hp] at h
    cases h with
    | start hknown => exact .ownNodeInfo hknown
    | past hpast => cases hpast
  | ownNodeInfo hp =>
    rw [hp] at h
    cases h with
    | myInfo hknown => exact .ownNodeInfo hknown
    | past hpast => cases hpast
  | metadata hp hid hm =>
    obtain ⟨md, hmd⟩ := metadataMessage_typed ht
    rw [hmd] at hm
    cases hm
    rw [hp] at h
    cases h with
    | ownNodeInfo hknown => exact .metadata (hknown ▸ List.nil_subset _)
    | past hpast => cases hpast
  | @channel next count ch hp hch =>
    rw [hp] at h
    cases h with
    | channel hknown hlen =>
      have hindex : env.indices[next]? = some ch.index := by
        rw [Env.indices, List.getElem?_map, hch]
        rfl
      obtain ⟨hlt, -⟩ := List.getElem?_eq_some_iff.mp hindex
      have htake : env.indices.take (next + 1) = env.indices.take next ++ [ch.index] := by
        rw [List.take_add_one, hindex]
        rfl
      show Stands pb known env.indices (env.indices.take next ++ [ch.index]) _
      rw [← htake]
      exact .channel hknown hlt
    | past hpast => cases hpast
  | knownNode hp | configComplete hp =>
    rw [hp] at h
    cases h with
    | past _ hnodup hknown =>
      show Stands pb known env.indices (sent ++ []) _
      rw [List.append_nil]
      exact .past rfl hnodup hknown

theorem Emits.stands (ht : ∀ e ∈ env.capture.captured, Typed pb e)
    {variant : FromRadioVariant E} (hem : Emits pb env r variant phase) (hproper : Proper pb r.phase)
    (h : Stands pb known env.indices sent r.phase) :
    Stands pb known env.indices (sent ++ ((channelIn variant).map Channel.index).toList)
      phase := by
  cases hem with
  | own hs => exact hs.stands ht h
  | @captured phase entry rest fr hl hp hfr =>
    rw [hp] at h hproper
    have hnone (hpast : (phase (entry :: rest)).past = true)
        (h : Stands pb known env.indices sent (phase rest)) :
        Stands pb known env.indices
          (sent ++ ((channelIn fr.variant).map Channel.index).toList) (phase rest) := by
      rw [hproper.channelIn_none hl hpast hfr]
      show Stands pb known env.indices (sent ++ []) _
      rwa [List.append_nil]
    cases hl with
    | channel =>
      cases h with
      | capturedChannel hnodup hknown =>
        have htype : entry.type = .channel := (hproper entry List.mem_cons_self).2
        have hholds := (Proper.head .channel hproper hfr).1
        rw [htype] at hholds
        obtain ⟨id, variant⟩ := fr
        cases hholds with
        | channel ch =>
          have hpick : capturedChannels pb (entry :: rest) = ch :: capturedChannels pb rest := by
            rw [capturedChannels, List.filterMap_cons_some (b := ch)]
            · rfl
            · rw [Item.pick, hfr]
              rfl
          rw [hpick, List.map_cons] at hnodup
          refine .capturedChannel ?_ (List.subset_append_of_subset_left _ hknown)
          show (sent ++ [ch.index] ++ _).Nodup
          rwa [List.append_assoc]
      | past hpast => cases hpast
    | config | node =>
      cases h with
      | past _ hnodup hknown => exact hnone rfl (.past rfl hnodup hknown)

/-! ## Sessions in order -/

/-- What holds of a session whose channels arrive in order. -/
structure Steady (pb : Protobuf E) (known : List Int32) (s : Session) : Prop where
  captured : Captured pb s.env.capture
  sorted : Sorted s.env
  nodup : (sentIndices pb s.written).Nodup
  waits : ∀ data r, s.turn = .wrote data r → Proper pb r.phase ∧
    Stands pb known s.env.indices (sentIndices pb s.written) r.phase
  returned : ∀ count, s.turn = .returned count → known ⊆ sentIndices pb s.written

variable {s t : Session}

theorem steady_raised (hc : Captured pb s.env.capture) (hk : Sorted s.env)
    (hnodup : (sentIndices pb s.written).Nodup) (e : PyError) :
    Steady pb known (s.follow (.raised e)) := by
  refine ⟨hc, hk, hnodup, ?_, ?_⟩
  · intro data r hturn
    cases hturn
  · intro count hturn
    cases hturn

/-- One turn. -/
theorem proceed_steady (hrt : pb.FromRadioRoundTrip) (hc : Captured pb s.env.capture)
    (hk : Sorted s.env) (hproper : Proper pb r.phase)
    (h : Stands pb known s.env.indices (sentIndices pb s.written) r.phase) :
    Steady pb known (s.follow (proceed pb s.env r)) := by
  have ht := typed_captured hrt hc
  have hp := proceed_proceeds pb s.env r
  generalize proceed pb s.env r = turn at hp
  cases hp with
  | @wrote r₁ variant phase data hr hem he =>
    have hmoved : Proper pb r₁.phase ∧
        Stands pb known s.env.indices (sentIndices pb s.written) r₁.phase := by
      clear hem he
      induction hr with
      | refl => exact ⟨hproper, h⟩
      | tail _ hs ih => exact ⟨hs.proper ht ih.1, hs.stands hrt hc hk ih.2⟩
    have hstands : Stands pb known s.env.indices (sentIndices pb (s.written ++ [data])) phase := by
      rw [sentIndices_append, sentIndices_encode hrt he]
      exact hem.stands ht hmoved.1 hmoved.2
    refine ⟨hc, hk, hstands.nodup hk, ?_, ?_⟩
    · intro data' r' hturn
      cases hturn
      exact ⟨hem.proper hmoved.1, hstands⟩
    · intro count hturn
      cases hturn
  | returned hp =>
    rw [hp] at h
    refine ⟨hc, hk, h.nodup hk, ?_, ?_⟩
    · intro data' r' hturn
      cases hturn
    · intro count _
      show known ⊆ sentIndices pb s.written
      generalize sentIndices pb s.written = sent at h
      cases h with
      | past _ _ hknown => exact hknown
  | raised => exact steady_raised hc hk (h.nodup hk) _

theorem Steady.drain (hrt : pb.FromRadioRoundTrip) (h : Steady pb known s) {data : Bytes}
    (hturn : s.turn = .wrote data r) (lost : Option PyError) :
    Steady pb known (s.follow (resume pb s.env r lost)) := by
  obtain ⟨hproper, hstands⟩ := h.waits data r hturn
  cases lost with
  | none => exact proceed_steady (r := r.ack) hrt h.captured h.sorted hproper hstands
  | some e =>
    show Steady pb known (s.follow (drainRaised pb s.env r e))
    rcases drainRaised_cases pb s.env r e with hraised | ⟨hproceeds, -⟩
    · rw [hraised]
      exact steady_raised h.captured h.sorted h.nodup e
    · rw [hproceeds]
      exact proceed_steady hrt h.captured h.sorted hproper hstands

/-- **What arrives in order disturbs nothing.** -/
theorem Steady.step (hrt : pb.FromRadioRoundTrip) (h : Steady pb known s) {e : Session.Event}
    (ho : InOrder s e) (hs : Session.step pb s e = some t) : Steady pb known t := by
  cases e with
  | updateChannel ch =>
    cases hs
    obtain ⟨hsorted, hinserted⟩ := updateChannel_inserted ch h.sorted
    refine ⟨h.captured, hsorted, h.nodup, ?_, h.returned⟩
    intro data r hturn
    obtain ⟨hproper, hstands⟩ := h.waits data r hturn
    have hcursor : s.cursor = r.phase.cursor := by
      rw [Session.cursor, show s.turn = .wrote data r from hturn]
    rw [InOrder, hcursor] at ho
    exact ⟨hproper, hstands.inserted h.sorted hsorted hinserted ho⟩
  | elsewhere config cache =>
    cases hs
    exact ⟨h.captured, h.sorted, h.nodup, h.waits, h.returned⟩
  | captureDefaults nodeNum syntheticNodes firmwareVersion =>
    cases hs
    exact ⟨.defaults _ _ _, h.sorted, h.nodup, h.waits, h.returned⟩
  | drain lost =>
    simp only [Session.step] at hs
    split at hs
    · next data r hturn =>
      cases hs
      exact h.drain hrt hturn lost
    · cases hs

theorem Steady.sentOnce (h : Steady pb known s) : SentOnce pb known s := by
  refine ⟨h.nodup, ?_⟩
  intro hpast index hindex
  refine List.count_eq_one_of_mem h.nodup ?_
  unfold Session.past at hpast
  split at hpast
  · next data r hturn =>
    obtain ⟨-, hstands⟩ := h.waits data r hturn
    generalize r.phase = phase at hpast hstands
    generalize sentIndices pb s.written = sent at hstands ⊢
    cases hstands with
    | past _ _ hknown => exact hknown hindex
    | _ => cases hpast
  · next count hturn => exact h.returned count hturn hindex
  · cases hpast

/-! ## Sessions out of order -/

theorem Phase.cursor_of_past (h : phase.past = true) : phase.cursor = 0 := by
  cases phase with
  | channel => cases h
  | _ => rfl

/-- A session that raised, that sent an index twice, or that will: it has a channel
ahead of the cursor that it sent already. -/
inductive Spoilt (pb : Protobuf E) (s : Session) : Prop
  | raised {e : PyError} : s.turn = .raised e → Spoilt pb s
  | twice : ¬ (sentIndices pb s.written).Nodup → Spoilt pb s
  | ahead {data : Bytes} {r : Replay} {next count : Nat} {index : Int32} :
      s.turn = .wrote data r → r.phase = .channel next count →
      index ∈ sentIndices pb s.written → index ∈ s.env.indices.drop next → Spoilt pb s

/-- **A channel out of order** shifts one that was sent ahead of the cursor. -/
theorem Steady.spoilt (h : Steady pb known s) {e : Session.Event} (ho : ¬ InOrder s e)
    (hs : Session.step pb s e = some t) : Spoilt pb t := by
  cases e with
  | updateChannel ch =>
    cases hs
    obtain ⟨hsorted, hinserted⟩ := updateChannel_inserted ch h.sorted
    obtain ⟨hnew, hbefore⟩ := not_or.mp ho
    obtain ⟨index, hbefore⟩ := not_forall.mp hbefore
    obtain ⟨hindex, hle⟩ := Classical.not_imp.mp hbefore
    have hlt : ch.index < index := by
      refine Int32.lt_of_le_of_ne (Int32.not_lt.mp hle) ?_
      rintro rfl
      exact hnew (List.mem_of_mem_take hindex)
    cases hturn : s.turn with
    | wrote data r =>
      have hcursor : s.cursor = r.phase.cursor := by rw [Session.cursor, hturn]
      obtain ⟨-, hstands⟩ := h.waits data r hturn
      rw [hcursor] at hindex
      generalize hphase : r.phase = phase at hindex hstands
      generalize hsent : sentIndices pb s.written = sent at hstands
      cases hstands with
      | @channel next _ hlen =>
        obtain ⟨shifted, htake, hdrop⟩ :=
          Cursor.exists_shifted h.sorted hsorted (hinserted.perm hnew) hlen hindex hlt
        rw [← hsent] at htake
        exact .ahead rfl hphase htake hdrop
      | past hpast =>
        rw [Phase.cursor_of_past hpast] at hindex
        cases hindex
      | _ => cases hindex
    | returned | raised =>
      rw [Session.cursor, hturn] at hindex
      cases hindex
  | _ => exact absurd trivial ho

theorem Sorted.step (h : Sorted s.env) {e : Session.Event} (hs : Session.step pb s e = some t) :
    Sorted t.env := by
  cases e with
  | updateChannel ch =>
    cases hs
    exact (updateChannel_inserted ch h).1
  | elsewhere | captureDefaults =>
    cases hs
    exact h
  | drain lost =>
    simp only [Session.step] at hs
    split at hs
    · cases hs
      unfold Session.follow
      split <;> exact h
    · cases hs

theorem not_nodup_follow (hnodup : ¬ (sentIndices pb s.written).Nodup) (turn : Turn) :
    ¬ (sentIndices pb (s.follow turn).written).Nodup := by
  unfold Session.follow
  split
  · intro h
    rw [sentIndices_append] at h
    exact hnodup (List.nodup_append.mp h).1
  · exact hnodup

/-- In the loop over the cache a turn sends the channel under the cursor, or raises. -/
theorem proceed_channel {next count : Nat} {ch : CachedChannel} (hp : r.phase = .channel next count)
    (hch : env.cache.channels[next]? = some ch) :
    (∃ e, proceed pb env r = .raised e) ∨
      ∃ data, encode pb r (.channel (channelInfo ch)) = .ok data ∧
        proceed pb env r = .wrote data (r.wrote (.channel (next + 1) (count + 1))) := by
  rw [proceed, hp]
  simp only [nextChannel, hch, sendFr]
  split
  · next e _ => exact .inl ⟨e, rfl⟩
  · next data he => exact .inr ⟨data, he, rfl⟩

/-- The loop comes to what is ahead of it. -/
theorem spoilt_drain (hrt : pb.FromRadioRoundTrip) {next count : Nat} {index : Int32}
    (hp : r.phase = .channel next count) (hsent : index ∈ sentIndices pb s.written)
    (hahead : index ∈ s.env.indices.drop next) (lost : Option PyError) :
    Spoilt pb (s.follow (resume pb s.env r lost)) := by
  cases lost with
  | some e =>
    have hraised : drainRaised pb s.env r e = .raised e := by simp only [drainRaised, hp]
    exact .raised (congrArg (fun turn => (s.follow turn).turn) hraised)
  | none =>
    have hlt : next < s.env.cache.channels.length := by
      have hpos := List.length_pos_of_mem hahead
      rw [List.length_drop, Env.indices, List.length_map] at hpos
      omega
    have hch := List.getElem?_eq_getElem hlt
    generalize s.env.cache.channels[next] = ch at hch
    show Spoilt pb (s.follow (proceed pb s.env r.ack))
    have hturn := @proceed_channel E pb s.env r.ack next count ch hp hch
    rcases hturn with ⟨e, hraised⟩ | ⟨data, he, hwrote⟩
    · exact .raised (congrArg (fun turn => (s.follow turn).turn) hraised)
    · rw [hwrote]
      have hgrown : sentIndices pb (s.written ++ [data]) =
          sentIndices pb s.written ++ [ch.index] := by
        rw [sentIndices_append, sentIndices_encode hrt he]
        rfl
      have hindices : s.env.indices.drop next = ch.index :: s.env.indices.drop (next + 1) := by
        have hindex : s.env.indices[next]? = some ch.index := by
          rw [Env.indices, List.getElem?_map, hch]
          rfl
        obtain ⟨hlt', hget⟩ := List.getElem?_eq_some_iff.mp hindex
        rw [List.drop_eq_getElem_cons hlt', hget]
      rw [hindices] at hahead
      rcases List.mem_cons.mp hahead with rfl | hahead
      · refine .twice ?_
        show ¬ (sentIndices pb (s.written ++ [data])).Nodup
        rw [hgrown]
        intro hnodup
        exact (List.nodup_append.mp hnodup).2.2 _ hsent _ (List.mem_singleton_self _) rfl
      · refine .ahead rfl rfl ?_ hahead
        show index ∈ sentIndices pb (s.written ++ [data])
        rw [hgrown]
        exact List.mem_append_left _ hsent

/-- What is spoilt stays so. -/
theorem Spoilt.step (hrt : pb.FromRadioRoundTrip) (h : Spoilt pb s) (hk : Sorted s.env)
    {e : Session.Event} (hs : Session.step pb s e = some t) : Spoilt pb t := by
  cases e with
  | updateChannel ch =>
    cases hs
    obtain ⟨hsorted, hinserted⟩ := updateChannel_inserted ch hk
    cases h with
    | raised hturn => exact .raised hturn
    | twice hnodup => exact .twice hnodup
    | @ahead _ _ next _ index hturn hp hsent hahead =>
      refine .ahead hturn hp hsent ?_
      show index ∈ ((updateChannel s.env.cache ch).channels.map CachedChannel.index).drop next
      by_cases hx : ch.index ∈ s.env.indices
      · rw [hinserted.eq hx]
        exact hahead
      · exact Cursor.mem_drop_insert hk hsorted (hinserted.perm hx) hahead
  | elsewhere | captureDefaults =>
    cases hs
    cases h with
    | raised hturn => exact .raised hturn
    | twice hnodup => exact .twice hnodup
    | ahead hturn hp hsent hahead => exact .ahead hturn hp hsent hahead
  | drain lost =>
    simp only [Session.step] at hs
    split at hs
    · next data r hturn =>
      cases hs
      cases h with
      | raised hraised => cases hturn.symm.trans hraised
      | twice hnodup => exact .twice (not_nodup_follow hnodup _)
      | ahead hturn' hp hsent hahead =>
        cases hturn.symm.trans hturn'
        exact spoilt_drain hrt hp hsent hahead lost
    · cases hs

theorem Spoilt.not_sentOnce (h : Spoilt pb s) (hpast : s.past = true) :
    ¬ SentOnce pb known s := by
  intro honce
  cases h with
  | raised hturn =>
    rw [Session.past, hturn] at hpast
    cases hpast
  | twice hnodup => exact hnodup honce.nodup
  | ahead hturn hp =>
    simp only [Session.past, hturn, hp] at hpast
    cases hpast

/-! ## Every channel once -/

theorem start_steady (hrt : pb.FromRadioRoundTrip) (hr : Reached pb env) (myNodeNum : NodeNum)
    (configId : UInt32) : Steady pb [] (Session.start pb env myNodeNum configId) :=
  proceed_steady (s := ⟨env, .returned 0, []⟩) hrt hr.captured (Sorted.reached hr) trivial
    (.start rfl)

/-- **The channels of a replay**, whatever is updated while it runs; `s` is where
`send_channels` starts. While the channels arrive in order, each index is sent once. A
replay that comes past its channels has sent one twice if they did not. -/
theorem session_channels (hrt : pb.FromRadioRoundTrip) (hr : Reached pb env) (myNodeNum : NodeNum)
    (configId : UInt32) {before after : List Session.Event}
    (hbefore : run (Session.step pb) (Session.start pb env myNodeNum configId) before = some s)
    (hphase : s.phase = some .metadata)
    (hafter : run (Session.step pb) s (.drain none :: after) = some t) :
    let ordered := Along (Session.step pb) InOrder (Session.start pb env myNodeNum configId)
      (before ++ .drain none :: after)
    (ordered → SentOnce pb s.env.indices t) ∧
      (t.past = true → (SentOnce pb s.env.indices t ↔ ordered)) := by
  intro ordered
  obtain ⟨data, r, hturn, hp⟩ : ∃ data r, s.turn = .wrote data r ∧ r.phase = .metadata := by
    unfold Session.phase at hphase
    split at hphase
    · next data r hturn => exact ⟨data, r, hturn, Option.some.inj hphase⟩
    · cases hphase
  have hstart := start_steady hrt hr myNodeNum configId
  have hwhole : run (Session.step pb) (Session.start pb env myNodeNum configId)
      (before ++ .drain none :: after) = some t := run_append.mpr ⟨s, hbefore, hafter⟩
  have honce (ho : ordered) : SentOnce pb s.env.indices t := by
    obtain ⟨hof, hoa⟩ := (along_append hbefore).mp ho
    have hs : Steady pb [] s :=
      invariant_along (fun _ _ _ h ho hs => h.step hrt ho hs) hstart hof hbefore
    have hs' : Steady pb s.env.indices s := by
      refine ⟨hs.captured, hs.sorted, hs.nodup, ?_, ?_⟩
      · intro data' r' hturn'
        cases hturn.symm.trans hturn'
        obtain ⟨hproper, hstands⟩ := hs.waits data r hturn
        rw [hp] at hstands
        rw [hp]
        generalize sentIndices pb s.written = sent at hstands
        cases hstands with
        | metadata => exact ⟨trivial, .metadata (List.Subset.refl _)⟩
        | past hpast => cases hpast
      · intro count hcount
        cases hturn.symm.trans hcount
    exact (invariant_along (fun _ _ _ h ho hs => h.step hrt ho hs) hs' hoa hafter).sentOnce
  refine ⟨honce, fun hpast => ⟨fun hsent => ?_, honce⟩⟩
  rcases along_or_breaks InOrder hwhole with ho | ⟨es, e, fs, u, v, -, hes, hu, hbreak, hv, hfs⟩
  · exact ho
  · have hsteady : Steady pb [] u :=
      invariant_along (fun _ _ _ h ho hs => h.step hrt ho hs) hstart hes hu
    have hspoilt : Spoilt pb t ∧ Sorted t.env :=
      invariant (P := fun s => Spoilt pb s ∧ Sorted s.env)
        (fun _ _ _ h hs => ⟨h.1.step hrt h.2 hs, h.2.step hs⟩)
        ⟨hsteady.spoilt hbreak hv, hsteady.sorted.step hv⟩ hfs
    exact absurd hsent (hspoilt.1.not_sentOnce hpast)

/-- The device tells of two channels. -/
def twoChannelsTold : List Event :=
  [.radio (wire.serializeFromRadio ⟨0, .channel ⟨1, none, 2⟩⟩), .processIncoming,
    .radio (wire.serializeFromRadio ⟨0, .channel ⟨2, none, 2⟩⟩), .processIncoming]

/-- A wait that ends as it should, `n` times. -/
def drains (n : Nat) : List Session.Event := List.replicate n (.drain none)

set_option maxRecDepth 20000 in
/-- Channel 0 arrives when channel 1 has been sent, and channel 1 is sent again. -/
theorem session_channels_shifted :
    ∃ env before after s t, Reached wire env ∧
      run (Session.step wire) (Session.start wire env 0x11 7) before = some s ∧
      s.phase = some .metadata ∧ run (Session.step wire) s (.drain none :: after) = some t ∧
      t.past = true ∧ sentIndices wire t.written = [1, 1, 2] ∧
      ¬ SentOnce wire s.env.indices t := by
  let after : List Session.Event := .updateChannel ⟨0, 1, "", [1], false, false⟩ :: drains 4
  have hrun : (run (step wire) (init {}) twoChannelsTold).map (fun w =>
      (run (Session.step wire) (Session.start wire (world w).env 0x11 7) (drains 2)).map fun s =>
        (s.phase, (run (Session.step wire) s (.drain none :: after)).map fun t =>
          (t.past, sentIndices wire t.written))) =
      some (some (some .metadata, some (true, [1, 1, 2]))) := by decide
  obtain ⟨w, hw, hrun⟩ := Option.map_eq_some_iff.mp hrun
  obtain ⟨s, hs, hrun⟩ := Option.map_eq_some_iff.mp hrun
  obtain ⟨hphase, hrun⟩ := Prod.mk.inj hrun
  obtain ⟨t, ht, hrun⟩ := Option.map_eq_some_iff.mp hrun
  obtain ⟨hpast, hsent⟩ := Prod.mk.inj hrun
  refine ⟨_, drains 2, after, s, t, ⟨{}, twoChannelsTold, w, hw, rfl⟩, hs, hphase, ht, hpast,
    hsent, ?_⟩
  intro honce
  have hnodup := honce.nodup
  rw [hsent] at hnodup
  exact absurd hnodup (by decide)

set_option maxRecDepth 20000 in
/-- Channel 3 arrives there, and all three are sent. -/
theorem session_channels_behind :
    ∃ env before after s t, Reached wire env ∧
      run (Session.step wire) (Session.start wire env 0x11 7) before = some s ∧
      run (Session.step wire) s (.drain none :: after) = some t ∧
      sentIndices wire t.written = [1, 2, 3] ∧ SentOnce wire s.env.indices t := by
  let after : List Session.Event := .updateChannel ⟨3, 2, "", [1], false, false⟩ :: drains 4
  have hrun : (run (step wire) (init {}) twoChannelsTold).map (fun w =>
      (run (Session.step wire) (Session.start wire (world w).env 0x11 7) (drains 2)).map fun s =>
        (s.phase, decide (Along (Session.step wire) InOrder
            (Session.start wire (world w).env 0x11 7) (drains 2 ++ .drain none :: after)),
          (run (Session.step wire) s (.drain none :: after)).map fun t =>
            sentIndices wire t.written)) =
      some (some (some .metadata, true, some [1, 2, 3])) := by decide
  obtain ⟨w, hw, hrun⟩ := Option.map_eq_some_iff.mp hrun
  obtain ⟨s, hs, hrun⟩ := Option.map_eq_some_iff.mp hrun
  obtain ⟨hphase, hrun⟩ := Prod.mk.inj hrun
  obtain ⟨hordered, hrun⟩ := Prod.mk.inj hrun
  obtain ⟨t, ht, hsent⟩ := Option.map_eq_some_iff.mp hrun
  have hr : Reached wire (world w).env := ⟨{}, twoChannelsTold, w, hw, rfl⟩
  exact ⟨_, drains 2, after, s, t, hr, hs, ht, hsent,
    (session_channels wire_fromRadioRoundTrip hr 0x11 7 hs hphase ht).1
      (of_decide_eq_true hordered)⟩

end Multiplextashtic.ConfigReplay
