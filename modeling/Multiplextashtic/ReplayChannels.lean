import Multiplextashtic.ReplayMessages
import Multiplextashtic.ReplaySizes

/-! # The channels of a replay

A channel goes from its message to the cache and from there to a client's
message. What the cache does not keep of it is lost on the way. -/
namespace Multiplextashtic.ConfigReplay
open Multiplextashtic.Protocol Multiplextashtic.Messages Multiplextashtic.Config
open Multiplextashtic.Cache Multiplextashtic.Capture Multiplextashtic.Server Protobuf Table

variable {E : Type} {pb : Protobuf E} {ws : List Bytes}

/-! ## Captured channels -/

/-- A message of this size can be sent under any id. -/
theorem sure_entry (hrt : pb.FromRadioRoundTrip) (hsz : pb.StandardSizes) {type : EntryType}
    {variant : FromRadioVariant E} {size : Nat} (hv : variant.size? = some size)
    (hle : size ≤ 506) : Sure pb (entry pb type variant) := by
  intro fr hfr nextId hpos hlt
  rw [entry, hrt] at hfr
  cases hfr
  refine (encodeAs_iff hsz hpos hv).mpr ⟨hlt, ?_⟩
  have hid := varintSize_le hlt
  have hmax : maxPacketSize = 512 := rfl
  omega

theorem captured_channel {capture : ConfigCapture} (hc : Captured pb capture) {e : Entry}
    (he : e ∈ capture.captured) (htype : e.type = .channel) :
    ∃ index < 8, e = entry pb .channel (.channel (defaultChannel index)) := by
  cases hc with
  | nothing => cases he
  | defaults nodeNum syntheticNodes firmwareVersion =>
    unfold captureDefaults at he
    split at he
    · cases he
    · simp only [List.mem_append, List.mem_cons, List.not_mem_nil, or_false, List.mem_map,
        List.mem_range] at he
      rcases he with
        (((((rfl | rfl | rfl) | ⟨index, hlt, rfl⟩) | ⟨c, _, rfl⟩) | ⟨c, _, rfl⟩) | ⟨i, _, rfl⟩)
      case inl.inl.inl.inr => exact ⟨index, hlt, rfl⟩
      all_goals cases htype

theorem defaultChannel_size : ∀ index < 8, lenSize (defaultChannel index).size ≤ 506 := by decide

theorem sure_channel (hrt : pb.FromRadioRoundTrip) (hsz : pb.StandardSizes)
    {capture : ConfigCapture} (hc : Captured pb capture) {e : Entry} (he : e ∈ capture.captured)
    (htype : e.type = .channel) : Sure pb e := by
  obtain ⟨index, hlt, rfl⟩ := captured_channel hc he htype
  exact sure_entry hrt hsz rfl (defaultChannel_size index hlt)

/-! ## Through the cache -/

/-- A channel that carries nothing but what the cache keeps of it. -/
def Kept (ch : Channel) : Prop :=
  ∃ settings, ch.settings = some settings ∧ settings.id = 0 ∧ settings.moduleSettings = none

theorem channelInfo_cachedChannel (ch : Channel) :
    channelInfo (cachedChannel ch) = ch ↔ Kept ch := by
  obtain ⟨index, settings, role⟩ := ch
  constructor
  · intro h
    have hsettings := congrArg Channel.settings h
    exact ⟨_, hsettings.symm, rfl, rfl⟩
  · rintro ⟨⟨psk, name, id, uplink, downlink, moduleSettings⟩, rfl, rfl, rfl⟩
    rfl

theorem channels_eq_nil {us : List CacheUpdate} :
    (cacheAfter pb us).channels = [] ↔ channelsTold pb us = [] := by
  constructor
  · intro h
    cases htold : channelsTold pb us using List.reverseRecOn with
    | nil => rfl
    | append_singleton told ch =>
      have hm : cachedChannel ch ∈ (cacheAfter pb us).channels := by
        refine (mem_channels pb us _).mpr ?_
        have hindex : (cachedChannel ch).index = ch.index := rfl
        rw [htold, hindex, lastOf_concat, if_pos rfl]
        rfl
      rw [h] at hm
      cases hm
  · intro h
    rw [channels_cacheAfter, h]
    rfl

/-- The channels that are sent are the last ones told of, in increasing order. -/
def SendsLast (told sent : List Channel) : Prop :=
  sent.Pairwise (fun a b => a.index < b.index) ∧
    ∀ ch, ch ∈ sent ↔ lastOf Channel.index told ch.index = some ch

theorem mem_map_channelInfo (us : List CacheUpdate) (ch : Channel) :
    ch ∈ (cacheAfter pb us).channels.map channelInfo ↔
      ∃ last, lastOf Channel.index (channelsTold pb us) ch.index = some last ∧
        channelInfo (cachedChannel last) = ch := by
  rw [List.mem_map]
  constructor
  · rintro ⟨c, hc, rfl⟩
    obtain ⟨last, hlast, rfl⟩ := Option.map_eq_some_iff.mp ((mem_channels pb us c).mp hc)
    exact ⟨last, hlast, rfl⟩
  · rintro ⟨last, hlast, rfl⟩
    refine ⟨cachedChannel last, (mem_channels pb us _).mpr ?_, rfl⟩
    exact congrArg (Option.map cachedChannel) hlast

/-- Without a captured channel in between, all that counts is what the cache keeps. -/
theorem sendsLast_iff (us : List CacheUpdate) :
    SendsLast (channelsTold pb us) ((cacheAfter pb us).channels.map channelInfo) ↔
      ∀ index ch, lastOf Channel.index (channelsTold pb us) index = some ch → Kept ch := by
  constructor
  · rintro ⟨-, hmem⟩ index ch hlast
    cases key_of_get hlast
    obtain ⟨last, hlast', heq⟩ := (mem_map_channelInfo us ch).mp ((hmem ch).mpr hlast)
    cases hlast.symm.trans hlast'
    exact (channelInfo_cachedChannel ch).mp heq
  · intro hkept
    refine ⟨List.pairwise_map.mpr (channels_sorted pb us), ?_⟩
    intro ch
    rw [mem_map_channelInfo]
    constructor
    · rintro ⟨last, hlast, heq⟩
      rw [(channelInfo_cachedChannel last).mpr (hkept _ last hlast)] at heq
      rw [hlast, heq]
    · intro hlast
      exact ⟨ch, hlast, (channelInfo_cachedChannel ch).mpr (hkept _ ch hlast)⟩

/-- With nothing told, nothing may be sent. -/
theorem sendsLast_nil {sent : List Channel} : SendsLast [] sent ↔ sent = [] := by
  constructor
  · rintro ⟨-, hmem⟩
    refine List.eq_nil_iff_forall_not_mem.mpr ?_
    intro ch hch
    cases (hmem ch).mp hch
  · rintro rfl
    exact ⟨.nil, fun ch => iff_of_false List.not_mem_nil nofun⟩

/-- Every captured entry of the type channel holds one. -/
theorem capturedChannels_eq_nil {entries : List Entry} (ht : ∀ e ∈ entries, Typed pb e)
    (htype : ∀ e ∈ entries, e.type = .channel) :
    capturedChannels pb entries = [] ↔ entries = [] := by
  constructor
  · intro h
    refine List.eq_nil_iff_forall_not_mem.mpr ?_
    intro e he
    obtain ⟨⟨id, variant⟩, hfr, hh⟩ := ht e he
    rw [htype e he] at hh
    cases hh
    have hnone := List.filterMap_eq_nil_iff.mp h e he
    rw [Item.pick, hfr] at hnone
    cases hnone
  · rintro rfl
    rfl

/-- **When a replay sends the channels as they were received**: some were, or none
are captured, and the last of each index carries no more than the cache keeps. -/
theorem replays_channels_iff (hrt : pb.FromRadioRoundTrip) (hsz : pb.StandardSizes)
    (config : AppConfig) (us : List CacheUpdate) {capture : ConfigCapture}
    (hc : Captured pb capture) (myNodeNum : NodeNum) {configId : UInt32}
    (hid : configId ≠ nonceOnlyDb)
    (h : Replays pb ⟨config, cacheAfter pb us, capture⟩ myNodeNum configId ws) :
    SendsLast (channelsTold pb us) (sentChannels pb ws) ↔
      (channelsTold pb us ≠ [] ∨ ∀ e ∈ capture.captured, e.type ≠ .channel) ∧
      ∀ index ch, lastOf Channel.index (channelsTold pb us) index = some ch → Kept ch := by
  generalize henv : (⟨config, cacheAfter pb us, capture⟩ : Env) = env at h
  have hcache : env.cache = cacheAfter pb us := by rw [← henv]
  have hcapture : env.capture = capture := by rw [← henv]
  rw [h.sentChannels hrt (hcapture ▸ hc) hid fun e he =>
    sure_channel hrt hsz (hcapture ▸ hc) (mem_fallback he).1 (mem_fallback he).2, hcache]
  by_cases htold : channelsTold pb us = []
  · have hkept :
        ∀ index ch, lastOf Channel.index (channelsTold pb us) index = some ch → Kept ch := by
      rw [htold]
      exact nofun
    have hentries : env.fallback 0 .channel = [] ↔ ∀ e ∈ capture.captured, e.type ≠ .channel := by
      rw [← hcapture]
      show env.entries .channel = [] ↔ _
      simp [Env.entries, List.filter_eq_nil_iff]
    rw [and_iff_left hkept, or_iff_right (not_not_intro htold), htold,
      channels_eq_nil.mpr htold, List.map_nil, List.nil_append, List.length_nil, sendsLast_nil,
      capturedChannels_eq_nil ?_ fun e he => (mem_fallback he).2, hentries]
    intro e he
    exact typed_captured hrt hc e (hcapture ▸ (mem_fallback he).1)
  · have hlen : (cacheAfter pb us).channels.length ≠ 0 := by
      rw [Ne, List.length_eq_zero_iff, channels_eq_nil]
      exact htold
    have hnone : env.fallback (cacheAfter pb us).channels.length .channel = [] := if_neg hlen
    rw [and_iff_right (.inl htold), hnone, ← sendsLast_iff]
    show SendsLast _ (_ ++ []) ↔ _
    rw [List.append_nil]

/-- A primary channel as a device reports it, of the given id and module settings. -/
def someChannel (id : UInt32) (moduleSettings : Option ModuleSettings) : Channel :=
  ⟨0, some ⟨[1], "LongFast", id, true, false, moduleSettings⟩, primaryRole⟩

def channelPayload (ch : Channel) : Bytes := wire.serializeFromRadio ⟨0, .channel ch⟩

set_option maxRecDepth 20000 in
/-- The id and the module settings of the only channel are gone. -/
theorem replays_channel_stripped :
    let ch := someChannel 0xCAFE (some ⟨13, false⟩)
    ∃ ws, Replays wire (envAfter (channelPayload ch)) 0x11 7 ws ∧
      channelsTold wire [.payload (channelPayload ch)] = [ch] ∧
      sentChannels wire ws = [someChannel 0 none] ∧ ¬ SendsLast [ch] (sentChannels wire ws) := by
  let ch := someChannel 0xCAFE (some ⟨13, false⟩)
  let writes := perform wire 1 (script wire (envAfter (channelPayload ch)) 0x11 7)
  have hok : writes.2 = none := by decide
  have hsent : sentChannels wire writes.1 = [someChannel 0 none] := by decide
  refine ⟨writes.1, replays_perform hok, by decide, hsent, ?_⟩
  rintro ⟨-, hmem⟩
  rw [hsent] at hmem
  have hne : ch ≠ someChannel 0 none := by decide
  exact hne (List.mem_singleton.mp ((hmem ch).mpr rfl))

/-- A secondary channel. -/
def secondary (index : Int32) (name : String) : Channel :=
  ⟨index, some ⟨[2], name, 0, false, true, none⟩, 2⟩

/-- Three channels out of order, the second of which is renamed. -/
def renamed : List Channel :=
  [secondary 2 "Family", secondary 1 "Admin", someChannel 0 none, secondary 1 "Office"]

set_option maxRecDepth 20000 in
theorem replays_channels_iff_plain :
    let us : List CacheUpdate := renamed.map fun ch => .payload (channelPayload ch)
    ∃ ws, Replays wire ⟨{}, cacheAfter wire us, captureDefaults wire 0x11 0 (some "2.6.4")⟩
        0x11 7 ws ∧
      sentChannels wire ws = [someChannel 0 none, secondary 1 "Office", secondary 2 "Family"] ∧
      SendsLast renamed (sentChannels wire ws) := by
  let us : List CacheUpdate := renamed.map fun ch => .payload (channelPayload ch)
  let env : Env := ⟨{}, cacheAfter wire us, captureDefaults wire 0x11 0 (some "2.6.4")⟩
  have htold : channelsTold wire us = renamed := by decide
  have hok : (perform wire 1 (script wire env 0x11 7)).2 = none := by decide
  have hsent : sentChannels wire (perform wire 1 (script wire env 0x11 7)).1 =
      [someChannel 0 none, secondary 1 "Office", secondary 2 "Family"] := by decide
  have hr := replays_perform hok
  have hiff := replays_channels_iff wire_fromRadioRoundTrip wire_standardSizes {} us
    (.defaults 0x11 0 (some "2.6.4")) 0x11 (by decide) hr
  rw [htold] at hiff
  refine ⟨_, hr, hsent, hiff.mpr ⟨.inl (List.cons_ne_nil _ _), ?_⟩⟩
  intro index ch hlast
  have hch : ch ∈ renamed := mem_of_lastOf hlast
  simp only [renamed, List.mem_cons, List.not_mem_nil, or_false] at hch
  rcases hch with rfl | rfl | rfl | rfl <;> exact ⟨_, rfl, rfl, rfl⟩

end Multiplextashtic.ConfigReplay
