import Multiplextashtic.CacheHistory
import Multiplextashtic.ReplayScript

/-! # What an undisturbed replay sends

The captured entries hold what their type says. So of each kind of message a
client is sent what the script has of it, where no captured entry of that kind
is passed over. -/
namespace Multiplextashtic.ConfigReplay
open Multiplextashtic.Protocol Multiplextashtic.Messages Multiplextashtic.Config
open Multiplextashtic.Cache Multiplextashtic.Capture Multiplextashtic.Server

variable {E : Type} {pb : Protobuf E} {env : Env} {ws : List Bytes}

/-! ## Captured entries -/

/-- A message of the kind the type names. -/
inductive Holds : EntryType → FromRadioVariant E → Prop
  | myInfo (info : MyNodeInfo) : Holds .myInfo (.myInfo info)
  | ownNodeInfo (info : NodeInfo) : Holds .ownNodeInfo (.nodeInfo info)
  | metadata (metadata : DeviceMetadata) : Holds .metadata (.metadata metadata)
  | channel (ch : Channel) : Holds .channel (.channel ch)
  | config (name : String) (config : Messages.Config) : Holds (.config name) (.config config)
  | moduleConfig (name : String) (config : ModuleConfig) :
      Holds (.moduleConfig name) (.moduleConfig config)
  | nodeInfo (info : NodeInfo) : Holds .nodeInfo (.nodeInfo info)

/-- The entry holds what its type says. -/
def Typed (pb : Protobuf E) (e : Entry) : Prop :=
  ∃ fr, pb.parseFromRadio e.data = some fr ∧ Holds e.type fr.variant

theorem typed_entry (hrt : pb.FromRadioRoundTrip) {type : EntryType} {variant : FromRadioVariant E}
    (h : Holds type variant) : Typed pb (entry pb type variant) := ⟨_, hrt _, h⟩

theorem typed_captured (hrt : pb.FromRadioRoundTrip) {capture : ConfigCapture}
    (hc : Captured pb capture) : ∀ e ∈ capture.captured, Typed pb e := by
  cases hc with
  | nothing => exact List.forall_mem_nil _
  | defaults nodeNum syntheticNodes firmwareVersion =>
    intro e he
    unfold captureDefaults at he
    split at he
    · cases he
    · simp only [List.mem_append, List.mem_cons, List.not_mem_nil, or_false, List.mem_map] at he
      rcases he with
        (((((rfl | rfl | rfl) | ⟨index, _, rfl⟩) | ⟨c, _, rfl⟩) | ⟨c, _, rfl⟩) | ⟨i, _, rfl⟩)
      all_goals exact typed_entry hrt (by constructor)

/-- The entries are what their types say, and of these types. -/
def OfType (pb : Protobuf E) (P : EntryType → Prop) (entries : List Entry) : Prop :=
  ∀ e ∈ entries, Typed pb e ∧ P e.type

/-- The entries a replay has left in a loop are of the loop's kind. -/
def Proper (pb : Protobuf E) : Phase → Prop
  | .capturedChannel rest => OfType pb (· = .channel) rest
  | .config rest => OfType pb (skipped · = false) rest
  | .syntheticNode rest => OfType pb (· = .nodeInfo) rest
  | _ => True

theorem OfType.tail {P : EntryType → Prop} {e : Entry} {rest : List Entry}
    (h : OfType pb P (e :: rest)) : OfType pb P rest := fun e he => h e (List.mem_cons_of_mem _ he)

theorem Proper.tail {phase : List Entry → Phase} (hl : Loop phase) {e : Entry} {rest : List Entry}
    (h : Proper pb (phase (e :: rest))) : Proper pb (phase rest) := by
  cases hl with
  | channel => exact OfType.tail (P := (· = .channel)) h
  | config => exact OfType.tail (P := (skipped · = false)) h
  | node => exact OfType.tail (P := (· = .nodeInfo)) h

/-- What the next entry of a loop holds: neither of the two messages of the own node. -/
theorem Proper.head {phase : List Entry → Phase} (hl : Loop phase) {e : Entry} {rest : List Entry}
    (h : Proper pb (phase (e :: rest))) {fr : FromRadio E}
    (hfr : pb.parseFromRadio e.data = some fr) :
    Holds e.type fr.variant ∧ e.type ≠ .myInfo ∧ e.type ≠ .ownNodeInfo ∧
      (e.type = .nodeInfo → phase = .syntheticNode) := by
  have hof {P : EntryType → Prop} (ht : OfType pb P (e :: rest)) :
      Holds e.type fr.variant ∧ P e.type := by
    obtain ⟨⟨fr', hfr', hholds⟩, hP⟩ := ht e List.mem_cons_self
    rw [hfr] at hfr'
    cases hfr'
    exact ⟨hholds, hP⟩
  cases hl with
  | channel =>
    obtain ⟨hholds, htype⟩ := hof (P := (· = .channel)) h
    exact ⟨hholds, by simp [htype]⟩
  | config =>
    obtain ⟨hholds, hskip⟩ := hof (P := (skipped · = false)) h
    refine ⟨hholds, ?_, ?_, ?_⟩ <;> intro htype <;> rw [htype] at hskip <;> cases hskip
  | node =>
    obtain ⟨hholds, htype⟩ := hof (P := (· = .nodeInfo)) h
    exact ⟨hholds, by simp [htype]⟩

section
variable {r r' : Replay} (ht : ∀ e ∈ env.capture.captured, Typed pb e)
include ht

theorem ofType_fallback (sent : Nat) (type : EntryType) :
    OfType pb (· = type) (env.fallback sent type) :=
  fun e he => ⟨ht e (mem_fallback he).1, (mem_fallback he).2⟩

theorem ofType_configEntries : OfType pb (skipped · = false) env.configEntries :=
  fun e he => ⟨ht e (mem_configEntries he).1, (mem_configEntries he).2⟩

theorem Skips.proper (hs : Skips pb env r r') (h : Proper pb r.phase) : Proper pb r'.phase := by
  cases hs with
  | nodesOnly | channels | nodes => trivial
  | noChannel => exact ofType_fallback ht _ _
  | configs => exact ofType_configEntries ht
  | configOnly => exact List.forall_mem_nil _
  | noNode => exact ofType_fallback ht _ _
  | unparsed hl hp | tooLarge hl hp =>
    rw [hp] at h
    exact h.tail hl

/-- The metadata message is one. -/
theorem metadataMessage_typed : ∃ md, metadataMessage pb env = some (.metadata md) := by
  unfold metadataMessage
  split
  · next e he =>
    obtain ⟨⟨id, variant⟩, hfr, hh⟩ := ht e (List.mem_of_find?_eq_some he)
    have htype : e.type = .metadata := by simpa using List.find?_some he
    rw [htype] at hh
    cases hh
    rw [hfr]
    exact ⟨_, rfl⟩
  · exact ⟨_, rfl⟩

end

theorem Emits.proper {r : Replay} {variant : FromRadioVariant E} {phase : Phase}
    (hem : Emits pb env r variant phase) (h : Proper pb r.phase) : Proper pb phase := by
  cases hem with
  | own hs => cases hs <;> trivial
  | captured hl hp =>
    rw [hp] at h
    exact h.tail hl

/-- A ConfigComplete is the replay's own, behind everything else. -/
theorem Emits.configCompleteId (ht : ∀ e ∈ env.capture.captured, Typed pb e) {r : Replay}
    {nonce : UInt32} {phase : Phase} (hem : Emits pb env r (.configCompleteId nonce) phase)
    (h : Proper pb r.phase) : r.phase = .syntheticNode [] ∧ r.configId = nonce := by
  generalize hv : (FromRadioVariant.configCompleteId nonce : FromRadioVariant E) = variant at hem
  cases hem with
  | own hs =>
    cases hs with
    | metadata hp hid hm =>
      obtain ⟨md, hmd⟩ := metadataMessage_typed ht
      rw [hmd] at hm
      cases hm
      cases hv
    | configComplete hp =>
      cases hv
      exact ⟨hp, rfl⟩
    | _ => cases hv
  | @captured phase entry rest fr hl hp hfr =>
    rw [hp] at h
    have hholds := (h.head hl hfr).1
    rw [← hv] at hholds
    generalize entry.type = type at hholds
    cases hholds

/-! ## Picking from a script -/

/-- The message an item stands for, when it is of a kind. -/
def Item.pick {B : Type} (pb : Protobuf E) (p : FromRadioVariant E → Option B) : Item E → Option B
  | .message variant => p variant
  | .undecodable => none
  | .captured entry => (pb.parseFromRadio entry.data).bind fun fr => p fr.variant

/-- The entry can be sent under any id. -/
def Sure (pb : Protobuf E) (e : Entry) : Prop :=
  ∀ fr, pb.parseFromRadio e.data = some fr → ∀ nextId, 0 < nextId → nextId < 2 ^ 32 →
    ∃ data, encodeAs pb nextId fr.variant = .ok data

/-- Each captured entry can be sent, or is not of the kind. -/
def Picked {B : Type} (pb : Protobuf E) (p : FromRadioVariant E → Option B)
    (script : List (Item E)) : Prop :=
  ∀ e, .captured e ∈ script → Sure pb e ∨ Item.pick pb p (.captured e) = none

theorem received_concat {data : Bytes} {fr : FromRadio E} (hfr : pb.parseFromRadio data = some fr)
    (ws : List Bytes) : received pb (ws ++ [data]) = received pb ws ++ [fr.variant] := by
  simp [received, hfr]

theorem perform_picks (hrt : pb.FromRadioRoundTrip) {B : Type} (p : FromRadioVariant E → Option B) :
    ∀ (script : List (Item E)) (nextId : Nat), 0 < nextId → nextId + script.length ≤ 2 ^ 32 →
      Picked pb p script → (perform pb nextId script).2 = none →
      (received pb (perform pb nextId script).1).filterMap p = script.filterMap (Item.pick pb p)
  | [], _, _, _, _, _ => rfl
  | .undecodable :: _, _, _, _, _, h => nomatch h
  | .message variant :: rest, nextId, hpos, hlen, hp, h => by
    rw [List.length_cons] at hlen
    have ih := perform_picks hrt p rest (nextId + 1) (Nat.succ_pos _) (by omega)
      fun e he => hp e (List.mem_cons_of_mem _ he)
    rw [perform] at h ⊢
    cases he : encodeAs pb nextId variant with
    | error e =>
      simp only [he] at h
      cases h
    | ok data =>
      simp only [he, Prod.map_snd, id_eq] at h
      simp only [Prod.map_fst]
      rw [received_cons hrt he, List.filterMap_cons, List.filterMap_cons, ih h]
      rfl
  | .captured entry :: rest, nextId, hpos, hlen, hp, h => by
    rw [List.length_cons] at hlen
    have hrest : Picked pb p rest := fun e he => hp e (List.mem_cons_of_mem _ he)
    have hentry := hp entry List.mem_cons_self
    have ih := perform_picks hrt p rest (nextId + 1) (Nat.succ_pos _) (by omega) hrest
    rw [perform] at h ⊢
    cases hfr : pb.parseFromRadio entry.data with
    | none =>
      simp only [hfr] at h ⊢
      rw [List.filterMap_cons_none (by simp [Item.pick, hfr])]
      exact perform_picks hrt p rest nextId hpos (by omega) hrest h
    | some fr =>
      simp only [hfr] at h ⊢
      cases he : encodeAs pb nextId fr.variant with
      | error e =>
        simp only [he] at h
        have hnone : Item.pick pb p (.captured entry) = none := by
          refine hentry.resolve_left ?_
          intro hsure
          obtain ⟨data, hok⟩ := hsure fr hfr nextId hpos (by omega)
          rw [he] at hok
          cases hok
        rw [List.filterMap_cons_none hnone]
        exact ih h
      | ok data =>
        simp only [he, Prod.map_snd, id_eq] at h
        simp only [Prod.map_fst]
        rw [received_cons hrt he, List.filterMap_cons, List.filterMap_cons, ih h]
        simp [Item.pick, hfr]

/-- The ids of a script up to its last message fit in 32 bits. -/
theorem perform_bound (variant : FromRadioVariant E) : ∀ (script : List (Item E)) (nextId : Nat),
    (∀ e, .captured e ∈ script → ∃ fr, pb.parseFromRadio e.data = some fr) →
    (perform pb nextId (script ++ [.message variant])).2 = none →
    nextId + script.length < 2 ^ 32
  | [], nextId, _, h => by
    rw [List.nil_append, perform] at h
    cases he : encodeAs pb nextId variant with
    | error e =>
      simp only [he] at h
      cases h
    | ok data => exact (encode_eq_ok_iff.mp he).1
  | .undecodable :: _, _, _, h => nomatch h
  | .message v :: rest, nextId, hp, h => by
    rw [List.cons_append, perform] at h
    cases he : encodeAs pb nextId v with
    | error e =>
      simp only [he] at h
      cases h
    | ok data =>
      simp only [he, Prod.map_snd, id_eq] at h
      have := perform_bound variant rest (nextId + 1)
        (fun e he => hp e (List.mem_cons_of_mem _ he)) h
      rw [List.length_cons]
      omega
  | .captured entry :: rest, nextId, hp, h => by
    obtain ⟨fr, hfr⟩ := hp entry List.mem_cons_self
    have hbound := perform_bound variant rest (nextId + 1)
      fun e he => hp e (List.mem_cons_of_mem _ he)
    rw [List.cons_append, perform, hfr] at h
    rw [List.length_cons]
    simp only at h
    split at h
    · have := hbound h
      omega
    · simp only [Prod.map_snd, id_eq] at h
      have := hbound h
      omega

/-- The ids of a replay that comes to its end fit in 32 bits. -/
theorem Replays.bound (hrt : pb.FromRadioRoundTrip) (hc : Captured pb env.capture)
    {myNodeNum : NodeNum} {configId : UInt32} (h : Replays pb env myNodeNum configId ws) :
    1 + (script pb env myNodeNum configId).length ≤ 2 ^ 32 := by
  have hok : (perform pb 1 (script pb env myNodeNum configId)).2 = none := by
    rw [replays_iff.mp h]
  have hparses (e : Entry) (he : .captured e ∈ script pb env myNodeNum configId) :
      ∃ fr, pb.parseFromRadio e.data = some fr := by
    obtain ⟨fr, hfr, -⟩ := typed_captured hrt hc e (mem_script_captured he)
    exact ⟨fr, hfr⟩
  obtain ⟨before, hbefore⟩ := script_suffix pb env myNodeNum configId
  rw [← hbefore] at hok hparses ⊢
  have hbound := perform_bound _ before 1
    (fun e he => hparses e (List.mem_append_left _ he)) hok
  rw [List.length_append, List.length_singleton]
  omega

/-- **Of each kind an undisturbed replay sends what its script has of it.** -/
theorem Replays.picks (hrt : pb.FromRadioRoundTrip) (hc : Captured pb env.capture) {B : Type}
    {p : FromRadioVariant E → Option B} {myNodeNum : NodeNum} {configId : UInt32}
    (h : Replays pb env myNodeNum configId ws)
    (hp : ∀ e ∈ env.scripted, Sure pb e ∨ Item.pick pb p (.captured e) = none) :
    (received pb ws).filterMap p =
      (script pb env myNodeNum configId).filterMap (Item.pick pb p) := by
  have hperform := replays_iff.mp h
  have hpicks := perform_picks hrt p _ 1 Nat.one_pos (h.bound hrt hc)
    (fun e he => hp e (mem_script he)) (by rw [hperform])
  rwa [hperform] at hpicks

/-! ## Nodes and channels -/

def nodeInfoIn : FromRadioVariant E → Option NodeInfo
  | .nodeInfo info => some info
  | _ => none

/-- The NodeInfos a client has been sent. -/
def sentNodes (pb : Protobuf E) (ws : List Bytes) : List NodeInfo :=
  (received pb ws).filterMap nodeInfoIn

/-- The channels a client has been sent. -/
def sentChannels (pb : Protobuf E) (ws : List Bytes) : List Channel :=
  (received pb ws).filterMap channelIn

/-- The NodeInfos of captured entries. -/
def capturedNodes (pb : Protobuf E) (entries : List Entry) : List NodeInfo :=
  entries.filterMap fun e => Item.pick pb nodeInfoIn (.captured e)

/-- The channels of captured entries. -/
def capturedChannels (pb : Protobuf E) (entries : List Entry) : List Channel :=
  entries.filterMap fun e => Item.pick pb channelIn (.captured e)

/-- The NodeInfos a replay sends after its own. -/
def otherNodes (pb : Protobuf E) (env : Env) : List NodeInfo :=
  (sortedNodes env.cache).map (fun n => knownNodeInfo n.1 n.2) ++
    capturedNodes pb (env.fallback (sortedNodes env.cache).length .nodeInfo)

theorem ownNodeInfo_num (env : Env) (r : Replay) : (ownNodeInfo env r).num = r.nodeNum := by
  unfold ownNodeInfo
  simp only
  split <;> rfl

theorem Holds.nodeInfoIn {type : EntryType} {variant : FromRadioVariant E} (h : Holds type variant)
    (hnode : type ≠ .nodeInfo) (hown : type ≠ .ownNodeInfo) : nodeInfoIn variant = none := by
  cases h with
  | nodeInfo => exact absurd rfl hnode
  | ownNodeInfo => exact absurd rfl hown
  | _ => rfl

theorem Holds.channelIn {type : EntryType} {variant : FromRadioVariant E} (h : Holds type variant)
    (hchannel : type ≠ .channel) : channelIn variant = none := by
  cases h with
  | channel => exact absurd rfl hchannel
  | _ => rfl

/-- An entry whose message is not of the kind. -/
theorem Typed.pick_none {e : Entry} (ht : Typed pb e) {B : Type} {p : FromRadioVariant E → Option B}
    (hp : ∀ variant, Holds e.type variant → p variant = none) :
    Item.pick pb p (.captured e) = none := by
  obtain ⟨fr, hfr, hh⟩ := ht
  rw [Item.pick, hfr]
  exact hp _ hh

section
variable {B : Type} {p : FromRadioVariant E → Option B}

theorem pick_messages {A : Type} {f : A → FromRadioVariant E} (l : List A) (rest : List (Item E)) :
    (l.map (fun a => Item.message (f a)) ++ rest).filterMap (Item.pick pb p) =
      l.filterMap (fun a => p (f a)) ++ rest.filterMap (Item.pick pb p) := by
  rw [List.filterMap_append, List.filterMap_map]
  rfl

theorem pick_captured (entries : List Entry) (rest : List (Item E)) :
    (entries.map Item.captured ++ rest).filterMap (Item.pick pb p) =
      (entries.filterMap fun e => Item.pick pb p (.captured e)) ++
        rest.filterMap (Item.pick pb p) := by
  rw [List.filterMap_append, List.filterMap_map]
  rfl

theorem pick_silent {entries : List Entry}
    (hp : ∀ e ∈ entries, Item.pick pb p (.captured e) = none) (rest : List (Item E)) :
    (entries.map Item.captured ++ rest).filterMap (Item.pick pb p) =
      rest.filterMap (Item.pick pb p) := by
  rw [pick_captured, List.filterMap_eq_nil_iff.mpr hp, List.nil_append]

end

/-- No entry of the loops over channels and configs holds a NodeInfo. -/
theorem pick_nodeInfo_silent (ht : ∀ e ∈ env.capture.captured, Typed pb e) :
    (∀ e ∈ env.fallback env.cache.channels.length .channel,
      Item.pick pb nodeInfoIn (.captured e) = none) ∧
    ∀ e ∈ env.configEntries, Item.pick pb nodeInfoIn (.captured e) = none := by
  constructor
  · intro e he
    obtain ⟨hm, htype⟩ := mem_fallback he
    exact (ht e hm).pick_none fun v hv =>
      hv.nodeInfoIn (by rw [htype]; nofun) (by rw [htype]; nofun)
  · intro e he
    obtain ⟨hm, hskip⟩ := mem_configEntries he
    refine (ht e hm).pick_none fun v hv => hv.nodeInfoIn ?_ ?_
    · intro htype
      rw [htype] at hskip
      cases hskip
    · intro htype
      rw [htype] at hskip
      cases hskip

/-- Only an entry of the type channel holds a channel. -/
theorem pick_channel_silent (ht : ∀ e ∈ env.capture.captured, Typed pb e) :
    (∀ e ∈ env.configEntries, Item.pick pb channelIn (.captured e) = none) ∧
    ∀ e ∈ env.fallback (sortedNodes env.cache).length .nodeInfo,
      Item.pick pb channelIn (.captured e) = none := by
  constructor
  · intro e he
    obtain ⟨hm, hskip⟩ := mem_configEntries he
    refine (ht e hm).pick_none fun v hv => hv.channelIn ?_
    intro htype
    rw [htype] at hskip
    cases hskip
  · intro e he
    obtain ⟨hm, htype⟩ := mem_fallback he
    exact (ht e hm).pick_none fun v hv => hv.channelIn (by rw [htype]; nofun)

theorem pick_nodeItems (pb : Protobuf E) (env : Env) (r : Replay) :
    (nodeItems env r (sortedNodes env.cache) 0).filterMap (Item.pick pb nodeInfoIn) =
      otherNodes pb env := by
  rw [nodeItems, pick_messages, syntheticItems, pick_captured, Nat.zero_add]
  show List.filterMap (some ∘ _) _ ++ (_ ++ []) = _
  rw [List.filterMap_eq_map, List.append_nil]
  rfl

theorem metadataItem_typed (ht : ∀ e ∈ env.capture.captured, Typed pb e) :
    ∃ md, (metadataItem pb env : Item E) = .message (.metadata md) := by
  obtain ⟨md, hmd⟩ := metadataMessage_typed ht
  exact ⟨md, by rw [metadataItem, hmd]; rfl⟩

/-- **The NodeInfos of an undisturbed replay**: its own, then the others. -/
theorem Replays.sentNodes (hrt : pb.FromRadioRoundTrip) (hc : Captured pb env.capture)
    {myNodeNum : NodeNum} {configId : UInt32} (h : Replays pb env myNodeNum configId ws)
    (hid : configId ≠ nonceOnlyConfig)
    (hsure : ∀ e ∈ env.fallback (sortedNodes env.cache).length .nodeInfo, Sure pb e) :
    sentNodes pb ws = ownNodeInfo env (Replay.new myNodeNum configId) :: otherNodes pb env := by
  have htyped := typed_captured hrt hc
  obtain ⟨hchannels, hconfigs⟩ := pick_nodeInfo_silent htyped
  have hscripted : ∀ e ∈ env.scripted,
      Sure pb e ∨ Item.pick pb nodeInfoIn (.captured e) = none := by
    intro e he
    rcases List.mem_append.mp he with he | he
    · rcases List.mem_append.mp he with he | he
      · exact .inr (hchannels e he)
      · exact .inr (hconfigs e he)
    · exact .inl (hsure e he)
  rw [ConfigReplay.sentNodes, h.picks hrt hc hscripted]
  by_cases hdb : configId = nonceOnlyDb
  · subst hdb
    rw [script_db]
    exact congrArg (_ :: ·) (pick_nodeItems pb env _)
  · obtain ⟨md, hmd⟩ := metadataItem_typed htyped
    have hnone : (env.cache.channels.drop 0).filterMap
        (fun ch => nodeInfoIn (.channel (channelInfo ch) : FromRadioVariant E)) = [] :=
      List.filterMap_eq_nil_iff.mpr fun _ _ => rfl
    rw [script_full myNodeNum hdb, hmd]
    show ownNodeInfo env _ :: (channelItems env _ 0 0).filterMap (Item.pick pb nodeInfoIn) = _
    rw [channelItems, pick_messages, hnone, List.nil_append, capturedChannelItems, List.drop_zero,
      Nat.zero_add, pick_silent hchannels, configItems, pick_silent hconfigs, afterConfigItems,
      if_neg (show (Replay.new myNodeNum configId).configId ≠ _ from hid), pick_nodeItems]

/-- **The channels of an undisturbed replay.** -/
theorem Replays.sentChannels (hrt : pb.FromRadioRoundTrip) (hc : Captured pb env.capture)
    {myNodeNum : NodeNum} {configId : UInt32} (h : Replays pb env myNodeNum configId ws)
    (hid : configId ≠ nonceOnlyDb)
    (hsure : ∀ e ∈ env.fallback env.cache.channels.length .channel, Sure pb e) :
    sentChannels pb ws = env.cache.channels.map channelInfo ++
      capturedChannels pb (env.fallback env.cache.channels.length .channel) := by
  have htyped := typed_captured hrt hc
  obtain ⟨hconfigs, hnodes⟩ := pick_channel_silent htyped
  have hscripted : ∀ e ∈ env.scripted,
      Sure pb e ∨ Item.pick pb channelIn (.captured e) = none := by
    intro e he
    rcases List.mem_append.mp he with he | he
    · rcases List.mem_append.mp he with he | he
      · exact .inl (hsure e he)
      · exact .inr (hconfigs e he)
    · exact .inr (hnodes e he)
  have hafter (r : Replay) :
      (afterConfigItems env r).filterMap (Item.pick pb channelIn) = [] := by
    have hsynthetic {entries : List Entry}
        (he : ∀ e ∈ entries, Item.pick pb channelIn (.captured e) = none) :
        (syntheticItems r entries).filterMap (Item.pick pb channelIn) = [] := by
      rw [syntheticItems, pick_silent he]
      rfl
    unfold afterConfigItems
    split
    · exact hsynthetic (List.forall_mem_nil _)
    · have hnone : (sortedNodes env.cache).filterMap (fun n => channelIn
          (.nodeInfo (knownNodeInfo n.1 n.2) : FromRadioVariant E)) = [] :=
        List.filterMap_eq_nil_iff.mpr fun _ _ => rfl
      rw [nodeItems, pick_messages, hnone, List.nil_append, Nat.zero_add, hsynthetic hnodes]
  obtain ⟨md, hmd⟩ := metadataItem_typed htyped
  rw [ConfigReplay.sentChannels, h.picks hrt hc hscripted, script_full myNodeNum hid, hmd]
  show (channelItems env _ 0 0).filterMap (Item.pick pb channelIn) = _
  rw [channelItems, pick_messages, capturedChannelItems, List.drop_zero, Nat.zero_add,
    pick_captured, configItems, pick_silent hconfigs, hafter, List.append_nil]
  show List.filterMap (some ∘ channelInfo) _ ++ _ = _
  rw [List.filterMap_eq_map]
  rfl

end Multiplextashtic.ConfigReplay
