import Multiplextashtic.NodeNumbers

/-! # The sequence of a replay

Which messages an undisturbed replay sends, in which order and under which ids,
when nothing of what was captured is too large for a frame. -/
namespace Multiplextashtic.ConfigReplay
open Multiplextashtic.Protocol Multiplextashtic.Messages Multiplextashtic.Config
open Multiplextashtic.Cache Multiplextashtic.Capture Multiplextashtic.Server Protobuf Table

variable {E : Type} {pb : Protobuf E} {env : Env} {ws : List Bytes} {r : Replay} {data : Bytes}

/-! ## What a capture holds -/

/-- The default sections fit in frames, whatever their ids. -/
structure SectionsFit (pb : Protobuf E) : Prop where
  configs : ∀ c ∈ defaultConfigs, ∀ id,
    (pb.serializeFromRadio ⟨id, .config c.2⟩).length ≤ maxPacketSize
  moduleConfigs : ∀ c ∈ defaultModuleConfigs, ∀ id,
    (pb.serializeFromRadio ⟨id, .moduleConfig c.2⟩).length ≤ maxPacketSize

/-- What a capture has of a kind, unless nothing was captured. -/
def Env.ofCapture (env : Env) {A : Type} (l : List A) : List A :=
  if env.capture.captured = [] then [] else l

theorem Env.ofCapture_map (env : Env) {A B : Type} (f : A → B) (l : List A) :
    (env.ofCapture l).map f = env.ofCapture (l.map f) := by
  unfold ofCapture
  split <;> rfl

theorem Env.ofCapture_filterMap (env : Env) {A B : Type} (f : A → Option B) (l : List A) :
    (env.ofCapture l).filterMap f = env.ofCapture (l.filterMap f) := by
  unfold ofCapture
  split <;> rfl

def channelEntries (pb : Protobuf E) : List Entry :=
  (List.range 8).map fun index => entry pb .channel (.channel (defaultChannel index))

def sectionEntries (pb : Protobuf E) : List Entry :=
  defaultConfigs.map (fun c => entry pb (.config c.1) (.config c.2)) ++
    defaultModuleConfigs.map fun c => entry pb (.moduleConfig c.1) (.moduleConfig c.2)

def nodeEntries (pb : Protobuf E) (syntheticNodes : Nat) : List Entry :=
  (List.range (min syntheticNodes syntheticLimit)).map
    fun i => entry pb .nodeInfo (.nodeInfo (syntheticNode i))

theorem captureDefaults_filter (pb : Protobuf E) (nodeNum : NodeNum) (syntheticNodes : Nat)
    (firmwareVersion : Option String) (hlt : syntheticNodes < 2 ^ 32) :
    (captureDefaults pb nodeNum syntheticNodes firmwareVersion).captured ≠ [] ∧
    ((captureDefaults pb nodeNum syntheticNodes firmwareVersion).captured.filter
      fun e => e.type = .channel) = channelEntries pb ∧
    ((captureDefaults pb nodeNum syntheticNodes firmwareVersion).captured.filter
      fun e => !skipped e.type) = sectionEntries pb ∧
    ((captureDefaults pb nodeNum syntheticNodes firmwareVersion).captured.filter
      fun e => e.type = .nodeInfo) = nodeEntries pb syntheticNodes := by
  rw [captureDefaults, if_neg (Nat.not_le.mpr hlt)]
  refine ⟨List.cons_ne_nil _ _, ?_, ?_, ?_⟩
  · simp [List.filter_append, List.filter_map, Function.comp_def, entry, defaultConfigs,
      defaultModuleConfigs, channelEntries]
  · simp [List.filter_append, List.filter_map, Function.comp_def, entry, defaultConfigs,
      defaultModuleConfigs, sectionEntries, skipped]
  · simp [List.filter_append, List.filter_map, Function.comp_def, entry, defaultConfigs,
      defaultModuleConfigs, nodeEntries]

/-- The entries of each kind that a replay goes through. -/
theorem entries_of_defaults {nodeNum : NodeNum} {syntheticNodes : Nat}
    {firmwareVersion : Option String}
    (hc : env.capture = captureDefaults pb nodeNum syntheticNodes firmwareVersion) :
    env.entries .channel = env.ofCapture (channelEntries pb) ∧
    env.configEntries = env.ofCapture (sectionEntries pb) ∧
    env.entries .nodeInfo = env.ofCapture (nodeEntries pb syntheticNodes) := by
  unfold Env.entries Env.configEntries Env.ofCapture
  rw [hc]
  by_cases hlt : syntheticNodes < 2 ^ 32
  · obtain ⟨hne, hchannel, hsection, hnode⟩ :=
      captureDefaults_filter pb nodeNum syntheticNodes firmwareVersion hlt
    rw [if_neg hne, if_neg hne, if_neg hne]
    exact ⟨hchannel, hsection, hnode⟩
  · rw [captureDefaults, if_pos (Nat.not_lt.mp hlt)]
    exact ⟨rfl, rfl, rfl⟩

/-- The sections of any capture. -/
theorem configEntries_of_captured (hc : Captured pb env.capture) :
    env.configEntries = env.ofCapture (sectionEntries pb) := by
  generalize hcap : env.capture = capture at hc
  cases hc with
  | nothing =>
    unfold Env.configEntries Env.ofCapture
    rw [hcap]
    rfl
  | defaults nodeNum syntheticNodes firmwareVersion => exact (entries_of_defaults hcap).2.1

theorem sure_section (hrt : pb.FromRadioRoundTrip) (hfit : SectionsFit pb) :
    ∀ e ∈ sectionEntries pb, Sure pb e := by
  intro e he fr hfr nextId _ hlt
  rcases List.mem_append.mp he with he | he
  · obtain ⟨c, hm, rfl⟩ := List.mem_map.mp he
    rw [entry, hrt] at hfr
    cases hfr
    exact ⟨_, encode_eq_ok_iff.mpr ⟨hlt, rfl, hfit.configs c hm _⟩⟩
  · obtain ⟨c, hm, rfl⟩ := List.mem_map.mp he
    rw [entry, hrt] at hfr
    cases hfr
    exact ⟨_, encode_eq_ok_iff.mpr ⟨hlt, rfl, hfit.moduleConfigs c hm _⟩⟩

/-- Nothing in a script is too large for a frame. -/
theorem sure_scripted (hrt : pb.FromRadioRoundTrip) (hsz : pb.StandardSizes)
    (hfit : SectionsFit pb) (hc : Captured pb env.capture) : ∀ e ∈ env.scripted, Sure pb e := by
  intro e he
  rcases List.mem_append.mp he with he | he
  · rcases List.mem_append.mp he with he | he
    · exact sure_channel hrt hsz hc (mem_fallback he).1 (mem_fallback he).2
    · rw [configEntries_of_captured hc, Env.ofCapture] at he
      split at he
      · cases he
      · exact sure_section hrt hfit e he
  · exact sure_node hrt hsz hc (mem_fallback he).1 (mem_fallback he).2

/-! ## Numbered messages -/

/-- Messages under consecutive ids. -/
def numbered (pb : Protobuf E) (nextId : Nat) (vs : List (FromRadioVariant E)) : List Bytes :=
  ((List.range' nextId vs.length).zip vs).map
    fun x => pb.serializeFromRadio ⟨UInt32.ofNat x.1, x.2⟩

/-- A script that passes over nothing is written as it stands. -/
theorem perform_numbered : ∀ (script : List (Item E)) (nextId : Nat), 0 < nextId →
    nextId + script.length ≤ 2 ^ 32 → Parses pb script →
    (∀ e, .captured e ∈ script → Sure pb e) → (perform pb nextId script).2 = none →
    (perform pb nextId script).1 = numbered pb nextId (script.filterMap (Item.pick pb some))
  | [], _, _, _, _, _, _ => rfl
  | .undecodable :: _, _, _, _, _, _, h => nomatch h
  | .message variant :: rest, nextId, hpos, hlen, hp, hs, h => by
    rw [List.length_cons] at hlen
    have ih := perform_numbered rest (nextId + 1) (Nat.succ_pos _) (by omega) hp.tail
      fun e he => hs e (List.mem_cons_of_mem _ he)
    rw [perform] at h ⊢
    cases he : encodeAs pb nextId variant with
    | error e =>
      simp only [he] at h
      cases h
    | ok data =>
      obtain ⟨-, rfl, -⟩ := encode_eq_ok_iff.mp he
      simp only [he, Prod.map_snd, id_eq] at h
      simp only [Prod.map_fst]
      rw [ih h]
      rfl
  | .captured entry :: rest, nextId, hpos, hlen, hp, hs, h => by
    rw [List.length_cons] at hlen
    obtain ⟨fr, hfr⟩ := hp entry List.mem_cons_self
    obtain ⟨data, he⟩ := hs entry List.mem_cons_self fr hfr nextId hpos (by omega)
    have ih := perform_numbered rest (nextId + 1) (Nat.succ_pos _) (by omega) hp.tail
      fun e he => hs e (List.mem_cons_of_mem _ he)
    rw [perform, hfr] at h ⊢
    obtain ⟨-, rfl, -⟩ := encode_eq_ok_iff.mp he
    simp only [he, Prod.map_snd, id_eq] at h
    simp only [he, Prod.map_fst]
    rw [ih h, List.filterMap_cons_some (b := fr.variant) (by rw [Item.pick, hfr]; rfl)]
    rfl

/-! ## The sequence -/

section
variable (E : Type) (env : Env)

/-- The channels of a replay: the known ones, or the captured ones. -/
def replayedChannels : List Channel :=
  if env.cache.channels = [] then env.ofCapture ((List.range 8).map defaultChannel)
  else env.cache.channels.map channelInfo

/-- The nodes of a replay after its own: the known ones, or the made-up ones. -/
def replayedNodes (syntheticNodes : Nat) : List NodeInfo :=
  if sortedNodes env.cache = [] then
    env.ofCapture ((List.range (min syntheticNodes syntheticLimit)).map syntheticNode)
  else (sortedNodes env.cache).map fun n => knownNodeInfo n.1 n.2

/-- The configs and module configs of a replay. -/
def replayedSections : List (FromRadioVariant E) :=
  env.ofCapture (defaultConfigs.map fun c => .config c.2) ++
    env.ofCapture (defaultModuleConfigs.map fun c => .moduleConfig c.2)

/-- The messages of a replay, in their order. -/
def sequence (syntheticNodes : Nat) (firmwareVersion : Option String) (myNodeNum : NodeNum)
    (configId : UInt32) : List (FromRadioVariant E) :=
  let r := Replay.new myNodeNum configId
  if configId = nonceOnlyDb then
    .nodeInfo (ownNodeInfo env r) ::
      ((replayedNodes env syntheticNodes).map .nodeInfo ++ [.configCompleteId configId])
  else
    [.myInfo (myNodeInfo env r), .nodeInfo (ownNodeInfo env r),
        .metadata (defaultMetadata (shownVersion syntheticNodes firmwareVersion))] ++
      (replayedChannels env).map .channel ++ replayedSections E env ++
      (if configId = nonceOnlyConfig then []
        else (replayedNodes env syntheticNodes).map .nodeInfo) ++ [.configCompleteId configId]

end

variable {nodeNum : NodeNum} {syntheticNodes : Nat} {firmwareVersion : Option String}

/-- Captured items stand for the messages they were made of. -/
theorem pick_entries (hrt : pb.FromRadioRoundTrip) {A B : Type} (p : FromRadioVariant E → Option B)
    (type : A → EntryType) (f : A → FromRadioVariant E) (l : List A) :
    ((l.map fun a => entry pb (type a) (f a)).filterMap
      fun e => Item.pick pb p (.captured e)) = l.filterMap fun a => p (f a) := by
  rw [List.filterMap_map]
  refine List.filterMap_congr ?_
  intro a _
  show Item.pick pb p (.captured (entry pb (type a) (f a))) = p (f a)
  rw [Item.pick, entry, hrt]
  rfl

theorem pick_all (hrt : pb.FromRadioRoundTrip) {A : Type} (type : A → EntryType)
    (f : A → FromRadioVariant E) (l : List A) :
    ((l.map fun a => entry pb (type a) (f a)).filterMap
      fun e => Item.pick pb some (.captured e)) = l.map f := by
  rw [pick_entries hrt]
  exact congrFun List.filterMap_eq_map l

theorem pick_syntheticItems (r : Replay) (entries : List Entry) :
    (syntheticItems r entries).filterMap (Item.pick pb some) =
      (entries.filterMap fun e => Item.pick pb some (.captured e)) ++
        [.configCompleteId r.configId] := by
  rw [syntheticItems, pick_captured]
  rfl

/-- What is cached, or else what was captured. -/
theorem pick_fallback {A B : Type} {type : EntryType} (l : List A) (f : A → B)
    (wrap : B → FromRadioVariant E) {captured : List B}
    (hcaptured : ((env.entries type).filterMap fun e => Item.pick pb some (.captured e)) =
      captured.map wrap) :
    (l.filterMap fun a => some (wrap (f a))) ++
        ((env.fallback l.length type).filterMap fun e => Item.pick pb some (.captured e)) =
      (if l = [] then captured else l.map f).map wrap := by
  unfold Env.fallback
  cases l with
  | nil => exact hcaptured
  | cons a l => simp

theorem sequence_nodeItems (hrt : pb.FromRadioRoundTrip)
    (hc : env.capture = captureDefaults pb nodeNum syntheticNodes firmwareVersion) (r : Replay) :
    (nodeItems env r (sortedNodes env.cache) 0).filterMap (Item.pick pb some) =
      (replayedNodes env syntheticNodes).map .nodeInfo ++ [.configCompleteId r.configId] := by
  rw [nodeItems, pick_messages, pick_syntheticItems, ← List.append_assoc, Nat.zero_add,
    replayedNodes]
  congr 1
  refine pick_fallback (sortedNodes env.cache) _ _ ?_
  rw [(entries_of_defaults hc).2.2, nodeEntries, Env.ofCapture_filterMap, pick_all hrt,
    Env.ofCapture_map, List.map_map]
  rfl

theorem sequence_sections (hrt : pb.FromRadioRoundTrip) (hc : Captured pb env.capture) :
    (env.configEntries.filterMap fun e => Item.pick pb some (.captured e)) =
      replayedSections E env := by
  rw [configEntries_of_captured hc, Env.ofCapture_filterMap, sectionEntries,
    List.filterMap_append, pick_all hrt, pick_all hrt]
  unfold Env.ofCapture replayedSections Env.ofCapture
  split <;> rfl

theorem sequence_channelItems (hrt : pb.FromRadioRoundTrip)
    (hc : env.capture = captureDefaults pb nodeNum syntheticNodes firmwareVersion) (r : Replay) :
    (channelItems env r 0 0).filterMap (Item.pick pb some) =
      (replayedChannels env).map .channel ++ (replayedSections E env ++
        (afterConfigItems env r).filterMap (Item.pick pb some)) := by
  have hcaptured : Captured pb env.capture := hc ▸ .defaults _ _ _
  rw [channelItems, pick_messages, capturedChannelItems, pick_captured, configItems,
    pick_captured, sequence_sections hrt hcaptured, ← List.append_assoc, List.drop_zero,
    Nat.zero_add, replayedChannels]
  congr 1
  refine pick_fallback env.cache.channels _ _ ?_
  rw [(entries_of_defaults hc).1, channelEntries, Env.ofCapture_filterMap, pick_all hrt,
    Env.ofCapture_map, List.map_map]
  rfl

/-- The script of a replay is the sequence. -/
theorem sequence_script (hrt : pb.FromRadioRoundTrip)
    (hc : env.capture = captureDefaults pb nodeNum syntheticNodes firmwareVersion)
    (myNodeNum : NodeNum) (configId : UInt32) :
    (script pb env myNodeNum configId).filterMap (Item.pick pb some) =
      sequence E env syntheticNodes firmwareVersion myNodeNum configId := by
  unfold sequence
  by_cases hdb : configId = nonceOnlyDb
  · subst hdb
    rw [script_db, if_pos rfl]
    exact congrArg (_ :: ·) (sequence_nodeItems hrt hc _)
  · have hmetadata : (metadataItem pb env : Item E) =
        .message (.metadata (defaultMetadata (shownVersion syntheticNodes firmwareVersion))) := by
      rw [metadataItem, metadataMessage_defaults hrt hc]
      rfl
    have hafter : (afterConfigItems env (Replay.new myNodeNum configId)).filterMap
        (Item.pick pb some) = (if configId = nonceOnlyConfig then []
          else (replayedNodes env syntheticNodes).map .nodeInfo) ++
            [.configCompleteId configId] := by
      unfold afterConfigItems
      show List.filterMap _ (if configId = nonceOnlyConfig then _ else _) = _
      by_cases hconfig : configId = nonceOnlyConfig
      · rw [if_pos hconfig, if_pos hconfig]
        exact pick_syntheticItems _ []
      · rw [if_neg hconfig, if_neg hconfig]
        exact sequence_nodeItems hrt hc _
    rw [script_full myNodeNum hdb, hmetadata, if_neg hdb]
    simp only [List.append_assoc, List.cons_append, List.nil_append]
    show _ :: _ :: _ :: (channelItems env _ 0 0).filterMap _ = _
    rw [sequence_channelItems hrt hc, hafter]

/-! ## What a replay that returns has written -/

/-- The messages of a replay are the sequence, under ids that count up from 1. The
sequence ends in its one ConfigComplete, the known nodes in it are in order, and the
replay returns how many messages it wrote. -/
structure Sequenced (pb : Protobuf E) (env : Env) (syntheticNodes : Nat)
    (firmwareVersion : Option String) (myNodeNum : NodeNum) (configId : UInt32)
    (ws : List Bytes) (sent : Nat) : Prop where
  messages : ∃ ids : List UInt32, ids.head? = some 1 ∧ ids.Pairwise (· < ·) ∧
    ids.length = (sequence E env syntheticNodes firmwareVersion myNodeNum configId).length ∧
    ws.map pb.parseFromRadio =
      (ids.zip (sequence E env syntheticNodes firmwareVersion myNodeNum configId)).map
        fun x => some ⟨x.1, x.2⟩
  complete : ∃ before, sequence E env syntheticNodes firmwareVersion myNodeNum configId =
    before ++ [.configCompleteId configId] ∧ ∀ v ∈ before, ∀ nonce, v ≠ .configCompleteId nonce
  increasing : (sortedNodes env.cache).Pairwise fun a b => a.1 < b.1
  known : ∀ n, n ∈ sortedNodes env.cache ↔ n ∈ env.cache.knownNodes ∧ n.1 ≠ broadcastNum
  count : sent = ws.length

theorem sequence_complete (env : Env) (syntheticNodes : Nat) (firmwareVersion : Option String)
    (myNodeNum : NodeNum) (configId : UInt32) :
    ∃ before, sequence E env syntheticNodes firmwareVersion myNodeNum configId =
      before ++ [.configCompleteId configId] ∧
        ∀ v ∈ before, ∀ nonce, v ≠ .configCompleteId nonce := by
  unfold sequence
  split
  · refine ⟨_ :: _, (List.cons_append ..).symm, ?_⟩
    intro v hv nonce hcomplete
    subst hcomplete
    simp at hv
  · refine ⟨_, rfl, ?_⟩
    intro v hv nonce hcomplete
    subst hcomplete
    unfold replayedSections Env.ofCapture at hv
    split at hv <;> split at hv <;> simp at hv

theorem sortedNodes_increasing {cache : StateCache} (hu : Unique Prod.fst cache.knownNodes) :
    (sortedNodes cache).Pairwise fun a b => a.1 < b.1 := by
  have hle : (sortedNodes cache).Pairwise fun a b => a.1 ≤ b.1 :=
    (List.pairwise_insertionSort _ _).sublist List.filter_sublist
  have hne : (sortedNodes cache).Pairwise fun a b => a.1 ≠ b.1 :=
    List.pairwise_map.mp (sortedNodes_unique hu)
  refine (hle.and hne).imp ?_
  intro a b h
  exact UInt32.lt_of_le_of_ne h.1 h.2

/-- Ids that fit in 32 bits are increasing. -/
theorem ids_increasing {n : Nat} (hn : 1 + n ≤ 2 ^ 32) :
    ((List.range' 1 n).map UInt32.ofNat).Pairwise (· < ·) := by
  refine List.pairwise_map.mpr ((List.pairwise_lt_range' (s := 1) (n := n)).imp_of_mem ?_)
  intro a b ha hb hlt
  have hb' := (List.mem_range'_1.mp hb).2
  rw [UInt32.lt_iff_toNat_lt, UInt32.toNat_ofNat_of_lt' (by show a < 2 ^ 32; omega),
    UInt32.toNat_ofNat_of_lt' (by show b < 2 ^ 32; omega)]
  exact hlt

theorem proceed_sent {r' : Replay} (hp : proceed pb env r = .wrote data r') : r'.sent = r.sent := by
  have h := proceed_proceeds pb env r
  rw [hp] at h
  cases h with
  | @wrote r'' _ _ _ hr hem he =>
    show r''.sent = r.sent
    clear hem he hp
    induction hr with
    | refl => rfl
    | tail _ hs ih => exact hs.same.2.2.trans ih

/-- Each drain counts the message before it. -/
theorem Writes.count {start : Replay} (hw : Writes pb (Undisturbed env) start ws r) :
    r.sent + 1 = start.sent + ws.length := by
  induction hw with
  | first hc hp =>
    cases hc.1
    rw [proceed_sent hp]
    rfl
  | @next env' lost ws data r r' _ hc hp ih =>
    obtain ⟨rfl, rfl⟩ := hc
    have hsent : r'.sent = r.sent + 1 := proceed_sent (r := r.ack) hp
    rw [hsent, ih, List.length_append, List.length_singleton, Nat.add_assoc]

/-- **The sequence of a replay**, for every capture of defaults, every cache and every nonce. -/
theorem replay_sequence (hrt : pb.FromRadioRoundTrip) (hsz : pb.StandardSizes)
    (hfit : SectionsFit pb) (myNodeNum : NodeNum) (configId : UInt32) {sent : Nat}
    (hc : env.capture = captureDefaults pb nodeNum syntheticNodes firmwareVersion)
    (hkeys : Unique Prod.fst env.cache.knownNodes)
    (hw : Writes pb (Undisturbed env) (Replay.new myNodeNum configId) ws r)
    (hret : drained pb env r = .returned sent) :
    Sequenced pb env syntheticNodes firmwareVersion myNodeNum configId ws sent := by
  have hcaptured : Captured pb env.capture := hc ▸ .defaults _ _ _
  have hend : r.phase = .configComplete ∧ sent = r.sent + 1 := by
    have h := proceed_proceeds pb env r.ack
    rw [show proceed pb env r.ack = _ from hret] at h
    cases h with
    | returned hp => exact ⟨hp, rfl⟩
  have hreplays : Replays pb env myNodeNum configId ws := ⟨r, hw, hend.1⟩
  have hperform := replays_iff.mp hreplays
  have hparses := parses_defaults hrt hc myNodeNum configId
  have hlen := hreplays.bound hrt hcaptured
  have hws := perform_numbered _ 1 Nat.one_pos hlen hparses
    (fun e he => sure_scripted hrt hsz hfit hcaptured e (mem_script he)) (by rw [hperform])
  have hscript := sequence_script hrt hc myNodeNum configId
  have hle := List.length_filterMap_le (Item.pick pb some) (script pb env myNodeNum configId)
  have hseq := sequence_complete (E := E) env syntheticNodes firmwareVersion myNodeNum configId
  rw [hperform, hscript] at hws
  rw [hscript] at hle
  generalize hvs : sequence E env syntheticNodes firmwareVersion myNodeNum configId = vs at *
  have hpos : 0 < vs.length := by
    obtain ⟨before, rfl, -⟩ := hseq
    rw [List.length_append, List.length_singleton]
    exact Nat.succ_pos _
  refine ⟨⟨(List.range' 1 vs.length).map UInt32.ofNat, ?_, ids_increasing (by omega), ?_, ?_⟩,
    hvs.symm ▸ hseq, sortedNodes_increasing hkeys, fun n => mem_sortedNodes, ?_⟩
  · rw [List.head?_map, List.head?_range', if_neg (Nat.ne_of_gt hpos)]
    rfl
  · rw [List.length_map, List.length_range', hvs]
  · have hws' : ws = numbered pb 1 vs := hws
    rw [hws', numbered, List.map_map, hvs, List.zip_map_left, List.map_map]
    refine List.map_congr_left ?_
    intro x _
    exact hrt ⟨UInt32.ofNat x.1, x.2⟩
  · have hcount := hw.count
    have hstart : (Replay.new myNodeNum configId).sent = 0 := rfl
    omega

/-- The default sections are small, whatever the ids. -/
theorem wire_sectionsFit : SectionsFit wire := by
  have hfits {v : FromRadioVariant Unit} (hv : ((variantSlots v).map slotSize).sum ≤ 506)
      (id : UInt32) : (wire.serializeFromRadio ⟨id, v⟩).length ≤ maxPacketSize := by
    have hid : slotSize (1, Wire.u32 id) = idSize id :=
      slotSize_u32 (by decide) id
    have hle : idSize id ≤ 6 := by
      unfold idSize
      split
      · exact Nat.zero_le _
      · have hvarint := varintSize_le id.toNat_lt
        omega
    show (Wire.message (fromRadioSlots ⟨id, v⟩)).length ≤ 512
    rw [message_length, fromRadioSlots, List.map_cons, List.sum_cons, hid]
    exact Nat.add_le_add hle hv
  constructor
  · intro c hc
    have hall : ∀ c ∈ defaultConfigs,
        ((variantSlots (.config c.2)).map slotSize).sum ≤ 506 := by decide
    exact hfits (hall c hc)
  · intro c hc
    have hall : ∀ c ∈ defaultModuleConfigs,
        ((variantSlots (.moduleConfig c.2)).map slotSize).sum ≤ 506 := by decide
    exact hfits (hall c hc)

/-- Two nodes out of order, the first of them again in the end, and the broadcast address. -/
def toldOutOfOrder : List CacheUpdate :=
  [9, broadcastNum, 3, 9].map fun num => .payload (nodePayload { namelessNode with num := num })

set_option maxRecDepth 20000 in
/-- The nodes 3 and 9 take the place of the made-up ones: twenty-two messages. -/
theorem replay_sequence_default :
    let env : Env :=
      ⟨{}, cacheAfter wire toldOutOfOrder, captureDefaults wire 0x11 2 (some "2.6.4")⟩
    env.cache.knownNodes.map Prod.fst = [9, broadcastNum, 3] ∧
    (replayedNodes env 2).map NodeInfo.num = [3, 9] ∧
    ∃ ws, ws.length = 22 ∧ Sequenced wire env 2 (some "2.6.4") 0x11 7 ws 22 := by
  let env : Env :=
    ⟨{}, cacheAfter wire toldOutOfOrder, captureDefaults wire 0x11 2 (some "2.6.4")⟩
  have hperform : ((perform wire 1 (script wire env 0x11 7)).2,
      (perform wire 1 (script wire env 0x11 7)).1.length) = (none, 22) := by decide
  obtain ⟨hok, hlen⟩ := Prod.mk.inj hperform
  obtain ⟨r, hw, hp⟩ := replays_perform hok
  have hret : drained wire env r = .returned (r.sent + 1) := by
    rw [drained, proceed]
    simp only [hp]
  have hc : env.capture = captureDefaults wire 0x11 2 (some "2.6.4") := rfl
  have hseq := replay_sequence wire_fromRadioRoundTrip wire_standardSizes wire_sectionsFit 0x11 7
    hc (knownNodes_unique wire toldOutOfOrder) hw hret
  refine ⟨by decide, by decide, _, hlen, ?_⟩
  have hcount := hseq.count
  rw [hlen] at hcount
  rwa [hcount] at hseq

end Multiplextashtic.ConfigReplay
