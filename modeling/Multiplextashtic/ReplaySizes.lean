import Multiplextashtic.Connection
import Multiplextashtic.ReplayScript
import Multiplextashtic.Sizes

/-! # Which replays come to their end

A replay raises where a message of its own is too large for a frame or its id
does not fit in 32 bits; nothing else in it can fail while the writer does not.
The sizes are those of what the cache holds. -/
namespace Multiplextashtic.ConfigReplay
open Multiplextashtic.Protocol Multiplextashtic.Messages Multiplextashtic.Config
open Multiplextashtic.Cache Multiplextashtic.Capture Protobuf

variable {E : Type} {pb : Protobuf E} {env : Env} {ws : List Bytes}

/-! ## Scripts that raise nothing -/

/-- Every message of the script can be framed under its id. -/
def Encodable (pb : Protobuf E) : Nat → List (Item E) → Prop
  | _, [] => True
  | _, .undecodable :: _ => False
  | nextId, .message variant :: rest =>
    (∃ data, encodeAs pb nextId variant = .ok data) ∧ Encodable pb (nextId + 1) rest
  | nextId, .captured _ :: rest => Encodable pb (nextId + 1) rest

/-- The captured entries of the script are messages. -/
def Parses (pb : Protobuf E) (script : List (Item E)) : Prop :=
  ∀ entry, .captured entry ∈ script → ∃ fr, pb.parseFromRadio entry.data = some fr

theorem Parses.tail {item : Item E} {rest : List (Item E)} (h : Parses pb (item :: rest)) :
    Parses pb rest := fun entry hm => h entry (List.mem_cons_of_mem _ hm)

theorem perform_ok_iff : ∀ (script : List (Item E)) (nextId : Nat), Parses pb script →
    ((perform pb nextId script).2 = none ↔ Encodable pb nextId script)
  | [], _, _ => iff_of_true rfl trivial
  | .undecodable :: _, _, _ => iff_of_false nofun id
  | .message variant :: rest, nextId, hp => by
    rw [perform, Encodable, ← perform_ok_iff rest (nextId + 1) hp.tail]
    cases he : encodeAs pb nextId variant with
    | error e => simp
    | ok data => simp
  | .captured entry :: rest, nextId, hp => by
    obtain ⟨fr, hfr⟩ := hp entry List.mem_cons_self
    rw [perform, Encodable, ← perform_ok_iff rest (nextId + 1) hp.tail]
    cases he : encodeAs pb nextId fr.variant with
    | error e => simp [hfr, he]
    | ok data => simp [hfr, he]

/-- A message of this size can be sent under this id. -/
def FitsAs (nextId size : Nat) : Prop :=
  nextId < 2 ^ 32 ∧ 1 + varintSize nextId + size ≤ maxPacketSize

instance (nextId size : Nat) : Decidable (FitsAs nextId size) :=
  inferInstanceAs (Decidable (_ ∧ _))

theorem idSize_ofNat {nextId : Nat} (hpos : 0 < nextId) (hlt : nextId < 2 ^ 32) :
    idSize (UInt32.ofNat nextId) = 1 + varintSize nextId := by
  have hn : (UInt32.ofNat nextId).toNat = nextId := UInt32.toNat_ofNat_of_lt' hlt
  unfold idSize
  rw [if_neg, hn]
  intro h0
  rw [h0] at hn
  exact Nat.ne_of_lt hpos hn

theorem encodeAs_iff (hsz : pb.StandardSizes) {nextId size : Nat} {variant : FromRadioVariant E}
    (hpos : 0 < nextId) (hv : variant.size? = some size) :
    (∃ data, encodeAs pb nextId variant = .ok data) ↔ FitsAs nextId size := by
  unfold FitsAs
  constructor
  · rintro ⟨data, he⟩
    obtain ⟨hlt, rfl, hlen⟩ := encode_eq_ok_iff.mp he
    rw [hsz _ _ _ hv, idSize_ofNat hpos hlt] at hlen
    exact ⟨hlt, hlen⟩
  · rintro ⟨hlt, hlen⟩
    refine ⟨_, encode_eq_ok_iff.mpr ⟨hlt, rfl, ?_⟩⟩
    rw [hsz _ _ _ hv]
    exact (idSize_ofNat hpos hlt).symm ▸ hlen

theorem encodable_captured (entries : List Entry) (rest : List (Item E)) : ∀ nextId,
    Encodable pb nextId (entries.map .captured ++ rest) ↔
      Encodable pb (nextId + entries.length) rest := by
  induction entries with
  | nil => intro nextId; rfl
  | cons entry entries ih =>
    intro nextId
    rw [List.map_cons, List.cons_append, Encodable, ih, List.length_cons, Nat.add_assoc,
      Nat.add_comm 1]

theorem encodable_messages (hsz : pb.StandardSizes) {α : Type} {f : α → FromRadioVariant E}
    {size : α → Nat} (hv : ∀ a, (f a).size? = some (size a)) (rest : List (Item E)) :
    ∀ (l : List α) (nextId : Nat), 0 < nextId →
      (Encodable pb nextId (l.map (fun a => .message (f a)) ++ rest) ↔
        (∀ i a, l[i]? = some a → FitsAs (nextId + i) (size a)) ∧
          Encodable pb (nextId + l.length) rest)
  | [], nextId, _ => by simp
  | a :: l, nextId, hpos => by
    rw [List.map_cons, List.cons_append, Encodable, encodeAs_iff hsz hpos (hv a),
      encodable_messages hsz hv rest l (nextId + 1) (Nat.succ_pos _), ← and_assoc]
    have hlen : nextId + 1 + l.length = nextId + (a :: l).length := by
      rw [List.length_cons]
      omega
    rw [hlen]
    refine and_congr_left fun _ => ?_
    constructor
    · rintro ⟨h0, hl⟩ i b hb
      cases i with
      | zero => cases hb; exact h0
      | succ i =>
        have hi := hl i b hb
        rwa [Nat.add_assoc, Nat.add_comm 1] at hi
    · intro h
      refine ⟨h 0 a rfl, ?_⟩
      intro i b hb
      have hi := h (i + 1) b hb
      rwa [Nat.add_assoc, Nat.add_comm 1]

/-! ## The sizes of what is cached -/

def cachedUserSize (u : CachedUser) : Nat :=
  strSize u.id + strSize u.longName + strSize u.shortName + i32Size u.hwModel +
    i32Size (u.role.getD 0) + textSize (u.publicKey.getD []).length

/-- A replay sends position, metrics and hops of every node, known or not. -/
def cachedNodeSize (num : NodeNum) (node : CachedNode) (noMetrics : CachedMetrics) : Nat :=
  let metrics := node.deviceMetrics.getD noMetrics
  let pos := node.position.getD ⟨0, 0, 0, 0⟩
  u32Size num + lenSize (cachedUserSize node.user) +
    lenSize (10 + int32Size pos.altitude + fixed32Size pos.time) + fixed32Size node.snr +
    fixed32Size node.lastHeard + lenSize (16 + varintSize metrics.batteryLevel.toNat) +
    boolSize node.viaMqtt + (1 + varintSize node.hopsAway.toNat) +
    boolSize (node.isFavorite.getD false) + boolSize (node.isIgnored.getD false)

def cachedChannelSize (ch : CachedChannel) : Nat :=
  i32Size ch.index +
    lenSize (textSize ch.psk.length + strSize ch.name + boolSize ch.uplinkEnabled +
      boolSize ch.downlinkEnabled) + i32Size ch.role

def cachedMyInfoSize (num : NodeNum) (info : CachedMyInfo) : Nat :=
  u32Size info.myNodeNum + u32Size info.rebootCount + u32Size (info.minAppVersion.getD 20200) +
    textSize (info.deviceId.getD (virtualDeviceId num)).length +
    i32Size (info.firmwareEdition.getD 0) + u32Size (info.nodedbCount.getD 0)

theorem rebuildNode_size (num : NodeNum) (node : CachedNode) (noMetrics : CachedMetrics) :
    (rebuildNode num node noMetrics).size = cachedNodeSize num node noMetrics := by
  simp only [rebuildNode, NodeInfo.size, User.size, Position.size, DeviceMetrics.size, optSize,
    Option.elim_some, cachedNodeSize, cachedUserSize]
  rw [show ∀ n, 1 + varintSize n + 5 + 5 + 5 = 16 + varintSize n by omega]

theorem channelInfo_size (ch : CachedChannel) :
    (channelInfo ch).size = cachedChannelSize ch := by
  simp [channelInfo, Channel.size, ChannelSettings.size, cachedChannelSize, optSize, fixed32Size]

/-- The own node as the cache has it, or made up from the configuration. -/
def ownSize (env : Env) (num : NodeNum) : Nat :=
  let vn := env.config.virtualNode
  match vn.syncPhysicalIdentity, env.cache.nodeInfo with
  | true, some cached => cachedNodeSize num cached ⟨100, floatBits 42 10, 0, 0⟩
  | _, _ => u32Size num +
    lenSize (strSize (nodeId num) + strSize vn.longName + strSize vn.shortName) + 35

def myInfoSize (env : Env) (num : NodeNum) : Nat :=
  match env.config.virtualNode.syncPhysicalIdentity, env.cache.myInfo with
  | true, some cached => cachedMyInfoSize num cached
  | _, _ => u32Size num + textSize (virtualDeviceId num).length + 4

theorem defaultOwnNode_size (num : NodeNum) (longName shortName : String) :
    (defaultOwnNode num longName shortName).size =
      u32Size num + lenSize (strSize (nodeId num) + strSize longName + strSize shortName) + 35 := by
  simp only [defaultOwnNode, freshMetrics, NodeInfo.size, User.size, Position.size,
    DeviceMetrics.size, optSize, Option.elim_some]
  have hpos : lenSize (5 + 5 + int32Size 0) = 14 := by decide
  have hmetrics : lenSize (1 + varintSize (100 : UInt32).toNat + 5 + 5 + 5) = 19 := by decide
  have hhops : 1 + varintSize (0 : UInt32).toNat = 2 := by decide
  have hfixed : fixed32Size 0 = 0 := rfl
  have hbool : boolSize false = 0 := rfl
  have hmodel : i32Size 0 = 0 := rfl
  have hkey : textSize ([] : Bytes).length = 0 := rfl
  simp only [hpos, hmetrics, hhops, hfixed, hbool, hmodel, hkey, Nat.add_zero]

theorem ownNodeInfo_size (env : Env) (r : Replay) :
    (ownNodeInfo env r).size = ownSize env r.nodeNum := by
  unfold ownNodeInfo ownSize
  simp only
  cases env.config.virtualNode.syncPhysicalIdentity with
  | false => exact defaultOwnNode_size ..
  | true =>
    cases env.cache.nodeInfo with
    | none => exact defaultOwnNode_size ..
    | some cached => exact rebuildNode_size ..

theorem defaultMyInfo_size (num : NodeNum) :
    (defaultMyInfo num 0).size = u32Size num + textSize (virtualDeviceId num).length + 4 := by
  simp only [defaultMyInfo, MyNodeInfo.size]
  have hversion : u32Size 20200 = 4 := by decide
  have h0 : u32Size 0 = 0 := rfl
  have h0' : i32Size 0 = 0 := rfl
  have hcount : u32Size (UInt32.ofNat 0) = 0 := rfl
  omega

theorem myNodeInfo_size (env : Env) (r : Replay) :
    (myNodeInfo env r).size = myInfoSize env r.nodeNum := by
  unfold myNodeInfo myInfoSize
  cases env.config.virtualNode.syncPhysicalIdentity with
  | false => exact defaultMyInfo_size _
  | true =>
    cases env.cache.myInfo with
    | none => exact defaultMyInfo_size _
    | some cached => rfl

/-! ## Where the ids stand -/

def channelCount (env : Env) : Nat :=
  env.cache.channels.length + (env.fallback env.cache.channels.length .channel).length

def nodeCount (env : Env) : Nat :=
  let nodes := (sortedNodes env.cache).length
  nodes + (env.fallback nodes .nodeInfo).length

/-- The id of the first of the other nodes. -/
def firstNodeId (env : Env) (configId : UInt32) : Nat :=
  if configId = nonceOnlyDb then 2 else 4 + channelCount env + env.configEntries.length

/-- The id of the ConfigComplete. -/
def lastId (env : Env) (configId : UInt32) : Nat :=
  firstNodeId env configId + if configId = nonceOnlyConfig then 0 else nodeCount env

/-- Every message a replay makes of what is cached fits in a frame, and the ids in
32 bits. `version` is the firmware version it shows. -/
structure Fits (env : Env) (num : NodeNum) (configId : UInt32) (version : String) : Prop where
  myInfo : configId ≠ nonceOnlyDb → FitsAs 1 (lenSize (myInfoSize env num))
  own : FitsAs (if configId = nonceOnlyDb then 1 else 2) (lenSize (ownSize env num))
  metadata : configId ≠ nonceOnlyDb → FitsAs 3 (lenSize (strSize version))
  channels : configId ≠ nonceOnlyDb → ∀ i ch, env.cache.channels[i]? = some ch →
    FitsAs (4 + i) (lenSize (cachedChannelSize ch))
  nodes : configId ≠ nonceOnlyConfig → ∀ i n, (sortedNodes env.cache)[i]? = some n →
    FitsAs (firstNodeId env configId + i) (lenSize (cachedNodeSize n.1 n.2 ⟨0, 0, 0, 0⟩))
  ids : lastId env configId < 2 ^ 32

theorem varintSize_le {n : Nat} (hn : n < 2 ^ 32) : varintSize n ≤ 5 := by
  unfold varintSize
  by_cases h0 : n = 0
  · rw [h0]; decide
  · have := (Nat.log2_lt h0).mpr hn
    omega

/-- A ConfigComplete is small. -/
theorem fitsAs_configComplete {nextId : Nat} (nonce : UInt32) :
    FitsAs nextId (1 + varintSize nonce.toNat) ↔ nextId < 2 ^ 32 := by
  refine ⟨And.left, fun hlt => ⟨hlt, ?_⟩⟩
  have hid := varintSize_le hlt
  have hnonce := varintSize_le nonce.toNat_lt
  have hmax : maxPacketSize = 512 := rfl
  omega

section
variable (hsz : pb.StandardSizes) {r : Replay} {nextId : Nat}
include hsz

theorem encodable_synthetic (hpos : 0 < nextId) (entries : List Entry) :
    Encodable pb nextId (syntheticItems r entries) ↔ nextId + entries.length < 2 ^ 32 := by
  rw [syntheticItems, encodable_captured, Encodable, Encodable, and_true,
    encodeAs_iff hsz (Nat.add_pos_left hpos _) rfl, fitsAs_configComplete]

theorem encodable_nodes (hpos : 0 < nextId) :
    Encodable pb nextId (nodeItems env r (sortedNodes env.cache) 0) ↔
      (∀ i n, (sortedNodes env.cache)[i]? = some n →
        FitsAs (nextId + i) (lenSize (cachedNodeSize n.1 n.2 ⟨0, 0, 0, 0⟩))) ∧
      nextId + nodeCount env < 2 ^ 32 := by
  have hsize (n : NodeNum × CachedNode) :
      FromRadioVariant.size? (.nodeInfo (knownNodeInfo n.1 n.2) : FromRadioVariant E) =
        some (lenSize (cachedNodeSize n.1 n.2 ⟨0, 0, 0, 0⟩)) :=
    congrArg (fun size => some (lenSize size)) (rebuildNode_size ..)
  rw [nodeItems, encodable_messages hsz hsize _ _ _ hpos,
    encodable_synthetic hsz (Nat.add_pos_left hpos _), Nat.zero_add, Nat.add_assoc]
  rfl

theorem encodable_afterConfigs (hpos : 0 < nextId) :
    Encodable pb nextId (afterConfigItems env r) ↔
      (r.configId ≠ nonceOnlyConfig → ∀ i n, (sortedNodes env.cache)[i]? = some n →
        FitsAs (nextId + i) (lenSize (cachedNodeSize n.1 n.2 ⟨0, 0, 0, 0⟩))) ∧
      nextId + (if r.configId = nonceOnlyConfig then 0 else nodeCount env) < 2 ^ 32 := by
  unfold afterConfigItems
  by_cases hid : r.configId = nonceOnlyConfig
  · simp only [hid, if_true, ne_eq, not_true_eq_false, false_implies, true_and]
    exact encodable_synthetic hsz hpos []
  · simp only [hid, if_false, ne_eq, not_false_eq_true, true_implies]
    exact encodable_nodes hsz hpos

theorem encodable_channels (hpos : 0 < nextId) :
    Encodable pb nextId (channelItems env r 0 0) ↔
      (∀ i ch, env.cache.channels[i]? = some ch →
        FitsAs (nextId + i) (lenSize (cachedChannelSize ch))) ∧
      Encodable pb (nextId + channelCount env + env.configEntries.length)
        (afterConfigItems env r) := by
  have hsize (ch : CachedChannel) :
      FromRadioVariant.size? (.channel (channelInfo ch) : FromRadioVariant E) =
        some (lenSize (cachedChannelSize ch)) :=
    congrArg (fun size => some (lenSize size)) (channelInfo_size ch)
  rw [channelItems, encodable_messages hsz hsize _ _ _ hpos, capturedChannelItems,
    encodable_captured, configItems, encodable_captured, List.drop_zero, Nat.zero_add,
    Nat.add_assoc nextId]
  rfl

end

/-! ## Captured defaults -/

/-- The firmware version a replay shows: what the physical node reported, or the
default, and the suffix. -/
def shownVersion (syntheticNodes : Nat) (firmwareVersion : Option String) : String :=
  (if syntheticNodes ≥ 2 ^ 32 then defaultFirmware
    else orElse (firmwareVersion.getD "") defaultFirmware) ++ versionSuffix

theorem metadataMessage_defaults (hrt : pb.FromRadioRoundTrip) {nodeNum : NodeNum}
    {syntheticNodes : Nat} {firmwareVersion : Option String}
    (hc : env.capture = captureDefaults pb nodeNum syntheticNodes firmwareVersion) :
    metadataMessage pb env =
      some (.metadata (defaultMetadata (shownVersion syntheticNodes firmwareVersion))) := by
  unfold metadataMessage shownVersion
  rw [hc, captureDefaults]
  by_cases hlt : syntheticNodes ≥ 2 ^ 32
  · simp only [hlt, if_true]
    rfl
  · simp only [hlt, if_false]
    have hne : orElse (firmwareVersion.getD "") defaultFirmware ≠ "" := by
      unfold orElse
      split
      · decide
      · assumption
    simp [entry, hrt _, suffixed, defaultMetadata, hne]

/-- A replay returns just when its script can be framed. -/
theorem replays_iff_encodable {myNodeNum : NodeNum} {configId : UInt32}
    (hp : Parses pb (script pb env myNodeNum configId)) :
    (∃ ws, Replays pb env myNodeNum configId ws) ↔
      Encodable pb 1 (script pb env myNodeNum configId) := by
  rw [← perform_ok_iff _ _ hp]
  constructor
  · rintro ⟨ws, hr⟩
    rw [replays_iff.mp hr]
  · intro hok
    exact ⟨_, replays_perform hok⟩

theorem parses_defaults (hrt : pb.FromRadioRoundTrip) {nodeNum : NodeNum} {syntheticNodes : Nat}
    {firmwareVersion : Option String}
    (hc : env.capture = captureDefaults pb nodeNum syntheticNodes firmwareVersion)
    (myNodeNum : NodeNum) (configId : UInt32) :
    Parses pb (script pb env myNodeNum configId) := by
  intro entry hm
  have hentry := mem_script_captured hm
  rw [hc] at hentry
  obtain ⟨variant, he, -⟩ := captureDefaults_entry pb hentry
  rw [he]
  exact ⟨_, hrt _⟩

/-- **When a replay comes to its end**: just when every message it makes of what is
cached fits in a frame. -/
theorem replays_iff_fits (hrt : pb.FromRadioRoundTrip) (hsz : pb.StandardSizes) (config : AppConfig)
    (cache : StateCache) (nodeNum : NodeNum) (syntheticNodes : Nat)
    (firmwareVersion : Option String) (myNodeNum : NodeNum) (configId : UInt32) :
    (∃ ws, Replays pb ⟨config, cache, captureDefaults pb nodeNum syntheticNodes firmwareVersion⟩
      myNodeNum configId ws) ↔
    Fits ⟨config, cache, captureDefaults pb nodeNum syntheticNodes firmwareVersion⟩
      (Replay.new myNodeNum configId).nodeNum configId
      (shownVersion syntheticNodes firmwareVersion) := by
  generalize henv : (⟨config, cache,
    captureDefaults pb nodeNum syntheticNodes firmwareVersion⟩ : Env) = env
  have hc : env.capture = captureDefaults pb nodeNum syntheticNodes firmwareVersion := by
    rw [← henv]
  have hown (r : Replay) : FromRadioVariant.size? (.nodeInfo (ownNodeInfo env r) :
      FromRadioVariant E) = some (lenSize (ownSize env r.nodeNum)) :=
    congrArg (fun size => some (lenSize size)) (ownNodeInfo_size env r)
  have hinfo (r : Replay) : FromRadioVariant.size? (.myInfo (myNodeInfo env r) :
      FromRadioVariant E) = some (lenSize (myInfoSize env r.nodeNum)) :=
    congrArg (fun size => some (lenSize size)) (myNodeInfo_size env r)
  rw [replays_iff_encodable (parses_defaults hrt hc myNodeNum configId)]
  by_cases hdb : configId = nonceOnlyDb
  · subst hdb
    have hne : nonceOnlyDb ≠ nonceOnlyConfig := by decide
    rw [script_db, Encodable, encodeAs_iff hsz Nat.one_pos (hown _),
      encodable_nodes hsz (Nat.succ_pos _)]
    constructor
    · rintro ⟨hown, hnodes, hids⟩
      exact ⟨fun h => absurd rfl h, hown, fun h => absurd rfl h, fun h => absurd rfl h,
        fun _ => hnodes, hids⟩
    · rintro ⟨-, hown, -, -, hnodes, hids⟩
      exact ⟨hown, hnodes hne, hids⟩
  · have hmeta : (metadataItem pb env : Item E) =
        .message (.metadata (defaultMetadata (shownVersion syntheticNodes firmwareVersion))) := by
      rw [metadataItem, metadataMessage_defaults hrt hc]
      rfl
    have hversion : FromRadioVariant.size? (.metadata (defaultMetadata
        (shownVersion syntheticNodes firmwareVersion)) : FromRadioVariant E) =
          some (lenSize (strSize (shownVersion syntheticNodes firmwareVersion))) := rfl
    have hfirst : firstNodeId env configId = 4 + channelCount env + env.configEntries.length :=
      if_neg hdb
    rw [script_full myNodeNum hdb, hmeta, Encodable, Encodable, Encodable,
      encodeAs_iff hsz Nat.one_pos (hinfo _), encodeAs_iff hsz (Nat.succ_pos _) (hown _),
      encodeAs_iff hsz (Nat.succ_pos _) hversion, encodable_channels hsz (Nat.succ_pos _),
      encodable_afterConfigs hsz (by omega), ← hfirst]
    constructor
    · rintro ⟨hinfo, hown, hmeta, hchannels, hnodes, hids⟩
      exact ⟨fun _ => hinfo, by rwa [if_neg hdb], fun _ => hmeta, fun _ => hchannels, hnodes, hids⟩
    · rintro ⟨hinfo, hown, hmeta, hchannels, hnodes, hids⟩
      rw [if_neg hdb] at hown
      exact ⟨hinfo hdb, hown, hmeta hdb, hchannels hdb, hnodes, hids⟩

/-- What a replay finds when the payload was the only one, and nothing was captured
but the defaults. -/
def envAfter (payload : Bytes) : Env :=
  ⟨{}, updateCache wire {} payload, captureDefaults wire 0x11 0 (some "2.6.4")⟩

set_option maxRecDepth 20000 in
/-- The payload fits in a frame; the NodeInfo rebuilt from it does not. -/
theorem replays_longKey :
    Client.longKeyPayload.length ≤ maxPacketSize ∧
      (perform wire 1 (script wire (envAfter Client.longKeyPayload) 0x11 7)).2 =
        some (.valueError "Payload size 524 exceeds MAX_PACKET_SIZE 512") ∧
      ¬ ∃ ws, Replays wire (envAfter Client.longKeyPayload) 0x11 7 ws := by
  have hraises : (perform wire 1 (script wire (envAfter Client.longKeyPayload) 0x11 7)).2 =
      some (.valueError "Payload size 524 exceeds MAX_PACKET_SIZE 512") := by decide
  refine ⟨by decide, hraises, ?_⟩
  rintro ⟨ws, hr⟩
  rw [replays_iff.mp hr] at hraises
  cases hraises

set_option maxRecDepth 20000 in
/-- With a shorter key it fits. -/
theorem replays_iff_fits_shorterKey :
    ∃ ws, Replays wire (envAfter (wire.serializeFromRadio ⟨1, .nodeInfo
      { Client.longKeyInfo with user := some ⟨"", "", "", 0, 0, List.replicate 400 7⟩ }⟩))
        0x11 7 ws := by
  refine (replays_iff_fits wire_fromRadioRoundTrip wire_standardSizes ..).mpr ?_
  constructor
  · intro _; decide
  · decide
  · intro _; decide
  · intro _ i ch h; cases h
  · intro _ i n h
    cases i with
    | zero => cases h; decide
    | succ i => cases h
  · decide

end Multiplextashtic.ConfigReplay
