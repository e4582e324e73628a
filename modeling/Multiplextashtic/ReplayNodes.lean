import Multiplextashtic.ReplayMessages
import Multiplextashtic.ReplaySizes

/-! # The known nodes of a replay

A node goes from the last message that told of it to the cache, and from there
to the one NodeInfo a replay sends for its number. A NODEINFO_APP packet tells
less of a node than a NodeInfo, and takes its place. -/
namespace Multiplextashtic.ConfigReplay
open Multiplextashtic.Protocol Multiplextashtic.Messages Multiplextashtic.Config
open Multiplextashtic.Cache Multiplextashtic.Capture Multiplextashtic.Server Table

variable {E : Type} {pb : Protobuf E} {ws : List Bytes}

/-! ## One NodeInfo for each node -/

theorem mem_sortedNodes {cache : StateCache} {n : NodeNum × CachedNode} :
    n ∈ sortedNodes cache ↔ n ∈ cache.knownNodes ∧ n.1 ≠ broadcastNum := by
  simp [sortedNodes, List.mem_insertionSort]

theorem sortedNodes_unique {cache : StateCache} (hu : Unique Prod.fst cache.knownNodes) :
    Unique Prod.fst (sortedNodes cache) :=
  (hu.perm (List.perm_insertionSort _ _).symm).sublist (List.filter_sublist.map _)

/-- **What was told last of a node is what is sent for its number.** -/
theorem replays_knownNode (hrt : pb.FromRadioRoundTrip) {config : AppConfig}
    {us : List CacheUpdate} {capture : ConfigCapture} (hc : Captured pb capture)
    {myNodeNum : NodeNum} {configId : UInt32} (hid : configId ≠ nonceOnlyConfig)
    (h : Replays pb ⟨config, cacheAfter pb us, capture⟩ myNodeNum configId ws) {num : NodeNum}
    (hnum : num ≠ broadcastNum) {node : CachedNode}
    (hlast : lastOf CachedNode.num (nodesTold pb us) num = some node) :
    ((sentNodes pb ws).tail.filter fun ni => ni.num = num) = [knownNodeInfo num node] := by
  have hmem : (num, node) ∈ sortedNodes (cacheAfter pb us) :=
    mem_sortedNodes.mpr ⟨(mem_knownNodes pb us num node).mpr hlast, hnum⟩
  have hlen : (sortedNodes (cacheAfter pb us)).length ≠ 0 := by
    rw [Ne, List.length_eq_zero_iff]
    exact List.ne_nil_of_mem hmem
  have hfallback (env : Env) :
      env.fallback (sortedNodes (cacheAfter pb us)).length .nodeInfo = [] := if_neg hlen
  rw [h.sentNodes hrt hc hid (by rw [hfallback]; exact List.forall_mem_nil _), List.tail_cons,
    otherNodes, hfallback]
  show List.filter _ (_ ++ []) = _
  rw [List.append_nil, List.filter_map]
  have hfilter := filter_key (sortedNodes_unique (knownNodes_unique pb us)) hmem
  exact congrArg (List.map fun n => knownNodeInfo n.1 n.2) hfilter

/-! ## A NodeInfo that was told last -/

/-- A NodeInfo as a client is shown it: with a name where it has none, and a user,
position, metrics and hop count whether it has them or not. -/
def shownFor (m : NodeInfo) : NodeInfo :=
  let user := m.user.getD emptyUser
  let pos := m.position.getD ⟨none, none, none, 0⟩
  let metrics := m.deviceMetrics.getD ⟨none, none, none, none⟩
  { m with
    user := some { user with
      id := orElse user.id (nodeId m.num)
      longName := orElse user.longName "Unknown"
      shortName := orElse user.shortName "????" }
    position := some ⟨some (pos.latitudeI.getD 0), some (pos.longitudeI.getD 0),
      some (pos.altitude.getD 0), pos.time⟩
    deviceMetrics := some ⟨some (metrics.batteryLevel.getD 0), some (metrics.voltage.getD 0),
      some (metrics.channelUtilization.getD 0), some (metrics.airUtilTx.getD 0)⟩
    hopsAway := some (m.hopsAway.getD 0) }

/-- Through the cache and back. -/
theorem knownNodeInfo_cachedNodeInfo (m : NodeInfo) :
    knownNodeInfo m.num (cachedNodeInfo m) = shownFor m := by
  have hrole (u : User) : (cachedUser m.num u).role.getD 0 = u.role := by
    unfold cachedUser
    by_cases h0 : u.role = 0 <;> simp [h0]
  have hkey (u : User) : (cachedUser m.num u).publicKey.getD [] = u.publicKey := by
    unfold cachedUser
    by_cases h0 : u.publicKey = [] <;> simp [h0]
  unfold knownNodeInfo rebuildNode
  simp only [cachedNodeInfo, hrole, hkey]
  rfl

/-- No update tells of the number. -/
def Untold (pb : Protobuf E) (us : List CacheUpdate) (num : NodeNum) : Prop :=
  ∀ node ∈ nodesTold pb us, node.num ≠ num

theorem lastOf_nodesTold {before after : List CacheUpdate} {u : CacheUpdate} {node : CachedNode}
    (hu : nodeTold pb u = some node) (hafter : Untold pb after node.num) :
    lastOf CachedNode.num (nodesTold pb (before ++ u :: after)) node.num = some node := by
  refine lastOf_eq_some_iff.mpr ⟨rfl, nodesTold pb before, nodesTold pb after, ?_, hafter⟩
  rw [nodesTold, List.filterMap_append, List.filterMap_cons_some hu]
  rfl

theorem nodeTold_nodeInfo {bytes : Bytes} {id : UInt32} {m : NodeInfo}
    (hm : pb.parseFromRadio bytes = some ⟨id, .nodeInfo m⟩) :
    nodeTold pb (.payload bytes) = some (cachedNodeInfo m) := by
  rw [nodeTold, messageOf, hm]
  rfl

/-- **A node is sent as the last NodeInfo has it**, but for the names and the
presence of its parts. -/
theorem replays_lastNodeInfo (hrt : pb.FromRadioRoundTrip) (config : AppConfig)
    (before after : List CacheUpdate) {bytes : Bytes} {id : UInt32} {m : NodeInfo}
    (hm : pb.parseFromRadio bytes = some ⟨id, .nodeInfo m⟩) (hnum : m.num ≠ broadcastNum)
    (hafter : Untold pb after m.num) {capture : ConfigCapture} (hc : Captured pb capture)
    (myNodeNum : NodeNum) {configId : UInt32} (hid : configId ≠ nonceOnlyConfig)
    (h : Replays pb ⟨config, cacheAfter pb (before ++ .payload bytes :: after), capture⟩
      myNodeNum configId ws) :
    ((sentNodes pb ws).tail.filter fun ni => ni.num = m.num) = [shownFor m] := by
  rw [replays_knownNode hrt hc hid h hnum (lastOf_nodesTold (nodeTold_nodeInfo hm) hafter),
    knownNodeInfo_cachedNodeInfo]

/-- A node with a user who has no name, and nothing else. -/
def namelessNode : NodeInfo :=
  { Client.longKeyInfo with user := some ⟨"!00000005", "", "", 0, 0, []⟩ }

def nodePayload (m : NodeInfo) : Bytes := wire.serializeFromRadio ⟨1, .nodeInfo m⟩

set_option maxRecDepth 20000 in
/-- The client is sent a name, a position, metrics and a hop count. -/
theorem replays_namelessNode :
    ∃ ws, Replays wire (envAfter (nodePayload namelessNode)) 0x11 7 ws ∧
      (sentNodes wire ws).tail = [{ namelessNode with
        user := some ⟨"!00000005", "Unknown", "????", 0, 0, []⟩
        position := some ⟨some 0, some 0, some 0, 0⟩
        deviceMetrics := some ⟨some 0, some 0, some 0, some 0⟩
        hopsAway := some 0 }] ∧
      (sentNodes wire ws).tail ≠ [namelessNode] := by
  let writes := perform wire 1 (script wire (envAfter (nodePayload namelessNode)) 0x11 7)
  have hok : writes.2 = none := by decide
  have hsent : (sentNodes wire writes.1).tail = [{ namelessNode with
      user := some ⟨"!00000005", "Unknown", "????", 0, 0, []⟩
      position := some ⟨some 0, some 0, some 0, 0⟩
      deviceMetrics := some ⟨some 0, some 0, some 0, some 0⟩
      hopsAway := some 0 }] := by decide
  refine ⟨writes.1, replays_perform hok, hsent, ?_⟩
  rw [hsent]
  decide

set_option maxRecDepth 20000 in
theorem replays_lastNodeInfo_nameless :
    ∃ ws, Replays wire (envAfter (nodePayload namelessNode)) 0x11 7 ws ∧
      ((sentNodes wire ws).tail.filter fun ni => ni.num = namelessNode.num) =
        [shownFor namelessNode] := by
  have hok : (perform wire 1
      (script wire (envAfter (nodePayload namelessNode)) 0x11 7)).2 = none := by decide
  have hm : wire.parseFromRadio (nodePayload namelessNode) = some ⟨1, .nodeInfo namelessNode⟩ :=
    wire_fromRadioRoundTrip _
  have hid : (7 : UInt32) ≠ nonceOnlyConfig := by decide
  exact ⟨_, replays_perform hok, replays_lastNodeInfo wire_fromRadioRoundTrip {} [] [] hm
    (by decide) (List.forall_mem_nil _) (.defaults 0x11 0 (some "2.6.4")) 0x11 hid
    (replays_perform hok)⟩

/-! ## What a NODEINFO_APP packet does not carry -/

/-- The keys of a cached node that a NODEINFO_APP packet does not set. -/
structure Extras where
  isFavorite : Option Bool
  isIgnored : Option Bool
  deviceMetrics : Option CachedMetrics
  position : Option CachedPosition
  deriving DecidableEq, Repr

def extras (node : CachedNode) : Extras :=
  ⟨node.isFavorite, node.isIgnored, node.deviceMetrics, node.position⟩

def noExtras : Extras := ⟨none, none, none, none⟩

/-- Flags, metrics and position of a NodeInfo, where what is absent reads as zero. -/
structure Telemetry where
  isFavorite : Bool
  isIgnored : Bool
  deviceMetrics : CachedMetrics
  position : CachedPosition
  deriving DecidableEq, Repr

def telemetry (m : NodeInfo) : Telemetry :=
  let pos := m.position.getD ⟨none, none, none, 0⟩
  let metrics := m.deviceMetrics.getD ⟨none, none, none, none⟩
  { isFavorite := m.isFavorite
    isIgnored := m.isIgnored
    deviceMetrics := ⟨metrics.batteryLevel.getD 0, metrics.voltage.getD 0,
      metrics.channelUtilization.getD 0, metrics.airUtilTx.getD 0⟩
    position := ⟨pos.latitudeI.getD 0, pos.longitudeI.getD 0, pos.altitude.getD 0, pos.time⟩ }

def noTelemetry : Telemetry := ⟨false, false, ⟨0, 0, 0, 0⟩, ⟨0, 0, 0, 0⟩⟩

theorem telemetry_shownFor (m : NodeInfo) : telemetry (shownFor m) = telemetry m := rfl

theorem telemetry_packet (num : NodeNum) (packet : MeshPacket E) (user : User) :
    telemetry (knownNodeInfo num (packetNodeInfo packet user)) = noTelemetry := rfl

/-- The payload is a NODEINFO_APP packet of a user with an id. -/
structure NodeinfoPacket (pb : Protobuf E) (bytes : Bytes) (packet : MeshPacket E) (user : User) :
    Prop where
  parses : ∃ id, pb.parseFromRadio bytes = some ⟨id, .packet packet⟩
  portnum : packet.portnum = nodeinfoApp
  payload : pb.parseUser packet.payload = some user
  named : user.id ≠ ""

theorem updateCache_nodeinfoPacket {cache : StateCache} {bytes : Bytes} {packet : MeshPacket E}
    {user : User} (hp : NodeinfoPacket pb bytes packet user) :
    updateCache pb cache bytes = noteNode cache (packetNodeInfo packet user) := by
  obtain ⟨id, hparse⟩ := hp.parses
  rw [updateCache, hparse]
  simp only
  rw [if_pos hp.portnum, hp.payload]
  exact if_neg hp.named

/-- No later NodeInfo of the number. -/
def NoNodeInfo (pb : Protobuf E) (us : List CacheUpdate) (num : NodeNum) : Prop :=
  ∀ u ∈ us, ∀ info, messageOf pb u = some (.nodeInfo info) → info.num ≠ num

/-- Without a later NodeInfo a number that is told of again is told of by a packet. -/
theorem lastOf_packet {us : List CacheUpdate} {num : NodeNum} (hinfo : NoNodeInfo pb us num)
    (htold : ¬ Untold pb us num) : ∃ packet user,
      lastOf CachedNode.num (nodesTold pb us) num = some (packetNodeInfo (E := E) packet user) := by
  cases hlast : lastOf CachedNode.num (nodesTold pb us) num with
  | none => exact absurd (lastOf_eq_none_iff.mp hlast) htold
  | some node =>
    obtain ⟨u, hu, htold⟩ := List.mem_filterMap.mp (mem_of_lastOf hlast)
    rcases nodeTold_cases htold with ⟨info, hm, rfl⟩ | ⟨packet, user, -, rfl⟩
    · exact absurd (key_of_get hlast) (hinfo u hu info hm)
    · exact ⟨packet, user, rfl⟩

/-- **What a NODEINFO_APP packet leaves of a known node**: flags, metrics and position
only stay when there are none, and the last NodeInfo's are sent when no packet came
behind it, or they are all zero. -/
theorem nodeinfoPacket_keeps_iff (hrt : pb.FromRadioRoundTrip) :
    (∀ (cache : StateCache) (bytes : Bytes) (packet : MeshPacket E) (user : User)
      (node : CachedNode), NodeinfoPacket pb bytes packet user →
      known cache packet.fromNode = some node →
      ((known (updateCache pb cache bytes) packet.fromNode).map extras = some (extras node) ↔
        extras node = noExtras)) ∧
    ∀ (config : AppConfig) (before after : List CacheUpdate) (bytes : Bytes) (id : UInt32)
      (m : NodeInfo) (capture : ConfigCapture) (myNodeNum : NodeNum) (configId : UInt32)
      (ws : List Bytes), pb.parseFromRadio bytes = some ⟨id, .nodeInfo m⟩ →
      m.num ≠ broadcastNum → NoNodeInfo pb after m.num → Captured pb capture →
      configId ≠ nonceOnlyConfig →
      Replays pb ⟨config, cacheAfter pb (before ++ .payload bytes :: after), capture⟩
        myNodeNum configId ws →
      (((sentNodes pb ws).tail.filter fun ni => ni.num = m.num).map telemetry = [telemetry m] ↔
        Untold pb after m.num ∨ telemetry m = noTelemetry) := by
  constructor
  · intro cache bytes packet user node hp _
    have hnum : packet.fromNode = (packetNodeInfo packet user).num := rfl
    rw [updateCache_nodeinfoPacket hp, hnum, known_noteNode]
    show some noExtras = some (extras node) ↔ _
    rw [Option.some.injEq]
    exact eq_comm
  · intro config before after bytes id m capture myNodeNum configId ws hm hnum hinfo hc hid h
    by_cases hafter : Untold pb after m.num
    · rw [replays_lastNodeInfo hrt config before after hm hnum hafter hc myNodeNum hid h]
      exact iff_of_true (congrArg (fun t => [t]) (telemetry_shownFor m)) (.inl hafter)
    · obtain ⟨packet, user, hlast⟩ := lastOf_packet hinfo hafter
      have hsplit : before ++ .payload bytes :: after = (before ++ [.payload bytes]) ++ after := by
        simp
      have hlast' : lastOf CachedNode.num
          (nodesTold pb (before ++ .payload bytes :: after)) m.num =
            some (packetNodeInfo packet user) := by
        rw [hsplit, nodesTold, List.filterMap_append]
        exact lastOf_append.trans (by rw [← nodesTold, hlast]; rfl)
      rw [replays_knownNode hrt hc hid h hnum hlast', List.map_singleton, telemetry_packet,
        or_iff_right hafter, List.singleton_inj]
      exact eq_comm

def baseUser : User := ⟨"!00000005", "Base", "BASE", 0, 0, []⟩

/-- A favourite with a position. -/
def favouriteNode : NodeInfo where
  num := 5
  user := some baseUser
  position := some ⟨some 373000000, some (-1220000000), some 12, 0⟩
  snr := 0
  lastHeard := 0
  deviceMetrics := none
  viaMqtt := false
  hopsAway := some 0
  isFavorite := true
  isIgnored := false

/-- The node tells of its user again. -/
def userPacket : MeshPacket Unit where
  fromNode := 5
  toNode := 0xFFFFFFFF
  id := 77
  payloadVariant := .decoded ⟨nodeinfoApp, Wire.message (userSlots baseUser), ()⟩
  rxTime := 0
  rxSnr := 0
  hopLimit := 3
  viaMqtt := false
  publicKey := []
  pkiEncrypted := false
  extra := ()

def userPayload : Bytes := wire.serializeFromRadio ⟨2, .packet userPacket⟩

def envTold (us : List CacheUpdate) : Env :=
  ⟨{}, cacheAfter wire us, captureDefaults wire 0x11 0 (some "2.6.4")⟩

set_option maxRecDepth 20000 in
/-- The packet takes the node's flags and position, and clients are sent zeros. -/
theorem replays_userPacket_zeros :
    let us := [.payload (nodePayload favouriteNode), .payload userPayload]
    (known (cacheAfter wire (us.take 1)) 5).map extras =
        some ⟨some true, some false, some ⟨0, 0, 0, 0⟩, some ⟨373000000, -1220000000, 12, 0⟩⟩ ∧
      (known (cacheAfter wire us) 5).map extras = some noExtras ∧
      ∃ ws, Replays wire (envTold us) 0x11 7 ws ∧
        (sentNodes wire ws).tail.map telemetry = [noTelemetry] ∧
        telemetry favouriteNode ≠ noTelemetry := by
  let us : List CacheUpdate := [.payload (nodePayload favouriteNode), .payload userPayload]
  let writes := perform wire 1 (script wire (envTold us) 0x11 7)
  have hok : writes.2 = none := by decide
  have hsent : (sentNodes wire writes.1).tail.map telemetry = [noTelemetry] := by decide
  exact ⟨by decide, by decide, writes.1, replays_perform hok, hsent, by decide⟩

set_option maxRecDepth 20000 in
theorem nodeinfoPacket_keeps_iff_favourite :
    (known (updateCache wire (cacheAfter wire [.payload userPayload]) userPayload) 5).map extras =
        some noExtras ∧
      ∃ ws, Replays wire (envTold [.payload (nodePayload favouriteNode)]) 0x11 7 ws ∧
        ((sentNodes wire ws).tail.filter fun ni => ni.num = favouriteNode.num).map telemetry =
          [telemetry favouriteNode] := by
  obtain ⟨hcache, hreplay⟩ := nodeinfoPacket_keeps_iff wire_fromRadioRoundTrip
  have hok : (perform wire 1
      (script wire (envTold [.payload (nodePayload favouriteNode)]) 0x11 7)).2 = none := by decide
  have hpacket : NodeinfoPacket wire userPayload userPacket baseUser :=
    ⟨⟨2, wire_fromRadioRoundTrip _⟩, rfl, by decide, by decide⟩
  have hm : wire.parseFromRadio (nodePayload favouriteNode) = some ⟨1, .nodeInfo favouriteNode⟩ :=
    wire_fromRadioRoundTrip _
  refine ⟨?_, _, replays_perform hok, ?_⟩
  · exact (hcache _ _ _ _ (packetNodeInfo userPacket baseUser) hpacket (by decide)).mpr rfl
  · exact (hreplay {} [] [] _ _ _ _ 0x11 7 _ hm (by decide) nofun
      (.defaults 0x11 0 (some "2.6.4")) (by decide) (replays_perform hok)).mpr
      (.inl (List.forall_mem_nil _))

end Multiplextashtic.ConfigReplay
