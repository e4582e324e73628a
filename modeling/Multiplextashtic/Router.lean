import Multiplextashtic.Config
import Multiplextashtic.Messages
import Multiplextashtic.Lib.Ipaddress

/-! # Message routing

`message_router.py`: which client payloads go to the physical node, and in which
form. -/
namespace Multiplextashtic.Router
open Multiplextashtic.Protocol Multiplextashtic.Messages Multiplextashtic.Config Ipaddress

def blockedPortnums : List PortNum := [adminApp]

def localhostIps : List String := ["127.0.0.1", "::1", "localhost"]

/-! ## The allowlist -/

/-- One pass of the loop: `none` is the `ValueError` that skips the entry. -/
def ipMatchesEntry (clientIp entry : String) : Option Bool :=
  if '/' ∈ entry.toList then do
    let network ← ipNetwork entry
    let address ← ipAddress clientIp
    return network.contains address
  else do
    let address ← ipAddress clientIp
    let allowed ← ipAddress entry
    return address == allowed

def ipMatchesAny (clientIp : String) : List String → Bool
  | [] => false
  | entry :: entries =>
    match ipMatchesEntry clientIp entry with
    | some true => true
    | some false => ipMatchesAny clientIp entries
    | none => ipMatchesAny clientIp entries

/-! ## The router -/

/-- What `route_from_client` returns. -/
structure Routed where
  allowed : Bool
  rawToForward : Option Bytes
  clientResponse : Option Bytes
  deriving DecidableEq, Repr

/-- `return False, None, None` -/
def blocked : Routed := ⟨false, none, none⟩

variable {E : Type}

/-- The branches of the admin whitelist check that let the packet through. -/
def adminGate (config : AppConfig) (packet : MeshPacket E) (clientIp : String) : Bool :=
  if packet.fromNode ≠ 0 ∧ packet.fromNode = packet.toNode then true
  else if clientIp ∈ localhostIps then true
  else if config.security.allowAdminFromIps ≠ [] then
    ipMatchesAny clientIp config.security.allowAdminFromIps
  else false

section
variable (pb : Protobuf E)

/-- An assignment to a field of a Routing message. -/
def setRoutingField (field : String) (routing : Routing) : Except PyError Routing :=
  if field ∈ pb.routingFields then .ok routing
  else .error (.attributeError s!"Routing has no field {field}")

def buildFakeRoutingAck (myNodeNum : NodeNum) (requestId : UInt32) (packet : MeshPacket E) :
    Except PyError Bytes := do
  let requesterNode := if packet.fromNode ≠ 0 then packet.fromNode else myNodeNum
  let ackerNode := myNodeNum
  let routing ← setRoutingField pb "request_id" ⟨some requestId, none⟩
  let routing ← setRoutingField pb "error_reason" { routing with errorReason := some .none }
  let data : Data E := ⟨routingApp, pb.serializeRouting routing, pb.noExtra⟩
  let mp : MeshPacket E :=
    { fromNode := ackerNode, toNode := requesterNode, id := requestId
      payloadVariant := .decoded data, rxTime := 0, rxSnr := 0, hopLimit := 0, viaMqtt := false
      publicKey := [], pkiEncrypted := false
      extra := pb.noExtra }
  return pb.serializeFromRadio ⟨0, .packet mp⟩

/-- The body of the `try` around the interception; `none` where it falls through. -/
def interceptAdmin (myNodeNum : NodeNum) (packet : MeshPacket E) : Except PyError (Option Routed) :=
  match pb.parseAdminMessage packet.payload with
  | none => .error .decodeError
  | some (.removeByNodenum _) => do
    let fakeAck ← buildFakeRoutingAck pb myNodeNum packet.id packet
    return some ⟨false, none, some fakeAck⟩
  | some .addContact => .ok (some blocked)
  | some _ => .ok none

/-- The packet with its PKI encryption stripped. -/
def clearPki (packet : MeshPacket E) : MeshPacket E :=
  { packet with pkiEncrypted := false, publicKey := [] }

def stripPki (packet : MeshPacket E) (rawPayload : Bytes) : Bytes :=
  if packet.fromNode = 0 ∧ packet.pkiEncrypted then pb.serializeToRadio (.packet (clearPki packet))
  else rawPayload

def forward (packet : MeshPacket E) (rawPayload : Bytes) : Routed :=
  ⟨true, some (stripPki pb packet rawPayload), none⟩

def routePacket (config : AppConfig) (myNodeNum : NodeNum) (packet : MeshPacket E)
    (rawPayload : Bytes) (clientIp : String) : Routed :=
  let portnum := if packet.portnum ≠ 0 then some packet.portnum else none
  if portnum = some adminApp ∧ !adminGate config packet clientIp then blocked
  else if (portnum.any fun p => p ∈ blockedPortnums) ∧ portnum ≠ some adminApp then blocked
  else if portnum = some adminApp ∧ packet.payload ≠ [] then
    match interceptAdmin pb myNodeNum packet with
    | .ok (some routed) => routed
    | .ok none => forward pb packet rawPayload
    | .error _ => forward pb packet rawPayload
  else forward pb packet rawPayload

def routeFromClient (config : AppConfig) (myNodeNum : NodeNum) (payload : Bytes)
    (clientIp : String) : Routed :=
  match pb.parseToRadio payload with
  | none => blocked
  | some toRadio =>
    if toRadio.disconnects then blocked
    else match toRadio with
      | .heartbeat => blocked
      | toRadio =>
        if toRadio.nonce ≠ 0 then blocked
        else match toRadio with
          | .packet packet => routePacket pb config myNodeNum packet payload clientIp
          | _ => blocked

/-- `route_from_physical`: the bytes to broadcast. A ConfigComplete is only logged. -/
def routeFromPhysical (fromRadioBytes : Bytes) : Option Bytes :=
  match pb.parseFromRadio fromRadioBytes with
  | none => some fromRadioBytes
  | some _ => some fromRadioBytes

end

/-! ## The allowlist decides by its well-formed entries -/

/-- The entry parses as what its form says it is. -/
def WellFormed (entry : String) : Prop :=
  if '/' ∈ entry.toList then ∃ network, ipNetwork entry = some network
  else ∃ address, ipAddress entry = some address

/-- A well-formed entry that equals the address or is a network that contains it. -/
def EntryMatches (clientIp entry : String) : Prop :=
  ∃ address, ipAddress clientIp = some address ∧
    if '/' ∈ entry.toList then ∃ network, ipNetwork entry = some network ∧ network.contains address
    else ipAddress entry = some address

theorem ipMatchesEntry_iff (clientIp entry : String) :
    ipMatchesEntry clientIp entry = some true ↔ EntryMatches clientIp entry := by
  unfold ipMatchesEntry EntryMatches
  split
  · cases ipNetwork entry <;> cases ipAddress clientIp <;> simp
  · cases ipAddress entry with
    | none => cases ipAddress clientIp <;> simp
    | some allowed =>
      cases ipAddress clientIp with
      | none => simp
      | some address => simp [eq_comm (a := allowed)]

theorem ipMatchesAny_iff (clientIp : String) (entries : List String) :
    ipMatchesAny clientIp entries = true ↔ ∃ entry ∈ entries, EntryMatches clientIp entry := by
  induction entries with
  | nil => simp [ipMatchesAny]
  | cons entry entries ih =>
    simp only [List.mem_cons, exists_eq_or_imp, ← ipMatchesEntry_iff clientIp entry, ← ih]
    cases h : ipMatchesEntry clientIp entry with
    | none => simp [ipMatchesAny, h]
    | some b => cases b <;> simp [ipMatchesAny, h]

theorem EntryMatches.wellFormed {clientIp entry : String} (h : EntryMatches clientIp entry) :
    WellFormed entry := by
  obtain ⟨address, _, h⟩ := h
  unfold WellFormed
  split at h
  · next hs => rw [if_pos hs]; exact ⟨_, h.choose_spec.1⟩
  · next hs => rw [if_neg hs]; exact ⟨_, h⟩

theorem EntryMatches.parses {clientIp entry : String} (h : EntryMatches clientIp entry) :
    ipAddress clientIp ≠ none := by
  obtain ⟨address, ha, _⟩ := h
  simp [ha]

/-- The header of a packet past the admin gate. -/
def SelfAddressed (packet : MeshPacket E) : Prop :=
  packet.fromNode ≠ 0 ∧ packet.fromNode = packet.toNode

theorem adminGate_iff (config : AppConfig) (packet : MeshPacket E) (clientIp : String) :
    adminGate config packet clientIp = true ↔ SelfAddressed packet ∨ clientIp ∈ localhostIps ∨
      ∃ entry ∈ config.security.allowAdminFromIps, EntryMatches clientIp entry := by
  unfold adminGate
  split
  · next h => exact iff_of_true rfl (.inl h)
  · next h =>
    split
    · next hl => exact iff_of_true rfl (.inr (.inl hl))
    · next hl =>
      have hh : ¬ SelfAddressed packet := h
      split
      · simp [ipMatchesAny_iff, hh, hl]
      · next hn => simp [not_not.mp hn, hh, hl]

/-! ## Routing a packet -/

variable {pb : Protobuf E} {config : AppConfig} {myNodeNum : NodeNum} {payload : Bytes}
  {packet : MeshPacket E} {clientIp : String}

theorem routeFromClient_packet (h : pb.parseToRadio payload = some (.packet packet)) :
    routeFromClient pb config myNodeNum payload clientIp =
      routePacket pb config myNodeNum packet payload clientIp := by
  simp [routeFromClient, h, ToRadio.disconnects, ToRadio.nonce]

theorem routeFromClient_not_packet (h : ∀ packet, pb.parseToRadio payload ≠ some (.packet packet)) :
    routeFromClient pb config myNodeNum payload clientIp = blocked := by
  unfold routeFromClient
  cases hp : pb.parseToRadio payload with
  | none => rfl
  | some m =>
    cases m with
    | packet p => exact absurd hp (h p)
    | _ => simp

/-- Any portnum but ADMIN_APP is forwarded. -/
theorem routePacket_other (h : packet.portnum ≠ adminApp) :
    routePacket pb config myNodeNum packet payload clientIp = forward pb packet payload := by
  by_cases h0 : packet.portnum = 0
  · simp [routePacket, h0]
  · simp [routePacket, h0, h, blockedPortnums]

theorem routePacket_gate (h : packet.portnum = adminApp)
    (hg : adminGate config packet clientIp = false) :
    routePacket pb config myNodeNum packet payload clientIp = blocked := by
  have hz : adminApp ≠ 0 := by decide
  simp [routePacket, h, hz, hg]

/-- What happens to an ADMIN_APP packet past the gate. -/
theorem routePacket_admin (h : packet.portnum = adminApp)
    (hg : adminGate config packet clientIp = true) :
    routePacket pb config myNodeNum packet payload clientIp =
      if packet.payload ≠ [] then
        match interceptAdmin pb myNodeNum packet with
        | .ok (some routed) => routed
        | _ => forward pb packet payload
      else forward pb packet payload := by
  have hz : adminApp ≠ 0 := by decide
  cases hi : interceptAdmin pb myNodeNum packet with
  | error e => simp [routePacket, h, hz, hg, hi]
  | ok r => cases r <;> simp [routePacket, h, hz, hg, hi]

theorem buildFakeRoutingAck_ok {requestId : UInt32} {ack : Bytes}
    (h : buildFakeRoutingAck pb myNodeNum requestId packet = .ok ack) :
    ∃ mp, ack = pb.serializeFromRadio ⟨0, .packet mp⟩ := by
  by_cases h1 : "request_id" ∈ pb.routingFields
  · by_cases h2 : "error_reason" ∈ pb.routingFields
    · simp only [buildFakeRoutingAck, setRoutingField, h1, h2, if_true] at h
      cases h
      exact ⟨_, rfl⟩
    · simp only [buildFakeRoutingAck, setRoutingField, h1, h2, if_true, if_false] at h
      cases h
  · simp only [buildFakeRoutingAck, setRoutingField, h1, if_false] at h
    cases h

/-- The two commands that are not left to the router. -/
theorem interceptAdmin_some {routed : Routed}
    (h : interceptAdmin pb myNodeNum packet = .ok (some routed)) :
    (∃ num ack, pb.parseAdminMessage packet.payload = some (.removeByNodenum num) ∧
      buildFakeRoutingAck pb myNodeNum packet.id packet = .ok ack ∧
      routed = ⟨false, none, some ack⟩) ∨
    (pb.parseAdminMessage packet.payload = some .addContact ∧ routed = blocked) := by
  cases ha : pb.parseAdminMessage packet.payload with
  | none => simp only [interceptAdmin, ha] at h; cases h
  | some message =>
    cases message with
    | removeByNodenum num =>
      simp only [interceptAdmin, ha] at h
      cases hb : buildFakeRoutingAck pb myNodeNum packet.id packet with
      | error e => rw [hb] at h; cases h
      | ok ack =>
        rw [hb] at h
        cases h
        exact .inl ⟨num, ack, rfl, rfl, rfl⟩
    | addContact =>
      simp only [interceptAdmin, ha] at h
      cases h
      exact .inr ⟨rfl, rfl⟩
    | unset | getRequest field | command field => simp only [interceptAdmin, ha] at h; cases h

/-- A response to the client is a packet. -/
theorem interceptAdmin_response (hrt : pb.FromRadioRoundTrip) {routed : Routed} {response : Bytes}
    (h : interceptAdmin pb myNodeNum packet = .ok (some routed))
    (hr : routed.clientResponse = some response) :
    ∃ id ack, pb.parseFromRadio response = some ⟨id, .packet ack⟩ := by
  rcases interceptAdmin_some h with ⟨num, ack, -, hb, rfl⟩ | ⟨-, rfl⟩
  · cases hr
    obtain ⟨mp, rfl⟩ := buildFakeRoutingAck_ok hb
    exact ⟨0, mp, hrt _⟩
  · cases hr

theorem routeFromClient_response (hrt : pb.FromRadioRoundTrip) {response : Bytes}
    (h : (routeFromClient pb config myNodeNum payload clientIp).clientResponse = some response) :
    ∃ id ack, pb.parseFromRadio response = some ⟨id, .packet ack⟩ := by
  by_cases hx : ∃ packet, pb.parseToRadio payload = some (.packet packet)
  · obtain ⟨packet, hp⟩ := hx
    rw [routeFromClient_packet hp] at h
    by_cases hport : packet.portnum = adminApp
    · cases hg : adminGate config packet clientIp with
      | false => rw [routePacket_gate hport hg] at h; cases h
      | true =>
        rw [routePacket_admin hport hg] at h
        split at h
        · split at h
          · next routed hi => exact interceptAdmin_response hrt hi h
          · cases h
        · cases h
    · rw [routePacket_other hport] at h
      cases h
  · rw [routeFromClient_not_packet fun packet hp => hx ⟨packet, hp⟩] at h
    cases h

end Multiplextashtic.Router
