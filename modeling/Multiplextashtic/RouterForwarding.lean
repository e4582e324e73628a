import Multiplextashtic.Router
import Multiplextashtic.WireMessages

/-! # What forwarding does to a packet

Whether a packet is forwarded depends on nothing that the PKI stripping changes,
and on nothing the configuration says about portnums. -/
namespace Multiplextashtic.Router
open Multiplextashtic.Protocol Multiplextashtic.Messages Multiplextashtic.Config

variable {E : Type} {pb : Protobuf E} {config : AppConfig} {myNodeNum : NodeNum}
  {payload raw : Bytes} {packet : MeshPacket E} {clientIp : String}

/-! ## Forwarded or not -/

/-- Neither the gate nor the interception keeps the packet. -/
def Passes (pb : Protobuf E) (config : AppConfig) (myNodeNum : NodeNum) (packet : MeshPacket E)
    (clientIp : String) : Prop :=
  packet.portnum = adminApp → adminGate config packet clientIp = true ∧
    (packet.payload ≠ [] → ∀ routed, interceptAdmin pb myNodeNum packet ≠ .ok (some routed))

theorem routePacket_passes (h : Passes pb config myNodeNum packet clientIp) :
    routePacket pb config myNodeNum packet payload clientIp = forward pb packet payload := by
  by_cases hport : packet.portnum = adminApp
  · obtain ⟨hg, hi⟩ := h hport
    rw [routePacket_admin hport hg]
    split
    · next hne =>
      split
      · next routed hr => exact absurd hr (hi hne routed)
      · rfl
    · rfl
  · exact routePacket_other hport

theorem routePacket_kept (h : ¬ Passes pb config myNodeNum packet clientIp) :
    (routePacket pb config myNodeNum packet payload clientIp).allowed = false ∧
    (routePacket pb config myNodeNum packet payload clientIp).rawToForward = none := by
  obtain ⟨hport, h⟩ := Classical.not_imp.mp h
  cases hg : adminGate config packet clientIp with
  | false =>
    rw [routePacket_gate hport hg]
    exact ⟨rfl, rfl⟩
  | true =>
    have hi : ¬ (packet.payload ≠ [] →
        ∀ routed, interceptAdmin pb myNodeNum packet ≠ .ok (some routed)) := fun hi => h ⟨hg, hi⟩
    obtain ⟨hne, hi⟩ := Classical.not_imp.mp hi
    obtain ⟨routed, hr⟩ := not_forall_not.mp hi
    rw [routePacket_admin hport hg, if_pos hne, hr]
    rcases interceptAdmin_some hr with ⟨num, ack, -, -, rfl⟩ | ⟨-, rfl⟩
    · exact ⟨rfl, rfl⟩
    · exact ⟨rfl, rfl⟩

/-- Every way through the router. -/
theorem routeFromClient_cases (pb : Protobuf E) (config : AppConfig) (myNodeNum : NodeNum)
    (payload : Bytes) (clientIp : String) :
    (∃ packet, pb.parseToRadio payload = some (.packet packet) ∧
      Passes pb config myNodeNum packet clientIp ∧
      routeFromClient pb config myNodeNum payload clientIp = forward pb packet payload) ∨
    ((routeFromClient pb config myNodeNum payload clientIp).allowed = false ∧
      (routeFromClient pb config myNodeNum payload clientIp).rawToForward = none) := by
  by_cases hx : ∃ packet, pb.parseToRadio payload = some (.packet packet)
  · obtain ⟨packet, hp⟩ := hx
    rw [routeFromClient_packet hp]
    by_cases h : Passes pb config myNodeNum packet clientIp
    · exact .inl ⟨packet, hp, h, routePacket_passes h⟩
    · exact .inr (routePacket_kept h)
  · rw [routeFromClient_not_packet fun packet hp => hx ⟨packet, hp⟩]
    exact .inr ⟨rfl, rfl⟩

/-! ## Transparency -/

/-- Neither check reads the PKI fields. -/
theorem passes_clearPki :
    Passes pb config myNodeNum (clearPki packet) clientIp ↔
      Passes pb config myNodeNum packet clientIp := by
  have hi : interceptAdmin pb myNodeNum (clearPki packet) = interceptAdmin pb myNodeNum packet := by
    unfold interceptAdmin
    rw [show (clearPki packet).payload = packet.payload from rfl]
    cases pb.parseAdminMessage packet.payload with
    | none => rfl
    | some message => cases message <;> rfl
  unfold Passes
  rw [hi]
  exact Iff.rfl

/-- Whoever the packet says it comes from, a stripped one is not stripped again. -/
theorem stripPki_clearPki : stripPki pb (clearPki packet) payload = payload := by
  simp [stripPki, clearPki]

/-- **What is forwarded is the client's payload, byte for byte, or the client's
packet without its PKI encryption if it came from node 0.** No forwarded packet
is encrypted for node 0, what is forwarded is forwarded again as it is, and no
response goes with it. -/
theorem routeFromClient_transparent (hrt : pb.ToRadioRoundTrip) (config : AppConfig)
    (myNodeNum : NodeNum) (payload : Bytes) (clientIp : String) :
    (∀ raw, (routeFromClient pb config myNodeNum payload clientIp).rawToForward = some raw →
      (∃ packet, pb.parseToRadio payload = some (.packet packet) ∧
        if packet.fromNode = 0 ∧ packet.pkiEncrypted = true then
          pb.parseToRadio raw =
            some (.packet { packet with pkiEncrypted := false, publicKey := [] })
        else raw = payload) ∧
      (∀ sent, pb.parseToRadio raw = some (.packet sent) →
        ¬ (sent.fromNode = 0 ∧ sent.pkiEncrypted = true)) ∧
      routeFromClient pb config myNodeNum raw clientIp = ⟨true, some raw, none⟩) ∧
    ((routeFromClient pb config myNodeNum payload clientIp).allowed = true →
      ∃ raw, routeFromClient pb config myNodeNum payload clientIp = ⟨true, some raw, none⟩) := by
  rcases routeFromClient_cases pb config myNodeNum payload clientIp with
    ⟨packet, hp, hpass, hroute⟩ | ⟨hblocked, hnone⟩
  · rw [hroute]
    refine ⟨?_, fun _ => ⟨_, rfl⟩⟩
    intro raw hraw
    obtain rfl : stripPki pb packet payload = raw := Option.some.inj hraw
    by_cases hpki : packet.fromNode = 0 ∧ packet.pkiEncrypted = true
    · have hstrip : stripPki pb packet payload =
          pb.serializeToRadio (.packet (clearPki packet)) := if_pos hpki
      have hsent : pb.parseToRadio (stripPki pb packet payload) =
          some (.packet (clearPki packet)) := by rw [hstrip, hrt]
      refine ⟨⟨packet, hp, by rw [if_pos hpki]; exact hsent⟩, ?_, ?_⟩
      · intro sent hparse
        rw [hsent] at hparse
        cases hparse
        exact fun h => Bool.noConfusion h.2
      · rw [routeFromClient_packet hsent, routePacket_passes (passes_clearPki.mpr hpass), forward,
          stripPki_clearPki]
    · have hsame : stripPki pb packet payload = payload := if_neg hpki
      rw [hsame]
      refine ⟨⟨packet, hp, by rw [if_neg hpki]⟩, ?_, ?_⟩
      · intro sent hparse
        rw [hp] at hparse
        cases hparse
        exact hpki
      · rw [hroute, forward, hsame]
  · refine ⟨?_, ?_⟩
    · intro raw hraw
      rw [hnone] at hraw
      cases hraw
    · intro hallowed
      rw [hblocked] at hallowed
      cases hallowed

/-- A packet of a client that does not know its node number, encrypted to a key. -/
def encryptedPacket : MeshPacket Unit where
  fromNode := 0
  toNode := 5
  id := 77
  payloadVariant := .encrypted [0x55]
  rxTime := 0
  rxSnr := 0
  hopLimit := 3
  viaMqtt := false
  publicKey := List.replicate 32 7
  pkiEncrypted := true
  extra := ()

theorem routeFromClient_strips :
    ∃ raw, routeFromClient wire {} 0x11 (wire.serializeToRadio (.packet encryptedPacket))
        "192.168.1.50" = ⟨true, some raw, none⟩ ∧
      ∃ packet, wire.parseToRadio (wire.serializeToRadio (.packet encryptedPacket)) =
        some (.packet packet) ∧
        if packet.fromNode = 0 ∧ packet.pkiEncrypted = true then
          wire.parseToRadio raw =
            some (.packet { packet with pkiEncrypted := false, publicKey := [] })
        else raw = wire.serializeToRadio (.packet encryptedPacket) := by
  have htransparent := routeFromClient_transparent wire_toRadioRoundTrip {} 0x11
    (wire.serializeToRadio (.packet encryptedPacket)) "192.168.1.50"
  have hroute : routeFromClient wire {} 0x11 (wire.serializeToRadio (.packet encryptedPacket))
      "192.168.1.50" = forward wire encryptedPacket
        (wire.serializeToRadio (.packet encryptedPacket)) := by
    rw [routeFromClient_packet (wire_toRadioRoundTrip _), routePacket_other (by decide)]
  refine ⟨_, hroute, (htransparent.1 _ ?_).1⟩
  rw [hroute]
  rfl

/-! ## Blocked portnums -/

/-- `portnums_pb2.PortNum.Name` of the first portnums. -/
def portNumName (portnum : PortNum) : Option String :=
  [((0 : PortNum), "UNKNOWN_APP"), (1, "TEXT_MESSAGE_APP"), (2, "REMOTE_HARDWARE_APP"),
    (3, "POSITION_APP"), (4, "NODEINFO_APP"), (5, "ROUTING_APP"), (6, "ADMIN_APP")].lookup portnum

/-- A packet whose portnum's name is on the configured list does not reach the
physical node. ADMIN_APP is left to the allowlist. -/
def Discards (pb : Protobuf E) (name : PortNum → Option String) (config : AppConfig)
    (myNodeNum : NodeNum) (payload : Bytes) (clientIp : String) (packet : MeshPacket E) : Prop :=
  ∀ n, name packet.portnum = some n → n ∈ config.security.blockedPortnums → n ≠ "ADMIN_APP" →
    (routeFromClient pb config myNodeNum payload clientIp).rawToForward = none

/-- The configuration lists no portnum by name but ADMIN_APP. -/
def ListsOnlyAdmin (name : PortNum → Option String) (config : AppConfig) : Prop :=
  ∀ portnum n, name portnum = some n → n ∈ config.security.blockedPortnums → n = "ADMIN_APP"

/-- **The configured list has no effect**: what is on it is kept from the physical
node exactly where nothing but ADMIN_APP is on it. -/
theorem blockedPortnums_iff (hrt : pb.ToRadioRoundTrip) {name : PortNum → Option String}
    (hname : name adminApp = some "ADMIN_APP") (config : AppConfig) :
    (∀ myNodeNum payload clientIp packet, pb.parseToRadio payload = some (.packet packet) →
      (Discards pb name config myNodeNum payload clientIp packet ↔
        ∀ n, name packet.portnum = some n → n ∈ config.security.blockedPortnums →
          n = "ADMIN_APP")) ∧
    ((∀ myNodeNum payload clientIp packet, pb.parseToRadio payload = some (.packet packet) →
      Discards pb name config myNodeNum payload clientIp packet) ↔ ListsOnlyAdmin name config) := by
  have hpacket : ∀ myNodeNum payload clientIp packet,
      pb.parseToRadio payload = some (.packet packet) →
      (Discards pb name config myNodeNum payload clientIp packet ↔
        ∀ n, name packet.portnum = some n → n ∈ config.security.blockedPortnums →
          n = "ADMIN_APP") := by
    intro myNodeNum payload clientIp packet hp
    constructor
    · intro h n hn hlisted
      by_contra hne
      have hport : packet.portnum ≠ adminApp := by
        intro hport
        rw [hport, hname] at hn
        exact hne (Option.some.inj hn).symm
      have hnone := h n hn hlisted hne
      rw [routeFromClient_packet hp, routePacket_other hport] at hnone
      cases hnone
    · intro h n hn hlisted hne
      exact absurd (h n hn hlisted) hne
  refine ⟨hpacket, ?_, ?_⟩
  · intro h portnum n hn
    -- any portnum can arrive in a packet
    let packet : MeshPacket E :=
      { fromNode := 0, toNode := 0, id := 0, payloadVariant := .decoded ⟨portnum, [], pb.noExtra⟩
        rxTime := 0, rxSnr := 0, hopLimit := 0, viaMqtt := false, publicKey := []
        pkiEncrypted := false, extra := pb.noExtra }
    have hp : pb.parseToRadio (pb.serializeToRadio (.packet packet)) = some (.packet packet) :=
      hrt _
    exact (hpacket 0 _ "" packet hp).mp (h 0 _ "" packet hp) n hn
  · intro h myNodeNum payload clientIp packet hp
    exact (hpacket myNodeNum payload clientIp packet hp).mpr fun n => h packet.portnum n

/-- A text message. -/
def textPacket : MeshPacket Unit where
  fromNode := 0
  toNode := 0xFFFFFFFF
  id := 78
  payloadVariant := .decoded ⟨1, [0x68, 0x69], ()⟩
  rxTime := 0
  rxSnr := 0
  hopLimit := 3
  viaMqtt := false
  publicKey := []
  pkiEncrypted := false
  extra := ()

/-- By default only ADMIN_APP is on the list. -/
theorem blockedPortnums_default : ListsOnlyAdmin portNumName {} ∧
    Discards wire portNumName {} 0x11 (wire.serializeToRadio (.packet textPacket)) "192.168.1.50"
      textPacket := by
  have hname : portNumName adminApp = some "ADMIN_APP" := by decide
  have hlists : ListsOnlyAdmin portNumName {} := by
    intro portnum n _ hlisted
    exact List.mem_singleton.mp hlisted
  exact ⟨hlists, (blockedPortnums_iff wire_toRadioRoundTrip hname {}).2.mpr hlists _ _ _ _
    (wire_toRadioRoundTrip _)⟩

/-- With TEXT_MESSAGE_APP on the list a text message is still forwarded. -/
theorem textMessage_forwarded :
    wire.parseToRadio (wire.serializeToRadio (.packet textPacket)) = some (.packet textPacket) ∧
    portNumName textPacket.portnum = some "TEXT_MESSAGE_APP" ∧
    ¬ Discards wire portNumName { security := { blockedPortnums := ["ADMIN_APP",
      "TEXT_MESSAGE_APP"] } } 0x11 (wire.serializeToRadio (.packet textPacket)) "192.168.1.50"
      textPacket := by
  refine ⟨wire_toRadioRoundTrip _, by decide, ?_⟩
  intro h
  have hnone := h "TEXT_MESSAGE_APP" (by decide) (by simp) (by decide)
  rw [routeFromClient_packet (wire_toRadioRoundTrip _), routePacket_other (by decide)] at hnone
  cases hnone

end Multiplextashtic.Router
