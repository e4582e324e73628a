import Multiplextashtic.Router
import Multiplextashtic.WireMessages

/-! # What the router lets through

The admin commands the router intercepts, the commands an unlisted address can
get to the physical node, and who decides about the rest. -/
namespace Multiplextashtic.Router
open Multiplextashtic.Protocol Multiplextashtic.Messages Multiplextashtic.Config Ipaddress

variable {E : Type} {pb : Protobuf E} {config : AppConfig} {myNodeNum : NodeNum} {payload : Bytes}
  {packet : MeshPacket E} {clientIp : String} {admin : AdminMessage}

/-! ## Interception -/

/-- An ACK from `myNodeNum` to the requester of `packet`, without error. -/
def FakeAck (pb : Protobuf E) (myNodeNum : NodeNum) (packet : MeshPacket E) (ack : Bytes) : Prop :=
  ∃ id mp data requestId, pb.parseFromRadio ack = some ⟨id, .packet mp⟩ ∧
    mp.fromNode = myNodeNum ∧
    mp.toNode = (if packet.fromNode = 0 then myNodeNum else packet.fromNode) ∧
    mp.payloadVariant = .decoded data ∧ data.portnum = routingApp ∧
    data.payload = pb.serializeRouting ⟨requestId, some .none⟩ ∧
    (mp.id = packet.id ∨ requestId = some packet.id)

/-- The two commands the README takes out of the stream. -/
def Intercepts (pb : Protobuf E) (config : AppConfig) (myNodeNum : NodeNum) (payload : Bytes)
    (clientIp : String) (packet : MeshPacket E) (admin : AdminMessage) : Prop :=
  (∀ num, admin = .removeByNodenum num → ∃ ack,
    routeFromClient pb config myNodeNum payload clientIp = ⟨false, none, some ack⟩ ∧
      FakeAck pb myNodeNum packet ack) ∧
  (admin = .addContact → routeFromClient pb config myNodeNum payload clientIp = ⟨false, none, none⟩)

/-- Routing declares no `request_id`, so the ACK is never built. -/
theorem buildFakeRoutingAck_error (hr : pb.RoutingOneof) (myNodeNum : NodeNum) (requestId : UInt32)
    (packet : MeshPacket E) :
    ∃ e, buildFakeRoutingAck pb myNodeNum requestId packet = .error e := by
  have hn : "request_id" ∉ pb.routingFields := by rw [hr]; decide
  refine ⟨.attributeError "Routing has no field request_id", ?_⟩
  simp only [buildFakeRoutingAck, setRoutingField, hn, if_false]
  rfl

/-- The interception takes out `add_contact` and nothing else: building the ACK
for `remove_by_nodenum` raises, and the handler goes on to forward. -/
theorem interceptAdmin_drops_iff (hr : pb.RoutingOneof) (myNodeNum : NodeNum) :
    (∃ routed, interceptAdmin pb myNodeNum packet = .ok (some routed)) ↔
      pb.parseAdminMessage packet.payload = some .addContact := by
  unfold interceptAdmin
  cases pb.parseAdminMessage packet.payload with
  | none => simp
  | some admin =>
    cases admin with
    | removeByNodenum num =>
      obtain ⟨e, he⟩ := buildFakeRoutingAck_error hr myNodeNum packet.id packet
      simp [he, bind, Except.bind]
    | addContact => simp
    | _ => simp

theorem interceptAdmin_addContact (h : pb.parseAdminMessage packet.payload = some .addContact) :
    interceptAdmin pb myNodeNum packet = .ok (some blocked) := by
  simp [interceptAdmin, h]

/-- Past the gate everything is forwarded but `add_contact`. -/
theorem routePacket_past_gate (hr : pb.RoutingOneof) (he : pb.EmptyAdminMessage)
    (hp : packet.portnum = adminApp) (hg : adminGate config packet clientIp = true) :
    routePacket pb config myNodeNum packet payload clientIp =
      if pb.parseAdminMessage packet.payload = some .addContact then blocked
      else forward pb packet payload := by
  rw [routePacket_admin hp hg]
  by_cases ha : pb.parseAdminMessage packet.payload = some .addContact
  · have hne : packet.payload ≠ [] := fun hn => by rw [hn, he] at ha; cases ha
    rw [if_pos hne, if_pos ha, interceptAdmin_addContact ha]
  · have hd := mt (interceptAdmin_drops_iff hr myNodeNum).mp ha
    rw [if_neg ha]
    split
    · split
      · next routed hi => exact absurd ⟨routed, hi⟩ hd
      · rfl
    · rfl

/-- **What the README promises about the two intercepted commands holds of every
admin message but `remove_by_nodenum`**, which is always forwarded. -/
theorem intercepts_iff (hr : pb.RoutingOneof) (he : pb.EmptyAdminMessage)
    (hp : pb.parseToRadio payload = some (.packet packet)) (hport : packet.portnum = adminApp)
    (ha : pb.parseAdminMessage packet.payload = some admin)
    (hg : adminGate config packet clientIp = true) :
    Intercepts pb config myNodeNum payload clientIp packet admin ↔
      ∀ num, admin ≠ .removeByNodenum num := by
  have hroute : routePacket pb config myNodeNum packet payload clientIp = _ :=
    routePacket_past_gate hr he hport hg
  rw [ha] at hroute
  unfold Intercepts
  rw [routeFromClient_packet hp, hroute]
  constructor
  · intro ⟨hrem, _⟩ num hnum
    obtain ⟨ack, hack, _⟩ := hrem num hnum
    simp [hnum, forward] at hack
  · intro hn
    refine ⟨fun num hnum => absurd hnum (hn num), fun hadd => ?_⟩
    simp [hadd, blocked]

/-- An ADMIN_APP packet with this AdminMessage in it. -/
def adminPacket (fromNode toNode : NodeNum) (message : Bytes) : MeshPacket Unit :=
  { fromNode, toNode, id := 42, payloadVariant := .decoded ⟨adminApp, message, ()⟩, rxTime := 0
    rxSnr := 0, hopLimit := 3, viaMqtt := false, publicKey := [], pkiEncrypted := false
    extra := () }

def addContactMessage : Bytes := [0x92, 0x04, 0x00]
def removeNode7Message : Bytes := [0xB0, 0x02, 0x07]
def reboot5Message : Bytes := [0x88, 0x06, 0x05]
def getOwnerMessage : Bytes := [0x18, 0x01]

theorem intercepts_addContact :
    Intercepts wire {} 0x11 (wire.serializeToRadio (.packet (adminPacket 1 2 addContactMessage)))
      "127.0.0.1" (adminPacket 1 2 addContactMessage) .addContact :=
  (intercepts_iff wire_routingOneof wire_emptyAdminMessage (wire_toRadioRoundTrip _) rfl
    (by decide) (by decide)).mpr fun num h => by cases h

/-- A `remove_by_nodenum` from localhost reaches the physical node. -/
theorem removeByNodenum_forwarded :
    wire.RoutingOneof ∧
    wire.parseToRadio (wire.serializeToRadio (.packet (adminPacket 1 2 removeNode7Message))) =
      some (.packet (adminPacket 1 2 removeNode7Message)) ∧
    (adminPacket 1 2 removeNode7Message).portnum = adminApp ∧
    wire.parseAdminMessage (adminPacket 1 2 removeNode7Message).payload =
      some (.removeByNodenum 7) ∧
    adminGate {} (adminPacket 1 2 removeNode7Message) "127.0.0.1" = true ∧
    ¬ Intercepts wire {} 0x11 (wire.serializeToRadio (.packet (adminPacket 1 2 removeNode7Message)))
      "127.0.0.1" (adminPacket 1 2 removeNode7Message) (.removeByNodenum 7) := by
  refine ⟨wire_routingOneof, wire_toRadioRoundTrip _, rfl, by decide, by decide, ?_⟩
  intro ⟨hrem, _⟩
  obtain ⟨ack, hack, _⟩ := hrem 7 rfl
  rw [routeFromClient_packet (wire_toRadioRoundTrip _), routePacket_past_gate wire_routingOneof
    wire_emptyAdminMessage rfl (by decide), if_neg (by decide)] at hack
  simp [forward] at hack

/-! ## Unlisted addresses -/

/-- If the bytes carry an ADMIN_APP packet, its message is a `get_*_request`. -/
def ReadOnly (pb : Protobuf E) (raw : Bytes) : Prop :=
  ∀ packet, pb.parseToRadio raw = some (.packet packet) → packet.portnum = adminApp →
    ∃ field, pb.parseAdminMessage packet.payload = some (.getRequest field)

/-- The forwarded bytes carry the packet that was checked, its PKI fields aside. -/
theorem parse_stripPki (hrt : pb.ToRadioRoundTrip)
    (hp : pb.parseToRadio payload = some (.packet packet)) :
    pb.parseToRadio (stripPki pb packet payload) = some (.packet packet) ∨
      pb.parseToRadio (stripPki pb packet payload) = some (.packet (clearPki packet)) := by
  unfold stripPki
  split
  · exact .inr (hrt _)
  · exact .inl hp

theorem stripPki_selfAddressed (h : SelfAddressed packet) :
    stripPki pb packet payload = payload := by
  simp [stripPki, h.1]

theorem readOnly_of_not_admin (hrt : pb.ToRadioRoundTrip)
    (hp : pb.parseToRadio payload = some (.packet packet)) (h : packet.portnum ≠ adminApp) :
    ReadOnly pb (stripPki pb packet payload) := by
  intro q hq hport
  rcases parse_stripPki hrt hp with he | he <;>
    rw [he] at hq <;> cases hq <;> exact absurd hport h

/-- Only a self-addressed packet gets an unlisted address past the gate. -/
theorem adminGate_unlisted (hl : clientIp ∉ localhostIps)
    (hu : ∀ entry ∈ config.security.allowAdminFromIps, ¬ EntryMatches clientIp entry) :
    adminGate config packet clientIp = true ↔ SelfAddressed packet := by
  rw [adminGate_iff]
  constructor
  · rintro (hs | hip | ⟨entry, hm, h⟩)
    · exact hs
    · exact absurd hip hl
    · exact absurd h (hu entry hm)
  · exact .inl

/-- **From an unlisted address only read-only queries reach the physical node,
exactly when every self-addressed admin packet carries one** (or `add_contact`,
which is dropped): the bypass does not look at the message. -/
theorem unlisted_readOnly_iff (hrt : pb.ToRadioRoundTrip) (hr : pb.RoutingOneof)
    (he : pb.EmptyAdminMessage) (hl : clientIp ∉ localhostIps)
    (hu : ∀ entry ∈ config.security.allowAdminFromIps, ¬ EntryMatches clientIp entry) :
    (∀ raw response,
      routeFromClient pb config myNodeNum payload clientIp = ⟨true, some raw, response⟩ →
      ReadOnly pb raw) ↔
    ∀ packet, pb.parseToRadio payload = some (.packet packet) → packet.portnum = adminApp →
      SelfAddressed packet →
      (∃ field, pb.parseAdminMessage packet.payload = some (.getRequest field)) ∨
        pb.parseAdminMessage packet.payload = some .addContact := by
  constructor
  · intro h packet hp hport hs
    by_cases ha : pb.parseAdminMessage packet.payload = some .addContact
    · exact .inr ha
    · have hf : routeFromClient pb config myNodeNum payload clientIp =
          ⟨true, some payload, none⟩ := by
        rw [routeFromClient_packet hp,
          routePacket_past_gate hr he hport ((adminGate_unlisted hl hu).mpr hs), if_neg ha, forward,
          stripPki_selfAddressed hs]
      exact .inl (h payload none hf packet hp hport)
  · intro h raw response hf
    by_cases hx : ∃ packet, pb.parseToRadio payload = some (.packet packet)
    · obtain ⟨packet, hp⟩ := hx
      rw [routeFromClient_packet hp] at hf
      by_cases hport : packet.portnum = adminApp
      · cases hg : adminGate config packet clientIp with
        | false => rw [routePacket_gate hport hg] at hf; cases hf
        | true =>
          have hs := (adminGate_unlisted hl hu).mp hg
          rw [routePacket_past_gate hr he hport hg] at hf
          split at hf
          · cases hf
          · next ha =>
            rw [forward, stripPki_selfAddressed hs] at hf
            cases hf
            intro q hq _
            rw [hp] at hq
            cases hq
            exact (h packet hp hport hs).resolve_right ha
      · rw [routePacket_other hport] at hf
        cases hf
        exact readOnly_of_not_admin hrt hp hport
    · rw [routeFromClient_not_packet fun packet hp => hx ⟨packet, hp⟩] at hf
      cases hf

theorem unlisted_getOwner :
    routeFromClient wire {} 0x11 (wire.serializeToRadio (.packet (adminPacket 1 1 getOwnerMessage)))
        "192.168.1.50" =
      ⟨true, some (wire.serializeToRadio (.packet (adminPacket 1 1 getOwnerMessage))), none⟩ ∧
    ReadOnly wire (wire.serializeToRadio (.packet (adminPacket 1 1 getOwnerMessage))) := by
  have hf : routeFromClient wire {} 0x11
      (wire.serializeToRadio (.packet (adminPacket 1 1 getOwnerMessage))) "192.168.1.50" =
      ⟨true, some (wire.serializeToRadio (.packet (adminPacket 1 1 getOwnerMessage))), none⟩ := by
    rw [routeFromClient_packet (wire_toRadioRoundTrip _), routePacket_past_gate wire_routingOneof
      wire_emptyAdminMessage rfl (by decide), if_neg (by decide)]
    rfl
  refine ⟨hf, (unlisted_readOnly_iff wire_toRadioRoundTrip wire_routingOneof wire_emptyAdminMessage
    (by decide) (by simp)).mpr ?_ _ _ hf⟩
  intro packet hp hport hs
  rw [wire_toRadioRoundTrip] at hp
  cases hp
  exact .inl ⟨3, by decide⟩

/-- An unlisted client reboots the physical node with `from == to`. -/
theorem unlisted_reboots :
    "192.168.1.50" ∉ localhostIps ∧
    routeFromClient wire {} 0x11 (wire.serializeToRadio (.packet (adminPacket 1 1 reboot5Message)))
        "192.168.1.50" =
      ⟨true, some (wire.serializeToRadio (.packet (adminPacket 1 1 reboot5Message))), none⟩ ∧
    wire.parseAdminMessage reboot5Message = some (.command 97) ∧
    ¬ ReadOnly wire (wire.serializeToRadio (.packet (adminPacket 1 1 reboot5Message))) := by
  refine ⟨by decide, ?_, by decide, ?_⟩
  · rw [routeFromClient_packet (wire_toRadioRoundTrip _), routePacket_past_gate wire_routingOneof
      wire_emptyAdminMessage rfl (by decide), if_neg (by decide)]
    rfl
  · intro h
    obtain ⟨field, hf⟩ := h _ (wire_toRadioRoundTrip _) rfl
    have hc : wire.parseAdminMessage (adminPacket 1 1 reboot5Message).payload =
        some (.command 97) := by decide
    rw [hc] at hf
    cases hf

/-! ## Who decides about the rest -/

/-- The allowlist replaced. -/
def withAllowlist (config : AppConfig) (entries : List String) : AppConfig :=
  { config with security := { config.security with allowAdminFromIps := entries } }

/-- Two allowlists with the same well-formed entries open the same gate. -/
theorem adminGate_congr {entries : List String}
    (h : ∀ entry, WellFormed entry →
      (entry ∈ entries ↔ entry ∈ config.security.allowAdminFromIps)) :
    adminGate (withAllowlist config entries) packet clientIp =
      adminGate config packet clientIp := by
  rw [Bool.eq_iff_iff, adminGate_iff, adminGate_iff]
  have hiff : (∃ entry ∈ entries, EntryMatches clientIp entry) ↔
      ∃ entry ∈ config.security.allowAdminFromIps, EntryMatches clientIp entry :=
    exists_congr fun entry => and_congr_left fun hm => h entry hm.wellFormed
  exact or_congr_right (or_congr_right hiff)

theorem routeFromClient_congr {entries : List String}
    (h : ∀ entry, WellFormed entry →
      (entry ∈ entries ↔ entry ∈ config.security.allowAdminFromIps)) :
    routeFromClient pb (withAllowlist config entries) myNodeNum payload clientIp =
      routeFromClient pb config myNodeNum payload clientIp := by
  have hg (packet : MeshPacket E) :
      adminGate (withAllowlist config entries) packet clientIp = adminGate config packet clientIp :=
    adminGate_congr h
  simp only [routeFromClient, routePacket, hg]

/-- The gate alone decides about an admin packet that is not intercepted. -/
theorem routeFromClient_admin (hp : pb.parseToRadio payload = some (.packet packet))
    (hport : packet.portnum = adminApp)
    (hrem : ∀ num, pb.parseAdminMessage packet.payload ≠ some (.removeByNodenum num))
    (hadd : pb.parseAdminMessage packet.payload ≠ some .addContact) :
    routeFromClient pb config myNodeNum payload clientIp =
      if adminGate config packet clientIp = true then forward pb packet payload else blocked := by
  have hnone : ∀ routed, interceptAdmin pb myNodeNum packet ≠ .ok (some routed) := by
    intro routed hi
    rcases interceptAdmin_some hi with ⟨num, ack, h, -⟩ | ⟨h, -⟩
    · exact hrem num h
    · exact hadd h
  rw [routeFromClient_packet hp]
  split
  · next hg =>
    rw [routePacket_admin hport hg]
    split
    · split
      · next routed hi => exact absurd hi (hnone routed)
      · rfl
    · rfl
  · next hg => exact routePacket_gate hport (by simpa using hg)

/-- **An admin packet that is not intercepted is forwarded exactly when it is
self-addressed, comes from localhost, or from an address some well-formed entry
matches.** Only the set of well-formed entries counts, an address that does not
parse is never matched, and what is forwarded parses to the header that was
checked. -/
theorem routeFromClient_admin_iff (hrt : pb.ToRadioRoundTrip) (config : AppConfig)
    (myNodeNum : NodeNum) (clientIp : String)
    (hp : pb.parseToRadio payload = some (.packet packet)) (hport : packet.portnum = adminApp)
    (hrem : ∀ num, pb.parseAdminMessage packet.payload ≠ some (.removeByNodenum num))
    (hadd : pb.parseAdminMessage packet.payload ≠ some .addContact) :
    ((∃ raw, routeFromClient pb config myNodeNum payload clientIp = ⟨true, some raw, none⟩) ↔
      (packet.fromNode ≠ 0 ∧ packet.fromNode = packet.toNode) ∨ clientIp ∈ localhostIps ∨
        ∃ entry ∈ config.security.allowAdminFromIps,
          WellFormed entry ∧ EntryMatches clientIp entry) ∧
    ((routeFromClient pb config myNodeNum payload clientIp).allowed = true ↔
      ∃ raw, routeFromClient pb config myNodeNum payload clientIp = ⟨true, some raw, none⟩) ∧
    (∀ entries, (∀ entry, WellFormed entry →
        (entry ∈ entries ↔ entry ∈ config.security.allowAdminFromIps)) →
      routeFromClient pb (withAllowlist config entries) myNodeNum payload clientIp =
        routeFromClient pb config myNodeNum payload clientIp) ∧
    (ipAddress clientIp = none → ∀ entry, ¬ EntryMatches clientIp entry) ∧
    (∀ raw response,
      routeFromClient pb config myNodeNum payload clientIp = ⟨true, some raw, response⟩ →
      ∃ sent, pb.parseToRadio raw = some (.packet sent) ∧ sent.portnum = packet.portnum ∧
        sent.fromNode = packet.fromNode ∧ sent.toNode = packet.toNode) := by
  have hroute : routeFromClient pb config myNodeNum payload clientIp = _ :=
    routeFromClient_admin hp hport hrem hadd
  have hforward :
      (∃ raw, routeFromClient pb config myNodeNum payload clientIp = ⟨true, some raw, none⟩) ↔
      adminGate config packet clientIp = true := by
    rw [hroute]
    split
    · next hg => exact iff_of_true ⟨_, rfl⟩ hg
    · next hg => exact iff_of_false (fun ⟨raw, h⟩ => by cases h) hg
  refine ⟨?_, ?_, fun entries h => routeFromClient_congr h, fun hn entry h => h.parses hn, ?_⟩
  · rw [hforward, adminGate_iff]
    refine or_congr_right (or_congr_right (exists_congr fun entry => and_congr_right fun _ => ?_))
    exact ⟨fun h => ⟨h.wellFormed, h⟩, And.right⟩
  · rw [hforward, hroute]
    split <;> next hg => simp [hg, forward, blocked]
  · intro raw response hr
    rw [hroute] at hr
    split at hr
    · cases hr
      rcases parse_stripPki hrt hp with h | h
      · exact ⟨_, h, rfl, rfl, rfl⟩
      · exact ⟨_, h, rfl, rfl, rfl⟩
    · cases hr

/-- An allowlist with a malformed entry in front of the subnet. -/
def subnetConfig : AppConfig := withAllowlist {} ["192.168.1.300", "192.168.1.0/24"]

theorem subnet_forwards_getOwner :
    ∃ raw, routeFromClient wire subnetConfig 0x11
      (wire.serializeToRadio (.packet (adminPacket 1 2 getOwnerMessage))) "192.168.1.50" =
        ⟨true, some raw, none⟩ := by
  have hm : EntryMatches "192.168.1.50" "192.168.1.0/24" := (ipMatchesEntry_iff _ _).mp (by decide)
  have ha : wire.parseAdminMessage (adminPacket 1 2 getOwnerMessage).payload =
      some (.getRequest 3) := by decide
  refine (routeFromClient_admin_iff wire_toRadioRoundTrip subnetConfig 0x11 "192.168.1.50"
    (wire_toRadioRoundTrip _) rfl (by simp [ha]) (by simp [ha])).1.mpr (.inr (.inr ?_))
  exact ⟨"192.168.1.0/24", by simp [subnetConfig, withAllowlist], hm.wellFormed, hm⟩

end Multiplextashtic.Router
