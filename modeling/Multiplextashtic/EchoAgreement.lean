import Multiplextashtic.Connection
import Multiplextashtic.Echo
import Multiplextashtic.RouterForwarding

/-! # What the clients are shown of a forwarded packet

The handler echoes the packet it has parsed itself; the bytes for the physical
node come from the router, which strips its own copy. -/
namespace Multiplextashtic.Client
open Multiplextashtic.Protocol Multiplextashtic.Messages Multiplextashtic.Router

variable {E : Type} {pb : Protobuf E} {w : World} {h h' : ClientHandler E} {f : Option (Forward E)}
  {payload : Bytes} {packet : MeshPacket E}

/-! ## Where forwarded bytes come from -/

/-- The bytes are what the router makes of a payload that carries the packet. -/
def Forward.Routed (pb : Protobuf E) (f : Forward E) : Prop :=
  ∃ payload, pb.parseToRadio payload = some (.packet f.packet) ∧
    f.raw = stripPki pb f.packet payload

/-- No packet waits for the answer before it to drain. -/
def NonePending (h : ClientHandler E) : Prop := ∀ f, h.read ≠ .responding (some f)

theorem forwardOf_routed (hp : pb.parseToRadio payload = some (.packet packet)) {f : Forward E}
    (hf : forwardOf packet (forward pb packet payload) = some f) : f.Routed pb := by
  unfold forwardOf forward at hf
  simp only at hf
  split at hf
  · cases hf
    exact ⟨payload, hp, rfl⟩
  · cases hf

theorem forwardOf_kept {routed : Routed} (hr : routed.allowed = false) :
    forwardOf packet routed = none := by
  simp only [forwardOf, hr]

/-- The router answers the client or lets the packet through, never both. -/
theorem respond_routed (hn : NonePending h) (hp : pb.parseToRadio payload = some (.packet packet)) :
    NonePending (respond h packet (routeFromClient pb w.env.config w.myNodeNum payload h.peerIp)).1 ∧
    ∀ f, (respond h packet (routeFromClient pb w.env.config w.myNodeNum payload h.peerIp)).2 =
      some f → f.Routed pb := by
  rcases routeFromClient_cases pb w.env.config w.myNodeNum payload h.peerIp with
    ⟨packet', hp', -, hroute⟩ | ⟨hblocked, -⟩
  · obtain rfl : packet = packet' := by
      rw [hp] at hp'
      cases hp'
      rfl
    rw [hroute]
    exact ⟨hn, fun f hf => forwardOf_routed hp hf⟩
  · generalize routeFromClient pb w.env.config w.myNodeNum payload h.peerIp = routed at hblocked
    unfold respond
    rw [forwardOf_kept hblocked]
    split
    · split
      · split
        · exact ⟨fun f hr => (nomatch hr), fun f hf => (nomatch hf)⟩
        · exact ⟨fun f hr => (nomatch hr), fun f hf => (nomatch hf)⟩
      · exact ⟨hn, fun f hf => (nomatch hf)⟩
    · exact ⟨hn, fun f hf => (nomatch hf)⟩

theorem readTurn_nonePending (h : ClientHandler E) (turn : ConfigReplay.Turn) :
    NonePending (readTurn h turn) := by
  intro f hr
  cases turn <;> cases hr

theorem handleToRadio_routed (hread : h.read = .reading) (hn : NonePending h) (payload : Bytes)
    (now : Time) : NonePending (handleToRadio h pb w payload now).1 ∧
      ∀ g, (handleToRadio h pb w payload now).2 = some g → g.Routed pb := by
  rcases @handleToRadio_cases E pb h w payload now hread with
    ⟨toRadio, -, -, -, hreq⟩ | ⟨packet, hhand, hres⟩ | ⟨-, hnone, hsame | hstatus⟩
  · rw [hreq]
    exact ⟨readTurn_nonePending _ _, fun g hg => (nomatch hg)⟩
  · rw [hres]
    obtain ⟨-, hparse, -⟩ := handedToRouter_eq_some.mp hhand
    exact respond_routed hn hparse
  · rw [hnone, hsame]
    exact ⟨hn, fun g hg => (nomatch hg)⟩
  · rw [hnone, hstatus]
    refine ⟨?_, fun g hg => (nomatch hg)⟩
    unfold sendQueueStatus
    simp only
    split
    · exact hn
    · exact fun f hr => (nomatch hr)

/-- **What a step of a connection forwards, the router has made.** -/
theorem clientStep_routed {e : ClientEvent} (hn : NonePending h)
    (hs : clientStep pb w h e = some (h', f)) :
    NonePending h' ∧ ∀ g, f = some g → g.Routed pb := by
  cases clientStep_stepped hs with
  | @payload payload now _ _ hread hlen hp =>
    have hrouted := @handleToRadio_routed E pb w h hread hn payload now
    rw [hp] at hrouted
    exact hrouted
  | resumeRead hr =>
    unfold resumeRead at hr
    split at hr
    · cases hr
      exact ⟨readTurn_nonePending _ _, fun g hg => (nomatch hg)⟩
    · cases hr
      exact ⟨fun f hr => (nomatch hr), fun g hg => (nomatch hg)⟩
    · next forward hread =>
      cases forward with
      | none =>
        split at hr <;> cases hr <;> exact ⟨fun f hr => (nomatch hr), fun g hg => (nomatch hg)⟩
      | some f => exact absurd hread (hn f)
    · cases hr
  | @hangUp lost _ hg =>
    unfold hangUp at hg
    split at hg <;> cases hg
    refine ⟨?_, fun g hg => (nomatch hg)⟩
    intro f hr
    cases lost <;> cases hr
  | writeNext hw =>
    unfold writeNext at hw
    split at hw
    · split at hw <;> cases hw <;> exact ⟨hn, fun g hg => (nomatch hg)⟩
    · cases hw
  | resumeWrite hw =>
    unfold resumeWrite at hw
    split at hw <;> cases hw
    exact ⟨hn, fun g hg => (nomatch hg)⟩
  | refresh =>
    refine ⟨?_, fun g hg => (nomatch hg)⟩
    intro f hr
    unfold refreshConfig at hr
    rw [refreshTurn_read] at hr
    exact hn f hr
  | resumeRefresh hr =>
    unfold resumeRefresh at hr
    split at hr <;> cases hr
    refine ⟨?_, fun g hg => (nomatch hg)⟩
    intro f hr
    exact hn f (refreshTurn_read _ _ _ ▸ hr)
  | tearDown ht =>
    unfold tearDown at ht
    split at ht <;> cases ht
    refine ⟨?_, fun g hg => (nomatch hg)⟩
    intro f hr
    split at hr
    · exact hn f hr
    · cases hr

end Multiplextashtic.Client

namespace Multiplextashtic.Server
open Multiplextashtic.Protocol Multiplextashtic.Messages Multiplextashtic.Config
open Multiplextashtic.Router Multiplextashtic.Client Run

variable {E : Type} {pb : Protobuf E} {s s' : TCPServer E} {cid : Nat} {f : Forward E}

/-! ## Runs -/

/-- A server in whose handlers no packet waits for an answer stays such a server. -/
theorem step_nonePending {e : Event} (hn : ∀ h ∈ s.handlers, NonePending h)
    (hs : step pb s e = some s') : ∀ h ∈ s'.handlers, NonePending h := by
  refine step_forall hs hn ?_ ?_ ?_
  · intro peerIp f hr
    cases hr
  · intro h h' ce f hc hh
    exact (clientStep_routed hh hc).1
  · intro data _ h hh
    exact hh

theorem forwarded_routed {e : Event} (hn : ∀ h ∈ s.handlers, NonePending h)
    (hf : forwarded pb s e = some (cid, f)) : f.Routed pb := by
  cases e with
  | client c ce =>
    obtain ⟨h, hh, hf⟩ := Option.bind_eq_some_iff.mp hf
    obtain ⟨⟨h', g⟩, hc, hf⟩ := Option.bind_eq_some_iff.mp hf
    obtain ⟨g, rfl, hg⟩ := Option.bind_eq_some_iff.mp hf
    cases hg
    exact (clientStep_routed (hn _ (List.mem_of_getElem? hh)) hc).2 _ rfl
  | _ => cases hf

/-- The echo that the clients are sent and the bytes that the message queue is handed
carry the same packet, but for a sender of 0, which the echo shows as the own node. -/
def EchoAgrees (pb : Protobuf E) (myNodeNum : NodeNum) (f : Forward E) : Prop :=
  ∃ sent shown, pb.parseToRadio f.raw = some (.packet sent) ∧
    pb.parseFromRadio (echoBytes pb myNodeNum f.packet) = some ⟨sent.id, .packet shown⟩ ∧
    shown = { sent with fromNode := if sent.fromNode = 0 then myNodeNum else sent.fromNode }

theorem echoPacket_eq (myNodeNum : NodeNum) (packet : MeshPacket E) :
    echoPacket myNodeNum packet =
      { packet with fromNode := if packet.fromNode = 0 then myNodeNum else packet.fromNode } := by
  unfold echoPacket
  split <;> rfl

/-- The encryption that is stripped is what the two disagree about. -/
theorem echoAgrees_iff (hto : pb.ToRadioRoundTrip) (hfrom : pb.FromRadioRoundTrip)
    (myNodeNum : NodeNum) (hf : f.Routed pb) :
    EchoAgrees pb myNodeNum f ↔ ¬ (f.packet.fromNode = 0 ∧ f.packet.pkiEncrypted = true) := by
  obtain ⟨payload, hp, hraw⟩ := hf
  have hecho : pb.parseFromRadio (echoBytes pb myNodeNum f.packet) =
      some ⟨f.packet.id, .packet (echoPacket myNodeNum f.packet)⟩ := hfrom _
  constructor
  · intro ⟨sent, shown, hsent, hshown, heq⟩ hpki
    rw [hraw, stripPki, if_pos hpki, hto] at hsent
    rw [hecho] at hshown
    cases hsent
    cases hshown
    rw [echoPacket_eq] at heq
    have hflag : f.packet.pkiEncrypted = false := congrArg MeshPacket.pkiEncrypted heq
    rw [hpki.2] at hflag
    cases hflag
  · intro hpki
    refine ⟨f.packet, _, ?_, hecho, echoPacket_eq myNodeNum f.packet⟩
    rw [hraw, stripPki, if_neg hpki]
    exact hp

/-- **The clients are shown the packet that is sent exactly where it is not one of
node 0 encrypted to a key.** -/
theorem run_echoAgrees_iff (hto : pb.ToRadioRoundTrip) (hfrom : pb.FromRadioRoundTrip)
    (config : AppConfig) (es : List Event) (hr : run (step pb) (init config) es = some s)
    {e : Event} (hf : forwarded pb s e = some (cid, f)) :
    EchoAgrees pb s.phys.myNodeNum f ↔
      ¬ (f.packet.fromNode = 0 ∧ f.packet.pkiEncrypted = true) := by
  have hn : ∀ h ∈ s.handlers, NonePending h :=
    invariant (P := fun s : TCPServer E => ∀ h ∈ s.handlers, NonePending h)
      (fun s e s' hn hs => step_nonePending hn hs) (List.forall_mem_nil _) hr
  exact echoAgrees_iff hto hfrom _ (forwarded_routed hn hf)

set_option maxRecDepth 10000 in
theorem run_echoAgrees_small :
    ∃ s f, run (step wire) (init {}) configured = some s ∧
      forwarded wire s (send 3) = some (0, f) ∧ EchoAgrees wire s.phys.myNodeNum f := by
  have hforward : (run (step wire) (init {}) configured).map (fun s => forwarded wire s (send 3)) =
      some (some (0, ⟨meshPacket 3, wire.serializeToRadio (.packet (meshPacket 3))⟩)) := by decide
  obtain ⟨s, hs, hf⟩ := Option.map_eq_some_iff.mp hforward
  refine ⟨s, _, hs, hf, ?_⟩
  exact (run_echoAgrees_iff wire_toRadioRoundTrip wire_fromRadioRoundTrip {} configured hs hf).mpr
    (by decide)

/-- A client sends an encrypted packet as node 0. -/
def sendEncrypted : Event :=
  .client 0 (.payload (wire.serializeToRadio (.packet encryptedPacket)) 200)

set_option maxRecDepth 10000 in
/-- The clients are shown an encrypted packet, which was sent in the clear. -/
theorem run_echo_disagrees :
    ∃ s f, run (step wire) (init {}) configured = some s ∧
      forwarded wire s sendEncrypted = some (0, f) ∧
      wire.parseToRadio f.raw =
        some (.packet { encryptedPacket with publicKey := [], pkiEncrypted := false }) ∧
      wire.parseFromRadio (echoBytes wire s.phys.myNodeNum f.packet) =
        some ⟨77, .packet { encryptedPacket with fromNode := 0x11 }⟩ ∧
      ¬ EchoAgrees wire s.phys.myNodeNum f := by
  have hforward : (run (step wire) (init {}) configured).map
      (fun s => (s.phys.myNodeNum, forwarded wire s sendEncrypted)) =
      some (0x11, some (0, ⟨encryptedPacket, wire.serializeToRadio (.packet (clearPki
        encryptedPacket))⟩)) := by decide
  obtain ⟨s, hs, hf⟩ := Option.map_eq_some_iff.mp hforward
  obtain ⟨hnum, hf⟩ := Prod.mk.inj hf
  refine ⟨s, _, hs, hf, wire_toRadioRoundTrip _, ?_, ?_⟩
  · rw [hnum]
    exact wire_fromRadioRoundTrip _
  · have hrouted : Forward.Routed wire ⟨encryptedPacket, wire.serializeToRadio (.packet (clearPki
        encryptedPacket))⟩ :=
      ⟨wire.serializeToRadio (.packet encryptedPacket), wire_toRadioRoundTrip _, rfl⟩
    rw [echoAgrees_iff wire_toRadioRoundTrip wire_fromRadioRoundTrip _ hrouted]
    exact not_not_intro ⟨rfl, rfl⟩

end Multiplextashtic.Server
