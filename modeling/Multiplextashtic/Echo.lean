import Multiplextashtic.Server
import Multiplextashtic.WireMessages

/-! # Forwarded packets and their echo

A packet that goes to the physical node is first shown to every client. The echo
is larger than what the client sent, and it is out before the queue decides
about the packet. -/
namespace Multiplextashtic.Server
open Multiplextashtic.Protocol Multiplextashtic.Messages Multiplextashtic.Config
open Multiplextashtic.Client Run

variable {E : Type} {pb : Protobuf E} {size : MeshPacket E → Nat} {s s' : TCPServer E}

/-! ## Sizes -/

/-- The size of the echo of a packet. -/
def echoSize (size : MeshPacket E → Nat) (myNodeNum : NodeNum) (packet : MeshPacket E) : Nat :=
  let n := size packet + if packet.fromNode = 0 ∧ myNodeNum ≠ 0 then 5 else 0
  Protobuf.idSize packet.id + (1 + Protobuf.varintSize n + n)

theorem echoBytes_length (hsz : pb.PacketSizes size) (myNodeNum : NodeNum) (packet : MeshPacket E) :
    (echoBytes pb myNodeNum packet).length = echoSize size myNodeNum packet := by
  have hsize : size (echoPacket myNodeNum packet) =
      size packet + if packet.fromNode = 0 ∧ myNodeNum ≠ 0 then 5 else 0 := by
    unfold echoPacket
    by_cases h0 : packet.fromNode = 0
    · by_cases hn : myNodeNum = 0
      · obtain ⟨_, _, _, _, _, _, _, _, _, _, _⟩ := packet
        simp_all
      · simp [h0, hn, hsz.setFrom packet myNodeNum h0 hn]
    · simp [h0]
  rw [echoBytes, hsz.fromRadio, hsize]
  rfl

/-- If the step forwards a packet, its echo is no larger than a frame can carry. -/
def EchoFits (pb : Protobuf E) (size : MeshPacket E → Nat) (s : TCPServer E) (e : Event) : Prop :=
  (forwarded pb s e).all fun f => echoSize size s.phys.myNodeNum f.2.packet ≤ maxPacketSize

instance (s : TCPServer E) (e : Event) : Decidable (EchoFits pb size s e) :=
  inferInstanceAs (Decidable (_ = true))

/-- Everything on a client's queue fits in a frame, and no write task has choked on it. -/
structure Unharmed (h : ClientHandler E) : Prop where
  queue : ∀ data ∈ h.queue, data.length ≤ maxPacketSize
  write : ∀ msg, h.write ≠ .failed (.valueError msg)

theorem Unharmed.clientStep {w : World} {h h' : ClientHandler E} {e : ClientEvent}
    {f : Option (Forward E)} (hu : Unharmed h) (hs : clientStep pb w h e = some (h', f)) :
    Unharmed h' := by
  rcases clientStep_writer hs with ⟨hq, hw⟩ | ⟨-, hn⟩ | ⟨lost, -, hr⟩ | ⟨-, ht⟩
  · exact ⟨by rw [hq]; exact hu.queue, by rw [hw]; exact hu.write⟩
  · unfold writeNext at hn
    split at hn
    · next data rest _ hq =>
      have hfits : ∀ d ∈ data :: rest, d.length ≤ maxPacketSize := hq ▸ hu.queue
      obtain ⟨hdata, hrest⟩ := List.forall_mem_cons.mp hfits
      rw [encodeFrame_ok hdata] at hn
      cases hn
      exact ⟨hrest, fun msg => nofun⟩
    · cases hn
  · unfold resumeWrite at hr
    split at hr <;> cases hr
    refine ⟨hu.queue, ?_⟩
    intro msg
    cases lost <;> nofun
  · unfold tearDown at ht
    split at ht <;> cases ht
    refine ⟨hu.queue, ?_⟩
    intro msg
    simp only
    split
    · exact hu.write msg
    · nofun

/-- What the server holds for its clients fits in frames. -/
structure Bounded (s : TCPServer E) : Prop where
  radio : ∀ payload ∈ s.phys.readQueue, payload.length ≤ maxPacketSize
  clients : ∀ h ∈ s.handlers, Unharmed h

theorem readQueue_maybeCaptureMyInfo (phys : PhysicalNode) (payload : Bytes) :
    (maybeCaptureMyInfo pb phys payload).readQueue = phys.readQueue := by
  unfold maybeCaptureMyInfo
  split
  · rfl
  · split <;> rfl

theorem phys_forwardPacket (s : TCPServer E) (cid : Nat) (f : Option (Forward E)) :
    (forwardPacket pb s cid f).phys = s.phys := by
  cases f <;> rfl

/-- What a step adds to the payloads waiting for `process_incoming`. -/
theorem readQueue_step {e : Event} (hs : step pb s e = some s') :
    ∀ payload ∈ s'.phys.readQueue, payload ∈ s.phys.readQueue ∨
      (e = .radio payload ∧ payload.length ≤ maxPacketSize) := by
  intro payload hm
  cases step_stepped hs with
  | client hh hc =>
    rw [phys_forwardPacket] at hm
    exact .inl hm
  | radio hlen =>
    rcases List.mem_append.mp hm with hm | hm
    · rw [readQueue_maybeCaptureMyInfo] at hm; exact .inl hm
    · rw [List.mem_singleton.mp hm]; exact .inr ⟨rfl, hlen⟩
  | dropped hq => rw [hq]; exact .inl (List.mem_cons_of_mem _ hm)
  | broadcast hq => rw [hq]; exact .inl (List.mem_cons_of_mem _ hm)
  | connect | remove | cacheMyInfo | recapture | startTask | sent | wake => exact .inl hm

theorem Bounded.step (hsz : pb.PacketSizes size) {e : Event} (hb : Bounded s)
    (hf : EchoFits pb size s e) (hs : step pb s e = some s') : Bounded s' := by
  refine ⟨?_, step_forall hs hb.clients ?_ ?_ ?_⟩
  · intro payload hm
    rcases readQueue_step hs payload hm with hm | ⟨-, hlen⟩
    · exact hb.radio payload hm
    · exact hlen
  · intro peerIp
    exact ⟨nofun, fun msg => nofun⟩
  · intro h h' ce f hc hu
    exact hu.clientStep hc
  · intro data hdata h hu
    have hlen : data.length ≤ maxPacketSize := by
      cases hdata with
      | echo hfw =>
        rw [echoBytes_length hsz]
        simpa [EchoFits, hfw] using hf
      | radio hq => exact hb.radio data (hq ▸ List.mem_cons_self)
    refine ⟨?_, hu.write⟩
    intro d hd
    rcases List.mem_append.mp hd with hd | hd
    · exact hu.queue d hd
    · rw [List.mem_singleton.mp hd]; exact hlen

/-- **Clients do not harm each other in runs whose echoes fit**: whatever is on a
client's queue can be framed, and no write task has failed to. -/
theorem run_unharmed (hsz : pb.PacketSizes size) (config : AppConfig) (es : List Event)
    (hr : run (step pb) (init config) es = some s)
    (hf : Along (step pb) (EchoFits pb size) (init config) es) :
    ∀ h ∈ s.handlers,
      (∀ data ∈ h.queue, data.length ≤ maxPacketSize ∧ ∃ f, encodeFrame data = .ok f) ∧
      ∀ msg, h.write ≠ .failed (.valueError msg) := by
  have hinit : Bounded (init config : TCPServer E) := ⟨List.forall_mem_nil _, List.forall_mem_nil _⟩
  have hb : Bounded s := invariant_along (fun s e t hb hf hs => hb.step hsz hf hs) hinit hf hr
  intro h hm
  refine ⟨?_, (hb.clients h hm).write⟩
  intro data hd
  have hlen := (hb.clients h hm).queue data hd
  exact ⟨hlen, _, encodeFrame_ok hlen⟩

/-- Start-up, one known node, and two clients, the first of which asks for the node list. -/
def configured : List Event :=
  [.radio (wire.serializeFromRadio ⟨1, .myInfo ⟨0x11, 1, 20200, [], 0, 1⟩⟩), .processIncoming,
    .cacheMyInfo, .recapture 80,
    .radio (wire.serializeFromRadio ⟨2, .nodeInfo ⟨5, none, none, 0, 0, none, false, none, false,
      false⟩⟩), .processIncoming,
    .connect "192.168.1.50", .connect "192.168.1.51",
    .client 0 (.payload (wire.serializeToRadio (.wantConfigId 69421)) 100),
    .client 0 (.resumeRead false), .client 0 (.resumeRead false), .client 0 (.resumeRead false)]

/-- An encrypted packet of node 5. -/
def meshPacket (bytes : Nat) : MeshPacket Unit :=
  { fromNode := 5, toNode := 0xFFFFFFFF, id := 1234
    payloadVariant := .encrypted (List.replicate bytes 0x55), rxTime := 0, rxSnr := 0, hopLimit := 0
    viaMqtt := false, publicKey := [], pkiEncrypted := false, extra := () }

def send (bytes : Nat) : Event :=
  .client 0 (.payload (wire.serializeToRadio (.packet (meshPacket bytes))) 200)

set_option maxRecDepth 10000 in
theorem run_unharmed_small :
    ∃ s, run (step wire) (init {}) (configured ++ [send 3]) = some s ∧
      ∀ h ∈ s.handlers, ∀ data ∈ h.queue, data.length ≤ maxPacketSize := by
  obtain ⟨s, hs⟩ : ∃ s, run (step wire) (init {}) (configured ++ [send 3]) = some s :=
    Option.isSome_iff_exists.mp (by decide)
  refine ⟨s, hs, ?_⟩
  intro h hm data hd
  obtain ⟨hqueue, -⟩ := run_unharmed wire_packetSizes {} _ hs (by decide) h hm
  exact (hqueue data hd).1

set_option maxRecDepth 10000 in
/-- A packet of 512 bytes from one client ends the write task of the other. -/
theorem run_harmed :
    (wire.serializeToRadio (.packet (meshPacket 491))).length = maxPacketSize ∧
    ∃ s, run (step wire) (init {}) (configured ++ [send 491, .client 1 .writeNext]) = some s ∧
      ∃ h ∈ s.handlers, h.requested = [] ∧
        h.write = .failed (.valueError "Payload size 515 exceeds MAX_PACKET_SIZE 512") := by
  refine ⟨by decide, ?_⟩
  have hrun : (run (step wire) (init {}) (configured ++ [send 491, .client 1 .writeNext])).map
      (fun s => s.handlers.any fun h => decide (h.requested = [] ∧
        h.write = .failed (.valueError "Payload size 515 exceeds MAX_PACKET_SIZE 512"))) =
      some true := by decide
  obtain ⟨s, hs, hany⟩ := Option.map_eq_some_iff.mp hrun
  obtain ⟨h, hm, hd⟩ := List.any_eq_true.mp hany
  exact ⟨s, hs, h, hm, of_decide_eq_true hd⟩

/-! ## Echo and queue -/

/-- If the step forwards a packet, the message queue has room for it. -/
def QueueHasRoom (pb : Protobuf E) (s : TCPServer E) (e : Event) : Prop :=
  (forwarded pb s e).isSome → s.messages.queue.length < MessageQueue.queueMaxSize

instance (s : TCPServer E) (e : Event) : Decidable (QueueHasRoom pb s e) :=
  inferInstanceAs (Decidable (_ → _))

/-- A step that forwards a packet echoes it, and has it accepted if there is room. -/
theorem step_logs {e : Event} (hs : step pb s e = some s') :
    s'.echoed = s.echoed ++ (forwarded pb s e).toList ∧
    s'.accepted = s.accepted ++
      if s.messages.queue.length < MessageQueue.queueMaxSize then (forwarded pb s e).toList
      else [] := by
  cases step_stepped hs with
  | @client cid ce h0 h1 f hh hc =>
    have hf : forwarded pb s (.client cid ce) = f.map (cid, ·) := by
      cases f <;> simp [forwarded, hh, hc]
    rw [hf]
    cases f with
    | none => simp [forwardPacket, setHandler]
    | some f =>
      refine ⟨rfl, ?_⟩
      have ha := MessageQueue.enqueueRaw_answer s.messages f.raw
      show (if (s.messages.enqueueRaw f.raw).1 then s.accepted ++ [(cid, f)] else s.accepted) = _
      rw [ha]
      split
      · next hl => rw [if_pos (of_decide_eq_true hl)]; rfl
      · next hl => rw [if_neg (by simpa using hl), List.append_nil]
  | _ => simp [forwarded, connect, removeClient, recapture, radioPayload, taken, broadcastFromRadio]

/-- What a run adds to the two records, and when it adds the same to both. -/
theorem run_logs : ∀ (es : List Event) {s s' : TCPServer E}, run (step pb) s es = some s' →
    ∃ echoed accepted, s'.echoed = s.echoed ++ echoed ∧ s'.accepted = s.accepted ++ accepted ∧
      accepted.length ≤ echoed.length ∧
      (echoed = accepted ↔ Along (step pb) (QueueHasRoom pb) s es)
  | [], s, s', hr => by
    cases hr
    exact ⟨[], [], (List.append_nil _).symm, (List.append_nil _).symm, Nat.le_refl _,
      iff_of_true rfl trivial⟩
  | e :: es, s, s', hr => by
    obtain ⟨t, ht, hr⟩ := run_cons.mp hr
    obtain ⟨echoed, accepted, he, ha, hlen, hiff⟩ := run_logs es hr
    obtain ⟨hes, has⟩ := step_logs ht
    have halong : Along (step pb) (QueueHasRoom pb) s (e :: es) ↔
        QueueHasRoom pb s e ∧ Along (step pb) (QueueHasRoom pb) t es :=
      and_congr_right fun _ =>
        ⟨fun h => h t ht, fun h u hu => Option.some.inj (ht.symm.trans hu) ▸ h⟩
    rw [hes] at he
    rw [has] at ha
    refine ⟨_, _, he.trans (List.append_assoc ..), ha.trans (List.append_assoc ..), ?_, ?_⟩
    · rw [List.length_append, List.length_append]
      split
      · omega
      · rw [List.length_nil]; omega
    · rw [halong, ← hiff]
      cases hf : forwarded pb s e with
      | none => simp [QueueHasRoom, hf]
      | some f =>
        by_cases hroom : s.messages.queue.length < MessageQueue.queueMaxSize
        · simp [QueueHasRoom, hf, hroom]
        · -- the refused packet makes the echoes outnumber what was accepted for good
          refine iff_of_false (fun heq => ?_) (fun h => hroom (h.1 (by simp [hf])))
          have := congrArg List.length heq
          simp only [hroom, if_false, List.nil_append, Option.toList_some, List.length_append,
            List.length_singleton] at this
          omega

/-- The bytes in the queue's record are those of the accepted packets. -/
theorem accepted_step {e : Event} (hs : step pb s e = some s')
    (h : s.accepted.map (·.2.raw) = s.messages.accepted) :
    s'.accepted.map (·.2.raw) = s'.messages.accepted := by
  cases step_stepped hs with
  | @client cid ce h0 h1 f hh hc =>
    cases f with
    | none => exact h
    | some f =>
      show List.map (·.2.raw) (if (s.messages.enqueueRaw f.raw).1 then s.accepted ++ [(cid, f)]
        else s.accepted) = (s.messages.enqueueRaw f.raw).2.accepted
      rw [MessageQueue.enqueueRaw_accepted, ← h]
      split
      · rw [List.map_append]; rfl
      · rfl
  | startTask hm | sent hm | wake hm =>
    rw [MessageQueue.accepted_of_not_enqueue (by simp) hm]
    exact h
  | connect | remove | radio | dropped | broadcast | cacheMyInfo | recapture => exact h

/-- **The clients see exactly what the queue accepts in the runs in which every
packet finds room in it.** -/
theorem run_echoed_iff (config : AppConfig) (es : List Event)
    (hr : run (step pb) (init config) es = some s) :
    (s.echoed = s.accepted ↔ Along (step pb) (QueueHasRoom pb) (init config) es) ∧
    s.accepted.map (·.2.raw) = s.messages.accepted := by
  obtain ⟨echoed, accepted, he, ha, -, hiff⟩ := run_logs es hr
  constructor
  · rw [he, ha]
    exact hiff
  · exact invariant (P := fun s => s.accepted.map (·.2.raw) = s.messages.accepted)
      (fun s e t h hs => accepted_step hs h) rfl hr

set_option maxRecDepth 10000 in
theorem run_echoed_one :
    ∃ s, run (step wire) (init {}) (configured ++ [send 3]) = some s ∧ s.echoed = s.accepted := by
  obtain ⟨s, hs⟩ : ∃ s, run (step wire) (init {}) (configured ++ [send 3]) = some s :=
    Option.isSome_iff_exists.mp (by decide)
  exact ⟨s, hs, (run_echoed_iff {} _ hs).1.mpr (by decide)⟩

set_option maxRecDepth 10000 in
/-- Of a burst of 101 packets the last is echoed but refused. -/
theorem run_echoes_refused :
    ∃ s, run (step wire) (init {}) (configured ++ List.replicate 101 (send 3)) = some s ∧
      s.echoed.length = 101 ∧ s.accepted.length = 100 ∧ s.echoed ≠ s.accepted := by
  have hrun : (run (step wire) (init {}) (configured ++ List.replicate 101 (send 3))).map
      (fun s => (s.echoed.length, s.accepted.length)) = some (101, 100) := by decide
  obtain ⟨s, hs, hlen⟩ := Option.map_eq_some_iff.mp hrun
  obtain ⟨he, ha⟩ := Prod.mk.inj hlen
  exact ⟨s, hs, he, ha, fun heq => by rw [heq, ha] at he; cases he⟩

end Multiplextashtic.Server
