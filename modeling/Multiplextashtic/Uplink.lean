import Multiplextashtic.Components
import Multiplextashtic.Guard
import Multiplextashtic.RadioStream
import Multiplextashtic.RouterSecurity

/-! # From the clients to the physical node

The message queue hands what it has accepted to `send_raw_to_radio`, in order and
once each, and that is all that is ever written to the node besides the handshakes. -/
namespace Multiplextashtic.MessageQueue

variable {α : Type} {q q' : MessageQueue α} {i : Nat}

/-! ## What a turn hands over -/

theorem sendingAt_set {t : Task α} (hi : i < q.tasks.length) :
    sendingAt (q.setTask i t) i = match t with | .sending raw => some raw | _ => none := by
  unfold sendingAt setTask
  rw [List.getElem?_set_self hi]
  cases t <;> rfl

theorem handed_nextMessage (hi : i < q.tasks.length) :
    (q.nextMessage i).handed = q.handed ++ (sendingAt (q.nextMessage i) i).toList := by
  unfold nextMessage
  split
  · next hq =>
    have hnone : sendingAt (q.finish i) i = none := by
      unfold finish
      simp only [setTask, hq, List.length_nil, Nat.lt_irrefl, if_false]
      exact sendingAt_set (t := .finished) hi
    rw [hnone]
    simp [finish, setTask, hq]
  · next raw rest hq =>
    have hsome := sendingAt_set (t := .sending raw) hi
    simp only [sendingAt, setTask] at hsome ⊢
    rw [hsome]
    rfl

theorem handed_start (hs : step q (.start i) = some q') :
    q'.handed = q.handed ++ (sendingAt q' i).toList := by
  cases step_stepped hs with
  | start ht =>
    obtain ⟨hi, -⟩ := List.getElem?_eq_some_iff.mp ht
    unfold start
    split
    · rw [sendingAt_set hi]
      exact (List.append_nil _).symm
    · exact handed_nextMessage (q := { q with processing := true }) hi

theorem handed_wake (hs : step q (.wake i) = some q') :
    q'.handed = q.handed ++ (sendingAt q' i).toList := by
  cases step_stepped hs with
  | wake ht => exact handed_nextMessage (List.getElem?_eq_some_iff.mp ht).1

theorem handed_sent {raised : Bool} (hs : step q (.sent i raised) = some q') :
    q'.handed = q.handed := by
  cases step_stepped hs with
  | sent ht => rfl

theorem handed_enqueueRaw (q : MessageQueue α) (raw : α) : (q.enqueueRaw raw).2.handed = q.handed := by
  unfold enqueueRaw
  split
  · simp only
    split <;> rfl
  · rfl

end Multiplextashtic.MessageQueue

namespace Multiplextashtic.Main
open Multiplextashtic.Protocol Multiplextashtic.Messages Multiplextashtic.Config
open Multiplextashtic.PhysicalNode (RadioLink PhysicalNodeConfig ConnectAwait LinkEvent)
open Multiplextashtic.PhysicalNode (Opens sent sentOn wantConfig)
open Multiplextashtic.Server (TCPServer peers)
open Multiplextashtic.Client Multiplextashtic.ReadLoop Run

variable {E : Type} {pb : Protobuf E} {p p' : Program E} {s s' : TCPServer E} {i : Nat}

/-! ## Handing over -/

theorem handed_server {e : Server.Event} (hs : Server.step pb s e = some s') :
    s'.messages.handed = s.messages.handed ++ (sending s' e).toList := by
  cases Server.step_stepped hs with
  | @client cid ce h h' f hh hc =>
    cases f with
    | none => exact (List.append_nil _).symm
    | some f => exact (MessageQueue.handed_enqueueRaw _ _).trans (List.append_nil _).symm
  | startTask hm => exact MessageQueue.handed_start hm
  | sent hm => exact (MessageQueue.handed_sent hm).trans (List.append_nil _).symm
  | wake hm => exact MessageQueue.handed_wake hm
  | _ => exact (List.append_nil _).symm

theorem handed_client {cid : Nat} {ce : ClientEvent}
    (hs : Server.step pb s (.client cid ce) = some s') : s'.messages.handed = s.messages.handed :=
  (handed_server hs).trans (List.append_nil _)

theorem handed_refreshConfig (s : TCPServer E) (cid : Nat) :
    (refreshConfig pb s cid).messages.handed = s.messages.handed := by
  unfold refreshConfig
  cases hs : Server.step pb s (.client cid .refresh) with
  | none => rfl
  | some s' => exact handed_client hs

theorem handed_refreshAllClients (cids : List Nat) : ∀ p : Program E,
    (refreshAllClients pb i cids p).server.messages.handed = p.server.messages.handed := by
  induction cids with
  | nil => exact fun _ => rfl
  | cons cid rest ih =>
    intro p
    unfold refreshAllClients
    simp only
    split
    · exact handed_refreshConfig _ _
    · exact (ih _).trans (handed_refreshConfig _ _)

theorem handed_cacheMyInfo (p : Program E) (ok : Bool) :
    (cacheMyInfo p ok).server.messages = p.server.messages := by
  unfold cacheMyInfo Server.cacheMyInfo
  cases ok with
  | false => rfl
  | true => cases p.server.phys.myInfo <;> rfl

theorem calls_task {l l' : RadioLink} {e : PhysicalNode.Event} {nonce : UInt32}
    (hs : PhysicalNode.linkStep pb l (.task e nonce) = some l') : l'.calls = l.calls := by
  obtain ⟨manager, -, hs⟩ := Option.bind_eq_some_iff.mp hs
  cases hs
  rfl

theorem calls_sendRawToRadio (l : RadioLink) (raw : Bytes) :
    (PhysicalNode.sendRawToRadio l raw).calls.map Prod.snd = l.calls.map Prod.snd ++ [raw] := by
  unfold PhysicalNode.sendRawToRadio
  split
  · simp
  · split <;> simp

/-- `send_raw_to_radio` has been called with what the message queue has handed over. -/
def Calls (p : Program E) : Prop := p.link.calls.map Prod.snd = p.server.messages.handed

theorem Calls.keep (h : Calls p) (hc : p'.link.calls = p.link.calls)
    (hh : p'.server.messages.handed = p.server.messages.handed) : Calls p' := by
  rw [Calls, hc, hh]
  exact h

theorem Calls.step (h : Calls p) {e : Event} (hs : Main.step pb p e = some p') : Calls p' := by
  cases step_stepped hs with
  | @chunk i chunk nonce link hl =>
    have hkept : Calls { p with link } := h.keep (calls_task hl) rfl
    refine radioChunk_keeps hkept hkept ?_
    intro q payload hq
    refine hq.keep (by rw [radioPayload_link]) ?_
    rw [radioPayload_server]
    rfl
  | connected hl hr => exact h.keep (calls_task hl) rfl
  | link hl hd hchunk => exact h.keep (calls_task hl) rfl
  | @server e server ha hserver =>
    have hhanded := handed_server hserver
    unfold Calls at h ⊢
    simp only
    rw [hhanded, ← h]
    cases sending server e with
    | none => exact (List.append_nil _).symm
    | some raw => exact calls_sendRawToRadio p.link raw
  | starts | mainCaptures | stops => exact h
  | identifies | mainIdentifies =>
    exact h.keep rfl (congrArg MessageQueue.handed (handed_cacheMyInfo p _))
  | captures hr hw =>
    exact h.keep (by rw [refreshAllClients_link]; rfl) (handed_refreshAllClients _ _)
  | drained hr hserver hwaits => exact h.keep rfl (handed_client hserver)
  | refreshed hr hserver hover =>
    refine h.keep (by rw [refreshAllClients_link]) ?_
    exact (handed_refreshAllClients _ _).trans (handed_client hserver)
  | disconnects hm hl => exact h.keep (calls_task hl) rfl

/-! ## Runs -/

section
variable {config : AppConfig} {phys : PhysicalNodeConfig} {failed : Option ConnectAwait}
  {nonce : UInt32} {es : List Event}

theorem run_calls (hr : run (step pb) (start pb config phys failed nonce) es = some p) :
    Calls p := by
  have hstart : Calls (start pb config phys failed nonce) := by
    rw [Calls, start_link, start_server]
    rfl
  exact invariant (P := Calls) (fun _ _ _ h hs => h.step hs) hstart hr

theorem run_accepted {ses : List Server.Event}
    (hr : run (Server.step pb) (Server.init config) ses = some s) :
    s.accepted.map (·.2.raw) = s.messages.accepted :=
  invariant (P := fun s : TCPServer E => s.accepted.map (·.2.raw) = s.messages.accepted)
    (fun _ _ _ h hs => Server.accepted_step hs h) rfl hr

/-- **What the clients send reaches the node once each and in order, or is dropped.** The
packets accepted from clients are what `send_raw_to_radio` was called with and what still
waits. Those of them that found a connection are what the node reads on its connections, one
after the other, each behind a request for the config of the proxy's own. -/
theorem run_uplink (hw : pb.WantConfigSize)
    (hr : run (step pb) (start pb config phys failed nonce) es = some p) :
    (∀ k bytes, p.link.streams[k]? = some bytes → ∃ opening, Opens pb opening (sentOn p.link k) ∧
      decode bytes = opening ++ sentOn p.link k ∧
      ∀ x, x <+: bytes → decode x <+: opening ++ sentOn p.link k) ∧
    (List.range p.link.streams.length).flatMap (sentOn p.link) =
      p.link.calls.filterMap (fun call => call.1.map fun _ => call.2) ∧
    p.link.calls.map Prod.snd ++ p.server.messages.queue =
      p.server.accepted.map (·.2.raw) := by
  obtain ⟨ls, hlink⟩ := run_link hr
  have hlinked := PhysicalNode.run_linked hw phys failed nonce hlink
  obtain ⟨-, hserver⟩ := run_server hr
  refine ⟨?_, ?_, ?_⟩
  · intro k bytes hk
    exact PhysicalNode.carries_decode hw (hlinked.carries k bytes hk)
  · refine (Interleaving.flatMap_part hlinked.ordered hlinked.opened).trans ?_
    rw [sent, List.map_filterMap]
    simp only [Option.map_map]
    rfl
  · rw [run_calls hr, run_accepted hserver, (Server.running_run hserver).ordered.accepted_eq]

def getOwner : Bytes :=
  wire.serializeToRadio (.packet (Router.adminPacket 5 7 Router.getOwnerMessage))

/-- The client sends a command for another node, and the message queue hands it over. -/
def commanded : List Event :=
  comesUp ++ clientReady ++ [.server (.client 0 (.payload getOwner 200)), .server (.startTask 0)]

set_option maxRecDepth 10000 in
theorem run_uplink_commanded :
    ∃ p, run (step wire) (start wire {} {} none 0x05) commanded = some p ∧
      p.server.accepted.map (·.2.raw) = [getOwner] ∧
      (List.range p.link.streams.length).flatMap (sentOn p.link) = [getOwner] := by
  have hrun : (run (step wire) (start wire {} {} none 0x05) commanded).map
      (fun p => (p.link.calls, p.server.messages.queue)) = some ([(some 0, getOwner)], []) := by
    decide
  obtain ⟨p, hp, hend⟩ := Option.map_eq_some_iff.mp hrun
  obtain ⟨hcalls, hqueue⟩ := Prod.mk.inj hend
  obtain ⟨-, hsent, haccepted⟩ := run_uplink wire_wantConfigSize hp
  rw [hcalls] at hsent haccepted
  rw [hqueue] at haccepted
  exact ⟨p, hp, haccepted.symm, hsent⟩

/-- A packet the node reads on a connection was accepted from a client. -/
theorem accepted_of_decode (hw : pb.WantConfigSize) (hrt : pb.ToRadioRoundTrip)
    (hr : run (step pb) (start pb config phys failed nonce) es = some p) {k : Nat} {bytes x : Bytes}
    (hk : p.link.streams[k]? = some bytes) (hx : x <+: bytes) {payload : Bytes}
    (hm : payload ∈ decode x) {packet : MeshPacket E}
    (hp : pb.parseToRadio payload = some (.packet packet)) :
    ∃ cid f, (cid, f) ∈ p.server.accepted ∧ f.raw = payload := by
  obtain ⟨ls, hlink⟩ := run_link hr
  have hlinked := PhysicalNode.run_linked hw phys failed nonce hlink
  obtain ⟨-, hserver⟩ := run_server hr
  obtain ⟨opening, hopens, -, hdecode⟩ := PhysicalNode.carries_decode hw (hlinked.carries k bytes hk)
  have hsent : payload ∈ sentOn p.link k := by
    rcases List.mem_append.mp ((hdecode x hx).subset hm) with hopening | hsent
    · rcases hopens with ⟨rfl, -⟩ | ⟨nonce, rfl⟩
      · cases hopening
      · rw [List.mem_singleton.mp hopening, wantConfig, hrt] at hp
        cases hp
    · exact hsent
  have hcalled : payload ∈ p.link.calls.map Prod.snd := by
    obtain ⟨c, hc, rfl⟩ := List.mem_map.mp hsent
    obtain ⟨call, hcall, hsome⟩ := List.mem_filterMap.mp (List.mem_of_mem_filter hc)
    obtain ⟨j, -, rfl⟩ := Option.map_eq_some_iff.mp hsome
    exact List.mem_map_of_mem hcall
  have haccepted : payload ∈ p.server.accepted.map (·.2.raw) := by
    rw [run_accepted hserver, (Server.running_run hserver).ordered.accepted_eq, ← run_calls hr]
    exact List.mem_append_left _ hcalled
  obtain ⟨⟨cid, f⟩, hf, hraw⟩ := List.mem_map.mp haccepted
  exact ⟨cid, f, hf, hraw⟩

/-- **Whatever the node reads, a client was let send.** On every connection and however much
of it has arrived: a packet among what the node reads was accepted from a client, and it is
never one of node 0 encrypted to a key. If it is an ADMIN_APP packet, it adds no contact, and
the client's address is past the gate or the packet is self-addressed. -/
theorem run_guarded (hw : pb.WantConfigSize) (hrt : pb.ToRadioRoundTrip)
    (he : pb.EmptyAdminMessage)
    (hr : run (step pb) (start pb config phys failed nonce) es = some p) {k : Nat} {bytes x : Bytes}
    (hk : p.link.streams[k]? = some bytes) (hx : x <+: bytes) {payload : Bytes}
    (hm : payload ∈ decode x) {packet : MeshPacket E}
    (hp : pb.parseToRadio payload = some (.packet packet)) :
    ∃ cid f peerIp, (cid, f) ∈ p.server.accepted ∧ f.raw = payload ∧
      (peers p.server)[cid]? = some peerIp ∧ Guarded pb config peerIp packet := by
  obtain ⟨-, hserver⟩ := run_server hr
  obtain ⟨hlet, hconfig⟩ := Server.run_allLet hserver
  obtain ⟨cid, f, hf, hraw⟩ := accepted_of_decode hw hrt hr hk hx hm hp
  obtain ⟨peerIp, hpeer, hg⟩ := hlet _ hf
  refine ⟨cid, f, peerIp, hf, hraw, hpeer, ?_⟩
  rw [← hconfig]
  exact hg.guarded hrt he (hraw ▸ hp)

set_option maxRecDepth 10000 in
theorem run_guarded_commanded :
    ∃ p, run (step wire) (start wire {} {} none 0x05) commanded = some p ∧
      ∃ cid f peerIp, (cid, f) ∈ p.server.accepted ∧ (peers p.server)[cid]? = some peerIp ∧
        Guarded wire {} peerIp (Router.adminPacket 5 7 Router.getOwnerMessage) := by
  let bytes := PhysicalNode.greeting true ++ stream [wantConfig wire 0x05, getOwner]
  have hrun : (run (step wire) (start wire {} {} none 0x05) commanded).map
      (fun p => p.link.streams[0]?) = some (some bytes) := by decide
  have hfits : ∀ msg ∈ [wantConfig wire 0x05, getOwner], msg.length ≤ maxPacketSize := by decide
  have hm : getOwner ∈ decode bytes := by
    rw [PhysicalNode.decode_greeting, decode_stream hfits]
    exact List.mem_cons_of_mem _ (List.mem_singleton_self _)
  obtain ⟨p, hp, hbytes⟩ := Option.map_eq_some_iff.mp hrun
  obtain ⟨cid, f, peerIp, hf, -, hpeer, hg⟩ := run_guarded wire_wantConfigSize
    wire_toRadioRoundTrip wire_emptyAdminMessage hp hbytes (List.prefix_refl _) hm
    (wire_toRadioRoundTrip _)
  exact ⟨p, hp, cid, f, peerIp, hf, hpeer, hg⟩

/-- **The node reads no packet of a client that has not been given a whole configuration.** Each
was accepted from a client to which the writes of a whole replay, up to its ConfigComplete,
have been made one after the other by one of its tasks. -/
theorem run_introduced (hw : pb.WantConfigSize) (hrt : pb.ToRadioRoundTrip)
    (hr : run (step pb) (start pb config phys failed nonce) es = some p) {k : Nat} {bytes x : Bytes}
    (hk : p.link.streams[k]? = some bytes) (hx : x <+: bytes) {payload : Bytes}
    (hm : payload ∈ decode x) {packet : MeshPacket E}
    (hp : pb.parseToRadio payload = some (.packet packet)) :
    ∃ cid f h source configId ws, (cid, f) ∈ p.server.accepted ∧ f.raw = payload ∧
      p.server.handlers[cid]? = some h ∧ source.replays = true ∧ Whole pb configId ws ∧
      ws <:+: writesOf source h.written := by
  obtain ⟨-, hserver⟩ := run_server hr
  obtain ⟨cid, f, hf, hraw⟩ := accepted_of_decode hw hrt hr hk hx hm hp
  obtain ⟨written, hwrites, source, configId, ws, hs, hwhole, hin⟩ :=
    Server.run_allIntroduced hserver _ hf
  rw [Server.writes, List.getElem?_map] at hwrites
  obtain ⟨h, hh, rfl⟩ := Option.map_eq_some_iff.mp hwrites
  exact ⟨cid, f, h, source, configId, ws, hf, hraw, hh, hs, hwhole, hin⟩

set_option maxRecDepth 10000 in
theorem run_introduced_commanded :
    ∃ p configId ws, run (step wire) (start wire {} {} none 0x05) commanded = some p ∧
      Whole wire configId ws ∧
      ∃ h ∈ p.server.handlers, ∃ source, ws <:+: writesOf source h.written := by
  let bytes := PhysicalNode.greeting true ++ stream [wantConfig wire 0x05, getOwner]
  have hrun : (run (step wire) (start wire {} {} none 0x05) commanded).map
      (fun p => p.link.streams[0]?) = some (some bytes) := by decide
  have hfits : ∀ msg ∈ [wantConfig wire 0x05, getOwner], msg.length ≤ maxPacketSize := by decide
  have hm : getOwner ∈ decode bytes := by
    rw [PhysicalNode.decode_greeting, decode_stream hfits]
    exact List.mem_cons_of_mem _ (List.mem_singleton_self _)
  obtain ⟨p, hp, hbytes⟩ := Option.map_eq_some_iff.mp hrun
  obtain ⟨cid, f, h, source, configId, ws, -, -, hh, -, hwhole, hin⟩ :=
    run_introduced wire_wantConfigSize wire_toRadioRoundTrip hp hbytes (List.prefix_refl _) hm
      (wire_toRadioRoundTrip _)
  exact ⟨p, configId, ws, hp, hwhole, h, List.mem_of_getElem? hh, source, hin⟩

end

end Multiplextashtic.Main
