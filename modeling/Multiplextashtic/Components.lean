import Multiplextashtic.Main

/-! # The server and the writer inside the program

A step of the program is a run of the server, and one of the writers of the physical
node. What holds in every run of one of these therefore holds in every run of the
program. -/
namespace Multiplextashtic.Main
open Multiplextashtic.Protocol Multiplextashtic.Messages Multiplextashtic.Config
open Multiplextashtic.PhysicalNode (RadioLink PhysicalNodeConfig ConnectAwait LinkEvent)
open Multiplextashtic.Server (TCPServer Registered)
open Multiplextashtic.Client Extractor Run

variable {E : Type} {pb : Protobuf E} {p p' : Program E} {s : TCPServer E} {i : Nat}

/-! ## What a step does to the server -/

/-- The refreshes the loop starts, up to one that has to wait. -/
def refreshEvents (pb : Protobuf E) : List Nat → TCPServer E → List Server.Event
  | [], _ => []
  | cid :: rest, server =>
    let refreshed := refreshConfig pb server cid
    .client cid .refresh ::
      if refreshing refreshed cid (refreshCount server cid) then []
      else refreshEvents pb rest refreshed

def identifyEvents (p : Program E) (ok : Option Bool) : List Server.Event :=
  if ok = some true ∧ p.server.phys.myInfo.isSome then [.cacheMyInfo] else []

def resumeEvents (pb : Protobuf E) (p : Program E) (cid n : Nat) (rest : List Nat) (lost : Bool) :
    List Server.Event :=
  .client cid (.resumeRefresh n lost) ::
    match Server.step pb p.server (.client cid (.resumeRefresh n lost)) with
    | some server => if refreshing server cid n then [] else refreshEvents pb rest server
    | none => []

/-- The steps of the server that make up one of the program. -/
def serverEvents (pb : Protobuf E) (p : Program E) : Event → List Server.Event
  | .link (.resume i (.chunk chunk)) _ =>
    if chunk = [] then [] else (drain frames (p.buffer i ++ chunk)).1.map .radio
  | .link _ _ => []
  | .server e => [e]
  | .reconnect i outcome =>
    match p.reconnects[i]?, outcome with
    | some (.wait .myInfo woken), outcome => identifyEvents p (waited woken outcome)
    | some (.wait .metadata _), _ =>
      .recapture 80 :: refreshEvents pb p.server.registry (Server.recapture pb p.server 80)
    | some (.refresh cid n rest), .drained lost => resumeEvents pb p cid n rest lost
    | _, _ => []
  | .main outcome =>
    match p.main with
    | .wait .myInfo woken => identifyEvents p (waited woken outcome)
    | .wait .metadata _ => [.recapture 80]
    | _ => []
  | .shutDown =>
    match p.main with
    | .wait _ _ => p.server.registry.map .remove
    | .serverClosed => p.server.registry.map .remove
    | _ => []

/-! ### Payloads -/

theorem drain_length (d : Bytes) : ∀ payload ∈ (drain frames d).1, payload.length ≤ maxPacketSize := by
  induction d using ReadLoop.inner_induction with
  | stop d r h =>
    rw [ReadLoop.drain_of_none h]
    exact List.forall_mem_nil _
  | take d payload r h ih =>
    rw [ReadLoop.drain_of_some h]
    exact List.forall_mem_cons.mpr ⟨findFrame_length h, ih⟩

@[simp] theorem radioPayload_server (p : Program E) (payload : Bytes) :
    (radioPayload pb p payload).server = Server.radioPayload pb p.server payload := by
  unfold radioPayload
  cases capturedBy pb payload <;> rfl

theorem run_radio {payloads : List Bytes} (hlen : ∀ payload ∈ payloads,
    payload.length ≤ maxPacketSize) : run (Server.step pb) p.server (payloads.map .radio) =
      some (payloads.foldl (radioPayload pb) p).server := by
  induction payloads generalizing p with
  | nil => rfl
  | cons payload payloads ih =>
    obtain ⟨hpayload, hlen⟩ := List.forall_mem_cons.mp hlen
    have hstep : Server.step pb p.server (.radio payload) =
        some (radioPayload pb p payload).server := by
      rw [radioPayload_server]
      exact if_pos hpayload
    exact run_cons.mpr ⟨_, hstep, ih hlen⟩

/-- What a chunk leaves in the read loop's buffer, before its payloads are dealt with. -/
def buffered (p : Program E) (i : Nat) (chunk : Bytes) : Program E :=
  { p with
    buffer := Function.update p.buffer i (drain frames (p.buffer i ++ chunk)).2
    reads := p.reads ++ [(i, chunk)] }

theorem radioChunk_cons {chunk : Bytes} (hc : chunk ≠ []) : radioChunk pb p i chunk =
    (drain frames (p.buffer i ++ chunk)).1.foldl (radioPayload pb) (buffered p i chunk) := if_neg hc

/-! ### Refreshes -/

theorem step_refresh {cid : Nat} (h : cid < s.handlers.length) :
    Server.step pb s (.client cid .refresh) = some (refreshConfig pb s cid) := by
  obtain ⟨refreshed, hs⟩ : ∃ s', Server.step pb s (.client cid .refresh) = some s' := by
    simp [Server.step, clientStep, List.getElem?_eq_getElem h]
  rw [refreshConfig, hs, Option.getD_some]

theorem refreshConfig_length {cid : Nat} (h : cid < s.handlers.length) :
    (refreshConfig pb s cid).handlers.length = s.handlers.length :=
  Server.handlers_length_step (step_refresh h)

theorem run_refreshes {cids : List Nat} (h : ∀ cid ∈ cids, cid < p.server.handlers.length) :
    run (Server.step pb) p.server (refreshEvents pb cids p.server) =
      some (refreshAllClients pb i cids p).server := by
  induction cids generalizing p with
  | nil => rfl
  | cons cid rest ih =>
    obtain ⟨hcid, hrest⟩ := List.forall_mem_cons.mp h
    unfold refreshEvents refreshAllClients
    refine run_cons.mpr ⟨_, step_refresh hcid, ?_⟩
    simp only
    split
    · rfl
    · refine ih (p := { p with server := _, refreshed := _ }) ?_
      intro c hc
      show c < (refreshConfig pb p.server cid).handlers.length
      rw [refreshConfig_length hcid]
      exact hrest c hc

/-- Where the loop leaves a reconnect: behind all the clients, or in the last of the calls
it has made, with the other clients left. -/
def Await.After (cids : List Nat) (calls : List (Nat × Nat)) (await : Await) : Prop :=
  await = .done ∧ calls.map Prod.fst = cids ∨ ∃ before cid n rest, await = .refresh cid n rest ∧
    calls = before ++ [(cid, n)] ∧ calls.map Prod.fst ++ rest = cids

theorem Await.After.cons {cids : List Nat} {calls : List (Nat × Nat)} {await : Await}
    (h : await.After cids calls) (cid n : Nat) : await.After (cid :: cids) ((cid, n) :: calls) := by
  rcases h with ⟨rfl, hcalls⟩ | ⟨before, c, m, rest, rfl, rfl, hcalls⟩
  · exact .inl ⟨rfl, congrArg (cid :: ·) hcalls⟩
  · exact .inr ⟨(cid, n) :: before, c, m, rest, rfl, rfl, congrArg (cid :: ·) hcalls⟩

/-- The calls the loop makes, and where it leaves the reconnect. -/
theorem refreshAllClients_calls (cids : List Nat) : ∀ p : Program E, ∃ calls await,
    (refreshAllClients pb i cids p).refreshed = p.refreshed ++ calls.map (i, ·) ∧
      (refreshAllClients pb i cids p).reconnects = p.reconnects.set i await ∧
      await.After cids calls := by
  induction cids with
  | nil => exact fun p => ⟨[], .done, (List.append_nil _).symm, rfl, .inl ⟨rfl, rfl⟩⟩
  | cons cid rest ih =>
    intro p
    unfold refreshAllClients
    simp only
    split
    · exact ⟨[(cid, _)], _, rfl, rfl, .inr ⟨[], cid, _, rest, rfl, rfl, rfl⟩⟩
    · obtain ⟨calls, await, hcalls, hset, hafter⟩ := ih { p with
        server := refreshConfig pb p.server cid
        refreshed := p.refreshed ++ [(i, cid, refreshCount p.server cid)] }
      refine ⟨(cid, refreshCount p.server cid) :: calls, await, ?_, hset, hafter.cons cid _⟩
      rw [hcalls, List.append_assoc]
      rfl

/-! ### The other steps -/

theorem run_identify (p : Program E) (ok : Bool) :
    run (Server.step pb) p.server (identifyEvents p (some ok)) = some (cacheMyInfo p ok).server := by
  cases ok with
  | false => rfl
  | true =>
    cases hinfo : p.server.phys.myInfo with
    | none => simp [identifyEvents, cacheMyInfo, Server.cacheMyInfo, hinfo, run]
    | some info => simp [identifyEvents, cacheMyInfo, Server.cacheMyInfo, Server.step, hinfo, run]

theorem run_removes {cids : List Nat} (h : s.registry = cids) :
    run (Server.step pb) s (cids.map .remove) = some { s with registry := [] } := by
  have hfilter : ∀ (cids : List Nat) (server : TCPServer E),
      run (Server.step pb) server (cids.map .remove) =
        some { server with registry := server.registry.filter (· ∉ cids) } := by
    intro cids
    induction cids with
    | nil => simp [run]
    | cons cid cids ih =>
      intro server
      refine run_cons.mpr ⟨Server.removeClient server cid, rfl, ?_⟩
      rw [ih]
      simp only [Server.removeClient, List.filter_filter, List.mem_cons, not_or]
      congr 2
      refine List.filter_congr ?_
      intro c _
      rw [Bool.and_comm]
      simp
  rw [hfilter cids s, h, List.filter_eq_nil_iff.mpr]
  intro cid hm
  simp [hm]

/-! ## The program is sound for the server -/

/-- The clients a reconnect has yet to be done with. -/
def Await.clients : Await → List Nat
  | .refresh cid _ rest => cid :: rest
  | _ => []

/-- Only clients below `n` are to be refreshed. -/
def Refreshes (n : Nat) (awaits : List Await) : Prop :=
  ∀ await ∈ awaits, ∀ cid ∈ await.clients, cid < n

theorem Refreshes.set {n : Nat} {awaits : List Await} (h : Refreshes n awaits) {await : Await}
    (ha : ∀ cid ∈ await.clients, cid < n) : Refreshes n (awaits.set i await) := by
  intro other hm
  rcases List.mem_or_eq_of_mem_set hm with hm | rfl
  · exact h other hm
  · exact ha

theorem clients_wake (c : Captured) (await : Await) : (await.wake c).clients = await.clients := by
  cases await <;> rfl

/-- Clients are registered once each, and reconnects refresh clients that there are. -/
structure Sound (p : Program E) : Prop where
  registered : Registered p.server
  refreshes : Refreshes p.server.handlers.length p.reconnects

/-- **A step of the program is a run of the server.** -/
theorem Sound.steps (h : Sound p) {e : Event} (hs : step pb p e = some p') :
    run (Server.step pb) p.server (serverEvents pb p e) = some p'.server := by
  cases step_stepped hs with
  | @chunk i chunk nonce link hl =>
    by_cases hc : chunk = []
    · simp only [serverEvents, hc, if_true, radioChunk]
      rfl
    · rw [radioChunk_cons hc]
      simp only [serverEvents, hc, if_false]
      exact run_radio (p := buffered { p with link } i chunk) (drain_length _)
  | @connected e nonce link hl hr =>
    obtain ⟨i, delay, rfl, -⟩ := PhysicalNode.connectReturns_some hr
    rfl
  | @link e nonce link hl hd hchunk =>
    have hnone : serverEvents pb p (.link e nonce) = [] := by
      cases e with
      | resume i outcome =>
        cases outcome with
        | chunk chunk => exact absurd rfl (hchunk i chunk)
        | _ => rfl
      | _ => rfl
    rw [hnone]
    rfl
  | server ha hserver => exact run_cons.mpr ⟨_, hserver, rfl⟩
  | starts hr =>
    simp only [serverEvents, hr]
    rfl
  | identifies hr hw =>
    simp only [serverEvents, hr, hw]
    exact run_identify p _
  | captures hr hw =>
    simp only [serverEvents, hr]
    exact run_cons.mpr ⟨_, rfl, run_refreshes (p := captureDefaults pb p) h.registered.connected⟩
  | drained hr hserver hwaits =>
    simp only [serverEvents, hr, resumeEvents, hserver, hwaits, if_true]
    exact run_cons.mpr ⟨_, hserver, rfl⟩
  | @refreshed i cid n rest lost server hr hserver hover =>
    simp only [serverEvents, hr, resumeEvents, hserver, hover, Bool.false_eq_true, if_false]
    refine run_cons.mpr ⟨_, hserver, run_refreshes (p := { p with server }) ?_⟩
    intro c hc
    show c < server.handlers.length
    rw [Server.handlers_length_step hserver]
    exact h.refreshes _ (List.mem_of_getElem? hr) c (List.mem_cons_of_mem _ hc)
  | mainIdentifies hm hw =>
    simp only [serverEvents, hm, hw]
    exact run_identify p _
  | mainCaptures hm hw =>
    simp only [serverEvents, hm]
    exact run_cons.mpr ⟨_, rfl, rfl⟩
  | stops hm => rcases hm with ⟨hm, -⟩ | ⟨hm, -⟩ <;> simp [serverEvents, hm, run]
  | disconnects hm hl =>
    rcases hm with ⟨c, woken, hm⟩ | hm <;> simp only [serverEvents, hm] <;> exact run_removes rfl

theorem foldl_radio {P : Program E → Prop} (h : ∀ q payload, P q → P (radioPayload pb q payload))
    (payloads : List Bytes) {q : Program E} (hq : P q) : P (payloads.foldl (radioPayload pb) q) := by
  induction payloads generalizing q with
  | nil => exact hq
  | cons payload payloads ih => exact ih (h q payload hq)

/-- What the payloads of a chunk keep, a chunk keeps. -/
theorem radioChunk_keeps {P : Program E → Prop} {chunk : Bytes} (hp : P p)
    (hb : P (buffered p i chunk)) (h : ∀ q payload, P q → P (radioPayload pb q payload)) :
    P (radioChunk pb p i chunk) := by
  by_cases hc : chunk = []
  · rwa [radioChunk, if_pos hc]
  · rw [radioChunk_cons hc]
    exact foldl_radio h _ hb

theorem Refreshes.wake {n : Nat} {awaits : List Await} (h : Refreshes n awaits) (c : Captured) :
    Refreshes n (awaits.map (Await.wake c)) := by
  intro await hm
  obtain ⟨before, hbefore, rfl⟩ := List.mem_map.mp hm
  rw [clients_wake]
  exact h before hbefore

theorem Refreshes.loop {n : Nat} {cids : List Nat} (h : Refreshes n p.reconnects)
    (hc : ∀ cid ∈ cids, cid < n) : Refreshes n (refreshAllClients pb i cids p).reconnects := by
  obtain ⟨calls, await, -, hset, hafter⟩ : ∃ calls await,
      (refreshAllClients pb i cids p).refreshed = p.refreshed ++ calls.map (i, ·) ∧
        (refreshAllClients pb i cids p).reconnects = p.reconnects.set i await ∧
        await.After cids calls := refreshAllClients_calls cids p
  rw [hset]
  refine h.set ?_
  rcases hafter with ⟨rfl, -⟩ | ⟨before, cid, m, rest, rfl, rfl, hcids⟩
  · exact List.forall_mem_nil _
  · intro c hm
    refine hc c ?_
    rw [← hcids, List.mem_append]
    rcases List.mem_cons.mp hm with rfl | hm
    · exact .inl (by simp)
    · exact .inr hm

theorem Sound.step (h : Sound p) {e : Event} (hs : Main.step pb p e = some p') : Sound p' := by
  have hrun := h.steps hs
  have hlen : p.server.handlers.length ≤ p'.server.handlers.length := by
    rw [Server.run_handlers_length hrun]
    exact Nat.le_add_right _ _
  refine ⟨invariant (fun _ _ _ hreg hs => hreg.step hs) h.registered hrun, ?_⟩
  have hgrown : Refreshes p'.server.handlers.length p.reconnects := fun await hm cid hc =>
    Nat.lt_of_lt_of_le (h.refreshes await hm cid hc) hlen
  generalize p'.server.handlers.length = n at hlen hgrown
  cases step_stepped hs with
  | chunk hl =>
    refine radioChunk_keeps (P := fun q => Refreshes n q.reconnects) hgrown hgrown ?_
    intro q payload hq
    unfold radioPayload
    cases capturedBy pb payload with
    | none => exact hq
    | some c => exact hq.wake c
  | connected hl hr =>
    intro await hm
    rcases List.mem_append.mp hm with hm | hm
    · exact hgrown await hm
    · rw [List.mem_singleton.mp hm]
      exact List.forall_mem_nil _
  | starts hr | identifies hr hw => exact hgrown.set (List.forall_mem_nil _)
  | captures hr hw =>
    refine Refreshes.loop hgrown ?_
    exact fun cid hc => Nat.lt_of_lt_of_le (h.registered.connected cid hc) hlen
  | refreshed hr hserver hover =>
    refine Refreshes.loop hgrown ?_
    exact fun cid hc => hgrown _ (List.mem_of_getElem? hr) cid (List.mem_cons_of_mem _ hc)
  | link | server | drained | mainIdentifies | mainCaptures | stops | disconnects => exact hgrown

theorem sound_start (config : AppConfig) (phys : PhysicalNodeConfig)
    (failed : Option ConnectAwait) (nonce : UInt32) : Sound (start pb config phys failed nonce) := by
  have hreg : Registered (Server.init config : TCPServer E) :=
    ⟨List.nodup_nil, List.forall_mem_nil _⟩
  unfold start
  simp only
  split
  · exact ⟨hreg, fun await hm => List.mem_singleton.mp hm ▸ List.forall_mem_nil _⟩
  · exact ⟨hreg, List.forall_mem_nil _⟩

theorem embeds_server : Embeds (step pb) (Server.step pb) Sound Program.server (serverEvents pb) :=
  ⟨fun h hs => h.step hs, fun h hs => h.steps hs⟩

/-! ## What a step does to the writers -/

/-- The step of the writers that is in one of the program, if any. -/
def linkEvents (pb : Protobuf E) (p : Program E) : Event → List LinkEvent
  | .link e nonce => [.task e nonce]
  | .server e => ((Server.step pb p.server e).bind (sending · e)).toList.map .sendRaw
  | .shutDown =>
    match p.main with
    | .wait _ _ => [.task .disconnect 0]
    | .serverClosed => [.task .disconnect 0]
    | _ => []
  | _ => []

@[simp] theorem radioPayload_link (p : Program E) (payload : Bytes) :
    (radioPayload pb p payload).link = p.link := by
  unfold radioPayload
  cases capturedBy pb payload <;> rfl

@[simp] theorem radioChunk_link (p : Program E) (i : Nat) (chunk : Bytes) :
    (radioChunk pb p i chunk).link = p.link :=
  radioChunk_keeps (P := fun q => q.link = p.link) rfl rfl
    fun q payload hq => (radioPayload_link q payload).trans hq

@[simp] theorem refreshAllClients_link (cids : List Nat) :
    ∀ p : Program E, (refreshAllClients pb i cids p).link = p.link := by
  induction cids with
  | nil => exact fun _ => rfl
  | cons cid rest ih =>
    intro p
    unfold refreshAllClients
    simp only
    split
    · rfl
    · exact ih _

/-- **A step of the program is a run of the writers**, of one step at most. -/
theorem step_link {e : Event} (hs : step pb p e = some p') :
    run (PhysicalNode.linkStep pb) p.link (linkEvents pb p e) = some p'.link := by
  cases step_stepped hs with
  | chunk hl => exact run_cons.mpr ⟨_, hl, by rw [radioChunk_link]; rfl⟩
  | connected hl hr => exact run_cons.mpr ⟨_, hl, rfl⟩
  | link hl hd hchunk => exact run_cons.mpr ⟨_, hl, rfl⟩
  | @server e server ha hserver =>
    simp only [linkEvents, hserver, Option.bind_some]
    cases sending server e with
    | none => rfl
    | some raw => exact run_cons.mpr ⟨_, rfl, rfl⟩
  | captures hr hw | refreshed hr hserver hover =>
    rw [refreshAllClients_link]
    rfl
  | stops hm => rcases hm with ⟨hm, -⟩ | ⟨hm, -⟩ <;> simp [linkEvents, hm, run]
  | disconnects hm hl =>
    rcases hm with ⟨c, woken, hm⟩ | hm
    all_goals
      simp only [linkEvents, hm]
      exact run_cons.mpr ⟨_, hl, rfl⟩
  | starts | identifies | drained | mainIdentifies | mainCaptures => rfl

theorem embeds_link : Embeds (step pb) (PhysicalNode.linkStep pb) (fun _ => True) Program.link
    (linkEvents pb) := ⟨fun _ _ => trivial, fun _ hs => step_link hs⟩

/-! ## Runs -/

section
variable {config : AppConfig} {phys : PhysicalNodeConfig} {failed : Option ConnectAwait}
  {nonce : UInt32} {es : List Event}

/-- The server's run inside a run of the program. -/
def serverRun (pb : Protobuf E) (config : AppConfig) (phys : PhysicalNodeConfig)
    (failed : Option ConnectAwait) (nonce : UInt32) (es : List Event) : List Server.Event :=
  expand (step pb) (serverEvents pb) (start pb config phys failed nonce) es

theorem run_server (hr : run (step pb) (start pb config phys failed nonce) es = some p) :
    Sound p ∧ run (Server.step pb) (Server.init config) (serverRun pb config phys failed nonce es) =
      some p.server := by
  have hrun := embeds_server.run (sound_start config phys failed nonce) hr
  rwa [start_server] at hrun

theorem run_link (hr : run (step pb) (start pb config phys failed nonce) es = some p) :
    ∃ ls, run (PhysicalNode.linkStep pb) (PhysicalNode.start pb phys failed nonce) ls =
      some p.link := by
  obtain ⟨-, hrun⟩ := embeds_link.run trivial hr
  rw [start_link] at hrun
  exact ⟨_, hrun⟩

end

/-! ## A start -/

def myInfoMessage : Bytes := wire.serializeFromRadio ⟨1, .myInfo ⟨0x11, 1, 20200, [], 0, 1⟩⟩
def unsetMessage : Bytes := wire.serializeFromRadio ⟨2, .unset⟩
def nodeMessage : Bytes :=
  wire.serializeFromRadio ⟨3, .nodeInfo ⟨5, none, none, 0, 0, none, false, none, false, false⟩⟩

/-- The node tells who it is, in two pieces, and `main` gets to serve. -/
def comesUp : List Event :=
  [.link (.resume 0 .started) 0, .link (.resume 0 (.chunk ((frame myInfoMessage).take 5))) 0,
    .link (.resume 0 (.chunk ((frame myInfoMessage).drop 5))) 0, .main .returned, .main .timedOut]

/-- A client of the same host connects, and asks for the node list, with one node in it. -/
def clientReady : List Event :=
  [.link (.resume 0 (.chunk (frame nodeMessage))) 0, .server .processIncoming,
    .server .processIncoming, .server (.connect "127.0.0.1"),
    .server (.client 0 (.payload (wire.serializeToRadio (.wantConfigId 69421)) 100)),
    .server (.client 0 (.resumeRead false)), .server (.client 0 (.resumeRead false)),
    .server (.client 0 (.resumeRead false))]

end Multiplextashtic.Main
