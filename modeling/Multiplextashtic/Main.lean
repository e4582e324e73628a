import Mathlib.Logic.Function.Basic
import Multiplextashtic.Broadcast
import Multiplextashtic.Lib.Simulation
import Multiplextashtic.RadioLink
import Multiplextashtic.ReadLoop

/-! # The whole program

`main.py` with everything it starts. The read loop of the physical node feeds the
server, the message queue feeds the writer of the physical node, and each connection
to the node starts a handler that caches its identity, captures the configuration
anew and refreshes the clients. `main` itself does the first two of these once
before clients can connect. -/
namespace Multiplextashtic.Main
open Multiplextashtic.Protocol Multiplextashtic.Messages Multiplextashtic.Config
open Multiplextashtic.PhysicalNode (RadioLink PhysicalNodeManager PhysicalNodeConfig ConnectAwait)
open Multiplextashtic.Server (TCPServer)
open Multiplextashtic.Client Extractor Run

variable {E : Type}

/-! ## The state -/

/-- `_my_info_captured` and `_metadata_captured` -/
inductive Captured where
  | myInfo
  | metadata
  deriving DecidableEq, Repr

/-- Where `main` or a call of `_on_physical_reconnect` is. A wait is `woken` once the event
is set. `refresh` waits in the `i`-th `refresh_config` of a client, with those to come; in
`main`, `done` is the wait for the end, and the last three are its `finally`. -/
inductive Await where
  | start
  | wait (captured : Captured) (woken : Bool)
  | refresh (cid i : Nat) (rest : List Nat)
  | done
  | mdnsStop
  | serverClosed
  | disconnect
  deriving DecidableEq, Repr

/-- `captured` says which of the two events are set, `buffer` what the read loop that is the
`i`-th task has in its buffer. `reconnects` are the calls of `_on_physical_reconnect`.
`reads` records what the read loops have read, `refreshed` the calls of `refresh_config`,
with the reconnect each is made for, and `since` how much had been read at each connection. -/
structure Program (E : Type) where
  server : TCPServer E
  link : RadioLink
  captured : Captured → Bool := fun _ => false
  buffer : Nat → Bytes := fun _ => []
  reconnects : List Await := []
  main : Await := .wait .myInfo false
  reads : List (Nat × Bytes) := []
  refreshed : List (Nat × Nat × Nat) := []
  since : List Nat := []

section
variable (pb : Protobuf E) (p : Program E)

/-! ## The physical node -/

/-- What `_maybe_capture_my_info` finds in a payload. -/
def capturedBy (payload : Bytes) : Option Captured :=
  match pb.parseFromRadio payload with
  | none => none
  | some fr =>
    match fr.variant with
    | .myInfo _ => some .myInfo
    | .metadata _ => some .metadata
    | _ => none

def Await.wake (c : Captured) : Await → Await
  | .wait captured woken => .wait captured (woken || captured = c)
  | await => await

/-- `set`, which wakes those that wait. -/
def setCaptured (c : Captured) : Program E :=
  { p with
    captured := Function.update p.captured c true
    reconnects := p.reconnects.map (Await.wake c)
    main := p.main.wake c }

/-- What the read loop does with a payload. -/
def radioPayload (payload : Bytes) : Program E :=
  let p := { p with server := Server.radioPayload pb p.server payload }
  (capturedBy pb payload).elim p (setCaptured p)

/-- What the read loop does with what it reads; at the end of the stream it breaks off. -/
def radioChunk (i : Nat) (chunk : Bytes) : Program E :=
  if chunk = [] then p
  else
    let (payloads, rest) := drain frames (p.buffer i ++ chunk)
    let p := { p with
      buffer := Function.update p.buffer i rest
      reads := p.reads ++ [(i, chunk)] }
    payloads.foldl (radioPayload pb) p

/-- The end of `_do_connect`. -/
def connected : Program E :=
  { p with
    captured := fun _ => false
    reconnects := p.reconnects ++ [.start]
    since := p.since ++ [p.server.radioed.length] }

/-- A step of one of the manager's tasks, or of its `disconnect`. -/
def linkTurn (e : PhysicalNode.Event) (nonce : UInt32) : Option (Program E) := do
  let link ← PhysicalNode.linkStep pb p.link (.task e nonce)
  let q := { p with link }
  match e with
  | .resume i (.chunk chunk) => return radioChunk pb q i chunk
  | e =>
    return if PhysicalNode.connectReturns p.link.manager e = some .wantConfig then connected q else q

/-! ## The server and the message queue -/

/-- What `main` and the reconnects do is left to them, and `process_incoming` runs and clients
connect while they are let. -/
def allowed : Server.Event → Bool
  | .connect _ => p.main = .done || p.main = .mdnsStop
  | .client _ .refresh => false
  | .client _ (.resumeRefresh _ _) => false
  | .client _ _ => true
  | .remove _ => true
  | .processIncoming => p.main = .done
  | .startTask _ => true
  | .sent _ _ => true
  | .wake _ => true
  | _ => false

/-- The message a turn of a processor task calls `send_raw_to_radio` with. -/
def sending (server : TCPServer E) : Server.Event → Option Bytes
  | .startTask i => server.messages.sendingAt i
  | .wake i => server.messages.sendingAt i
  | _ => none

def serverTurn (e : Server.Event) : Option (Program E) :=
  if allowed p e then
    (Server.step pb p.server e).map fun server =>
      { p with
        server
        link := (sending server e).elim p.link (PhysicalNode.sendRawToRadio p.link) }
  else none

/-! ## A reconnect -/

/-- How an await ends. -/
inductive Outcome where
  | started
  | returned
  | timedOut
  | drained (lost : Bool)
  deriving DecidableEq, Repr

/-- `wait_for_my_info` and `wait_for_metadata`. A wait for an event that is set already takes
a turn as any other. -/
def waitFor (c : Captured) : Await := .wait c (p.captured c)

/-- What the wait answers. -/
def waited (woken : Bool) : Outcome → Option Bool
  | .returned => if woken then some true else none
  | .timedOut => some false
  | _ => none

/-- `if ok and phys_mgr.my_info` -/
def cacheMyInfo (ok : Bool) : Program E :=
  { p with server := if ok then (Server.cacheMyInfo p.server).getD p.server else p.server }

def captureDefaults : Program E := { p with server := Server.recapture pb p.server 80 }

/-- The number the next refresh of a client gets. -/
def refreshCount (server : TCPServer E) (cid : Nat) : Nat :=
  server.handlers[cid]?.elim 0 (·.refreshes.length)

/-- The client's `i`-th refresh waits for its writer. -/
def refreshing (server : TCPServer E) (cid i : Nat) : Bool :=
  match server.handlers[cid]?.bind (·.refreshes[i]?) with
  | some (.replaying _) => true
  | _ => false

/-- `handler.refresh_config()`, up to its first wait. -/
def refreshConfig (server : TCPServer E) (cid : Nat) : TCPServer E :=
  (Server.step pb server (.client cid .refresh)).getD server

/-- The loop of `refresh_all_clients`, from one client to the next that has to wait. What
raises in a refresh is only logged. -/
def refreshAllClients (i : Nat) : List Nat → Program E → Program E
  | [], p => { p with reconnects := p.reconnects.set i .done }
  | cid :: rest, p =>
    let n := refreshCount p.server cid
    let p := { p with
      server := refreshConfig pb p.server cid
      refreshed := p.refreshed ++ [(i, cid, n)] }
    if refreshing p.server cid n then
      { p with reconnects := p.reconnects.set i (.refresh cid n rest) }
    else refreshAllClients i rest p

/-- A turn of the `i`-th `_on_physical_reconnect`. -/
def onPhysicalReconnect (i : Nat) (outcome : Outcome) : Option (Program E) := do
  match ← p.reconnects[i]?, outcome with
  | .start, .started => some { p with reconnects := p.reconnects.set i (waitFor p .myInfo) }
  | .wait .myInfo woken, outcome =>
    let ok ← waited woken outcome
    let p := cacheMyInfo p ok
    return { p with reconnects := p.reconnects.set i (waitFor p .metadata) }
  | .wait .metadata woken, outcome =>
    let _ ← waited woken outcome
    return refreshAllClients pb i p.server.registry (captureDefaults pb p)
  | .refresh cid n rest, .drained lost =>
    let server ← Server.step pb p.server (.client cid (.resumeRefresh n lost))
    let p := { p with server }
    return if refreshing p.server cid n then p else refreshAllClients pb i rest p
  | _, _ => none

/-! ## `main` -/

/-- A turn of `main` before it serves. -/
def mainTurn (outcome : Outcome) : Option (Program E) :=
  match p.main with
  | .wait .myInfo woken => do
    let ok ← waited woken outcome
    let p := cacheMyInfo p ok
    return { p with main := waitFor p .metadata }
  | .wait .metadata woken => do
    let _ ← waited woken outcome
    return { captureDefaults pb p with main := .done }
  | _ => none

/-- `_remove_client` for every client, and the call of `disconnect`. -/
def disconnect : Option (Program E) :=
  (PhysicalNode.linkStep pb p.link (.task .disconnect 0)).map fun link =>
    { p with server := { p.server with registry := [] }, link, main := .disconnect }

/-- The `finally` of `main`, which waits only for what has been started. -/
def shutDown : Option (Program E) :=
  match p.main with
  | .wait _ _ => disconnect pb p
  | .done => some { p with main := .mdnsStop }
  | .mdnsStop => some { p with main := .serverClosed }
  | .serverClosed => disconnect pb p
  | _ => none

end

/-! ## Steps -/

/-- A step of the physical node's tasks, with the nonce `random.randint` gives in it, of the
server, of a reconnect, or of `main`, before it serves or when it is cancelled and after. -/
inductive Event where
  | link (e : PhysicalNode.Event) (nonce : UInt32)
  | server (e : Server.Event)
  | reconnect (i : Nat) (outcome : Outcome)
  | main (outcome : Outcome)
  | shutDown
  deriving DecidableEq, Repr

def step (pb : Protobuf E) (p : Program E) : Event → Option (Program E)
  | .link e nonce => if e = .disconnect then none else linkTurn pb p e nonce
  | .server e => serverTurn pb p e
  | .reconnect i outcome => onPhysicalReconnect pb p i outcome
  | .main outcome => mainTurn pb p outcome
  | .shutDown => shutDown pb p

/-- `main` when `connect` has returned; `failed` says which await of `_do_connect` raised. -/
def start (pb : Protobuf E) (config : AppConfig) (phys : PhysicalNodeConfig)
    (failed : Option ConnectAwait) (nonce : UInt32) : Program E :=
  let p : Program E := { server := Server.init config
                         link := PhysicalNode.start pb phys failed nonce }
  if failed = none then connected p else p

section
variable (pb : Protobuf E) (config : AppConfig) (phys : PhysicalNodeConfig)
  (failed : Option ConnectAwait) (nonce : UInt32)

@[simp] theorem start_server : (start pb config phys failed nonce).server = Server.init config := by
  unfold start
  simp only
  split <;> rfl

@[simp] theorem start_link :
    (start pb config phys failed nonce).link = PhysicalNode.start pb phys failed nonce := by
  unfold start
  simp only
  split <;> rfl

@[simp] theorem start_reads : (start pb config phys failed nonce).reads = [] := by
  unfold start
  simp only
  split <;> rfl

@[simp] theorem start_buffer (i : Nat) : (start pb config phys failed nonce).buffer i = [] := by
  unfold start
  simp only
  split <;> rfl

end

/-! ## What a step can do -/

variable {pb : Protobuf E} {p p' : Program E}

/-- What a step can do. -/
inductive Stepped (pb : Protobuf E) (p : Program E) : Event → Program E → Prop
  | chunk {i : Nat} {chunk : Bytes} {nonce : UInt32} {link : RadioLink} :
      PhysicalNode.linkStep pb p.link (.task (.resume i (.chunk chunk)) nonce) = some link →
      Stepped pb p (.link (.resume i (.chunk chunk)) nonce) (radioChunk pb { p with link } i chunk)
  | connected {e : PhysicalNode.Event} {nonce : UInt32} {link : RadioLink} :
      PhysicalNode.linkStep pb p.link (.task e nonce) = some link →
      PhysicalNode.connectReturns p.link.manager e = some .wantConfig →
      Stepped pb p (.link e nonce) (connected { p with link })
  | link {e : PhysicalNode.Event} {nonce : UInt32} {link : RadioLink} :
      PhysicalNode.linkStep pb p.link (.task e nonce) = some link → e ≠ .disconnect →
      (∀ i chunk, e ≠ .resume i (.chunk chunk)) → Stepped pb p (.link e nonce) { p with link }
  | server {e : Server.Event} {server : TCPServer E} : allowed p e = true →
      Server.step pb p.server e = some server →
      Stepped pb p (.server e) { p with
        server
        link := (sending server e).elim p.link (PhysicalNode.sendRawToRadio p.link) }
  | starts {i : Nat} : p.reconnects[i]? = some .start →
      Stepped pb p (.reconnect i .started)
        { p with reconnects := p.reconnects.set i (waitFor p .myInfo) }
  | identifies {i : Nat} {woken ok : Bool} {outcome : Outcome} :
      p.reconnects[i]? = some (.wait .myInfo woken) → waited woken outcome = some ok →
      Stepped pb p (.reconnect i outcome) { cacheMyInfo p ok with
        reconnects := p.reconnects.set i (waitFor p .metadata) }
  | captures {i : Nat} {woken ok : Bool} {outcome : Outcome} :
      p.reconnects[i]? = some (.wait .metadata woken) → waited woken outcome = some ok →
      Stepped pb p (.reconnect i outcome)
        (refreshAllClients pb i p.server.registry (captureDefaults pb p))
  | drained {i cid n : Nat} {rest : List Nat} {lost : Bool} {server : TCPServer E} :
      p.reconnects[i]? = some (.refresh cid n rest) →
      Server.step pb p.server (.client cid (.resumeRefresh n lost)) = some server →
      refreshing server cid n = true → Stepped pb p (.reconnect i (.drained lost)) { p with server }
  | refreshed {i cid n : Nat} {rest : List Nat} {lost : Bool} {server : TCPServer E} :
      p.reconnects[i]? = some (.refresh cid n rest) →
      Server.step pb p.server (.client cid (.resumeRefresh n lost)) = some server →
      refreshing server cid n = false →
      Stepped pb p (.reconnect i (.drained lost)) (refreshAllClients pb i rest { p with server })
  | mainIdentifies {woken ok : Bool} {outcome : Outcome} : p.main = .wait .myInfo woken →
      waited woken outcome = some ok →
      Stepped pb p (.main outcome) { cacheMyInfo p ok with main := waitFor p .metadata }
  | mainCaptures {woken ok : Bool} {outcome : Outcome} : p.main = .wait .metadata woken →
      waited woken outcome = some ok →
      Stepped pb p (.main outcome) { captureDefaults pb p with main := .done }
  | stops {next : Await} : p.main = .done ∧ next = .mdnsStop ∨
      p.main = .mdnsStop ∧ next = .serverClosed → Stepped pb p .shutDown { p with main := next }
  | disconnects {link : RadioLink} : (∃ c woken, p.main = .wait c woken) ∨ p.main = .serverClosed →
      PhysicalNode.linkStep pb p.link (.task .disconnect 0) = some link →
      Stepped pb p .shutDown
        { p with server := { p.server with registry := [] }, link, main := .disconnect }

theorem linkTurn_stepped {e : PhysicalNode.Event} {nonce : UInt32} (he : e ≠ .disconnect)
    (hs : linkTurn pb p e nonce = some p') : Stepped pb p (.link e nonce) p' := by
  obtain ⟨link, hl, hs⟩ := Option.bind_eq_some_iff.mp hs
  simp only at hs
  split at hs
  · cases hs
    exact .chunk hl
  · next hchunk =>
    cases hs
    split
    · next hr => exact .connected hl hr
    · exact .link hl he hchunk

theorem onPhysicalReconnect_stepped {i : Nat} {outcome : Outcome}
    (hs : onPhysicalReconnect pb p i outcome = some p') :
    Stepped pb p (.reconnect i outcome) p' := by
  obtain ⟨await, ha, hs⟩ := Option.bind_eq_some_iff.mp hs
  split at hs
  · cases hs
    exact .starts ha
  · obtain ⟨ok, hw, hs⟩ := Option.bind_eq_some_iff.mp hs
    cases hs
    exact .identifies ha hw
  · obtain ⟨ok, hw, hs⟩ := Option.bind_eq_some_iff.mp hs
    cases hs
    exact .captures ha hw
  · obtain ⟨server, hr, hs⟩ := Option.bind_eq_some_iff.mp hs
    cases hs
    split
    · next hwaits => exact .drained ha hr hwaits
    · next hover => exact .refreshed ha hr (Bool.not_eq_true _ ▸ hover)
  · cases hs

theorem disconnect_stepped (hm : (∃ c woken, p.main = .wait c woken) ∨ p.main = .serverClosed)
    (hs : disconnect pb p = some p') : Stepped pb p .shutDown p' := by
  obtain ⟨link, hl, rfl⟩ := Option.map_eq_some_iff.mp hs
  exact .disconnects hm hl

theorem step_stepped {e : Event} (hs : step pb p e = some p') : Stepped pb p e p' := by
  cases e with
  | link e nonce =>
    simp only [step] at hs
    split at hs
    · cases hs
    · next he => exact linkTurn_stepped he hs
  | server e =>
    simp only [step, serverTurn] at hs
    split at hs
    · next ha =>
      obtain ⟨server, hserver, rfl⟩ := Option.map_eq_some_iff.mp hs
      exact .server ha hserver
    · cases hs
  | reconnect i outcome => exact onPhysicalReconnect_stepped hs
  | main outcome =>
    simp only [step, mainTurn] at hs
    split at hs
    · next hm =>
      obtain ⟨ok, hw, hs⟩ := Option.bind_eq_some_iff.mp hs
      cases hs
      exact .mainIdentifies hm hw
    · next hm =>
      obtain ⟨ok, hw, hs⟩ := Option.bind_eq_some_iff.mp hs
      cases hs
      exact .mainCaptures hm hw
    · cases hs
  | shutDown =>
    simp only [step, shutDown] at hs
    split at hs
    · next hm => exact disconnect_stepped (.inl ⟨_, _, hm⟩) hs
    · next hm =>
      cases hs
      exact .stops (.inl ⟨hm, rfl⟩)
    · next hm =>
      cases hs
      exact .stops (.inr ⟨hm, rfl⟩)
    · next hm => exact disconnect_stepped (.inr hm) hs
    · cases hs

end Multiplextashtic.Main
