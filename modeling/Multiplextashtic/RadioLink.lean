import Multiplextashtic.Messages
import Multiplextashtic.PhysicalNodeManager
import Multiplextashtic.WireMessages

/-! # The writers of the physical node

What `PhysicalNodeManager` gives to its writers: on each connection the handshake
of `_do_connect`, then the messages that `send_raw_to_radio` is called with while
the connection is up. No writer is closed when a connection is lost; the next one
takes its place. -/
namespace Multiplextashtic.PhysicalNode
open Multiplextashtic.Protocol Multiplextashtic.Messages Run Sole

variable {E : Type}

/-- `streams` is what the writer of each connection was given, the last of them being
`_writer` while there is one. `calls` records the messages `send_raw_to_radio` was
called with, and the connection each went out on. -/
structure RadioLink where
  manager : PhysicalNodeManager
  streams : List Bytes := []
  calls : List (Option Nat × Bytes) := []
  deriving DecidableEq, Repr

def wakeBytes : Bytes := List.replicate 32 start2

/-- `self._writer.write` -/
def write (streams : List Bytes) (bytes : Bytes) : List Bytes :=
  streams.modify (streams.length - 1) (· ++ bytes)

section
variable (pb : Protobuf E)

def wantConfig (nonce : UInt32) : Bytes := pb.serializeToRadio (.wantConfigId nonce)

/-- `_send_want_config`; a nonce always fits in a frame. -/
def sendWantConfig (streams : List Bytes) (nonce : UInt32) : List Bytes :=
  match encodeFrame (wantConfig pb nonce) with
  | .ok frame => write streams frame
  | .error _ => streams

/-- What `_do_connect` writes from one of its awaits to the next. -/
def handshake (serial : Bool) (streams : List Bytes) (nonce : UInt32) : ConnectAwait → List Bytes
  | .openConnection =>
    if serial then write (streams ++ [[]]) wakeBytes else sendWantConfig pb (streams ++ [[]]) nonce
  | .wake => streams
  | .settle => sendWantConfig pb streams nonce
  | .wantConfig => streams

/-- What `connect` has written when its `_do_connect` is done, or has raised. -/
def connectStreams (serial : Bool) (nonce : UInt32) (failed : Option ConnectAwait) : List Bytes :=
  let opened := handshake pb serial [] nonce .openConnection
  match failed with
  | some .openConnection => []
  | some .wake => opened
  | some .settle => opened
  | _ => if serial then handshake pb serial opened nonce .settle else opened

/-- The link when `connect` has returned. -/
def start (config : PhysicalNodeConfig) (failed : Option ConnectAwait) (nonce : UInt32) :
    RadioLink :=
  { manager := connect config failed
    streams := connectStreams pb config.serial nonce failed }

end

def sendRawToRadio (l : RadioLink) (raw : Bytes) : RadioLink :=
  if !l.manager.connected || !l.manager.stream then { l with calls := l.calls ++ [(none, raw)] }
  else match encodeFrame raw with
    | .error _ => { l with calls := l.calls ++ [(none, raw)] }
    | .ok frame =>
      { l with
        streams := write l.streams frame
        calls := l.calls ++ [(some (l.streams.length - 1), raw)] }

/-- A step of the manager, with the nonce that `random.randint` gives in it, or a call
of `send_raw_to_radio`. -/
inductive LinkEvent where
  | task (e : Event) (nonce : UInt32)
  | sendRaw (raw : Bytes)
  deriving DecidableEq, Repr

/-- The await of a `_do_connect` that returns with the step. -/
def connectReturns (m : PhysicalNodeManager) : Event → Option ConnectAwait
  | .resume i .returned =>
    match m.tasks[i]? with
    | some ⟨.connect _ await, false⟩ => some await
    | _ => none
  | _ => none

def linkStep (pb : Protobuf E) (l : RadioLink) : LinkEvent → Option RadioLink
  | .task e nonce => do
    let manager ← step l.manager e
    let serial := manager.config.serial
    let streams := (connectReturns l.manager e).elim l.streams
      (handshake pb serial l.streams nonce)
    return { l with manager, streams }
  | .sendRaw raw => some (sendRawToRadio l raw)

variable {pb : Protobuf E} {m m' : PhysicalNodeManager} {l l' : RadioLink} {i : Nat}

/-! ## What a step of the manager means for the writer -/

/-- A task is in `_do_connect`, at the given await. -/
def Connects (m : PhysicalNodeManager) (await : ConnectAwait) : Prop :=
  ∃ delay, ({ await := .connect delay await } : Task) ∈ m.tasks

/-- No connection comes up, and no `_do_connect` gets further than its beginning. -/
structure Quiet (m m' : PhysicalNodeManager) : Prop where
  connected : m'.connected = true → m.connected = true
  connects : ∀ await, Connects m' await → await = .openConnection ∨ Connects m await

theorem Quiet.of_tasks (hc : m'.connected = true → m.connected = true)
    (ht : ∀ t ∈ m'.tasks, t ∈ m.tasks ∨ ∀ delay await, t = { await := .connect delay await } →
      await = .openConnection) : Quiet m m' := by
  refine ⟨hc, ?_⟩
  intro await ⟨delay, hm⟩
  rcases ht _ hm with hm | hopen
  · exact .inr ⟨delay, hm⟩
  · exact .inl (hopen delay await rfl)

theorem quiet_goto {a : Await} (ha : ∀ delay await, a = .connect delay await →
    await = .openConnection) : Quiet m (goto m i a) := by
  refine .of_tasks id ?_
  intro t hm
  rcases List.mem_or_eq_of_mem_set hm with hm | rfl
  · exact .inl hm
  · refine .inr ?_
    intro delay await he
    exact ha delay await (congrArg Task.await he)

theorem Quiet.trans {n : PhysicalNodeManager} (h : Quiet m n) (h' : Quiet n m') : Quiet m m' := by
  refine ⟨fun hc => h.connected (h'.connected hc), ?_⟩
  intro await hm
  rcases h'.connects await hm with hopen | hm
  · exact .inl hopen
  · exact h.connects await hm

/-- The same tasks, on the same connection or on none. -/
theorem Quiet.same (hc : m'.connected = true → m.connected = true) (ht : m'.tasks = m.tasks) :
    Quiet m m' := .of_tasks hc fun _ hm => .inl (ht ▸ hm)

theorem Quiet.after {n : PhysicalNodeManager} (h : Quiet n m')
    (hc : n.connected = true → m.connected = true) (ht : n.tasks = m.tasks) : Quiet m m' :=
  (Quiet.same hc ht).trans h

theorem quiet_done : Quiet m (goto m i .done) := quiet_goto fun _ _ h => nomatch h

theorem quiet_endReadLoop : Quiet m (endReadLoop m i) := by
  have hdone : Quiet m (goto { m with connected := false } i .done) := quiet_done.after nofun rfl
  unfold endReadLoop
  simp only
  split
  · refine hdone.trans (.of_tasks id ?_)
    intro t hm
    rcases List.mem_append.mp hm with hm | hm
    · exact .inl hm
    · rw [List.mem_singleton.mp hm]
      exact .inr fun _ _ h => nomatch h
  · exact hdone

theorem quiet_whileConnected : Quiet m (whileConnected m i) := by
  unfold whileConnected
  split
  · exact quiet_goto fun _ _ h => nomatch h
  · exact quiet_endReadLoop

theorem quiet_whileDisconnected {delay : Int} : Quiet m (whileDisconnected m i delay) := by
  unfold whileDisconnected
  split
  · exact quiet_goto fun _ _ h => nomatch h
  · exact quiet_done

theorem quiet_cancel : Quiet m (cancel m i) := by
  refine .of_tasks id ?_
  intro t hm
  obtain ⟨j, hj⟩ := List.mem_iff_getElem?.mp hm
  rw [show (cancel m i).tasks = m.tasks.modify i _ from rfl, List.getElem?_modify] at hj
  obtain ⟨u, hu, rfl⟩ := Option.map_eq_some_iff.mp hj
  split
  · split
    · exact .inl (List.mem_of_getElem? hu)
    · exact .inr fun _ _ h => nomatch congrArg Task.cancelled h
  · exact .inl (List.mem_of_getElem? hu)

theorem quiet_closeStream : Quiet m (closeStream m) := by
  unfold closeStream
  split
  · exact .same id rfl
  · exact .same nofun rfl

theorem quiet_stopReconnectLoop : Quiet m (stopReconnectLoop m) := by
  unfold stopReconnectLoop
  split
  · exact quiet_closeStream
  · next j _ =>
    split
    · exact quiet_closeStream.after id rfl
    · exact quiet_cancel.trans (.same id rfl)

theorem quiet_stopReadLoop : Quiet m (stopReadLoop m) := by
  unfold stopReadLoop
  split
  · exact quiet_stopReconnectLoop
  · next j _ =>
    split
    · exact quiet_stopReconnectLoop.after id rfl
    · exact quiet_cancel.trans (.same id rfl)

theorem quiet_awaited (hs : step m .awaited = some m') : Quiet m m' := by
  rw [step] at hs
  split at hs
  · split at hs <;> cases hs
    exact quiet_stopReconnectLoop.after id rfl
  · split at hs <;> cases hs
    exact quiet_closeStream.after id rfl
  · cases hs
    exact .same (fun hc => Bool.noConfusion hc) rfl
  · cases hs

theorem connectReturns_some {e : Event} {await : ConnectAwait}
    (h : connectReturns m e = some await) : ∃ i delay, e = .resume i .returned ∧
      m.tasks[i]? = some { await := .connect delay await } := by
  cases e with
  | resume i outcome =>
    cases outcome with
    | returned =>
      simp only [connectReturns] at h
      split at h
      · next delay await' ht =>
        cases h
        exact ⟨i, delay, rfl, ht⟩
      · cases h
    | _ => cases h
  | _ => cases h

/-- A turn of a task that is not one of `_do_connect`. -/
theorem quiet_resume {a : Await} {outcome : Outcome} (hs : resume m i a outcome = some m')
    (hr : ∀ delay await, a = .connect delay await → outcome ≠ .returned) : Quiet m m' := by
  cases a with
  | start coroutine =>
    cases coroutine with
    | readLoop => cases outcome <;> cases hs; exact quiet_whileConnected
    | reconnectLoop => cases outcome <;> cases hs; exact quiet_whileDisconnected
  | read =>
    have hturn (c : Prop) [Decidable c] :
        Quiet m (if c then endReadLoop m i else whileConnected m i) := by
      split
      · exact quiet_endReadLoop
      · exact quiet_whileConnected
    cases outcome with
    | chunk bytes => cases hs; exact hturn _
    | timeout silence => cases hs; exact hturn _
    | raised => cases hs; exact quiet_endReadLoop
    | _ => cases hs
  | sleep delay =>
    cases outcome <;> cases hs
    refine quiet_goto ?_
    intro _ await he
    cases he
    rfl
  | connect delay await =>
    cases outcome with
    | returned => exact absurd rfl (hr delay await rfl)
    | raised => cases hs; exact quiet_whileDisconnected
    | _ => cases hs
  | done => cases outcome <;> cases hs

/-- What a step can mean for the writer: nothing, a `_do_connect` that gets to its next
await, or one that is through. -/
inductive Moves (m m' : PhysicalNodeManager) : Option ConnectAwait → Prop
  | quiet : Quiet m m' → Moves m m' none
  | awaits {await next : ConnectAwait} : Connects m await → nextAwait m await = some next →
      m'.connected = false → (∀ a, Connects m' a → a = next) → Moves m m' (some await)
  | connects : Connects m .wantConfig → (∀ a, ¬ Connects m' a) → Moves m m' (some .wantConfig)

/-- A `_do_connect` in the reconnect loop is all there is, and the connection is down. -/
theorem Loops.connecting (h : Loops m) {await : ConnectAwait} (hc : Connects m await) :
    m.connected = false ∧ ∃ i, Only Task.live m.tasks i := by
  obtain ⟨delay, hm⟩ := hc
  obtain ⟨j, hj⟩ := List.mem_iff_getElem?.mp hm
  have hlive : Task.live { await := .connect delay await } := Await.noConfusion
  cases h with
  | reading _ _ _ _ ht ha ho =>
    cases ho.only j _ hj hlive
    cases ht.symm.trans hj
    exact ha.elim
  | reconnecting _ _ hconn _ _ _ _ ho => exact ⟨hconn, _, ho⟩
  | off _ _ _ hidle => exact absurd hlive (hidle j _ hj)
  | stoppingRead _ _ ht _ ho | stoppingReconnect _ _ ht _ ho =>
    cases ho.only j _ hj hlive
    cases ht.symm.trans hj
  | stopped _ _ hidle => exact absurd hlive (hidle j _ hj)

/-- The only live task is at `next`, or at none of the awaits of `_do_connect`. -/
theorem connects_only (h : Loops m) {t : Task} (ht : m.tasks[i]? = some t) (hlive : t.live)
    {await : ConnectAwait} (hc : Connects m await) : ∃ delay, t = { await := .connect delay await } := by
  obtain ⟨delay, hm⟩ := hc
  obtain ⟨j, hj⟩ := List.mem_iff_getElem?.mp hm
  cases h.exclusive.single j i _ t hj ht Await.noConfusion hlive
  exact ⟨delay, Option.some.inj (ht.symm.trans hj)⟩

theorem nextAwait_none {await : ConnectAwait} (h : nextAwait m await = none) :
    await = .wantConfig := by
  cases await <;> first | rfl | cases h

/-- **What a step means for the writer.** -/
theorem step_moves (h : Loops m) {e : Event} (hs : step m e = some m') :
    Moves m m' (connectReturns m e) := by
  have h' := h.step hs
  cases hr : connectReturns m e with
  | none =>
    refine .quiet ?_
    cases e with
    | disconnect =>
      rw [step] at hs
      split at hs <;> cases hs
      exact quiet_stopReadLoop.after id rfl
    | awaited => exact quiet_awaited hs
    | cancelledError i =>
      rw [step] at hs
      obtain ⟨t, -, hs⟩ := Option.bind_eq_some_iff.mp hs
      split at hs <;> cases hs
      exact quiet_done
    | resume i outcome =>
      rw [step] at hs
      obtain ⟨⟨a, cancelled⟩, ht, hs⟩ := Option.bind_eq_some_iff.mp hs
      split at hs
      · cases hs
      · next hguard =>
        refine quiet_resume hs ?_
        rintro delay await rfl rfl
        cases cancelled with
        | true => exact hguard ⟨rfl, Await.noConfusion⟩
        | false =>
          rw [connectReturns, ht] at hr
          cases hr
  | some await =>
    obtain ⟨i, delay, rfl, ht⟩ := connectReturns_some hr
    have hconnects : Connects m await := ⟨delay, List.mem_of_getElem? ht⟩
    obtain ⟨hdown, -⟩ := h.connecting hconnects
    obtain ⟨hlt, -⟩ := List.getElem?_eq_some_iff.mp ht
    have hm' : m' = connectReturned m i delay await := by
      rw [step, ht] at hs
      exact (Option.some.inj hs).symm
    subst hm'
    unfold connectReturned at h' ⊢
    generalize hopened : (if await = .openConnection then { m with stream := true } else m) = opened
      at h' ⊢
    have hsame : opened.connected = false ∧ opened.tasks = m.tasks ∧ opened.config = m.config := by
      rw [← hopened]
      split
      · exact ⟨hdown, rfl, rfl⟩
      · exact ⟨hdown, rfl, rfl⟩
    obtain ⟨hdown, htasks, hconfig⟩ := hsame
    simp only at h' ⊢
    have hnext : nextAwait opened await = nextAwait m await := by
      cases await <;> simp [nextAwait, hconfig]
    split at h'
    · next next hn =>
      have hat : (goto opened i (.connect delay next)).tasks[i]? =
          some { await := .connect delay next } :=
        List.getElem?_set_self (htasks ▸ hlt)
      refine .awaits hconnects (hnext ▸ hn) hdown ?_
      intro a hc
      obtain ⟨delay', he⟩ := connects_only h' hat Await.noConfusion hc
      cases he
      rfl
    · next hn =>
      obtain rfl := nextAwait_none hn
      rw [if_pos (show (finishConnect opened).connected = true from rfl)] at h' ⊢
      have hlast : (goto (finishConnect opened) i .done).tasks[opened.tasks.length]? =
          some { await := .start .readLoop } := by
        show ((opened.tasks ++ [_]).set i _)[_]? = _
        rw [List.getElem?_set_ne (Nat.ne_of_lt (htasks ▸ hlt))]
        exact List.getElem?_concat_length
      refine .connects hconnects ?_
      intro a hc
      obtain ⟨delay', he⟩ := connects_only h' hlast Await.noConfusion hc
      cases he

/-! ## What a step leaves -/

/-- The configuration, and how far `disconnect` is. -/
structure Framed (m m' : PhysicalNodeManager) : Prop where
  config : m'.config = m.config
  disconnecting : m'.disconnecting = m.disconnecting

theorem framed_endReadLoop : Framed m (endReadLoop m i) := by
  unfold endReadLoop
  simp only
  split <;> exact ⟨rfl, rfl⟩

theorem framed_whileConnected : Framed m (whileConnected m i) := by
  unfold whileConnected
  split
  · exact ⟨rfl, rfl⟩
  · exact framed_endReadLoop

theorem framed_whileDisconnected {delay : Int} : Framed m (whileDisconnected m i delay) := by
  unfold whileDisconnected
  split <;> exact ⟨rfl, rfl⟩

theorem framed_connectReturned {delay : Int} {await : ConnectAwait} :
    Framed m (connectReturned m i delay await) := by
  cases await with
  | openConnection =>
    unfold connectReturned
    simp only [nextAwait, if_true]
    exact ⟨rfl, rfl⟩
  | wake | settle | wantConfig => exact ⟨rfl, rfl⟩

theorem framed_resume {a : Await} {outcome : Outcome} (hs : resume m i a outcome = some m') :
    Framed m m' := by
  have hturn (c : Prop) [Decidable c] :
      Framed m (if c then endReadLoop m i else whileConnected m i) := by
    split
    · exact framed_endReadLoop
    · exact framed_whileConnected
  unfold resume at hs
  split at hs <;> cases hs
  · exact framed_whileConnected
  · exact framed_whileDisconnected
  · exact hturn _
  · exact hturn _
  · exact framed_endReadLoop
  · exact ⟨rfl, rfl⟩
  · exact framed_connectReturned
  · exact framed_whileDisconnected

/-- Only `disconnect` itself goes on. -/
theorem framed_step {e : Event} (he : e ≠ .disconnect ∧ e ≠ .awaited)
    (hs : step m e = some m') : Framed m m' := by
  cases e with
  | resume i outcome =>
    obtain ⟨t, -, hs⟩ := Option.bind_eq_some_iff.mp hs
    split at hs
    · cases hs
    · exact framed_resume hs
  | cancelledError i =>
    obtain ⟨t, -, hs⟩ := Option.bind_eq_some_iff.mp hs
    split at hs <;> cases hs
    exact ⟨rfl, rfl⟩
  | disconnect => exact absurd rfl he.1
  | awaited => exact absurd rfl he.2

/-- A `disconnect` that has returned has taken the connection down. -/
structure Shuts (m m' : PhysicalNodeManager) : Prop where
  config : m'.config = m.config
  down : m'.disconnecting = .returned → m'.connected = false

theorem shuts_closeStream : Shuts m (closeStream m) := by
  unfold closeStream
  split
  · exact ⟨rfl, nofun⟩
  · exact ⟨rfl, fun _ => rfl⟩

theorem shuts_stopReconnectLoop : Shuts m (stopReconnectLoop m) := by
  unfold stopReconnectLoop
  split
  · exact shuts_closeStream
  · split
    · exact ⟨shuts_closeStream.config, shuts_closeStream.down⟩
    · exact ⟨rfl, nofun⟩

theorem shuts_stopReadLoop : Shuts m (stopReadLoop m) := by
  unfold stopReadLoop
  split
  · exact shuts_stopReconnectLoop
  · split
    · exact ⟨shuts_stopReconnectLoop.config, shuts_stopReconnectLoop.down⟩
    · exact ⟨rfl, nofun⟩

theorem shuts_awaited (hs : step m .awaited = some m') : Shuts m m' := by
  rw [step] at hs
  split at hs
  · split at hs <;> cases hs
    exact ⟨shuts_stopReconnectLoop.config, shuts_stopReconnectLoop.down⟩
  · split at hs <;> cases hs
    exact ⟨shuts_closeStream.config, shuts_closeStream.down⟩
  · cases hs
    exact ⟨rfl, fun _ => rfl⟩
  · cases hs

theorem config_step {e : Event} (hs : step m e = some m') : m'.config = m.config := by
  by_cases he : e ≠ .disconnect ∧ e ≠ .awaited
  · exact (framed_step he hs).config
  · cases e with
    | disconnect =>
      rw [step] at hs
      split at hs <;> cases hs
      exact shuts_stopReadLoop.config
    | awaited => exact (shuts_awaited hs).config
    | resume | cancelledError => exact absurd ⟨Event.noConfusion, Event.noConfusion⟩ he

/-! ## After `disconnect` -/

/-- Where `disconnect` has returned the connection is down. -/
structure Down (m : PhysicalNodeManager) : Prop where
  loops : Loops m
  down : m.disconnecting = .returned → m.connected = false

theorem Down.step (h : Down m) {e : Event} (hs : PhysicalNode.step m e = some m') : Down m' := by
  refine ⟨h.loops.step hs, ?_⟩
  by_cases he : e ≠ .disconnect ∧ e ≠ .awaited
  · intro hd
    rw [(framed_step he hs).disconnecting] at hd
    rw [(h.loops.exclusive.finished hd).2 e] at hs
    cases hs
  · cases e with
    | disconnect =>
      rw [PhysicalNode.step] at hs
      split at hs <;> cases hs
      exact shuts_stopReadLoop.down
    | awaited => exact (shuts_awaited hs).down
    | resume | cancelledError => exact absurd ⟨Event.noConfusion, Event.noConfusion⟩ he

theorem down_connect (config : PhysicalNodeConfig) (failed : Option ConnectAwait) :
    Down (connect config failed) := by
  refine ⟨connect_loops config failed, ?_⟩
  intro hd
  cases failed with
  | none => cases hd
  | some await =>
    unfold connect at hd
    simp only at hd
    split at hd <;> cases hd

theorem down_linkStep {e : LinkEvent} (h : Down l.manager) (hs : linkStep pb l e = some l') :
    Down l'.manager := by
  cases e with
  | task e nonce =>
    obtain ⟨m', hm, hs⟩ := Option.bind_eq_some_iff.mp hs
    cases hs
    exact h.step hm
  | sendRaw raw =>
    cases hs
    unfold sendRawToRadio
    split
    · exact h
    · split <;> exact h

/-- The message a call of `send_raw_to_radio` drops when there is no connection. -/
def refused : LinkEvent → Option (Option Nat × Bytes)
  | .task _ _ => none
  | .sendRaw raw => some (none, raw)

/-- **Nothing reaches the node once `disconnect` has returned**: no task takes another
step, no connection is opened or written to, and every message is dropped. -/
theorem run_closed (config : PhysicalNodeConfig) (failed : Option ConnectAwait) (nonce : UInt32)
    (es : List LinkEvent) (hr : run (linkStep pb) (start pb config failed nonce) es = some l)
    (hd : l.manager.disconnecting = .returned) (more : List LinkEvent)
    (hm : run (linkStep pb) l more = some l') :
    l'.manager = l.manager ∧ l'.streams = l.streams ∧
      l'.calls = l.calls ++ more.filterMap refused := by
  have hdown : Down l.manager := invariant (P := fun l : RadioLink => Down l.manager)
    (fun _ _ _ h hs => down_linkStep h hs) (down_connect config failed) hr
  clear hr
  induction more generalizing l with
  | nil =>
    cases hm
    exact ⟨rfl, rfl, (List.append_nil _).symm⟩
  | cons e more ih =>
    obtain ⟨u, hu, hm⟩ := run_cons.mp hm
    cases e with
    | task e nonce =>
      obtain ⟨m', hs, -⟩ := Option.bind_eq_some_iff.mp hu
      rw [(hdown.loops.exclusive.finished hd).2 e] at hs
      cases hs
    | sendRaw raw =>
      have hdropped : sendRawToRadio l raw = { l with calls := l.calls ++ [(none, raw)] } := by
        rw [sendRawToRadio, if_pos]
        rw [hdown.down hd]
        rfl
      rw [linkStep, hdropped] at hu
      cases hu
      obtain ⟨hmanager, hstreams, hcalls⟩ :=
        ih (l := { l with calls := l.calls ++ [(none, raw)] }) hd hm hdown
      refine ⟨hmanager, hstreams, ?_⟩
      rw [hcalls]
      simp [refused]

/-- A message before a `disconnect`, and one after it. -/
theorem run_closed_message :
    ∃ l l', run (linkStep wire) (start wire {} none 0x05)
        [.task (.resume 0 .started) 0, .sendRaw [0x01], .task .disconnect 0,
          .task (.cancelledError 0) 0, .task .awaited 0, .task .awaited 0] = some l ∧
      run (linkStep wire) l [.sendRaw [0x02]] = some l' ∧ l'.streams = l.streams ∧
      l'.calls = l.calls ++ [(none, [0x02])] := by
  have hrun : (run (linkStep wire) (start wire {} none 0x05)
      [.task (.resume 0 .started) 0, .sendRaw [0x01], .task .disconnect 0,
        .task (.cancelledError 0) 0, .task .awaited 0, .task .awaited 0]).map
          (fun l => l.manager.disconnecting) = some .returned := by decide
  obtain ⟨l, hl, hd⟩ := Option.map_eq_some_iff.mp hrun
  have hmore : run (linkStep wire) l [.sendRaw [0x02]] = some (sendRawToRadio l [0x02]) := rfl
  obtain ⟨-, hstreams, hcalls⟩ := run_closed {} none 0x05 _ hl hd _ hmore
  exact ⟨l, _, hl, hmore, hstreams, hcalls⟩

end Multiplextashtic.PhysicalNode
