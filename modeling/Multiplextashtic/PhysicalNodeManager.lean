import Multiplextashtic.Lib.Run
import Multiplextashtic.Lib.Sole
import Multiplextashtic.Protocol

/-! # The tasks of the physical node

`PhysicalNodeManager` of `physical_node.py` as far as its tasks go: a read loop
while it is connected, a reconnect loop while it is not, each started by the
other, and `disconnect`, which stops both. A step runs a task from one `await` to
the next. -/
namespace Multiplextashtic.PhysicalNode
open Multiplextashtic.Protocol Run Sole

/-! ## Tasks -/

structure ReconnectConfig where
  enabled : Bool := true
  initialDelay : Int := 1
  maxDelay : Int := 60
  multiplier : Int := 2
  deriving DecidableEq, Repr

/-- `serial` is the connection type, the alternative is TCP. -/
structure PhysicalNodeConfig where
  serial : Bool := true
  tcpIdleTimeout : Int := 30
  reconnect : ReconnectConfig := {}
  deriving DecidableEq, Repr

inductive Coroutine where
  | readLoop
  | reconnectLoop
  deriving DecidableEq, Repr

/-- The awaits of `_do_connect`, with those of the serial handshake. -/
inductive ConnectAwait where
  | openConnection
  | wake
  | settle
  | wantConfig
  deriving DecidableEq, Repr

/-- Where a task awaits: a new one its first step, one that is done nothing. -/
inductive Await where
  | start (coroutine : Coroutine)
  | read
  | sleep (delay : Int)
  | connect (delay : Int) (await : ConnectAwait)
  | done
  deriving DecidableEq, Repr

/-- `cancelled` says that `cancel` was called, and its CancelledError is to come. -/
structure Task where
  await : Await
  cancelled : Bool := false
  deriving DecidableEq, Repr

/-- What `disconnect` awaits. -/
inductive Disconnecting where
  | notCalled
  | readLoopTask (i : Nat)
  | reconnectTask (i : Nat)
  | waitClosed
  | returned
  deriving DecidableEq, Repr

/-- A task goes by its position in `tasks`; `stream` says whether there are a reader
and a writer. -/
structure PhysicalNodeManager where
  config : PhysicalNodeConfig
  running : Bool := false
  connected : Bool := false
  stream : Bool := false
  readLoopTask : Option Nat := none
  reconnectTask : Option Nat := none
  tasks : List Task := []
  disconnecting : Disconnecting := .notCalled
  deriving DecidableEq, Repr

/-- A task that is running or about to. -/
def Task.live (t : Task) : Prop := t.await ≠ .done

section
variable (m : PhysicalNodeManager)

def startReadLoop : PhysicalNodeManager :=
  { m with tasks := m.tasks ++ [{ await := .start .readLoop }], readLoopTask := m.tasks.length }

def startReconnectLoop : PhysicalNodeManager :=
  { m with
    tasks := m.tasks ++ [{ await := .start .reconnectLoop }]
    reconnectTask := m.tasks.length }

/-- The task comes to its next await. -/
def goto (i : Nat) (await : Await) : PhysicalNodeManager :=
  { m with tasks := m.tasks.set i { await } }

/-! ## The read loop -/

/-- The end of the loop, and of its branch for an idle connection. -/
def endReadLoop (i : Nat) : PhysicalNodeManager :=
  let m := goto { m with connected := false } i .done
  if m.running && m.config.reconnect.enabled then startReconnectLoop m else m

/-- `while self._running and self._connected` -/
def whileConnected (i : Nat) : PhysicalNodeManager :=
  if m.running && m.connected then goto m i .read else endReadLoop m i

def idleTimeout : Int := if m.config.serial then 0 else m.config.tcpIdleTimeout

/-! ## Connecting -/

def nextAwait : ConnectAwait → Option ConnectAwait
  | .openConnection => some (if m.config.serial then .wake else .wantConfig)
  | .wake => some .settle
  | .settle => some .wantConfig
  | .wantConfig => none

/-- `_do_connect` behind its last await. -/
def finishConnect : PhysicalNodeManager := startReadLoop { m with connected := true }

/-- `while self._running and not self._connected` -/
def whileDisconnected (i : Nat) (delay : Int) : PhysicalNodeManager :=
  if m.running && !m.connected then goto m i (.sleep delay) else goto m i .done

def backOff (delay : Int) : Int :=
  min (delay * m.config.reconnect.multiplier) m.config.reconnect.maxDelay

/-- An await of `_do_connect` returns in the reconnect loop. -/
def connectReturned (i : Nat) (delay : Int) (await : ConnectAwait) : PhysicalNodeManager :=
  let m := if await = .openConnection then { m with stream := true } else m
  match nextAwait m await with
  | some next => goto m i (.connect delay next)
  | none =>
    let m := finishConnect m
    if m.connected then goto m i .done else whileDisconnected m i (backOff m delay)

end

/-- `connect`, when it has returned; `failed` says which await of `_do_connect` raised. -/
def connect (config : PhysicalNodeConfig) (failed : Option ConnectAwait) : PhysicalNodeManager :=
  let m : PhysicalNodeManager := { config, running := true }
  match failed with
  | none => finishConnect { m with stream := true }
  | some await =>
    let m := { m with stream := await ≠ .openConnection }
    if config.reconnect.enabled then startReconnectLoop m else m

/-! ## Disconnecting -/

section
variable (m : PhysicalNodeManager)

def isDone (i : Nat) : Bool := m.tasks[i]?.all fun t => t.await = .done

def cancel (i : Nat) : PhysicalNodeManager :=
  { m with tasks := m.tasks.modify i fun t =>
    if t.await = .done then t else { t with cancelled := true } }

def disconnected : PhysicalNodeManager :=
  { m with stream := false, connected := false, disconnecting := .returned }

def closeStream : PhysicalNodeManager :=
  if m.stream then { m with disconnecting := .waitClosed } else disconnected m

/-- To await a task that is done is no wait. -/
def stopReconnectLoop : PhysicalNodeManager :=
  match m.reconnectTask with
  | none => closeStream m
  | some i =>
    if isDone m i then closeStream { m with reconnectTask := none }
    else { cancel m i with disconnecting := .reconnectTask i }

def stopReadLoop : PhysicalNodeManager :=
  match m.readLoopTask with
  | none => stopReconnectLoop m
  | some i =>
    if isDone m i then stopReconnectLoop { m with readLoopTask := none }
    else { cancel m i with disconnecting := .readLoopTask i }

def disconnect : PhysicalNodeManager := stopReadLoop { m with running := false }

/-! ## Steps -/

/-- How an await ends. A read that times out has been silent for so many seconds. -/
inductive Outcome where
  | started
  | chunk (bytes : Bytes)
  | timeout (silence : Int)
  | returned
  | raised
  deriving DecidableEq, Repr

def resume (i : Nat) : Await → Outcome → Option PhysicalNodeManager
  | .start .readLoop, .started => some (whileConnected m i)
  | .start .reconnectLoop, .started =>
    some (whileDisconnected m i m.config.reconnect.initialDelay)
  | .read, .chunk bytes => some (if bytes = [] then endReadLoop m i else whileConnected m i)
  | .read, .timeout silence =>
    some (if idleTimeout m > 0 ∧ silence > idleTimeout m then endReadLoop m i
      else whileConnected m i)
  | .read, .raised => some (endReadLoop m i)
  | .sleep delay, .returned => some (goto m i (.connect delay .openConnection))
  | .connect delay await, .returned => some (connectReturned m i delay await)
  | .connect delay _, .raised => some (whileDisconnected m i (backOff m delay))
  | _, _ => none

/-- A step of a task, a CancelledError in it, the call of `disconnect`, or its next step. -/
inductive Event where
  | resume (i : Nat) (outcome : Outcome)
  | cancelledError (i : Nat)
  | disconnect
  | awaited
  deriving DecidableEq, Repr

def step : Event → Option PhysicalNodeManager
  | .resume i outcome => do
    let t ← m.tasks[i]?
    -- before Python 3.12 `wait_for` may return a result that came with the cancellation
    if t.cancelled ∧ t.await ≠ .read then none else resume m i t.await outcome
  | .cancelledError i => do
    let t ← m.tasks[i]?
    if t.cancelled ∧ t.await ≠ .done then some (goto m i .done) else none
  | .disconnect => if m.disconnecting = .notCalled then some (disconnect m) else none
  | .awaited =>
    match m.disconnecting with
    | .readLoopTask i =>
      if isDone m i then some (stopReconnectLoop { m with readLoopTask := none }) else none
    | .reconnectTask i =>
      if isDone m i then some (closeStream { m with reconnectTask := none }) else none
    | .waitClosed => some (disconnected m)
    | _ => none

end

/-! ## Which loop is live -/

def Await.reading : Await → Prop
  | .start .readLoop => True
  | .read => True
  | _ => False

def Await.reconnecting : Await → Prop
  | .start .reconnectLoop => True
  | .sleep _ => True
  | .connect _ _ => True
  | _ => False

theorem Await.reading.live {a : Await} (h : a.reading) : a ≠ .done := by
  rintro rfl
  exact h

theorem Await.reconnecting.live {a : Await} (h : a.reconnecting) : a ≠ .done := by
  rintro rfl
  exact h

/-- The states of a manager whose `connect` has returned: one loop is live, or none where
a lost connection is not restored or `disconnect` is past its waits. -/
inductive Loops (m : PhysicalNodeManager) : Prop
  | reading {i : Nat} {a : Await} : m.disconnecting = .notCalled → m.running = true →
      m.connected = true → m.readLoopTask = some i → m.tasks[i]? = some ⟨a, false⟩ → a.reading →
      Only Task.live m.tasks i → Loops m
  | reconnecting {i : Nat} {a : Await} : m.disconnecting = .notCalled → m.running = true →
      m.connected = false → m.reconnectTask = some i → m.readLoopTask ≠ some i →
      m.tasks[i]? = some ⟨a, false⟩ → a.reconnecting → Only Task.live m.tasks i → Loops m
  | off : m.disconnecting = .notCalled → m.running = true → m.config.reconnect.enabled = false →
      Idle Task.live m.tasks → Loops m
  | stoppingRead {i : Nat} {a : Await} : m.disconnecting = .readLoopTask i → m.running = false →
      m.tasks[i]? = some ⟨a, true⟩ → a.reading → Only Task.live m.tasks i → Loops m
  | stoppingReconnect {i : Nat} {a : Await} : m.disconnecting = .reconnectTask i →
      m.running = false → m.tasks[i]? = some ⟨a, true⟩ → a.reconnecting →
      Only Task.live m.tasks i → Loops m
  | stopped : m.disconnecting ≠ .notCalled → m.running = false → Idle Task.live m.tasks → Loops m

variable {m m' : PhysicalNodeManager} {i j : Nat} {a : Await} {delay : Int}

/-! ## Steps of the loops -/

/-- The live task while nothing is cancelled. -/
structure Runs (m : PhysicalNodeManager) (i : Nat) : Prop where
  notCalled : m.disconnecting = .notCalled
  running : m.running = true
  only : Only Task.live m.tasks i

theorem Runs.inBounds (h : Runs m i) : i < m.tasks.length := by
  obtain ⟨t, ht, -⟩ := h.only.here
  exact (List.getElem?_eq_some_iff.mp ht).1

theorem not_live_done : ¬ Task.live { await := .done } := fun h => h rfl

theorem goto_reading (h : Runs m i) (hc : m.connected = true) (hr : m.readLoopTask = some i)
    (ha : a.reading) : Loops (goto m i a) :=
  .reading h.notCalled h.running hc hr (List.getElem?_set_self h.inBounds) ha
    (h.only.set ha.live)

theorem goto_reconnecting (h : Runs m i) (hc : m.connected = false)
    (hr : m.reconnectTask = some i) (hne : m.readLoopTask ≠ some i) (ha : a.reconnecting) :
    Loops (goto m i a) :=
  .reconnecting h.notCalled h.running hc hr hne (List.getElem?_set_self h.inBounds) ha
    (h.only.set ha.live)

/-- **The read loop hands over** to a reconnect loop, where there is to be one. -/
theorem endReadLoop_loops (h : Runs m i) (hr : m.readLoopTask = some i) :
    Loops (endReadLoop m i) := by
  have hidle : Idle Task.live (m.tasks.set i { await := .done }) := h.only.clear not_live_done
  unfold endReadLoop
  by_cases henabled : m.config.reconnect.enabled = true
  · have hspawn : (goto { m with connected := false } i .done).running &&
        (goto { m with connected := false } i .done).config.reconnect.enabled := by
      show (m.running && m.config.reconnect.enabled) = true
      rw [h.running, henabled]
      rfl
    rw [if_pos hspawn]
    have hne : some i ≠ some (m.tasks.set i { await := .done }).length := by
      intro heq
      have hlt := h.inBounds
      rw [List.length_set] at heq
      cases heq
      exact Nat.lt_irrefl _ hlt
    have honly : Only Task.live
        (m.tasks.set i { await := .done } ++ [{ await := .start .reconnectLoop }])
        (m.tasks.set i { await := .done }).length := hidle.append Await.noConfusion
    refine .reconnecting h.notCalled h.running rfl rfl ?_ List.getElem?_concat_length trivial honly
    exact fun heq => hne (hr.symm.trans heq)
  · rw [if_neg]
    · exact .off h.notCalled h.running (Bool.not_eq_true _ ▸ henabled) hidle
    · show ¬ (m.running && m.config.reconnect.enabled) = true
      rw [h.running]
      exact henabled

theorem whileConnected_loops (h : Runs m i) (hc : m.connected = true)
    (hr : m.readLoopTask = some i) : Loops (whileConnected m i) := by
  unfold whileConnected
  rw [if_pos (by rw [h.running, hc]; rfl)]
  exact goto_reading h hc hr trivial

theorem whileDisconnected_loops (h : Runs m i) (hc : m.connected = false)
    (hr : m.reconnectTask = some i) (hne : m.readLoopTask ≠ some i) :
    Loops (whileDisconnected m i delay) := by
  unfold whileDisconnected
  rw [if_pos (by rw [h.running, hc]; rfl)]
  exact goto_reconnecting h hc hr hne trivial

/-- **The reconnect loop hands over** to the read loop of a new connection. -/
theorem connectReturned_loops (h : Runs m i) (hc : m.connected = false)
    (hr : m.reconnectTask = some i) (hne : m.readLoopTask ≠ some i) (await : ConnectAwait) :
    Loops (connectReturned m i delay await) := by
  unfold connectReturned
  generalize hopened : (if await = .openConnection then { m with stream := true } else m) = opened
  have hsame : Runs opened i ∧ opened.connected = false ∧ opened.reconnectTask = some i ∧
      opened.readLoopTask ≠ some i := by
    rw [← hopened]
    split
    · exact ⟨⟨h.notCalled, h.running, h.only⟩, hc, hr, hne⟩
    · exact ⟨h, hc, hr, hne⟩
  obtain ⟨h, hc, hr, hne⟩ := hsame
  simp only
  split
  · exact goto_reconnecting h hc hr hne trivial
  · rw [if_pos (show (finishConnect opened).connected = true from rfl)]
    let spawned : Task := { await := .start .readLoop }
    have honly : Only Task.live ((opened.tasks ++ [spawned]).set i { await := .done })
        opened.tasks.length := h.only.handOver not_live_done Await.noConfusion
    have hlast : ((opened.tasks ++ [spawned]).set i { await := .done })[opened.tasks.length]? =
        some spawned := by
      rw [List.getElem?_set_ne (Nat.ne_of_lt h.inBounds)]
      exact List.getElem?_concat_length
    exact .reading h.notCalled h.running rfl rfl hlast trivial honly

theorem resume_live {outcome : Outcome} (hs : resume m i a outcome = some m') : a ≠ .done := by
  rintro rfl
  cases outcome <;> cases hs

/-- A read loop that is not cancelled. -/
theorem resume_reading (h : Runs m i) (hc : m.connected = true) (hr : m.readLoopTask = some i)
    (ha : a.reading) {outcome : Outcome} (hs : resume m i a outcome = some m') : Loops m' := by
  cases a with
  | start coroutine =>
    cases coroutine with
    | readLoop =>
      cases outcome <;> cases hs
      exact whileConnected_loops h hc hr
    | reconnectLoop => exact ha.elim
  | read =>
    cases outcome with
    | chunk bytes =>
      cases hs
      split
      · exact endReadLoop_loops h hr
      · exact whileConnected_loops h hc hr
    | timeout silence =>
      cases hs
      split
      · exact endReadLoop_loops h hr
      · exact whileConnected_loops h hc hr
    | raised =>
      cases hs
      exact endReadLoop_loops h hr
    | _ => cases hs
  | _ => exact ha.elim

theorem resume_reconnecting (h : Runs m i) (hc : m.connected = false)
    (hr : m.reconnectTask = some i) (hne : m.readLoopTask ≠ some i) (ha : a.reconnecting)
    {outcome : Outcome} (hs : resume m i a outcome = some m') : Loops m' := by
  cases a with
  | start coroutine =>
    cases coroutine with
    | readLoop => exact ha.elim
    | reconnectLoop =>
      cases outcome <;> cases hs
      exact whileDisconnected_loops h hc hr hne
  | sleep delay =>
    cases outcome <;> cases hs
    exact goto_reconnecting h hc hr hne trivial
  | connect delay await =>
    cases outcome with
    | returned =>
      cases hs
      exact connectReturned_loops h hc hr hne await
    | raised =>
      cases hs
      exact whileDisconnected_loops h hc hr hne
    | _ => cases hs
  | _ => exact ha.elim

/-! ## Stopping -/

/-- A manager in its `disconnect`. -/
structure Stops (m : PhysicalNodeManager) : Prop where
  called : m.disconnecting ≠ .notCalled
  stopped : m.running = false

theorem goto_done_stopped (h : Stops m) (ho : Only Task.live m.tasks i) :
    Loops (goto m i .done) := .stopped h.called h.stopped (ho.clear not_live_done)

/-- A read loop that is past its cancellation ends, and starts nothing. -/
theorem endReadLoop_stopped (h : Stops m) (ho : Only Task.live m.tasks i) :
    Loops (endReadLoop m i) := by
  unfold endReadLoop
  rw [if_neg]
  · exact .stopped h.called h.stopped (ho.clear not_live_done)
  · show ¬ (m.running && m.config.reconnect.enabled) = true
    rw [h.stopped]
    exact Bool.false_ne_true

theorem whileConnected_stopped (h : Stops m) (ho : Only Task.live m.tasks i) :
    Loops (whileConnected m i) := by
  unfold whileConnected
  rw [if_neg]
  · exact endReadLoop_stopped h ho
  · rw [h.stopped]
    exact Bool.false_ne_true

theorem resume_stopped (h : Stops m) (ho : Only Task.live m.tasks i) {outcome : Outcome}
    (hs : resume m i .read outcome = some m') : Loops m' := by
  cases outcome with
  | chunk bytes =>
    cases hs
    split
    · exact endReadLoop_stopped h ho
    · exact whileConnected_stopped h ho
  | timeout silence =>
    cases hs
    split
    · exact endReadLoop_stopped h ho
    · exact whileConnected_stopped h ho
  | raised =>
    cases hs
    exact endReadLoop_stopped h ho
  | _ => cases hs

theorem isDone_iff : isDone m j = true ↔ ∀ t, m.tasks[j]? = some t → ¬ t.live := by
  unfold isDone Task.live
  cases m.tasks[j]? with
  | none => simp
  | some t => simp

theorem cancel_get (h : m.tasks[i]? = some ⟨a, false⟩) (ha : a ≠ .done) :
    (cancel m i).tasks[i]? = some ⟨a, true⟩ := by
  show (m.tasks.modify i _)[i]? = _
  rw [List.getElem?_modify_eq, h]
  exact congrArg some (if_neg ha)

theorem cancel_only (h : Only Task.live m.tasks i) (j : Nat) :
    Only Task.live (cancel m j).tasks i := by
  refine h.modify ?_ j
  intro t
  unfold Task.live
  split <;> exact Iff.rfl

theorem closeStream_stopped (hs : m.running = false) (hidle : Idle Task.live m.tasks) :
    Loops (closeStream m) := by
  unfold closeStream
  split
  · exact .stopped Disconnecting.noConfusion hs hidle
  · exact .stopped Disconnecting.noConfusion hs hidle

theorem stopReconnectLoop_stopped (hs : m.running = false) (hidle : Idle Task.live m.tasks) :
    Loops (stopReconnectLoop m) := by
  unfold stopReconnectLoop
  split
  · exact closeStream_stopped hs hidle
  · next j _ =>
    rw [if_pos (isDone_iff.mpr (hidle j))]
    exact closeStream_stopped hs hidle

/-- A loop that is live is cancelled, and then awaited. -/
theorem stop_live {t : Task} {task : Option Nat} {next : PhysicalNodeManager}
    {done : Nat → PhysicalNodeManager} {awaiting : Nat → Disconnecting} (hr : task = some i)
    (ht : m.tasks[i]? = some t) (hlive : t.live) :
    (match task with
      | none => next
      | some j =>
        if isDone m j then done j else { cancel m j with disconnecting := awaiting j }) =
      { cancel m i with disconnecting := awaiting i } := by
  subst hr
  exact if_neg fun hdone => isDone_iff.mp hdone t ht hlive

/-- There is no wait for a read loop that is done. -/
theorem stopReadLoop_done (hdone : ∀ j, m.readLoopTask = some j → isDone m j = true)
    (hnext : ∀ task, Loops (stopReconnectLoop { m with readLoopTask := task })) :
    Loops (stopReadLoop m) := by
  unfold stopReadLoop
  split
  · exact hnext m.readLoopTask
  · next j hj =>
    rw [if_pos (hdone j hj)]
    exact hnext none

/-- **`disconnect` cancels the loop that is live**, without a wait before. -/
theorem Loops.disconnect (h : Loops m) (hd : m.disconnecting = .notCalled) :
    Loops (PhysicalNode.disconnect m) := by
  unfold PhysicalNode.disconnect
  cases h with
  | reading _ _ _ hr ht ha ho =>
    rw [stopReadLoop, stop_live (m := { m with running := false }) hr ht ha.live]
    exact .stoppingRead rfl rfl (cancel_get ht ha.live) ha (cancel_only ho _)
  | reconnecting _ _ _ hr hne ht ha ho =>
    refine stopReadLoop_done ?_ ?_
    · intro j hj
      refine isDone_iff.mpr ?_
      intro t htj hlive
      cases ho.only j t htj hlive
      exact hne hj
    · intro task
      rw [stopReconnectLoop,
        stop_live (m := { m with running := false, readLoopTask := task }) hr ht ha.live]
      exact .stoppingReconnect rfl rfl (cancel_get ht ha.live) ha (cancel_only ho _)
  | off _ _ _ hidle =>
    exact stopReadLoop_done (fun j _ => isDone_iff.mpr (hidle j))
      fun task => stopReconnectLoop_stopped rfl hidle
  | stoppingRead hcalled | stoppingReconnect hcalled =>
    rw [hd] at hcalled
    cases hcalled
  | stopped hcalled => exact absurd hd hcalled

/-! ## Runs -/

theorem stops_of_eq {d : Disconnecting} (hd : m.disconnecting = d) (hne : d ≠ .notCalled)
    (hs : m.running = false) : Stops m := ⟨hd ▸ hne, hs⟩

/-- What `disconnect` awaits has ended: the other loop has ended before. -/
theorem Loops.awaited (h : Loops m) (hs : PhysicalNode.step m .awaited = some m') : Loops m' := by
  rw [PhysicalNode.step] at hs
  split at hs
  · next i hd =>
    split at hs
    · next hdone =>
      cases hs
      cases h with
      | stoppingRead hcalled _ ht ha =>
        cases hd.symm.trans hcalled
        exact absurd ha.live (isDone_iff.mp hdone _ ht)
      | stopped _ hstopped hidle => exact stopReconnectLoop_stopped hstopped hidle
      | reading hcalled | reconnecting hcalled | off hcalled | stoppingReconnect hcalled =>
        cases hd.symm.trans hcalled
    · cases hs
  · next i hd =>
    split at hs
    · next hdone =>
      cases hs
      cases h with
      | stoppingReconnect hcalled _ ht ha =>
        cases hd.symm.trans hcalled
        exact absurd ha.live (isDone_iff.mp hdone _ ht)
      | stopped _ hstopped hidle => exact closeStream_stopped hstopped hidle
      | reading hcalled | reconnecting hcalled | off hcalled | stoppingRead hcalled =>
        cases hd.symm.trans hcalled
    · cases hs
  · next hd =>
    cases hs
    cases h with
    | stopped _ hstopped hidle => exact .stopped Disconnecting.noConfusion hstopped hidle
    | reading hcalled | reconnecting hcalled | off hcalled | stoppingRead hcalled
      | stoppingReconnect hcalled => cases hd.symm.trans hcalled
  · cases hs

/-- The loop that is live goes on, or hands over. -/
theorem Loops.resume (h : Loops m) {outcome : Outcome}
    (hs : PhysicalNode.step m (.resume j outcome) = some m') : Loops m' := by
  rw [PhysicalNode.step] at hs
  obtain ⟨t, htj, hs⟩ := Option.bind_eq_some_iff.mp hs
  split at hs
  · cases hs
  · next hguard =>
    have hlive := resume_live hs
    cases h with
    | reading hd hrun hc hr ht ha ho =>
      cases ho.only j t htj hlive
      cases ht.symm.trans htj
      exact resume_reading ⟨hd, hrun, ho⟩ hc hr ha hs
    | reconnecting hd hrun hc hr hne ht ha ho =>
      cases ho.only j t htj hlive
      cases ht.symm.trans htj
      exact resume_reconnecting ⟨hd, hrun, ho⟩ hc hr hne ha hs
    | @stoppingRead i a hd hrun ht ha ho =>
      cases ho.only j t htj hlive
      cases ht.symm.trans htj
      have hread : a = .read := by
        by_contra hne
        exact hguard ⟨rfl, hne⟩
      subst hread
      exact resume_stopped (stops_of_eq hd Disconnecting.noConfusion hrun) ho hs
    | stoppingReconnect hd hrun ht ha ho =>
      cases ho.only j t htj hlive
      cases ht.symm.trans htj
      refine absurd ⟨rfl, ?_⟩ hguard
      rintro rfl
      exact ha
    | off _ _ _ hidle => exact absurd hlive (hidle j t htj)
    | stopped _ _ hidle => exact absurd hlive (hidle j t htj)

/-- Only `disconnect` has a loop cancelled, and it ends there. -/
theorem Loops.cancelledError (h : Loops m)
    (hs : PhysicalNode.step m (.cancelledError j) = some m') : Loops m' := by
  rw [PhysicalNode.step] at hs
  obtain ⟨t, htj, hs⟩ := Option.bind_eq_some_iff.mp hs
  split at hs
  · next hguard =>
    cases hs
    have hlive : t.live := hguard.2
    cases h with
    | reading _ _ _ _ ht _ ho | reconnecting _ _ _ _ _ ht _ ho =>
      cases ho.only j t htj hlive
      cases ht.symm.trans htj
      cases hguard.1
    | stoppingRead hd hrun _ _ ho | stoppingReconnect hd hrun _ _ ho =>
      cases ho.only j t htj hlive
      exact goto_done_stopped (stops_of_eq hd Disconnecting.noConfusion hrun) ho
    | off _ _ _ hidle => exact absurd hlive (hidle j t htj)
    | stopped _ _ hidle => exact absurd hlive (hidle j t htj)
  · cases hs

/-- **A step keeps one loop alive**, or none where there is to be none. -/
theorem Loops.step (h : Loops m) {e : Event} (hs : PhysicalNode.step m e = some m') :
    Loops m' := by
  cases e with
  | disconnect =>
    rw [PhysicalNode.step] at hs
    split at hs
    · next hd =>
      cases hs
      exact h.disconnect hd
    · cases hs
  | awaited => exact h.awaited hs
  | resume j outcome => exact h.resume hs
  | cancelledError j => exact h.cancelledError hs

theorem connect_loops (config : PhysicalNodeConfig) (failed : Option ConnectAwait) :
    Loops (connect config failed) := by
  cases failed with
  | none =>
    have honly : Only Task.live [({ await := .start .readLoop } : Task)] 0 :=
      idle_nil.append Await.noConfusion
    exact .reading rfl rfl rfl rfl rfl trivial honly
  | some await =>
    show Loops (if config.reconnect.enabled = true then startReconnectLoop _ else _)
    by_cases henabled : config.reconnect.enabled = true
    · have honly : Only Task.live [({ await := .start .reconnectLoop } : Task)] 0 :=
        idle_nil.append Await.noConfusion
      rw [if_pos henabled]
      refine .reconnecting rfl rfl rfl rfl ?_ rfl trivial honly
      intro hnone
      cases hnone
    · rw [if_neg henabled]
      exact .off rfl rfl (Bool.not_eq_true _ ▸ henabled) idle_nil

/-- No two tasks are live. While the manager runs and reconnects one is; once `disconnect`
has returned none is, and none is started again. -/
structure Exclusive (m : PhysicalNodeManager) : Prop where
  single : ∀ (i j : Nat) t u, m.tasks[i]? = some t → m.tasks[j]? = some u → t.live → u.live → i = j
  attended : m.running = true → m.config.reconnect.enabled = true → ∃ i, Only Task.live m.tasks i
  finished : m.disconnecting = .returned →
    Idle Task.live m.tasks ∧ ∀ e, PhysicalNode.step m e = none

/-- Nothing is left to happen when all is over. -/
theorem step_over (hd : m.disconnecting = .returned) (hidle : Idle Task.live m.tasks) (e : Event) :
    PhysicalNode.step m e = none := by
  rw [Option.eq_none_iff_forall_not_mem]
  intro m' hs
  cases e with
  | disconnect => simp [PhysicalNode.step, hd] at hs
  | awaited => simp [PhysicalNode.step, hd] at hs
  | resume j outcome =>
    obtain ⟨t, htj, hs⟩ := Option.bind_eq_some_iff.mp hs
    split at hs
    · cases hs
    · exact hidle j t htj (resume_live hs)
  | cancelledError j =>
    obtain ⟨t, htj, hs⟩ := Option.bind_eq_some_iff.mp hs
    split at hs
    · next hguard => exact hidle j t htj hguard.2
    · cases hs

theorem Loops.exclusive (h : Loops m) : Exclusive m := by
  cases h with
  | reading hd _ _ _ _ _ ho | reconnecting hd _ _ _ _ _ _ ho =>
    refine ⟨ho.single, fun _ _ => ⟨_, ho⟩, ?_⟩
    intro hreturned
    rw [hd] at hreturned
    cases hreturned
  | off hd _ hoff hidle =>
    refine ⟨hidle.single, ?_, ?_⟩
    · intro _ henabled
      rw [hoff] at henabled
      cases henabled
    · intro hreturned
      rw [hd] at hreturned
      cases hreturned
  | stoppingRead hd hrun _ _ ho | stoppingReconnect hd hrun _ _ ho =>
    refine ⟨ho.single, ?_, ?_⟩
    · intro hrunning
      rw [hrun] at hrunning
      cases hrunning
    · intro hreturned
      rw [hd] at hreturned
      cases hreturned
  | stopped _ hrun hidle =>
    refine ⟨hidle.single, ?_,
      fun hd => ⟨hidle, step_over hd hidle⟩⟩
    intro hrunning
    rw [hrun] at hrunning
    cases hrunning

/-- **The loops of the physical node** after `connect`, in every run with one `disconnect`. -/
theorem run_exclusive (config : PhysicalNodeConfig) (failed : Option ConnectAwait)
    {es : List Event} (hr : run PhysicalNode.step (connect config failed) es = some m) :
    Exclusive m :=
  (invariant (fun _ _ _ h hs => h.step hs) (connect_loops config failed) hr).exclusive

/-- A connection that is refused, made, lost to an idle stream and made again, and a
`disconnect` in the middle of that. -/
def reconnects : List Event :=
  [.resume 0 .started, .resume 0 .returned, .resume 0 .raised, .resume 0 .returned,
    .resume 0 .returned, .resume 0 .returned, .resume 1 .started, .resume 1 (.chunk [0x94]),
    .resume 1 (.timeout 31), .resume 2 .started, .resume 2 .returned, .disconnect,
    .cancelledError 2, .awaited, .awaited]

theorem run_exclusive_reconnects :
    ∃ m, run PhysicalNode.step (connect { serial := false } (some .openConnection)) reconnects =
      some m ∧ m.disconnecting = .returned ∧ m.tasks.length = 3 ∧ Exclusive m := by
  have hrun : (run PhysicalNode.step (connect { serial := false } (some .openConnection))
      reconnects).map (fun m => (m.disconnecting, m.tasks.length)) = some (.returned, 3) := by
    decide
  obtain ⟨m, hm, hend⟩ := Option.map_eq_some_iff.mp hrun
  obtain ⟨hreturned, hlen⟩ := Prod.mk.inj hend
  exact ⟨m, hm, hreturned, hlen, run_exclusive _ _ hm⟩

end Multiplextashtic.PhysicalNode
