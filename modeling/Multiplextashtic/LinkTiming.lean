import Mathlib.Algebra.Order.Group.Int
import Mathlib.Algebra.Order.Ring.Int
import Multiplextashtic.ClientHandler
import Multiplextashtic.Lib.Timed
import Multiplextashtic.RadioLink

/-! # The connection to the physical node in time

The manager of `PhysicalNodeManager.lean` beside a clock, with `_last_data_time`: how
soon a TCP connection that has gone silent is given up. -/
namespace Multiplextashtic.PhysicalNode
open Multiplextashtic.Client (Time)
open Multiplextashtic.Protocol Run Sole

def second : Time := 1000000

theorem second_nonneg : 0 ≤ second := Int.natCast_nonneg 1000000

structure DatedManager where
  manager : PhysicalNodeManager
  lastDataTime : Time := 0
  deriving DecidableEq, Repr

/-- `time.time() - self._last_data_time`, in seconds begun. -/
def silence (now : Time) (d : DatedManager) : Int :=
  (now - d.lastDataTime + (second - 1)) / second

/-- A read that times out is asked for how long there has been silence. -/
def measured (now : Time) (d : DatedManager) : Event → Bool
  | .resume _ (.timeout n) => n = silence now d
  | _ => true

/-- `_last_data_time` is set by data and at the end of `_do_connect`. -/
def dates (m : PhysicalNodeManager) : Event → Bool
  | .resume _ (.chunk bytes) => bytes ≠ []
  | e => connectReturns m e = some .wantConfig

def datedStep (now : Time) (d : DatedManager) (e : Event) : Option DatedManager :=
  if measured now d e then
    (step d.manager e).map fun manager =>
      { manager, lastDataTime := if dates d.manager e then now else d.lastDataTime }
  else none

/-! ## How long the awaits take

`asyncio.sleep` and a timeout of `wait_for` take their time at least; what waits for
the network takes any. -/

def Await.shortest : Await → Outcome → Time
  | .read, .timeout _ => second
  | .sleep delay, .returned => delay * second
  | .connect _ .settle, .returned => second / 10
  | _, _ => 0

def Await.longest : Await → Option Time
  | .start _ => some 0
  | .read => some second
  | .sleep delay => some (max 0 (delay * second))
  | .connect _ .settle => some (second / 10)
  | .connect _ _ => none
  | .done => none

def taskOf : Event → Option Nat
  | .resume i _ => some i
  | .cancelledError i => some i
  | _ => none

def timing : Timed.Tasks DatedManager Event Time where
  act := datedStep
  size d := d.manager.tasks.length
  turn := taskOf
  shortest d e :=
    match e with
    | .resume i outcome => d.manager.tasks[i]?.elim 0 fun t => t.await.shortest outcome
    | _ => 0
  longest d i := d.manager.tasks[i]?.bind fun t => t.await.longest

abbrev TimedManager := Timed.Clocked DatedManager Time

abbrev timedStep (s : TimedManager) (e : Timed.Event Event Time) : Option TimedManager :=
  Timed.step timing s e

/-- When `connect` has returned. -/
def begun (config : PhysicalNodeConfig) (failed : Option ConnectAwait) : TimedManager where
  system := { manager := connect config failed }
  time := 0
  arrived := fun _ => 0

/-! ## What a step does to the awaits -/

def awaits (m : PhysicalNodeManager) : List Await := m.tasks.map Task.await

/-- Where a task goes on to, and the loop that it starts. -/
inductive Goes (m : PhysicalNodeManager) : Await → Outcome → Await → Option Coroutine → Prop
  | first : Goes m (.start .readLoop) .started .read none
  | hears {bytes : Bytes} : bytes ≠ [] → Goes m .read (.chunk bytes) .read none
  | waits {n : Int} : ¬ (idleTimeout m > 0 ∧ n > idleTimeout m) →
      Goes m .read (.timeout n) .read none
  | ends {a : Await} {outcome : Outcome} {next : Option Coroutine} : a.reading →
      next ≠ some .readLoop → Goes m a outcome .done next
  | begins : Goes m (.start .reconnectLoop) .started (.sleep m.config.reconnect.initialDelay) none
  | stops {a : Await} {outcome : Outcome} : a.reconnecting → outcome ≠ .returned →
      Goes m a outcome .done none
  | attempts {delay : Int} : Goes m (.sleep delay) .returned (.connect delay .openConnection) none
  | goesOn {delay : Int} {await next : ConnectAwait} : nextAwait m await = some next →
      Goes m (.connect delay await) .returned (.connect delay next) none
  | connects {delay : Int} : Goes m (.connect delay .wantConfig) .returned .done (some .readLoop)
  | fails {delay : Int} {await : ConnectAwait} :
      Goes m (.connect delay await) .raised (.sleep (backOff m delay)) none

variable {m m' : PhysicalNodeManager} {i : Nat} {a : Await} {outcome : Outcome}

theorem awaits_goto : awaits (goto m i a) = (awaits m).set i a := List.map_set

theorem awaits_append {t : Task} {ts : List Task} (h : m'.tasks = ts ++ [t]) :
    awaits m' = ts.map Task.await ++ [t.await] := by
  rw [awaits, h, List.map_append, List.map_singleton]

/-- The awaits after a task has gone on. -/
def Went (m m' : PhysicalNodeManager) (i : Nat) (a : Await) (next : Option Coroutine) : Prop :=
  awaits m' = (awaits m).set i a ++ next.toList.map .start

theorem went_goto : Went m (goto m i a) i a none := by
  rw [Went, awaits_goto]
  exact (List.append_nil _).symm

/-- A turn of a task. Where a read loop ends the connection is down. -/
structure Turn (m m' : PhysicalNodeManager) (i : Nat) (a : Await) (outcome : Outcome) (b : Await)
    (next : Option Coroutine) : Prop where
  goes : Goes m a outcome b next
  went : Went m m' i b next
  down : a.reading → b = .done → m'.connected = false

theorem went_endReadLoop (ha : a.reading) :
    ∃ b next, Turn m (endReadLoop m i) i a outcome b next := by
  unfold endReadLoop
  simp only
  split
  · refine ⟨.done, some .reconnectLoop, .ends ha (by simp), ?_, fun _ _ => rfl⟩
    exact (awaits_append rfl).trans (congrArg (· ++ _) List.map_set)
  · exact ⟨.done, none, .ends ha (by simp), went_goto, fun _ _ => rfl⟩

/-- The read loop goes on, or ends. -/
theorem went_whileConnected (ha : a.reading) (hread : Goes m a outcome .read none) :
    ∃ b next, Turn m (whileConnected m i) i a outcome b next := by
  unfold whileConnected
  split
  · exact ⟨_, _, hread, went_goto, fun _ hdone => Await.noConfusion hdone⟩
  · exact went_endReadLoop ha

theorem Await.reconnecting.not_reading (h : a.reconnecting) : ¬ a.reading := by
  cases a with
  | start loop => cases loop <;> first | exact h.elim | exact id
  | read | done => exact h.elim
  | _ => exact id

theorem went_whileDisconnected {delay : Int} (ha : a.reconnecting) (hout : outcome ≠ .returned)
    (hsleep : Goes m a outcome (.sleep delay) none) :
    ∃ b next, Turn m (whileDisconnected m i delay) i a outcome b next := by
  unfold whileDisconnected
  split
  · exact ⟨_, _, hsleep, went_goto, fun hread => absurd hread ha.not_reading⟩
  · exact ⟨_, _, .stops ha hout, went_goto, fun hread => absurd hread ha.not_reading⟩

theorem went_connectReturned {delay : Int} {await : ConnectAwait} (hi : i < m.tasks.length) :
    ∃ b next, Turn m (connectReturned m i delay await) i (.connect delay await) .returned b next := by
  unfold connectReturned
  generalize hopened : (if await = .openConnection then { m with stream := true } else m) = opened
  have hsame : opened.tasks = m.tasks ∧ opened.config = m.config := by
    rw [← hopened]
    split <;> exact ⟨rfl, rfl⟩
  have hgoto (b : Await) : Went m (goto opened i b) i b none := by
    have hwent : Went opened (goto opened i b) i b none := went_goto
    rwa [Went, awaits, awaits, hsame.1] at hwent
  simp only
  split
  · next next hnext =>
    have hnext : nextAwait m await = some next := by
      rw [← hnext]
      cases await <;> simp only [nextAwait, hsame.2]
    exact ⟨_, _, .goesOn hnext, hgoto _, fun hread => hread.elim⟩
  · next hnone =>
    cases nextAwait_none hnone
    rw [if_pos (show (finishConnect opened).connected = true from rfl)]
    refine ⟨_, _, .connects, ?_, fun hread => hread.elim⟩
    have hspawned : awaits (finishConnect opened) = awaits m ++ [.start .readLoop] := by
      rw [awaits, awaits, ← hsame.1]
      exact List.map_append
    rw [Went, awaits_goto, hspawned]
    refine List.set_append_left i _ ?_
    rwa [awaits, List.length_map]

theorem resume_turn (hi : i < m.tasks.length) (hs : resume m i a outcome = some m') :
    ∃ b next, Turn m m' i a outcome b next := by
  cases a with
  | start coroutine =>
    cases coroutine with
    | readLoop =>
      cases outcome <;> cases hs
      exact went_whileConnected trivial .first
    | reconnectLoop =>
      cases outcome <;> cases hs
      exact went_whileDisconnected trivial Outcome.noConfusion .begins
  | read =>
    cases outcome with
    | chunk bytes =>
      cases hs
      split
      · exact went_endReadLoop trivial
      · next hbytes => exact went_whileConnected trivial (.hears hbytes)
    | timeout n =>
      cases hs
      split
      · exact went_endReadLoop trivial
      · next hn => exact went_whileConnected trivial (.waits hn)
    | raised =>
      cases hs
      exact went_endReadLoop trivial
    | _ => cases hs
  | sleep delay =>
    cases outcome <;> cases hs
    exact ⟨_, _, .attempts, went_goto, fun hread => hread.elim⟩
  | connect delay await =>
    cases outcome with
    | returned =>
      cases hs
      exact went_connectReturned hi
    | raised =>
      cases hs
      exact went_whileDisconnected trivial Outcome.noConfusion .fails
    | _ => cases hs
  | done => cases outcome <;> cases hs

theorem Turn.get {b : Await} {next : Option Coroutine} (h : Turn m m' i a outcome b next)
    (hi : i < (awaits m).length) : (awaits m')[i]? = some b := by
  rw [h.went, List.getElem?_append_left (by rwa [List.length_set]), List.getElem?_set_self hi]

theorem awaits_cancel : awaits (cancel m i) = awaits m := by
  refine List.ext_getElem? ?_
  intro j
  show ((m.tasks.modify i _).map Task.await)[j]? = (m.tasks.map Task.await)[j]?
  rw [List.getElem?_map, List.getElem?_map, List.getElem?_modify]
  cases m.tasks[j]? with
  | none => rfl
  | some t =>
    refine congrArg some ?_
    split
    · dsimp only
      split <;> rfl
    · rfl

theorem awaits_closeStream : awaits (closeStream m) = awaits m := by
  unfold closeStream
  split <;> rfl

theorem awaits_stopReconnectLoop : awaits (stopReconnectLoop m) = awaits m := by
  unfold stopReconnectLoop
  split
  · exact awaits_closeStream
  · split
    · exact awaits_closeStream
    · exact awaits_cancel

theorem awaits_stopReadLoop : awaits (stopReadLoop m) = awaits m := by
  unfold stopReadLoop
  split
  · exact awaits_stopReconnectLoop
  · split
    · exact awaits_stopReconnectLoop
    · exact awaits_cancel

theorem awaits_awaited (hs : step m .awaited = some m') : awaits m' = awaits m := by
  rw [step] at hs
  split at hs
  · split at hs <;> cases hs
    exact awaits_stopReconnectLoop
  · split at hs <;> cases hs
    exact awaits_closeStream
  · cases hs
    rfl
  · cases hs

/-- What a step does to the awaits. -/
inductive Changes (m m' : PhysicalNodeManager) : Event → Prop
  | turn {i : Nat} {outcome : Outcome} {a b : Await} {next : Option Coroutine} :
      (awaits m)[i]? = some a → Turn m m' i a outcome b next →
      (next = some .readLoop → connectReturns m (.resume i outcome) = some .wantConfig) →
      Changes m m' (.resume i outcome)
  | cancelled {i : Nat} : awaits m' = (awaits m).set i .done → Changes m m' (.cancelledError i)
  | stays {e : Event} : taskOf e = none → awaits m' = awaits m → Changes m m' e

theorem step_changes {e : Event} (hs : step m e = some m') : Changes m m' e := by
  cases e with
  | resume i outcome =>
    rw [step] at hs
    obtain ⟨t, ht, hs⟩ := Option.bind_eq_some_iff.mp hs
    split at hs
    · cases hs
    · next hguard =>
      obtain ⟨b, next, hturn⟩ := resume_turn (List.getElem?_eq_some_iff.mp ht).1 hs
      have hget : (awaits m)[i]? = some t.await := by
        rw [awaits, List.getElem?_map, ht]
        rfl
      refine .turn hget hturn ?_
      rintro rfl
      obtain ⟨await, cancelled⟩ := t
      cases hturn.goes with
      | connects =>
        cases cancelled with
        | false => simp only [connectReturns, ht]
        | true => exact absurd ⟨rfl, Await.noConfusion⟩ hguard
      | ends _ hnext => exact absurd rfl hnext
  | cancelledError i =>
    rw [step] at hs
    obtain ⟨t, ht, hs⟩ := Option.bind_eq_some_iff.mp hs
    split at hs <;> cases hs
    exact .cancelled awaits_goto
  | disconnect =>
    rw [step] at hs
    split at hs <;> cases hs
    exact .stays rfl awaits_stopReadLoop
  | awaited => exact .stays rfl (awaits_awaited hs)

/-- The other tasks stay where they are. -/
theorem Changes.kept {e : Event} (h : Changes m m' e) {j : Nat} (hj : j < (awaits m).length)
    (hturn : taskOf e ≠ some j) : (awaits m')[j]? = (awaits m)[j]? := by
  cases h with
  | @turn i _ _ _ _ _ h =>
    have hne : i ≠ j := fun h => hturn (congrArg some h)
    rw [h.went, List.getElem?_append_left (by rwa [List.length_set]), List.getElem?_set_ne hne]
  | @cancelled i hset =>
    have hne : i ≠ j := fun h => hturn (congrArg some h)
    rw [hset, List.getElem?_set_ne hne]
  | stays _ hsame => rw [hsame]

/-- How a task came to the await it is found at behind a step. -/
inductive Came (m : PhysicalNodeManager) (e : Event) (j : Nat) : Await → Prop
  | stayed {a : Await} : taskOf e ≠ some j → (awaits m)[j]? = some a → Came m e j a
  | started {loop : Coroutine} : (awaits m).length ≤ j →
      (loop = .readLoop → connectReturns m e = some .wantConfig) → Came m e j (.start loop)
  | went {outcome : Outcome} {a b : Await} {next : Option Coroutine} : e = .resume j outcome →
      (awaits m)[j]? = some a → Goes m a outcome b next → Came m e j b
  | cancelled : Came m e j .done

theorem Changes.came {e : Event} (h : Changes m m' e) {j : Nat} (hj : (awaits m')[j]? = some a) :
    Came m e j a := by
  have hkept (hlt : j < (awaits m).length) (hturn : taskOf e ≠ some j) : Came m e j a :=
    .stayed hturn (h.kept hlt hturn ▸ hj)
  cases h with
  | @turn i outcome b c next hget hturn hnext =>
    rcases Nat.lt_or_ge j (awaits m).length with hlt | hge
    · by_cases hij : i = j
      · subst hij
        cases (hturn.get hlt).symm.trans hj
        exact .went rfl hget hturn.goes
      · exact hkept hlt fun h => hij (Option.some.inj h)
    · rw [hturn.went, List.getElem?_append_right (by rwa [List.length_set])] at hj
      have hmem := List.mem_of_getElem? hj
      obtain ⟨loop, hloop, rfl⟩ := List.mem_map.mp hmem
      refine .started hge ?_
      rintro rfl
      exact hnext (Option.mem_toList.mp hloop)
  | @cancelled i hset =>
    by_cases hij : i = j
    · subst hij
      rw [hset] at hj
      obtain ⟨hlt, hdone⟩ := List.getElem?_eq_some_iff.mp hj
      rw [List.getElem_set_self] at hdone
      exact hdone ▸ .cancelled
    · rw [hset, List.getElem?_set_ne hij] at hj
      exact .stayed (fun h => hij (Option.some.inj h)) hj
  | stays hturn hsame =>
    refine .stayed ?_ (hsame ▸ hj)
    rw [hturn]
    simp

theorem Changes.length_le {e : Event} (h : Changes m m' e) :
    (awaits m).length ≤ (awaits m').length := by
  cases h with
  | turn _ h =>
    rw [h.went, List.length_append, List.length_set]
    exact Nat.le_add_right _ _
  | cancelled hset => rw [hset, List.length_set]
  | stays _ hsame => rw [hsame]

/-! ## Steps in time -/

variable {d d' : DatedManager} {s t : TimedManager} {now lag : Time}

theorem datedStep_some {e : Event} (hs : datedStep now d e = some d') :
    measured now d e = true ∧ step d.manager e = some d'.manager ∧
      d'.lastDataTime = if dates d.manager e then now else d.lastDataTime := by
  rw [datedStep] at hs
  split at hs
  · next hmeasured =>
    obtain ⟨manager, hstep, rfl⟩ := Option.map_eq_some_iff.mp hs
    exact ⟨hmeasured, hstep, rfl⟩
  · cases hs

theorem awaits_get (m : PhysicalNodeManager) (i : Nat) :
    (awaits m)[i]? = m.tasks[i]?.map Task.await := List.getElem?_map

theorem timing_size (d : DatedManager) : timing.size d = (awaits d.manager).length :=
  (List.length_map Task.await).symm

theorem timing_longest (d : DatedManager) (i : Nat) :
    timing.longest d i = (awaits d.manager)[i]?.bind Await.longest := by
  rw [awaits_get]
  cases h : d.manager.tasks[i]? <;> simp [timing, h]

theorem timing_shortest {d : DatedManager} (ha : (awaits d.manager)[i]? = some a) :
    timing.shortest d (.resume i outcome) = a.shortest outcome := by
  rw [awaits_get] at ha
  obtain ⟨t, ht, rfl⟩ := Option.map_eq_some_iff.mp ha
  simp only [timing, ht, Option.elim_some]

theorem longest_nonneg {l : Time} (h : a.longest = some l) : 0 ≤ l := by
  cases a with
  | start | read =>
    cases h
    decide
  | sleep delay =>
    cases h
    exact le_max_left _ _
  | connect delay await =>
    cases await <;> cases h
    decide
  | done => cases h

theorem lawful : Timed.Lawful timing where
  kept := by
    intro now d e d' hact i hi hturn
    obtain ⟨-, hstep, -⟩ := datedStep_some hact
    rw [timing_size] at hi
    rw [timing_longest, timing_longest, (step_changes hstep).kept hi hturn]
  nonneg := by
    intro d i l hl
    rw [timing_longest] at hl
    obtain ⟨a, -, ha⟩ := Option.bind_eq_some_iff.mp hl
    exact longest_nonneg ha

/-- **The manager in time is the manager**: the clock only holds back steps. -/
theorem embeds_manager : Embeds timedStep step (fun _ => True) (fun s => s.system.manager)
    fun _ e => e.action.toList :=
  Timed.embeds DatedManager.manager fun _ _ _ _ hact => (datedStep_some hact).2.1

section
variable {config : PhysicalNodeConfig} {failed : Option ConnectAwait}
  {es : List (Timed.Event Event Time)}

theorem run_loops (hr : run timedStep (begun config failed) es = some s) :
    Loops s.system.manager :=
  invariant (fun _ _ _ h hs => h.step hs) (connect_loops config failed)
    (embeds_manager.run trivial hr).2

theorem run_config {u : TimedManager} (hr : run timedStep u es = some s) :
    s.system.manager.config = u.system.manager.config :=
  invariant (P := fun m => m.config = u.system.manager.config)
    (fun _ _ _ h hs => (config_step hs).trans h) rfl (embeds_manager.run trivial hr).2

/-! ## Silence -/

theorem ceil_le (x n : Int) : (x + (1000000 - 1)) / 1000000 ≤ n ↔ x ≤ n * 1000000 := by omega

theorem silence_le {n : Int} : silence now d ≤ n ↔ now - d.lastDataTime ≤ n * second :=
  ceil_le _ _

theorem dates_connects {e : Event} (h : connectReturns m e = some .wantConfig) :
    dates m e = true := by
  obtain ⟨i, delay, rfl, -⟩ := connectReturns_some h
  exact decide_eq_true h

/-- What is past, and how long there was silence when the read loop came to its await. -/
structure Heard (lag : Time) (s : TimedManager) : Prop where
  past : s.system.lastDataTime ≤ s.time
  starts : ∀ i : Nat, (awaits s.system.manager)[i]? = some (.start .readLoop) →
    s.arrived i ≤ s.system.lastDataTime
  reads : 0 < idleTimeout s.system.manager → ∀ i : Nat,
    (awaits s.system.manager)[i]? = some .read →
      s.arrived i ≤ s.system.lastDataTime + max (idleTimeout s.system.manager * second) lag

theorem idleTimeout_config (h : m'.config = m.config) : idleTimeout m' = idleTimeout m := by
  rw [idleTimeout, idleTimeout, h]

/-- A wait that is not overdue, as one of the manager's awaits. -/
theorem due_await (h : Timed.Due timing lag s s.time) (ha : (awaits s.system.manager)[i]? = some a)
    {l : Time} (hl : a.longest = some l) : s.time ≤ s.arrived i + l + lag := by
  refine h i ?_ l ?_
  · rw [timing_size]
    exact (List.getElem?_eq_some_iff.mp ha).1
  · show timing.longest s.system i = some l
    rw [timing_longest, ha]
    exact hl

theorem Heard.step (hlag : 0 ≤ lag) (h : Heard lag s) (harrived : ∀ i, s.arrived i ≤ s.time)
    (hdue : Timed.Due timing lag s s.time) {e : Timed.Event Event Time}
    (hs : timedStep s e = some t) : Heard lag t := by
  cases e with
  | elapse time =>
    obtain ⟨hpos, rfl⟩ := Timed.step_elapse.mp hs
    exact ⟨h.past.trans (le_add_of_nonneg_right hpos.le), h.starts, h.reads⟩
  | act e =>
    have hacts := Timed.step_act hs
    obtain ⟨hmeasured, hstep, hlast⟩ := datedStep_some hacts.act
    have hchanges := step_changes hstep
    have hidle := idleTimeout_config (config_step hstep)
    have hpast : t.system.lastDataTime ≤ t.time := by
      rw [hlast, hacts.time]
      split
      · exact le_refl _
      · exact h.past
    -- a bound on what the last data are behind stays one: there may only be later data
    have hbound {i : Nat} {bound : Time} (hb : 0 ≤ bound)
        (hle : t.arrived i ≤ s.system.lastDataTime + bound) :
        t.arrived i ≤ t.system.lastDataTime + bound := by
      rw [hlast]
      split
      · refine le_trans ?_ (le_add_of_nonneg_right hb)
        rcases hacts.arrived i with hnow | hsame
        · exact hnow.le
        · exact hsame.trans_le (harrived i)
      · exact hle
    have hkept {i : Nat} (hturn : taskOf e ≠ some i) {a : Await}
        (ha : (awaits s.system.manager)[i]? = some a) : t.arrived i = s.arrived i := by
      refine hacts.kept i ?_ hturn
      rw [timing_size]
      exact (List.getElem?_eq_some_iff.mp ha).1
    refine ⟨hpast, ?_, ?_⟩
    · intro i hi
      cases hchanges.came hi with
      | stayed hturn ha =>
        have hle : t.arrived i ≤ s.system.lastDataTime + 0 := by
          rw [hkept hturn ha, add_zero]
          exact h.starts i ha
        rw [← add_zero t.system.lastDataTime]
        exact hbound le_rfl hle
      | started hlen hconnects =>
        rw [hlast, if_pos (dates_connects (hconnects rfl))]
        exact (hacts.started i (timing_size s.system ▸ hlen)).le
      | went _ _ hgoes => cases hgoes
    · intro hpos i hi
      rw [hidle] at hpos ⊢
      have hmax : 0 ≤ max (idleTimeout s.system.manager * second) lag := le_max_of_le_right hlag
      cases hchanges.came hi with
      | stayed hturn ha => exact hbound hmax (hkept hturn ha ▸ h.reads hpos i ha)
      | @went outcome a _ _ he ha hgoes =>
        subst he
        have hnow : t.arrived i = s.time := hacts.turned i rfl
        cases hgoes with
        | first =>
          refine hbound hmax ?_
          calc t.arrived i = s.time := hnow
            _ ≤ s.arrived i + 0 + lag := due_await hdue ha rfl
            _ ≤ s.system.lastDataTime + 0 + lag := by gcongr; exact h.starts i ha
            _ ≤ _ := by rw [add_zero]; gcongr; exact le_max_right _ _
        | @hears bytes hbytes =>
          have hdates : dates s.system.manager (.resume i (.chunk bytes)) = true :=
            decide_eq_true hbytes
          rw [hlast, if_pos hdates, hnow]
          exact le_add_of_nonneg_right hmax
        | @waits n hn =>
          refine hbound hmax ?_
          have hn : n ≤ idleTimeout s.system.manager :=
            not_lt.mp fun hlt => hn ⟨hpos, hlt⟩
          have hsilence : silence s.time s.system ≤ idleTimeout s.system.manager :=
            of_decide_eq_true hmeasured ▸ hn
          calc t.arrived i = s.time := hnow
            _ ≤ s.system.lastDataTime + idleTimeout s.system.manager * second :=
              sub_le_iff_le_add'.mp (silence_le.mp hsilence)
            _ ≤ _ := by gcongr; exact le_max_left _ _

theorem begun_config (config : PhysicalNodeConfig) (failed : Option ConnectAwait) :
    (begun config failed).system.manager.config = config := by
  show (connect config failed).config = config
  cases failed with
  | none => rfl
  | some await =>
    unfold connect
    simp only
    split <;> rfl

/-- Nothing has happened yet: the tasks of `connect` await their first step. -/
theorem begun_start (config : PhysicalNodeConfig) (failed : Option ConnectAwait) {i : Nat}
    (ha : (awaits (begun config failed).system.manager)[i]? = some a) : ∃ loop, a = .start loop := by
  have hmem := List.mem_of_getElem? ha
  cases failed with
  | none =>
    obtain rfl := List.mem_singleton.mp hmem
    exact ⟨_, rfl⟩
  | some await =>
    have hcases : awaits (begun config (some await)).system.manager = [.start .reconnectLoop] ∨
        awaits (begun config (some await)).system.manager = [] := by
      show awaits (if config.reconnect.enabled = true then startReconnectLoop _ else _) = _ ∨
        awaits (if config.reconnect.enabled = true then startReconnectLoop _ else _) = _
      split
      · exact .inl rfl
      · exact .inr rfl
    rcases hcases with hone | hnone
    · rw [hone] at hmem
      obtain rfl := List.mem_singleton.mp hmem
      exact ⟨_, rfl⟩
    · rw [hnone] at hmem
      cases hmem

theorem begun_due (hlag : 0 ≤ lag) (config : PhysicalNodeConfig) (failed : Option ConnectAwait) :
    Timed.Due timing lag (begun config failed) 0 := by
  intro i _ l hl
  have hl : timing.longest (begun config failed).system i = some l := hl
  rw [timing_longest] at hl
  obtain ⟨a, ha, hl⟩ := Option.bind_eq_some_iff.mp hl
  obtain ⟨loop, rfl⟩ := begun_start config failed ha
  cases hl
  simpa [begun] using hlag

theorem begun_heard (config : PhysicalNodeConfig) (failed : Option ConnectAwait) :
    Heard lag (begun config failed) := by
  refine ⟨le_rfl, fun _ _ => le_rfl, ?_⟩
  intro _ i hi
  obtain ⟨loop, hloop⟩ := begun_start config failed hi
  cases hloop

/-- What a punctual run keeps. -/
theorem run_heard (hlag : 0 ≤ lag)
    (hp : Along timedStep (Timed.Punctual timing lag) (begun config failed) es)
    (hr : run timedStep (begun config failed) es = some s) :
    Heard lag s ∧ Timed.Due timing lag s s.time := by
  have hstep (u : TimedManager) (e : Timed.Event Event Time) (v : TimedManager)
      (h : Heard lag u ∧ (∀ i, u.arrived i ≤ u.time) ∧ Timed.Due timing lag u u.time)
      (hpunctual : Timed.Punctual timing lag u e) (hs : timedStep u e = some v) :
      Heard lag v ∧ (∀ i, v.arrived i ≤ v.time) ∧ Timed.Due timing lag v v.time := by
    obtain ⟨hheard, harrived, hdue⟩ := h
    exact ⟨hheard.step hlag harrived hdue hs, Timed.arrived_le_step harrived hs,
      Timed.due_step lawful hlag hdue hpunctual hs⟩
  obtain ⟨hheard, -, hdue⟩ := invariant_along hstep
    ⟨begun_heard config failed, fun _ => le_rfl, begun_due hlag config failed⟩ hp hr
  exact ⟨hheard, hdue⟩

theorem called_closeStream : (closeStream m).disconnecting ≠ .notCalled := by
  unfold closeStream
  split <;> exact Disconnecting.noConfusion

theorem called_stopReconnectLoop : (stopReconnectLoop m).disconnecting ≠ .notCalled := by
  unfold stopReconnectLoop
  split
  · exact called_closeStream
  · split
    · exact called_closeStream
    · exact Disconnecting.noConfusion

theorem called_stopReadLoop : (stopReadLoop m).disconnecting ≠ .notCalled := by
  unfold stopReadLoop
  split
  · exact called_stopReconnectLoop
  · split
    · exact called_stopReconnectLoop
    · exact Disconnecting.noConfusion

theorem called_awaited (hs : step m .awaited = some m') : m'.disconnecting ≠ .notCalled := by
  rw [step] at hs
  split at hs
  · split at hs <;> cases hs
    exact called_stopReconnectLoop
  · split at hs <;> cases hs
    exact called_closeStream
  · cases hs
    exact Disconnecting.noConfusion
  · cases hs

/-- Nothing is cancelled before `disconnect`. -/
theorem Loops.not_cancelledError (h : Loops m) (hd : m.disconnecting = .notCalled) (i : Nat) :
    PhysicalNode.step m (.cancelledError i) = none := by
  rw [Option.eq_none_iff_forall_not_mem]
  intro m' hs
  obtain ⟨t, ht, hs⟩ := Option.bind_eq_some_iff.mp hs
  split at hs
  · next hguard =>
    cases h with
    | reading _ _ _ _ hi _ ho | reconnecting _ _ _ _ _ hi _ ho =>
      cases ho.only i t ht hguard.2
      cases hi.symm.trans ht
      cases hguard.1
    | off _ _ _ hidle => exact hidle i t ht hguard.2
    | stoppingRead hcalled | stoppingReconnect hcalled => cases hcalled.symm.trans hd
    | stopped hcalled => exact hcalled hd
  · cases hs

/-- A connection is up behind a turn if the turn made it, or it was up before. -/
theorem Turn.up {b : Await} {next : Option Coroutine} (h : Turn m m' i a outcome b next)
    (hloops : Loops m) (hs : step m (.resume i outcome) = some m') (ha : (awaits m)[i]? = some a)
    (hup : m'.connected = true) : next = some .readLoop ∨ m.connected = true := by
  have hmoves := step_moves hloops hs
  cases hr : connectReturns m (.resume i outcome) with
  | none =>
    rw [hr] at hmoves
    cases hmoves with
    | quiet hquiet => exact .inr (hquiet.connected hup)
  | some await =>
    obtain ⟨j, delay, he, ht⟩ := connectReturns_some hr
    cases he
    rw [awaits_get, ht] at ha
    cases ha
    rw [hr] at hmoves
    cases hmoves with
    | awaits _ _ hdown => cases hdown.symm.trans hup
    | connects =>
      cases h.goes with
      | goesOn hnext => cases hnext
      | connects => exact .inl rfl
      | stops _ hout => exact absurd rfl hout
      | ends hread => exact hread.elim

/-- A connection that is up is read from, until `disconnect`. -/
def Attended (m : PhysicalNodeManager) : Prop :=
  m.disconnecting = .notCalled → m.connected = true →
    ∃ (i : Nat) (a : Await), (awaits m)[i]? = some a ∧ a.reading

theorem Attended.step (h : Attended m) (hloops : Loops m) {e : Event}
    (hs : PhysicalNode.step m e = some m') : Attended m' := by
  intro hd hup
  cases e with
  | disconnect =>
    rw [PhysicalNode.step] at hs
    split at hs <;> cases hs
    exact absurd hd called_stopReadLoop
  | awaited => exact absurd hd (called_awaited hs)
  | cancelledError i =>
    rw [(framed_step ⟨Event.noConfusion, Event.noConfusion⟩ hs).disconnecting] at hd
    rw [hloops.not_cancelledError hd i] at hs
    cases hs
  | resume i outcome =>
    rw [(framed_step ⟨Event.noConfusion, Event.noConfusion⟩ hs).disconnecting] at hd
    have hchanges := step_changes hs
    cases hchanges with
    | stays hnone => cases hnone
    | @turn _ _ a b next hget hturn hnext =>
      have hi := (List.getElem?_eq_some_iff.mp hget).1
      rcases hturn.up hloops hs hget hup with rfl | hm
      · refine ⟨(awaits m).length, .start .readLoop, ?_, trivial⟩
        rw [hturn.went, List.getElem?_append_right (by rw [List.length_set]), List.length_set,
          Nat.sub_self]
        rfl
      · obtain ⟨j, c, hj, hc⟩ := h hd hm
        by_cases hij : i = j
        · subst hij
          cases hget.symm.trans hj
          have hb := hturn.get hi
          cases hturn.goes with
          | first | hears | waits => exact ⟨i, .read, hb, trivial⟩
          | ends => cases (hturn.down hc rfl).symm.trans hup
          | stops hstops => exact absurd hc hstops.not_reading
          | begins | attempts | goesOn | connects | fails => exact hc.elim
        · refine ⟨j, c, ?_, hc⟩
          rw [(step_changes hs).kept (List.getElem?_eq_some_iff.mp hj).1]
          · exact hj
          · exact fun h => hij (Option.some.inj h)

theorem attended_connect (config : PhysicalNodeConfig) (failed : Option ConnectAwait) :
    Attended (connect config failed) := by
  intro _ hup
  cases failed with
  | none => exact ⟨0, .start .readLoop, rfl, trivial⟩
  | some await =>
    unfold connect at hup
    simp only at hup
    split at hup <;> cases hup

theorem Loops.notCalled (h : Loops m) (hrunning : m.running = true) :
    m.disconnecting = .notCalled := by
  cases h with
  | reading hd | reconnecting hd | off hd => exact hd
  | stoppingRead _ hstopped | stoppingReconnect _ hstopped | stopped _ hstopped =>
    cases hstopped.symm.trans hrunning

theorem run_attended (hr : run timedStep (begun config failed) es = some s) :
    Attended s.system.manager := by
  have hstep (m : PhysicalNodeManager) (e : Event) (m' : PhysicalNodeManager)
      (h : Loops m ∧ Attended m) (hs : step m e = some m') : Loops m' ∧ Attended m' :=
    ⟨h.1.step hs, h.2.step h.1 hs⟩
  exact (invariant hstep ⟨connect_loops config failed, attended_connect config failed⟩
    (embeds_manager.run trivial hr).2).2

/-- **A silent connection is given up in time.** -/
theorem run_detected (hlag : 0 ≤ lag) (hserial : config.serial = false)
    (hidle : 0 < config.tcpIdleTimeout)
    (hp : Along timedStep (Timed.Punctual timing lag) (begun config failed) es)
    (hr : run timedStep (begun config failed) es = some s)
    (hrunning : s.system.manager.running = true)
    (hconnected : s.system.manager.connected = true) :
    s.time - s.system.lastDataTime ≤ max (config.tcpIdleTimeout * second) lag + second + lag := by
  obtain ⟨hheard, hdue⟩ := run_heard hlag hp hr
  obtain ⟨i, a, ha, hreading⟩ := run_attended hr ((run_loops hr).notCalled hrunning) hconnected
  have hconfig : idleTimeout s.system.manager = config.tcpIdleTimeout := by
    rw [idleTimeout, run_config hr, begun_config, hserial]
    rfl
  rw [sub_le_iff_le_add']
  cases a with
  | start loop =>
    cases loop with
    | readLoop =>
      calc s.time ≤ s.arrived i + 0 + lag := due_await hdue ha rfl
        _ ≤ s.system.lastDataTime + 0 + lag := by gcongr; exact hheard.starts i ha
        _ ≤ _ := by
          rw [add_zero]
          gcongr
          have hmax : 0 ≤ max (config.tcpIdleTimeout * second) lag := le_max_of_le_right hlag
          exact le_add_of_nonneg_left (add_nonneg hmax second_nonneg)
    | reconnectLoop => exact hreading.elim
  | read =>
    calc s.time ≤ s.arrived i + second + lag := due_await hdue ha rfl
      _ ≤ _ := by
        rw [← add_assoc, ← add_assoc]
        gcongr
        rw [← hconfig]
        exact hheard.reads (hconfig ▸ hidle) i ha
  | _ => exact hreading.elim

end

/-- A connection that goes quiet: half a millisecond late, its read times out. -/
def goesQuiet : List (Timed.Event Event Time) :=
  [.act (.resume 0 .started), .elapse 400000, .act (.resume 0 (.chunk [0x94])), .elapse 1000500,
    .act (.resume 0 (.timeout 2))]

theorem run_detected_goesQuiet :
    ∃ s, run timedStep (begun { serial := false } none) goesQuiet = some s ∧
      s.time - s.system.lastDataTime ≤ max (30 * second) 1000 + second + 1000 := by
  have hrun : (run timedStep (begun { serial := false } none) goesQuiet).map
      (fun s => (s.system.manager.running, s.system.manager.connected)) = some (true, true) := by
    decide
  obtain ⟨s, hs, hup⟩ := Option.map_eq_some_iff.mp hrun
  obtain ⟨hrunning, hconnected⟩ := Prod.mk.inj hup
  exact ⟨s, hs, run_detected (Int.natCast_nonneg 1000) rfl (by decide) (by decide) hs hrunning
    hconnected⟩

end Multiplextashtic.PhysicalNode
