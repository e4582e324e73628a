import Mathlib.Algebra.Order.Group.Int
import Mathlib.Algebra.Order.Ring.Int
import Mathlib.Data.List.Chain
import Mathlib.Tactic.Linarith
import Multiplextashtic.ClientHandler
import Multiplextashtic.Lib.Timed
import Multiplextashtic.MessageQueue

/-! # The message queue in time

The queue of `MessageQueue.lean` beside a clock: how far apart the messages are that
the physical node is given, and how long an accepted message may have to wait. -/
namespace Multiplextashtic.MessageQueue
open Multiplextashtic.Client (Time)
open Run

def sendDelay : Time := 10000

variable {α : Type}

/-- `acceptedAt` and `handedAt` record when each message was accepted and handed over. -/
structure DatedQueue (α : Type) where
  messages : MessageQueue α := {}
  acceptedAt : List Time := []
  handedAt : List Time := []
  deriving DecidableEq, Repr

/-- A record of times grows with what it dates. -/
def stamp (now : Time) (times : List Time) (n : Nat) : List Time :=
  if times.length < n then times ++ [now] else times

def datedStep (now : Time) (d : DatedQueue α) (e : Event α) : Option (DatedQueue α) :=
  (step d.messages e).map fun messages =>
    { messages
      acceptedAt := stamp now d.acceptedAt messages.accepted.length
      handedAt := stamp now d.handedAt messages.handed.length }

/-- `sendTime` is how long a `send_raw_to_radio` may take. -/
def Task.longest (sendTime : Time) : Task α → Option Time
  | .scheduled => some 0
  | .sending _ => some sendTime
  | .sleeping => some sendDelay
  | .finished => none

def taskOf : Event α → Option Nat
  | .enqueue _ => none
  | .start i => some i
  | .sent i _ => some i
  | .wake i => some i
  | .cancel i => some i

/-- `asyncio.sleep` takes its time. -/
def shortest : Event α → Time
  | .wake _ => sendDelay
  | _ => 0

def timing (sendTime : Time) : Timed.Tasks (DatedQueue α) (Event α) Time where
  act := datedStep
  size d := d.messages.tasks.length
  turn := taskOf
  shortest _ := shortest
  longest d i := d.messages.tasks[i]?.bind (Task.longest sendTime)

abbrev TimedQueue (α : Type) := Timed.Clocked (DatedQueue α) Time

abbrev timedStep (sendTime : Time) (s : TimedQueue α) (e : Timed.Event (Event α) Time) :
    Option (TimedQueue α) := Timed.step (timing sendTime) s e

def begun : TimedQueue α where
  system := {}
  time := 0
  arrived := fun _ => 0

/-! ## What a step does -/

/-- A task that goes to the top of its loop. -/
inductive Ready (q : MessageQueue α) : Event α → Nat → Prop
  | start {i : Nat} : q.tasks[i]? = some .scheduled → q.processing = false → Ready q (.start i) i
  | wake {i : Nat} : q.tasks[i]? = some .sleeping → Ready q (.wake i) i

/-- What a step does while no task is cancelled. -/
inductive Effect (q : MessageQueue α) : Event α → MessageQueue α → Prop
  | refused {raw : α} : Effect q (.enqueue raw) q
  | accepted {raw : α} : q.queue.length < queueMaxSize → Effect q (.enqueue raw)
      { q with
        queue := q.queue ++ [raw]
        accepted := q.accepted ++ [raw]
        tasks := if q.processing then q.tasks else q.tasks ++ [.scheduled] }
  | skips {i : Nat} : q.tasks[i]? = some .scheduled → q.processing = true →
      Effect q (.start i) { q with tasks := q.tasks.set i .finished }
  | takes {e : Event α} {i : Nat} {raw : α} {rest : List α} : Ready q e i → q.queue = raw :: rest →
      Effect q e
        { q with
          queue := rest
          handed := q.handed ++ [raw]
          processing := true
          tasks := q.tasks.set i (.sending raw) }
  | sends {i : Nat} {raised : Bool} {raw : α} : q.tasks[i]? = some (.sending raw) →
      Effect q (.sent i raised) { q with tasks := q.tasks.set i .sleeping }
  | ends {e : Event α} {i : Nat} : Ready q e i → q.queue = [] →
      Effect q e { q with processing := false, tasks := q.tasks.set i .finished }

variable {q q' : MessageQueue α} {e : Event α} {i : Nat}

theorem nextMessage_effect (hr : Ready q e i) : Effect q e ({ q with processing := true }.nextMessage i) := by
  unfold nextMessage
  split
  · next hq =>
    have hnil : ¬ ({ q with processing := true }.setTask i .finished : MessageQueue α).queue.length > 0 := by
      show ¬ q.queue.length > 0
      rw [hq]
      exact Nat.lt_irrefl 0
    unfold finish
    simp only
    rw [if_neg hnil]
    exact .ends hr hq
  · next raw rest hq => exact .takes hr hq

theorem step_effect (ho : Ordered q) (hc : ∀ i, e ≠ .cancel i) (hs : step q e = some q') :
    Effect q e q' := by
  cases step_stepped hs with
  | enqueue raw =>
    unfold enqueueRaw
    split
    · next hlt =>
      have haccepted : Effect q (.enqueue raw) _ := .accepted hlt
      cases hp : q.processing with
      | true => simpa only [hp, if_true] using haccepted
      | false => simpa only [hp, Bool.false_eq_true, if_false, createTask] using haccepted
    · exact .refused
  | @start i ht =>
    unfold start
    split
    · next hp => exact .skips ht hp
    · next hp => exact nextMessage_effect (.start ht (Bool.not_eq_true _ ▸ hp))
  | @wake i ht =>
    obtain ⟨hp, -⟩ := ho.active ht rfl
    have hsame : { q with processing := true } = q := by rw [← hp]
    have heffect := nextMessage_effect (.wake ht)
    rwa [hsame] at heffect
  | sent ht => exact .sends ht
  | unscheduled | cancelled => exact absurd rfl (hc _)

/-! ## The other tasks -/

theorem finish_kept {j : Nat} (hj : j < q.tasks.length) (hij : i ≠ j) :
    (q.finish i).tasks[j]? = q.tasks[j]? := by
  have hset : (q.tasks.set i .finished)[j]? = q.tasks[j]? := List.getElem?_set_ne hij
  unfold finish
  simp only
  split
  · rw [← hset]
    exact List.getElem?_append_left (by rwa [setTask, List.length_set])
  · exact hset

theorem nextMessage_kept {j : Nat} (hj : j < q.tasks.length) (hij : i ≠ j) :
    (q.nextMessage i).tasks[j]? = q.tasks[j]? := by
  unfold nextMessage
  split
  · exact finish_kept hj hij
  · exact List.getElem?_set_ne hij

/-- A step leaves the tasks that do not take it. -/
theorem step_kept (hs : step q e = some q') {j : Nat} (hj : j < q.tasks.length)
    (hturn : taskOf e ≠ some j) : q'.tasks[j]? = q.tasks[j]? := by
  have hne {i : Nat} (hi : taskOf e = some i) : i ≠ j := fun hij => hturn (hi.trans (congrArg some hij))
  cases step_stepped hs with
  | enqueue raw =>
    unfold enqueueRaw
    split
    · simp only
      split
      · rfl
      · exact List.getElem?_append_left hj
    · rfl
  | start =>
    unfold start
    split
    · exact List.getElem?_set_ne (hne rfl)
    · exact nextMessage_kept hj (hne rfl)
  | sent | unscheduled => exact List.getElem?_set_ne (hne rfl)
  | wake => exact nextMessage_kept hj (hne rfl)
  | cancelled => exact finish_kept hj (hne rfl)

/-- Behind a step there are the tasks that were, one of them further on, and maybe a new one. -/
theorem Effect.task (h : Effect q e q') (hs : step q e = some q') {j : Nat} {t : Task α}
    (ht : q'.tasks[j]? = some t) : (q.tasks.length ≤ j ∧ t = .scheduled) ∨
      (j < q.tasks.length ∧ taskOf e ≠ some j ∧ q.tasks[j]? = some t) ∨ taskOf e = some j := by
  by_cases hturn : taskOf e = some j
  · exact .inr (.inr hturn)
  · rcases Nat.lt_or_ge j q.tasks.length with hlt | hge
    · exact .inr (.inl ⟨hlt, hturn, step_kept hs hlt hturn ▸ ht⟩)
    · refine .inl ⟨hge, ?_⟩
      have hlt' := (List.getElem?_eq_some_iff.mp ht).1
      cases h with
      | refused => exact absurd hge (Nat.not_le.mpr hlt')
      | accepted =>
        simp only at ht hlt'
        split at ht
        · exact absurd (List.getElem?_eq_some_iff.mp ht).1 (Nat.not_lt.mpr hge)
        · rw [List.getElem?_append_right hge] at ht
          exact List.mem_singleton.mp (List.mem_of_getElem? ht)
      | skips | takes | sends | ends =>
        rw [List.length_set] at hlt'
        exact absurd hge (Nat.not_le.mpr hlt')

theorem Ordered.only (h : Ordered q) {j : Nat} {t u : Task α} (ht : q.tasks[i]? = some t)
    (hu : q.tasks[j]? = some u) (hactive : t.active = true) (hactive' : u.active = true) : j = i := by
  by_contra hne
  have hset := activeTasks_set .finished ht
  have hone : activeTasks q.tasks ≤ 1 := by
    rw [h.flag]
    exact Bool.toNat_le _
  have hother : (q.tasks.set i .finished)[j]? = some u := by
    rwa [List.getElem?_set_ne (Ne.symm hne)]
  have hpos : 0 < activeTasks (q.tasks.set i .finished) :=
    List.countP_pos_iff.mpr ⟨u, List.mem_of_getElem? hother, hactive'⟩
  rw [hactive] at hset
  simp only [Bool.toNat_true, Task.active, Bool.toNat_false] at hset
  omega

/-- No other task is active beside one that is at the top of its loop. -/
theorem Ready.only (hr : Ready q e i) (ho : Ordered q) {j : Nat} {t : Task α}
    (ht : q.tasks[j]? = some t) (ha : t.active = true) : j = i := by
  cases hr with
  | start hi hp =>
    obtain ⟨hactive, -⟩ := ho.active ht ha
    cases hp.symm.trans hactive
  | wake hi => exact ho.only hi ht rfl ha

theorem Ready.turn (hr : Ready q e i) : taskOf e = some i := by
  cases hr <;> rfl

theorem Ready.get (hr : Ready q e i) : ∃ t, q.tasks[i]? = some t := by
  cases hr with
  | start hi _ => exact ⟨_, hi⟩
  | wake hi => exact ⟨_, hi⟩

/-! ## Steps in time -/

variable {sendTime lag : Time} {s t : TimedQueue α}

theorem lawful (hsend : 0 ≤ sendTime) : Timed.Lawful (timing sendTime : Timed.Tasks (DatedQueue α) _ _) where
  kept := by
    intro now d e d' hact i hi hturn
    obtain ⟨q, hs, rfl⟩ := Option.map_eq_some_iff.mp hact
    exact congrArg (Option.bind · _) (step_kept hs hi hturn)
  nonneg := by
    intro d i l hl
    obtain ⟨task, -, hl⟩ := Option.bind_eq_some_iff.mp hl
    cases task with
    | scheduled =>
      cases hl
      exact le_rfl
    | sending =>
      cases hl
      exact hsend
    | sleeping =>
      cases hl
      exact Int.natCast_nonneg 10000
    | finished => cases hl

/-- **The queue in time is the queue**: the clock only holds back steps. -/
theorem embeds_messages : Embeds (timedStep sendTime) (step : MessageQueue α → _ → _)
    (fun _ => True) (fun s => s.system.messages) fun _ e => e.action.toList := by
  refine Timed.embeds DatedQueue.messages ?_
  intro now d e d' hact
  obtain ⟨q, hs, rfl⟩ := Option.map_eq_some_iff.mp hact
  exact hs

theorem stamp_same {now : Time} {times : List Time} {n : Nat} (h : times.length = n) :
    stamp now times n = times := if_neg (h ▸ Nat.lt_irrefl _)

theorem stamp_succ {now : Time} {times : List Time} {n : Nat} (h : times.length = n) :
    stamp now times (n + 1) = times ++ [now] := if_pos (h ▸ Nat.lt_succ_self _)

theorem datedStep_some {now : Time} {d d' : DatedQueue α} (h : datedStep now d e = some d') :
    step d.messages e = some d'.messages ∧
      d'.acceptedAt = stamp now d.acceptedAt d'.messages.accepted.length ∧
      d'.handedAt = stamp now d.handedAt d'.messages.handed.length := by
  obtain ⟨q, hs, rfl⟩ := Option.map_eq_some_iff.mp h
  exact ⟨hs, rfl, rfl⟩

/-! ## Messages are spaced -/

/-- The last message was handed over no later than its task came to its wait, and the wait is
over once the queue is not being processed. -/
structure Spaced (s : TimedQueue α) : Prop where
  ordered : Ordered s.system.messages
  dated : s.system.handedAt.length = s.system.messages.handed.length
  chain : s.system.handedAt.IsChain fun a b => a + sendDelay ≤ b
  active : ∀ a ∈ s.system.handedAt.getLast?, ∀ (i : Nat) task,
    s.system.messages.tasks[i]? = some task → task.active = true → a ≤ s.arrived i
  idle : s.system.messages.processing = false →
    ∀ a ∈ s.system.handedAt.getLast?, a + sendDelay ≤ s.time
  past : ∀ a ∈ s.system.handedAt.getLast?, a ≤ s.time

/-- The delay has passed when a task is at the top of its loop. -/
theorem Spaced.ready (h : Spaced s) (hr : Ready s.system.messages e i)
    (hwaited : s.arrived i + shortest e ≤ s.time) :
    ∀ a ∈ s.system.handedAt.getLast?, a + sendDelay ≤ s.time := by
  intro a ha
  cases hr with
  | start _ hp => exact h.idle hp a ha
  | wake hi => exact (add_le_add_left (h.active a ha i _ hi rfl) _).trans hwaited

/-- A step that hands over nothing leaves the last message and what is active. -/
theorem Spaced.keep (h : Spaced s) (hacts : Timed.Acts (timing sendTime) s e t)
    (heffect : Effect s.system.messages e t.system.messages)
    (hsame : t.system.messages.handed = s.system.messages.handed)
    (hidle : t.system.messages.processing = false →
      ∀ a ∈ s.system.handedAt.getLast?, a + sendDelay ≤ s.time) : Spaced t := by
  obtain ⟨hstep, -, hhanded⟩ := datedStep_some hacts.act
  rw [hsame, stamp_same h.dated] at hhanded
  refine ⟨h.ordered.step hstep, ?_, ?_, ?_, ?_, ?_⟩
  · rw [hhanded, hsame, h.dated]
  · rw [hhanded]
    exact h.chain
  · rw [hhanded]
    intro a ha j task hj hactive
    rcases heffect.task hstep hj with ⟨-, rfl⟩ | ⟨hlt, hturn, hj⟩ | hturn
    · cases hactive
    · rw [hacts.kept j hlt hturn]
      exact h.active a ha j task hj hactive
    · rw [hacts.turned j hturn]
      exact h.past a ha
  · rw [hhanded, hacts.time]
    exact hidle
  · rw [hhanded, hacts.time]
    exact h.past

/-- **A message is handed over** by a task that has waited since the one before. -/
theorem Spaced.handsOver (h : Spaced s) (hacts : Timed.Acts (timing sendTime) s e t)
    (heffect : Effect s.system.messages e t.system.messages) (hr : Ready s.system.messages e i)
    {raw : α} (hhands : t.system.messages.handed = s.system.messages.handed ++ [raw])
    (hp : t.system.messages.processing = true) : Spaced t := by
  obtain ⟨hstep, -, hhanded⟩ := datedStep_some hacts.act
  have hready := h.ready hr (hacts.waited i hr.turn)
  have hlen : (s.system.messages.handed ++ [raw]).length =
    s.system.messages.handed.length + 1 := List.length_append
  rw [hhands, hlen, stamp_succ h.dated] at hhanded
  have hlast (a : Time) (ha : a ∈ t.system.handedAt.getLast?) : a = s.time := by
    rw [hhanded, List.getLast?_concat] at ha
    exact (Option.mem_some_iff.mp ha).symm
  refine ⟨h.ordered.step hstep, ?_, ?_, ?_, ?_, ?_⟩
  · rw [hhanded, hhands, hlen, List.length_append, h.dated]
    rfl
  · rw [hhanded]
    refine List.isChain_append.mpr ⟨h.chain, List.isChain_singleton _, ?_⟩
    intro a ha b hb
    rw [List.head?_cons] at hb
    cases hb
    exact hready a ha
  · intro a ha j task hj hactive
    rw [hlast a ha]
    rcases heffect.task hstep hj with ⟨-, rfl⟩ | ⟨-, hturn, hj⟩ | hturn
    · cases hactive
    · cases hr.only h.ordered hj hactive
      exact absurd hr.turn hturn
    · exact (hacts.turned j hturn).ge
  · intro hidle
    cases hp.symm.trans hidle
  · intro a ha
    rw [hlast a ha, hacts.time]

theorem Spaced.step (h : Spaced s) {e : Timed.Event (Event α) Time}
    (hc : ∀ i, e ≠ .act (.cancel i)) (hs : timedStep sendTime s e = some t) : Spaced t := by
  cases e with
  | elapse time =>
    obtain ⟨hpos, rfl⟩ := Timed.step_elapse.mp hs
    have hle : s.time ≤ s.time + time := le_add_of_nonneg_right hpos.le
    exact ⟨h.ordered, h.dated, h.chain, h.active, fun hp a ha => (h.idle hp a ha).trans hle,
      fun a ha => (h.past a ha).trans hle⟩
  | act e =>
    have hacts := Timed.step_act hs
    obtain ⟨hstep, -⟩ := datedStep_some hacts.act
    have hc : ∀ i, e ≠ .cancel i := by
      rintro i rfl
      exact hc i rfl
    have heffect := step_effect h.ordered hc hstep
    have hkeep := h.keep hacts heffect
    have hhandsOver {i : Nat} {raw : α} (hr : Ready s.system.messages e i)
        (hhands : t.system.messages.handed = s.system.messages.handed ++ [raw]) :=
      h.handsOver hacts heffect hr hhands
    generalize t.system.messages = q at *
    cases heffect with
    | refused | accepted | skips | sends => exact hkeep rfl h.idle
    | takes hr hqueue => exact hhandsOver hr rfl rfl
    | @ends _ i hr => exact hkeep rfl fun _ => h.ready hr (hacts.waited i hr.turn)

theorem ordered_init : Ordered ({} : MessageQueue α) := ⟨rfl, Nat.zero_le _, rfl⟩

theorem spaced_begun : Spaced (begun : TimedQueue α) := by
  refine ⟨ordered_init, rfl, List.isChain_nil, ?_, ?_, ?_⟩
  · intro a ha
    cases ha
  · intro _ a ha
    cases ha
  · intro a ha
    cases ha

variable {es : List (Timed.Event (Event α) Time)}

/-- **The physical node is not overwhelmed**: whatever clients enqueue and however many tasks
there are, it is given each message no sooner than the delay after the one before. -/
theorem run_throttled (hc : ∀ i, .act (.cancel i) ∉ es)
    (hr : run (timedStep sendTime) begun es = some s) :
    s.system.handedAt.length = s.system.messages.handed.length ∧
      s.system.handedAt.IsChain fun a b => a + sendDelay ≤ b := by
  have hnone : Along (timedStep sendTime) (fun _ e => ∀ i, e ≠ .act (.cancel i))
      (begun : TimedQueue α) es := by
    refine along_of_mem ?_
    rintro _ e he i rfl
    exact hc i he
  have hspaced : Spaced s :=
    invariant_along (fun _ _ _ h hc hs => h.step hc hs) spaced_begun hnone hr
  exact ⟨hspaced.dated, hspaced.chain⟩

/-! ## Messages do not wait long -/

/-- From one message to the next while there are any, on an event loop that is late. -/
def period (sendTime lag : Time) : Time := sendTime + lag + (sendDelay + lag)

/-- How long a task that is at a wait may take until it is at the top of its loop. -/
def Task.until (sendTime lag : Time) : Task α → Time
  | .scheduled => lag
  | .sending _ => period sendTime lag
  | .sleeping => sendDelay + lag
  | .finished => 0

/-- A task that will take the next message. -/
structure Takes (q : MessageQueue α) (i : Nat) (task : Task α) : Prop where
  here : q.tasks[i]? = some task
  live : task ≠ .finished
  free : task = .scheduled → q.processing = false

theorem exists_takes (ho : Ordered q) (ha : Attended q) (hne : q.queue ≠ []) :
    ∃ i task, Takes q i task := by
  cases hp : q.processing with
  | true =>
    have hpos : 0 < activeTasks q.tasks := by
      rw [ho.flag, hp]
      exact Nat.one_pos
    obtain ⟨task, hm, hactive⟩ := List.countP_pos_iff.mp hpos
    obtain ⟨i, hi⟩ := List.mem_iff_getElem?.mp hm
    refine ⟨i, task, hi, ?_, ?_⟩
    · rintro rfl
      cases hactive
    · rintro rfl
      cases hactive
  | false =>
    rcases ha hne with hactive | hm
    · cases hp.symm.trans hactive
    · obtain ⟨i, hi⟩ := List.mem_iff_getElem?.mp hm
      exact ⟨i, .scheduled, hi, by simp, fun _ => hp⟩

theorem Takes.kept {task : Task α} (h : Takes q i task) (hs : step q e = some q')
    (hturn : taskOf e ≠ some i) (hp : q'.processing = q.processing) : Takes q' i task where
  here := (step_kept hs (List.getElem?_eq_some_iff.mp h.here).1 hturn).trans h.here
  live := h.live
  free htask := hp.trans (h.free htask)

section
variable (hsend : 0 ≤ sendTime) (hlag : 0 ≤ lag)

theorem sendDelay_nonneg : 0 ≤ sendDelay := Int.natCast_nonneg 10000

include hsend hlag in
theorem until_le_period {task : Task α} : task.until sendTime lag ≤ period sendTime lag := by
  have hdelay := sendDelay_nonneg
  cases task <;> simp only [Task.until, period] <;> linarith

include hsend hlag in
theorem period_nonneg : 0 ≤ period sendTime lag := by
  have hdelay := sendDelay_nonneg
  simp only [period]
  linarith

theorem due_task {task : Task α} (hdue : Timed.Due (timing sendTime) lag s s.time)
    (ht : s.system.messages.tasks[i]? = some task) {l : Time} (hl : task.longest sendTime = some l) :
    s.time ≤ s.arrived i + l + lag := by
  refine hdue i (List.getElem?_eq_some_iff.mp ht).1 l ?_
  show (s.system.messages.tasks[i]?).bind (Task.longest sendTime) = some l
  rw [ht]
  exact hl

include hlag in
/-- The wait for it is not over. -/
theorem Takes.time_le {task : Task α} (h : Takes s.system.messages i task)
    (hdue : Timed.Due (timing sendTime) lag s s.time) :
    s.time ≤ s.arrived i + task.until sendTime lag := by
  have hdelay := sendDelay_nonneg
  cases task with
  | scheduled =>
    have hle := due_task hdue h.here rfl
    rwa [add_zero] at hle
  | sending raw =>
    refine (due_task hdue h.here rfl).trans ?_
    simp only [Task.until, period]
    linarith
  | sleeping =>
    refine (due_task hdue h.here rfl).trans ?_
    simp only [Task.until]
    linarith
  | finished => exact absurd rfl h.live

/-- No message has waited for more than a full queue takes, and none in the queue will. -/
structure Prompt (sendTime lag : Time) (s : TimedQueue α) : Prop where
  ordered : Ordered s.system.messages
  attended : Attended s.system.messages
  accepted : s.system.acceptedAt.length = s.system.messages.accepted.length
  handed : s.system.handedAt.length = s.system.messages.handed.length
  delivered : ∀ (n : Nat) a b, s.system.acceptedAt[n]? = some a → s.system.handedAt[n]? = some b →
    b ≤ a + queueMaxSize * period sendTime lag
  waiting : s.system.messages.queue ≠ [] → ∃ i task, Takes s.system.messages i task ∧
    ∀ (k : Nat) a, s.system.acceptedAt[s.system.messages.handed.length + k]? = some a →
      s.arrived i + task.until sendTime lag + k * period sendTime lag ≤
        a + queueMaxSize * period sendTime lag

/-- There is a task that takes the next message by then. -/
def TakesBy (sendTime lag : Time) (s : TimedQueue α) (time : Time) : Prop :=
  ∃ i task, Takes s.system.messages i task ∧ s.arrived i + task.until sendTime lag ≤ time

/-- A task that is left where it is takes the next message when it would have. -/
theorem Takes.stays {task : Task α} (h : Takes s.system.messages i task)
    (hacts : Timed.Acts (timing sendTime) s e t) (hturn : taskOf e ≠ some i)
    (hp : t.system.messages.processing = s.system.messages.processing) :
    TakesBy sendTime lag t (s.arrived i + task.until sendTime lag) := by
  obtain ⟨hstep, -⟩ := datedStep_some hacts.act
  refine ⟨i, task, h.kept hstep hturn hp, ?_⟩
  rw [hacts.kept i (List.getElem?_eq_some_iff.mp h.here).1 hturn]

/-- A step that neither accepts nor hands over a message need only leave a task that takes
the next one in time. -/
theorem Prompt.keep (h : Prompt sendTime lag s) (hacts : Timed.Acts (timing sendTime) s e t)
    (hordered : Ordered t.system.messages) (hattended : Attended t.system.messages)
    (hsame : t.system.messages.accepted = s.system.messages.accepted ∧
      t.system.messages.handed = s.system.messages.handed)
    (htakes : t.system.messages.queue ≠ [] → s.system.messages.queue ≠ [] ∧
      ∀ i task, Takes s.system.messages i task →
        TakesBy sendTime lag t (s.arrived i + task.until sendTime lag)) :
    Prompt sendTime lag t := by
  obtain ⟨-, haccepted, hhanded⟩ := datedStep_some hacts.act
  obtain ⟨hsameAccepted, hsameHanded⟩ := hsame
  rw [hsameAccepted, stamp_same h.accepted] at haccepted
  rw [hsameHanded, stamp_same h.handed] at hhanded
  refine ⟨hordered, hattended, ?_, ?_, ?_, ?_⟩
  · rw [haccepted, hsameAccepted, h.accepted]
  · rw [hhanded, hsameHanded, h.handed]
  · rw [haccepted, hhanded]
    exact h.delivered
  · intro hne
    obtain ⟨hne, htakes⟩ := htakes hne
    obtain ⟨i, task, hi, hbound⟩ := h.waiting hne
    obtain ⟨j, task', hj, hle⟩ := htakes i task hi
    refine ⟨j, task', hj, ?_⟩
    intro k a ha
    rw [haccepted, hsameHanded] at ha
    exact (add_le_add_left hle _).trans (hbound k a ha)

theorem getElem?_concat_some {A : Type} {l : List A} {x a : A} {n : Nat}
    (h : (l ++ [x])[n]? = some a) : l[n]? = some a ∨ n = l.length ∧ a = x := by
  rcases Nat.lt_or_ge n l.length with hold | hnew
  · exact .inl (List.getElem?_append_left hold ▸ h)
  · have hn := (List.getElem?_eq_some_iff.mp h).1
    rw [List.length_append, List.length_singleton] at hn
    rw [List.getElem?_append_right hnew] at h
    exact .inr ⟨by omega, List.mem_singleton.mp (List.mem_of_getElem? h)⟩

include hsend hlag in
/-- What is accepted behind `n` messages is in time: the queue has room for it. -/
theorem until_add_le {task : Task α} {arrived now : Time} {n : Nat} (hle : arrived ≤ now)
    (hlt : n < queueMaxSize) :
    arrived + task.until sendTime lag + n * period sendTime lag ≤
      now + queueMaxSize * period sendTime lag := by
  have huntil : task.until sendTime lag ≤ period sendTime lag := until_le_period hsend hlag
  have hcast : ((n + 1 : Nat) : Int) ≤ (queueMaxSize : Nat) := Int.ofNat_le.mpr hlt
  have hmul := mul_le_mul_of_nonneg_right hcast (period_nonneg hsend hlag)
  rw [Nat.cast_add_one, add_mul, one_mul] at hmul
  linarith

include hsend hlag in
/-- **A message is accepted**: it waits behind those that are in the queue. -/
theorem Prompt.accepts (h : Prompt sendTime lag s) (harrived : ∀ i, s.arrived i ≤ s.time) {raw : α}
    (hacts : Timed.Acts (timing sendTime) s (.enqueue raw) t)
    (hordered : Ordered t.system.messages) (hattended : Attended t.system.messages)
    (hlt : s.system.messages.queue.length < queueMaxSize)
    (haccepts : t.system.messages.accepted = s.system.messages.accepted ++ [raw])
    (hqueue : t.system.messages.queue ≠ [])
    (hsame : t.system.messages.handed = s.system.messages.handed)
    (hp : t.system.messages.processing = s.system.messages.processing) :
    Prompt sendTime lag t := by
  have hact : datedStep s.time s.system (.enqueue raw) = some t.system := hacts.act
  have hturn (j : Nat) : taskOf (.enqueue raw : Event α) ≠ some j := nofun
  obtain ⟨hstep, haccepted, hhanded⟩ := datedStep_some hact
  rw [haccepts, List.length_append, List.length_singleton, stamp_succ h.accepted] at haccepted
  rw [hsame, stamp_same h.handed] at hhanded
  have hcount : s.system.acceptedAt.length =
      s.system.messages.handed.length + s.system.messages.queue.length := by
    rw [h.accepted, h.ordered.accepted_eq, List.length_append]
  refine ⟨hordered, hattended, ?_, ?_, ?_, ?_⟩
  · rw [haccepted, haccepts, List.length_append, List.length_append, h.accepted]
    rfl
  · rw [hhanded, hsame, h.handed]
  · intro n a b ha hb
    rw [hhanded] at hb
    have hn := (List.getElem?_eq_some_iff.mp hb).1
    rw [h.handed] at hn
    rw [haccepted, List.getElem?_append_left (by omega)] at ha
    exact h.delivered n a b ha hb
  · intro _
    rw [haccepted, hsame]
    by_cases hnil : s.system.messages.queue = []
    · -- the message is alone, and whatever task there is will take it
      obtain ⟨j, task, hj⟩ := exists_takes hordered hattended hqueue
      refine ⟨j, task, hj, ?_⟩
      intro k a ha
      rcases getElem?_concat_some ha with hold | ⟨hk, rfl⟩
      · have hk := (List.getElem?_eq_some_iff.mp hold).1
        rw [hcount, hnil, List.length_nil] at hk
        omega
      · obtain rfl : k = s.system.messages.queue.length := by omega
        refine until_add_le hsend hlag ?_ hlt
        rcases hacts.arrived j with hnow | hsame
        · exact hnow.le
        · exact hsame.trans_le (harrived j)
    · obtain ⟨j, task, hj, hbound⟩ := h.waiting hnil
      refine ⟨j, task, hj.kept hstep (hturn j) hp, ?_⟩
      intro k a ha
      rw [hacts.kept j (List.getElem?_eq_some_iff.mp hj.here).1 (hturn j)]
      rcases getElem?_concat_some ha with hold | ⟨hk, rfl⟩
      · exact hbound k a hold
      · obtain rfl : k = s.system.messages.queue.length := by omega
        exact until_add_le hsend hlag (harrived j) hlt

include hlag in
/-- **A message is handed over**: it has not waited for too long, and the task that sends it
takes the next one a period later. -/
theorem Prompt.handsOver (h : Prompt sendTime lag s)
    (hdue : Timed.Due (timing sendTime) lag s s.time)
    (hacts : Timed.Acts (timing sendTime) s e t) (hordered : Ordered t.system.messages)
    (hattended : Attended t.system.messages) {raw : α} (hqueue : s.system.messages.queue ≠ [])
    (hturn : taskOf e = some i)
    (hsends : t.system.messages.tasks[i]? = some (.sending raw))
    (hhands : t.system.messages.handed = s.system.messages.handed ++ [raw])
    (hsame : t.system.messages.accepted = s.system.messages.accepted) :
    Prompt sendTime lag t := by
  obtain ⟨-, haccepted, hhanded⟩ := datedStep_some hacts.act
  have hlen : (s.system.messages.handed ++ [raw]).length =
    s.system.messages.handed.length + 1 := List.length_append
  rw [hhands, hlen, stamp_succ h.handed] at hhanded
  rw [hsame, stamp_same h.accepted] at haccepted
  obtain ⟨j, task, hj, hbound⟩ := h.waiting hqueue
  have hnow := hj.time_le hlag hdue
  refine ⟨hordered, hattended, ?_, ?_, ?_, ?_⟩
  · rw [haccepted, hsame, h.accepted]
  · rw [hhanded, hhands, hlen, List.length_append, h.handed]
    rfl
  · intro n a b ha hb
    rw [haccepted] at ha
    rw [hhanded] at hb
    rcases getElem?_concat_some hb with hold | ⟨hn, rfl⟩
    · exact h.delivered n a b ha hold
    · rw [h.handed] at hn
      subst hn
      have hfirst := hbound 0 a ha
      rw [Nat.cast_zero, zero_mul, add_zero] at hfirst
      exact hnow.trans hfirst
  · intro _
    refine ⟨i, .sending raw, ⟨hsends, by simp, by simp⟩, ?_⟩
    intro k a ha
    rw [haccepted, hhands, hlen, Nat.add_assoc, Nat.add_comm 1 k] at ha
    have hnext := hbound (k + 1) a ha
    rw [Nat.cast_add_one, add_mul, one_mul] at hnext
    rw [hacts.turned i hturn]
    simp only [Task.until]
    linarith

/-- A send has returned, and its task sleeps. -/
theorem Takes.sleeps {task : Task α} {j : Nat} {raised : Bool} {raw : α}
    (h : Takes s.system.messages j task)
    (hdue : Timed.Due (timing sendTime) lag s s.time)
    (hacts : Timed.Acts (timing sendTime) s (.sent i raised) t)
    (ht : s.system.messages.tasks[i]? = some (.sending raw))
    (hsleeps : t.system.messages.tasks[i]? = some .sleeping)
    (hp : t.system.messages.processing = s.system.messages.processing) :
    TakesBy sendTime lag t (s.arrived j + task.until sendTime lag) := by
  by_cases hij : i = j
  · subst hij
    cases ht.symm.trans h.here
    refine ⟨i, .sleeping, ⟨hsleeps, by simp, by simp⟩, ?_⟩
    have hsent := due_task hdue ht rfl
    rw [hacts.turned i rfl]
    simp only [Task.until, period]
    linarith
  · exact h.stays hacts (fun hturn => hij (Option.some.inj hturn)) hp

include hsend hlag in
theorem Prompt.step (h : Prompt sendTime lag s) (harrived : ∀ i, s.arrived i ≤ s.time)
    (hdue : Timed.Due (timing sendTime) lag s s.time) {e : Timed.Event (Event α) Time}
    (hc : ∀ i, e ≠ .act (.cancel i)) (hs : timedStep sendTime s e = some t) :
    Prompt sendTime lag t := by
  cases e with
  | elapse time =>
    obtain ⟨-, rfl⟩ := Timed.step_elapse.mp hs
    exact ⟨h.ordered, h.attended, h.accepted, h.handed, h.delivered, h.waiting⟩
  | act e =>
    have hacts := Timed.step_act hs
    obtain ⟨hstep, -⟩ := datedStep_some hacts.act
    have hc : ∀ i, e ≠ .cancel i := by
      rintro i rfl
      exact hc i rfl
    have hruns : CancelsRunning s.system.messages e := by
      cases e with
      | cancel i => exact absurd rfl (hc i)
      | _ => trivial
    have heffect := step_effect h.ordered hc hstep
    have hordered := h.ordered.step hstep
    have hattended := h.attended.step h.ordered hruns hstep
    have hkeep := h.keep hacts hordered hattended
    generalize hq : t.system.messages = q at heffect
    cases heffect with
    | refused =>
      rw [hq] at hkeep
      refine hkeep ⟨rfl, rfl⟩ fun hne => ⟨hne, ?_⟩
      exact fun i task hi => hi.stays hacts nofun (by rw [hq])
    | @accepted raw hlt =>
      refine h.accepts hsend hlag harrived hacts hordered hattended hlt ?_ ?_ ?_ ?_
      all_goals rw [hq]
      exact List.concat_ne_nil _ _
    | @skips i ht hp =>
      rw [hq] at hkeep
      refine hkeep ⟨rfl, rfl⟩ fun hne => ⟨hne, ?_⟩
      intro j task hj
      refine hj.stays hacts ?_ (by rw [hq])
      intro hturn
      cases hturn
      cases ht.symm.trans hj.here
      cases hp.symm.trans (hj.free rfl)
    | @takes _ i raw rest hr hqueue =>
      obtain ⟨task, hi⟩ := hr.get
      have hne : s.system.messages.queue ≠ [] := hqueue ▸ List.cons_ne_nil _ _
      have hsends : t.system.messages.tasks[i]? = some (.sending raw) := by
        rw [hq]
        exact List.getElem?_set_self (List.getElem?_eq_some_iff.mp hi).1
      refine h.handsOver hlag hdue hacts hordered hattended hne hr.turn hsends ?_ ?_
      all_goals rw [hq]
    | @sends i raised raw ht =>
      rw [hq] at hkeep
      refine hkeep ⟨rfl, rfl⟩ fun hne => ⟨hne, ?_⟩
      intro j task hj
      refine hj.sleeps hdue hacts ht ?_ ?_
      all_goals rw [hq]
      exact List.getElem?_set_self (List.getElem?_eq_some_iff.mp ht).1
    | @ends _ i hr hqueue =>
      rw [hq] at hkeep
      exact hkeep ⟨rfl, rfl⟩ fun hne => absurd hqueue hne

theorem prompt_begun : Prompt sendTime lag (begun : TimedQueue α) := by
  refine ⟨ordered_init, fun hne => absurd rfl hne, rfl, rfl, ?_, fun hne => absurd rfl hne⟩
  intro n a b ha
  cases ha

theorem due_begun : Timed.Due (timing sendTime) lag (begun : TimedQueue α) 0 := by
  intro i hi
  cases hi

include hsend hlag in
/-- **A message does not wait for longer than a full queue takes**, where the event loop lags by
`lag` and a send takes `sendTime` at most. -/
theorem run_prompt (hc : ∀ i, .act (.cancel i) ∉ es)
    (hp : Along (timedStep sendTime) (Timed.Punctual (timing sendTime) lag) begun es)
    (hr : run (timedStep sendTime) begun es = some s) :
    (∀ (n : Nat) a b, s.system.acceptedAt[n]? = some a → s.system.handedAt[n]? = some b →
      b ≤ a + queueMaxSize * period sendTime lag) ∧
    ∀ (n : Nat) a, s.system.acceptedAt[n]? = some a → s.system.handedAt.length ≤ n →
      s.time ≤ a + queueMaxSize * period sendTime lag := by
  have hnone : Along (timedStep sendTime) (fun _ e => ∀ i, e ≠ .act (.cancel i))
      (begun : TimedQueue α) es := by
    refine along_of_mem ?_
    rintro _ e he i rfl
    exact hc i he
  have hkept (u : TimedQueue α) (e : Timed.Event (Event α) Time) (v : TimedQueue α)
      (h : Prompt sendTime lag u ∧ (∀ i, u.arrived i ≤ u.time) ∧
        Timed.Due (timing sendTime) lag u u.time)
      (hpunctual : Timed.Punctual (timing sendTime) lag u e ∧ ∀ i, e ≠ .act (.cancel i))
      (hs : timedStep sendTime u e = some v) :
      Prompt sendTime lag v ∧ (∀ i, v.arrived i ≤ v.time) ∧
        Timed.Due (timing sendTime) lag v v.time := by
    obtain ⟨hprompt, harrived, hdue⟩ := h
    exact ⟨hprompt.step hsend hlag harrived hdue hpunctual.2 hs, Timed.arrived_le_step harrived hs,
      Timed.due_step (lawful hsend) hlag hdue hpunctual.1 hs⟩
  obtain ⟨hprompt, -, hdue⟩ := invariant_along hkept
    ⟨prompt_begun, fun _ => le_rfl, due_begun⟩ (hp.and hnone) hr
  refine ⟨hprompt.delivered, ?_⟩
  intro n a ha hn
  rw [hprompt.handed] at hn
  obtain ⟨k, rfl⟩ := Nat.exists_eq_add_of_le hn
  have hqueued : s.system.messages.queue ≠ [] := by
    intro hnil
    have hlt := (List.getElem?_eq_some_iff.mp ha).1
    rw [hprompt.accepted, hprompt.ordered.accepted_eq, hnil, List.append_nil] at hlt
    omega
  obtain ⟨i, task, hi, hbound⟩ := hprompt.waiting hqueued
  have hnow := hi.time_le hlag hdue
  have hbehind : 0 ≤ (k : Int) * period sendTime lag :=
    mul_nonneg (Int.natCast_nonneg k) (period_nonneg hsend hlag)
  have hk := hbound k a ha
  linarith

end

/-- Two messages, the second accepted while the first is on its way. -/
def twoMessages : List (Timed.Event (Event Nat) Time) :=
  [.act (.enqueue 1), .act (.start 0), .elapse 2000, .act (.enqueue 2), .act (.sent 0 false),
    .elapse 10500, .act (.wake 0)]

theorem run_throttled_two :
    ∃ s, run (timedStep 5000) begun twoMessages = some s ∧ s.system.handedAt = [0, 12500] ∧
      s.system.handedAt.IsChain fun a b => a + sendDelay ≤ b := by
  have hrun : (run (timedStep 5000) begun twoMessages).map (fun s => s.system.handedAt) =
      some [0, 12500] := by decide
  obtain ⟨s, hs, hhanded⟩ := Option.map_eq_some_iff.mp hrun
  exact ⟨s, hs, hhanded, (run_throttled (by simp [twoMessages]) hs).2⟩

theorem run_prompt_two :
    ∃ s, run (timedStep 5000) begun twoMessages = some s ∧
      (12500 : Time) ≤ 2000 + queueMaxSize * period 5000 1000 := by
  have hrun : (run (timedStep 5000) begun twoMessages).map
      (fun s => (s.system.acceptedAt, s.system.handedAt)) = some ([0, 2000], [0, 12500]) := by
    decide
  obtain ⟨s, hs, htimes⟩ := Option.map_eq_some_iff.mp hrun
  obtain ⟨haccepted, hhanded⟩ := Prod.mk.inj htimes
  have hprompt := run_prompt (Int.natCast_nonneg 5000) (Int.natCast_nonneg 1000)
    (by simp [twoMessages]) (by decide) hs
  exact ⟨s, hs, hprompt.1 1 2000 12500 (by rw [haccepted]; rfl) (by rw [hhanded]; rfl)⟩

end Multiplextashtic.MessageQueue
