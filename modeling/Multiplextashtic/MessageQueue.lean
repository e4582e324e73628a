import Multiplextashtic.Lib.Run

/-! # The message queue

`message_queue.py`: a bounded queue and the `_process` tasks that drain it. A
task runs from one await to the next without interruption; between any two of
these turns clients enqueue and other tasks run. -/
namespace Multiplextashtic

def MessageQueue.queueMaxSize : Nat := 100

/-- A `_process` task, by where it stands. -/
inductive MessageQueue.Task (α : Type) where
  | scheduled
  | sending (raw : α)
  | sleeping
  | finished
  deriving DecidableEq, Repr

/-- The tasks stand in the order of their creation. `accepted` and `handed`
record what `enqueue_raw` accepted and what `send_raw_to_radio` was called with. -/
structure MessageQueue (α : Type) where
  queue : List α := []
  processing : Bool := false
  tasks : List (MessageQueue.Task α) := []
  accepted : List α := []
  handed : List α := []
  deriving DecidableEq, Repr

namespace MessageQueue
variable {α : Type}

section
variable (q : MessageQueue α)

def createTask : MessageQueue α := { q with tasks := q.tasks ++ [.scheduled] }

def setTask (i : Nat) (t : Task α) : MessageQueue α := { q with tasks := q.tasks.set i t }

def enqueueRaw (raw : α) : Bool × MessageQueue α :=
  if q.queue.length < queueMaxSize then
    let q := { q with queue := q.queue ++ [raw], accepted := q.accepted ++ [raw] }
    (true, if q.processing then q else q.createTask)
  else (false, q)

/-- The `finally` block. -/
def finish (i : Nat) : MessageQueue α :=
  let q := { q.setTask i .finished with processing := false }
  if q.queue.length > 0 then q.createTask else q

/-- From the top of the loop to the call of `send_raw_to_radio`. -/
def nextMessage (i : Nat) : MessageQueue α :=
  match q.queue with
  | [] => q.finish i
  | raw :: rest => { q.setTask i (.sending raw) with queue := rest, handed := q.handed ++ [raw] }

def start (i : Nat) : MessageQueue α :=
  if q.processing then q.setTask i .finished else nextMessage { q with processing := true } i

end

/-- What can happen next. A send that raises is only logged. -/
inductive Event (α : Type) where
  | enqueue (raw : α)
  | start (i : Nat)
  | sent (i : Nat) (raised : Bool)
  | wake (i : Nat)
  | cancel (i : Nat)
  deriving DecidableEq, Repr

def step (q : MessageQueue α) : Event α → Option (MessageQueue α)
  | .enqueue raw => some (q.enqueueRaw raw).2
  | .start i =>
    match q.tasks[i]? with
    | some .scheduled => some (q.start i)
    | _ => none
  | .sent i _ =>
    match q.tasks[i]? with
    | some (.sending _) => some (q.setTask i .sleeping)
    | _ => none
  | .wake i =>
    match q.tasks[i]? with
    | some .sleeping => some (q.nextMessage i)
    | _ => none
  | .cancel i =>
    match q.tasks[i]? with
    | some .scheduled => some (q.setTask i .finished)
    | some (.sending _) => some (q.finish i)
    | some .sleeping => some (q.finish i)
    | _ => none

/-- The message a task is sending. -/
def sendingAt (q : MessageQueue α) (i : Nat) : Option α :=
  match q.tasks[i]? with
  | some (.sending raw) => some raw
  | _ => none

/-! ## One step at a time -/

/-- Past the guard at the top of `_process`, and not yet done. -/
def Task.active : Task α → Bool
  | .scheduled => false
  | .sending _ => true
  | .sleeping => true
  | .finished => false

def activeTasks (tasks : List (Task α)) : Nat := tasks.countP Task.active

theorem activeTasks_set {tasks : List (Task α)} {i : Nat} {t : Task α} (u : Task α)
    (h : tasks[i]? = some t) :
    activeTasks (tasks.set i u) + t.active.toNat = activeTasks tasks + u.active.toNat := by
  obtain ⟨hi, rfl⟩ := List.getElem?_eq_some_iff.mp h
  have hpos : Task.active tasks[i] = true → 0 < tasks.countP Task.active := fun ha =>
    List.countP_pos_iff.mpr ⟨_, List.getElem_mem hi, ha⟩
  simp only [activeTasks, List.countP_set hi]
  cases ht : Task.active tasks[i] <;> cases u.active <;>
    simp only [ht, if_true, Bool.false_eq_true, if_false, Bool.toNat_true, Bool.toNat_false,
      true_implies] at hpos ⊢ <;> omega

@[simp] theorem activeTasks_concat (tasks : List (Task α)) :
    activeTasks (tasks ++ [.scheduled]) = activeTasks tasks := by
  simp [activeTasks, Task.active]

/-- What a step can do. -/
inductive Stepped (q : MessageQueue α) : Event α → MessageQueue α → Prop
  | enqueue (raw : α) : Stepped q (.enqueue raw) (q.enqueueRaw raw).2
  | start {i : Nat} : q.tasks[i]? = some .scheduled → Stepped q (.start i) (q.start i)
  | sent {i : Nat} {raised : Bool} {raw : α} : q.tasks[i]? = some (.sending raw) →
      Stepped q (.sent i raised) (q.setTask i .sleeping)
  | wake {i : Nat} : q.tasks[i]? = some .sleeping → Stepped q (.wake i) (q.nextMessage i)
  | unscheduled {i : Nat} : q.tasks[i]? = some .scheduled →
      Stepped q (.cancel i) (q.setTask i .finished)
  | cancelled {i : Nat} {t : Task α} : q.tasks[i]? = some t → t.active = true →
      Stepped q (.cancel i) (q.finish i)

theorem step_stepped {q q' : MessageQueue α} {e : Event α} (hs : step q e = some q') :
    Stepped q e q' := by
  cases e with
  | enqueue raw => cases hs; exact .enqueue raw
  | start i =>
    simp only [step] at hs
    split at hs <;> cases hs
    next ht => exact .start ht
  | sent i raised =>
    simp only [step] at hs
    split at hs <;> cases hs
    next ht => exact .sent ht
  | wake i =>
    simp only [step] at hs
    split at hs <;> cases hs
    next ht => exact .wake ht
  | cancel i =>
    simp only [step] at hs
    split at hs <;> cases hs
    · next ht => exact .unscheduled ht
    · next ht => exact .cancelled ht rfl
    · next ht => exact .cancelled ht rfl

/-- Nothing is lost or reordered, and the flag is up while a task is past its guard. -/
structure Ordered (q : MessageQueue α) : Prop where
  accepted_eq : q.accepted = q.handed ++ q.queue
  bounded : q.queue.length ≤ queueMaxSize
  flag : activeTasks q.tasks = q.processing.toNat

/-- The answer depends on the length alone. -/
theorem enqueueRaw_answer (q : MessageQueue α) (raw : α) :
    (q.enqueueRaw raw).1 = decide (q.queue.length < queueMaxSize) := by
  unfold enqueueRaw
  split
  · next h => exact (decide_eq_true h).symm
  · next h => exact (decide_eq_false h).symm

theorem enqueueRaw_refused_iff (q : MessageQueue α) (raw : α) :
    (q.enqueueRaw raw).1 = false ↔ queueMaxSize ≤ q.queue.length := by
  rw [enqueueRaw_answer, decide_eq_false_iff_not, Nat.not_lt]

theorem enqueueRaw_refused {q : MessageQueue α} {raw : α} (h : (q.enqueueRaw raw).1 = false) :
    (q.enqueueRaw raw).2 = q := by
  have hl := (enqueueRaw_refused_iff q raw).mp h
  simp [enqueueRaw, Nat.not_lt.mpr hl]

/-- The record of what was accepted follows the answers of `enqueue_raw`. -/
theorem enqueueRaw_accepted (q : MessageQueue α) (raw : α) :
    (q.enqueueRaw raw).2.accepted =
      if (q.enqueueRaw raw).1 then q.accepted ++ [raw] else q.accepted := by
  unfold enqueueRaw
  split
  · cases q.processing <;> simp [createTask]
  · simp

theorem finish_accepted (q : MessageQueue α) (i : Nat) :
    (q.finish i).accepted = q.accepted := by
  unfold finish
  simp only
  split <;> rfl

theorem nextMessage_accepted (q : MessageQueue α) (i : Nat) :
    (q.nextMessage i).accepted = q.accepted := by
  unfold nextMessage
  split
  · exact finish_accepted q i
  · rfl

theorem start_accepted (q : MessageQueue α) (i : Nat) :
    (q.start i).accepted = q.accepted := by
  unfold start
  split
  · rfl
  · exact nextMessage_accepted _ i

/-- Only an enqueue is ever accepted. -/
theorem accepted_of_not_enqueue {q q' : MessageQueue α} {e : Event α} (he : ∀ raw, e ≠ .enqueue raw)
    (hs : step q e = some q') : q'.accepted = q.accepted := by
  cases step_stepped hs with
  | enqueue raw => exact absurd rfl (he raw)
  | start ht => exact start_accepted q _
  | wake ht => exact nextMessage_accepted q _
  | cancelled ht ha => exact finish_accepted q _
  | sent ht => rfl
  | unscheduled ht => rfl

theorem Ordered.enqueueRaw {q : MessageQueue α} (h : Ordered q) (raw : α) :
    Ordered (q.enqueueRaw raw).2 := by
  unfold MessageQueue.enqueueRaw
  split
  · next hlt =>
    have hacc : q.accepted ++ [raw] = q.handed ++ (q.queue ++ [raw]) := by
      rw [h.accepted_eq, List.append_assoc]
    have hlen : (q.queue ++ [raw]).length ≤ queueMaxSize := by
      rw [List.length_append]; exact hlt
    simp only
    split
    · exact ⟨hacc, hlen, h.flag⟩
    · exact ⟨hacc, hlen, (activeTasks_concat _).trans h.flag⟩
  · exact h

/-- The only task that may be active ends. -/
theorem Ordered.finish {q : MessageQueue α} {i : Nat} {t : Task α}
    (hacc : q.accepted = q.handed ++ q.queue) (hb : q.queue.length ≤ queueMaxSize)
    (ht : q.tasks[i]? = some t) (hf : activeTasks q.tasks = t.active.toNat) :
    Ordered (q.finish i) := by
  have h0 : activeTasks (q.tasks.set i .finished) = 0 := by
    have hset : _ = activeTasks q.tasks + 0 := activeTasks_set .finished ht
    omega
  unfold MessageQueue.finish
  simp only
  split
  · exact ⟨hacc, hb, (activeTasks_concat _).trans h0⟩
  · exact ⟨hacc, hb, h0⟩

/-- The task at `i`, the only one that may be active, goes to the top of its loop. -/
theorem Ordered.nextMessage {q : MessageQueue α} {i : Nat} {t : Task α}
    (hacc : q.accepted = q.handed ++ q.queue) (hb : q.queue.length ≤ queueMaxSize)
    (hp : q.processing = true) (ht : q.tasks[i]? = some t)
    (hf : activeTasks q.tasks = t.active.toNat) : Ordered (q.nextMessage i) := by
  unfold MessageQueue.nextMessage
  split
  · exact Ordered.finish hacc hb ht hf
  · next raw rest hq =>
    have h1 : activeTasks (q.tasks.set i (.sending raw)) = 1 := by
      have hset : _ = activeTasks q.tasks + 1 := activeTasks_set (.sending raw) ht
      omega
    rw [hq] at hacc hb
    exact ⟨by rw [List.append_assoc]; exact hacc, Nat.le_of_succ_le hb,
      h1.trans (by simp [setTask, hp])⟩

theorem Ordered.start {q : MessageQueue α} {i : Nat} (h : Ordered q)
    (ht : q.tasks[i]? = some .scheduled) : Ordered (q.start i) := by
  unfold MessageQueue.start
  split
  · exact ⟨h.accepted_eq, h.bounded, (activeTasks_set .finished ht).trans h.flag⟩
  · next hp =>
    have hf : activeTasks q.tasks = 0 := by
      rw [h.flag, Bool.toNat_eq_zero]
      simpa using hp
    exact Ordered.nextMessage h.accepted_eq h.bounded rfl ht hf

/-- What an active task knows about the others. -/
theorem Ordered.active {q : MessageQueue α} {i : Nat} {t : Task α} (h : Ordered q)
    (ht : q.tasks[i]? = some t) (ha : t.active = true) :
    q.processing = true ∧ activeTasks q.tasks = t.active.toNat := by
  have hpos : 0 < activeTasks q.tasks :=
    List.countP_pos_iff.mpr ⟨t, List.mem_of_getElem? ht, ha⟩
  have hf := h.flag
  cases hp : q.processing with
  | true => exact ⟨rfl, by rw [hf, hp, ha]⟩
  | false => rw [hp, Bool.toNat_false] at hf; omega

theorem Ordered.step {q q' : MessageQueue α} {e : Event α} (h : Ordered q)
    (hs : step q e = some q') : Ordered q' := by
  cases step_stepped hs with
  | enqueue raw => exact h.enqueueRaw raw
  | start ht => exact h.start ht
  | sent ht =>
    have hset : _ + 1 = activeTasks q.tasks + 1 := activeTasks_set .sleeping ht
    exact ⟨h.accepted_eq, h.bounded, (Nat.add_right_cancel hset).trans h.flag⟩
  | wake ht =>
    obtain ⟨hp, ha⟩ := h.active ht rfl
    exact Ordered.nextMessage h.accepted_eq h.bounded hp ht ha
  | unscheduled ht =>
    exact ⟨h.accepted_eq, h.bounded, (activeTasks_set .finished ht).trans h.flag⟩
  | cancelled ht ha =>
    obtain ⟨-, hf⟩ := h.active ht ha
    exact Ordered.finish h.accepted_eq h.bounded ht hf

/-! ## Nothing waits without a task -/

/-- A message in the queue has a task that will take it. -/
def Attended (q : MessageQueue α) : Prop :=
  q.queue ≠ [] → q.processing = true ∨ .scheduled ∈ q.tasks

theorem Attended.enqueueRaw {q : MessageQueue α} (h : Attended q) (raw : α) :
    Attended (q.enqueueRaw raw).2 := by
  unfold MessageQueue.enqueueRaw
  split
  · simp only
    split
    · next hp => exact fun _ => .inl hp
    · exact fun _ => .inr (by simp [createTask])
  · exact h

theorem attended_finish (q : MessageQueue α) (i : Nat) : Attended (q.finish i) := by
  unfold MessageQueue.finish
  simp only
  split
  · exact fun _ => .inr (by simp [createTask])
  · next hl => exact fun hne => absurd (List.length_pos_iff.mpr hne) hl

theorem attended_nextMessage {q : MessageQueue α} (i : Nat) (hp : q.processing = true) :
    Attended (q.nextMessage i) := by
  unfold MessageQueue.nextMessage
  split
  · exact attended_finish q i
  · exact fun _ => .inl hp

theorem attended_start (q : MessageQueue α) (i : Nat) : Attended (q.start i) := by
  unfold MessageQueue.start
  split
  · next hp => exact fun _ => .inl hp
  · exact attended_nextMessage i rfl

/-- A cancellation reaches a task at one of its waits, not one that has yet to start. -/
def CancelsRunning (q : MessageQueue α) : Event α → Prop
  | .cancel i => q.tasks[i]? ≠ some .scheduled
  | _ => True

instance [DecidableEq α] (q : MessageQueue α) : ∀ e, Decidable (CancelsRunning q e)
  | .cancel _ => inferInstanceAs (Decidable (_ ≠ _))
  | .enqueue _ | .start _ | .sent _ _ | .wake _ => isTrue trivial

/-- A step that cancels no task before its start keeps every message attended. -/
theorem Attended.step {q q' : MessageQueue α} {e : Event α} (h : Attended q) (ho : Ordered q)
    (he : CancelsRunning q e) (hs : step q e = some q') : Attended q' := by
  cases step_stepped hs with
  | enqueue raw => exact h.enqueueRaw raw
  | start ht => exact attended_start q _
  | sent ht =>
    obtain ⟨hp, -⟩ := ho.active ht rfl
    intro _
    exact .inl hp
  | wake ht =>
    obtain ⟨hp, -⟩ := ho.active ht rfl
    exact attended_nextMessage _ hp
  | unscheduled ht => exact absurd ht he
  | cancelled ht ha => exact attended_finish q _

/-! ## Runs -/

/-- A run in which no task is cancelled before its start keeps order and attendance. -/
theorem run_attends {es : List (Event α)} {q : MessageQueue α}
    (hc : Run.Along step CancelsRunning {} es) (hr : Run.run step {} es = some q) :
    Ordered q ∧ Attended q := by
  have hinit : Ordered ({} : MessageQueue α) ∧ Attended ({} : MessageQueue α) :=
    ⟨⟨rfl, Nat.zero_le _, rfl⟩, fun h => absurd rfl h⟩
  refine Run.invariant_along (P := fun q => Ordered q ∧ Attended q) ?_ hinit hc hr
  intro q e q' hi he hs
  exact ⟨hi.1.step hs, hi.2.step hi.1 he hs⟩

/-- **Bounded, in order, exactly once.** In every state of every run one task at
most is past its guard, what was accepted is what was handed over followed by
what is queued, and an enqueue is refused exactly at the bound, changing
nothing. When every task is done nothing is queued any more. -/
theorem run_fifo (es : List (Event α)) {q : MessageQueue α} (hc : ∀ i, .cancel i ∉ es)
    (hr : Run.run step {} es = some q) :
    activeTasks q.tasks ≤ 1 ∧
    q.accepted = q.handed ++ q.queue ∧
    q.queue.length ≤ queueMaxSize ∧
    (∀ raw, (q.enqueueRaw raw).1 = false ↔ q.queue.length = queueMaxSize) ∧
    (∀ raw, (q.enqueueRaw raw).1 = false → (q.enqueueRaw raw).2 = q) ∧
    (∀ raw, (q.enqueueRaw raw).1 = true → (q.enqueueRaw raw).2.accepted = q.accepted ++ [raw]) ∧
    ((∀ t ∈ q.tasks, t = .finished) → q.handed = q.accepted) := by
  have hnone : Run.Along step CancelsRunning ({} : MessageQueue α) es := by
    apply Run.along_of_mem
    intro q e he
    cases e with
    | cancel i => exact absurd he (hc i)
    | enqueue | start | sent | wake => trivial
  obtain ⟨ho, ha⟩ := run_attends hnone hr
  refine ⟨?_, ho.accepted_eq, ho.bounded, ?_, fun raw => enqueueRaw_refused, ?_, ?_⟩
  · rw [ho.flag]; exact Bool.toNat_le _
  · intro raw
    rw [enqueueRaw_refused_iff]
    exact ⟨fun h => Nat.le_antisymm ho.bounded h, fun h => Nat.le_of_eq h.symm⟩
  · intro raw h
    rw [enqueueRaw_accepted, if_pos h]
  · intro hf
    have h0 : activeTasks q.tasks = 0 := by
      apply List.countP_eq_zero.mpr
      intro t ht
      rw [hf t ht]
      simp [Task.active]
    have hq : q.queue = [] := by
      by_contra hne
      rcases ha hne with hp | hs
      · rw [ho.flag, hp] at h0; cases h0
      · cases hf _ hs
    rw [ho.accepted_eq, hq, List.append_nil]

/-- Two messages, the second arriving while the first is on its way, whose send raises. -/
theorem run_fifo_two :
    ∃ q, Run.run step {} [.enqueue 1, .start 0, .enqueue 2, .sent 0 true, .wake 0, .sent 0 false,
      .wake 0] = some q ∧ q.handed = [1, 2] ∧ q.handed = q.accepted := by
  refine ⟨_, rfl, by decide, ?_⟩
  obtain ⟨-, -, -, -, -, -, hdone⟩ := run_fifo [.enqueue 1, .start 0, .enqueue 2, .sent 0 true,
    .wake 0, .sent 0 false, .wake 0] (by simp) rfl
  exact hdone (by decide)

/-- **No message is stranded.** As long as cancellations only reach tasks at their
waits, a message in the queue has a task past its guard or one about to start. -/
theorem run_notStranded (es : List (Event α)) {q : MessageQueue α}
    (hc : Run.Along step CancelsRunning {} es) (hr : Run.run step {} es = some q) :
    (q.queue ≠ [] → ∃ t ∈ q.tasks, t.active = true ∨ t = .scheduled) ∧
    ((∀ t ∈ q.tasks, t.active = false ∧ t ≠ .scheduled) → q.queue = []) := by
  obtain ⟨ho, ha⟩ := run_attends hc hr
  have htask : q.queue ≠ [] → ∃ t ∈ q.tasks, t.active = true ∨ t = .scheduled := by
    intro hne
    rcases ha hne with hp | hs
    · have hpos : 0 < q.tasks.countP Task.active := by
        rw [show q.tasks.countP Task.active = 1 from ho.flag.trans (by rw [hp]; rfl)]
        exact Nat.one_pos
      obtain ⟨t, ht, hact⟩ := List.countP_pos_iff.mp hpos
      exact ⟨t, ht, .inl hact⟩
    · exact ⟨_, hs, .inr rfl⟩
  refine ⟨htask, ?_⟩
  intro hidle
  by_contra hne
  obtain ⟨t, ht, hact | rfl⟩ := htask hne
  · rw [(hidle t ht).1] at hact
    cases hact
  · exact (hidle _ ht).2 rfl

/-- The task is cancelled on its way with a second message waiting, whose send then
raises. -/
theorem run_notStranded_cancelled :
    ∃ q, Run.run step {} [.enqueue 1, .start 0, .enqueue 2, .cancel 0, .start 1, .sent 1 true,
      .enqueue 3, .cancel 1] = some q ∧ q.queue = [3] ∧
      ∃ t ∈ q.tasks, t.active = true ∨ t = .scheduled := by
  refine ⟨_, rfl, by decide, ?_⟩
  obtain ⟨htask, -⟩ := run_notStranded [.enqueue 1, .start 0, .enqueue 2, .cancel 0, .start 1,
    .sent 1 true, .enqueue 3, .cancel 1] (by decide) rfl
  exact htask (by decide)

end MessageQueue
end Multiplextashtic
