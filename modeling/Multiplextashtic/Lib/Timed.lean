import Mathlib.Algebra.Order.Group.Defs
import Mathlib.Algebra.Order.Monoid.Unbundled.Basic
import Multiplextashtic.Lib.Simulation

/-! # Systems in time

A system of numbered tasks, each of which waits, put beside a clock. A wait lasts a
shortest time at least; on an event loop that lags by a bounded time only, it also
ends a bounded time after the longest it may take. -/
namespace Timed
open Run

/-- The system, which is shown the clock in each step. `turn` is the task that takes the step,
`shortest` how long it must have waited for it, and `longest` how long a wait may take. -/
structure Tasks (S Ev T : Type) where
  act : T → S → Ev → Option S
  size : S → Nat
  turn : Ev → Option Nat
  shortest : S → Ev → T
  longest : S → Nat → Option T

/-- `arrived` is when each task came to its wait. -/
structure Clocked (S T : Type) where
  system : S
  time : T
  arrived : Nat → T

inductive Event (Ev T : Type) where
  | elapse (time : T)
  | act (e : Ev)
  deriving DecidableEq, Repr

variable {S Ev T : Type} [AddCommGroup T] [LinearOrder T]

section
variable (w : Tasks S Ev T)

/-- The task that takes the step comes to its next wait, and so do those the step starts. -/
def step (s : Clocked S T) : Event Ev T → Option (Clocked S T)
  | .elapse time => if 0 < time then some { s with time := s.time + time } else none
  | .act e =>
    if (w.turn e).all fun i => s.arrived i + w.shortest s.system e ≤ s.time then
      (w.act s.time s.system e).map fun system =>
        { s with
          system
          arrived := fun i =>
            if w.turn e = some i ∨ w.size s.system ≤ i then s.time else s.arrived i }
    else none

/-- No wait is longer than it may be by more than the lag. -/
def Due (lag : T) (s : Clocked S T) (time : T) : Prop :=
  ∀ i < w.size s.system, ∀ l ∈ w.longest s.system i, time ≤ s.arrived i + l + lag

/-- Time does not pass a wait that is due by more than the lag. -/
def Punctual (lag : T) (s : Clocked S T) : Event Ev T → Prop
  | .elapse time => Due w lag s (s.time + time)
  | .act _ => True

/-- A step leaves the waits of the other tasks, and no wait is negative. -/
structure Lawful : Prop where
  kept : ∀ {now s e t}, w.act now s e = some t → ∀ i < w.size s, w.turn e ≠ some i →
    w.longest t i = w.longest s i
  nonneg : ∀ {s i l}, w.longest s i = some l → 0 ≤ l

instance {lag time : T} {s : Clocked S T} : Decidable (Due w lag s time) :=
  inferInstanceAs
    (Decidable (∀ i < w.size s.system, ∀ l ∈ w.longest s.system i, time ≤ s.arrived i + l + lag))

instance {lag : T} {s : Clocked S T} : ∀ e, Decidable (Punctual w lag s e)
  | .elapse time => inferInstanceAs (Decidable (Due w lag s (s.time + time)))
  | .act _ => inferInstanceAs (Decidable True)

end

variable {w : Tasks S Ev T} {s t : Clocked S T} {lag : T} {es : List (Event Ev T)}

/-- What a step of the system does to the clocked one. -/
structure Acts (w : Tasks S Ev T) (s : Clocked S T) (e : Ev) (t : Clocked S T) : Prop where
  waited : ∀ i, w.turn e = some i → s.arrived i + w.shortest s.system e ≤ s.time
  act : w.act s.time s.system e = some t.system
  time : t.time = s.time
  turned : ∀ i, w.turn e = some i → t.arrived i = s.time
  started : ∀ i, w.size s.system ≤ i → t.arrived i = s.time
  kept : ∀ i < w.size s.system, w.turn e ≠ some i → t.arrived i = s.arrived i

theorem step_act {e : Ev} (hs : step w s (.act e) = some t) : Acts w s e t := by
  rw [step] at hs
  split at hs
  · next hwaited =>
    obtain ⟨system, hact, rfl⟩ := Option.map_eq_some_iff.mp hs
    refine ⟨?_, hact, rfl, fun i hi => if_pos (.inl hi), fun i hi => if_pos (.inr hi), ?_⟩
    · intro i hi
      rw [hi] at hwaited
      exact of_decide_eq_true hwaited
    · intro i hi hturn
      exact if_neg (not_or.mpr ⟨hturn, Nat.not_le.mpr hi⟩)
  · cases hs

/-- A task came to its wait where it was, or it does now. -/
theorem Acts.arrived {e : Ev} (h : Acts w s e t) (i : Nat) :
    t.arrived i = s.time ∨ t.arrived i = s.arrived i := by
  by_cases hturn : w.turn e = some i
  · exact .inl (h.turned i hturn)
  · rcases Nat.lt_or_ge i (w.size s.system) with hlt | hge
    · exact .inr (h.kept i hlt hturn)
    · exact .inl (h.started i hge)

theorem step_elapse {time : T} : step w s (.elapse time) = some t ↔
    0 < time ∧ t = { s with time := s.time + time } := by
  rw [step]
  split
  · next h => simp [h, eq_comm]
  · next h => simp [h]

def Event.action : Event Ev T → Option Ev
  | .elapse _ => none
  | .act e => some e

/-- A run of the clocked system is one of a part that the clock only holds back. -/
theorem embeds {S' : Type} {act : S' → Ev → Option S'} (part : S → S')
    (h : ∀ now s e t, w.act now s e = some t → act (part s) e = some (part t)) :
    Embeds (step w) act (fun _ => True) (fun s => part s.system) fun _ e => e.action.toList where
  keeps := fun _ _ => trivial
  steps := by
    intro s e t _ hs
    cases e with
    | elapse time =>
      obtain ⟨-, rfl⟩ := step_elapse.mp hs
      rfl
    | act e =>
      exact run_cons.mpr ⟨_, h _ _ _ _ (step_act hs).act, rfl⟩

variable [IsOrderedAddMonoid T]

theorem time_le_step {e : Event Ev T} (hs : step w s e = some t) : s.time ≤ t.time := by
  cases e with
  | elapse time =>
    obtain ⟨hpos, rfl⟩ := step_elapse.mp hs
    exact le_add_of_nonneg_right hpos.le
  | act e => exact (step_act hs).time.ge

theorem arrived_le_step (h : ∀ i, s.arrived i ≤ s.time) {e : Event Ev T}
    (hs : step w s e = some t) : ∀ i, t.arrived i ≤ t.time := by
  intro i
  cases e with
  | elapse time =>
    obtain ⟨hpos, rfl⟩ := step_elapse.mp hs
    exact (h i).trans (le_add_of_nonneg_right hpos.le)
  | act e =>
    have hacts := step_act hs
    rw [hacts.time]
    rcases hacts.arrived i with hnow | hsame
    · exact hnow.le
    · exact hsame.trans_le (h i)

/-- Every task came to its wait before now. -/
theorem run_arrived_le (h : ∀ i, s.arrived i ≤ s.time) (hr : run (step w) s es = some t) :
    ∀ i, t.arrived i ≤ t.time :=
  invariant (P := fun s => ∀ i, s.arrived i ≤ s.time) (fun _ _ _ h hs => arrived_le_step h hs) h hr

theorem due_step (hw : Lawful w) (hlag : 0 ≤ lag) (h : Due w lag s s.time) {e : Event Ev T}
    (hp : Punctual w lag s e) (hs : step w s e = some t) : Due w lag t t.time := by
  cases e with
  | elapse time =>
    obtain ⟨-, rfl⟩ := step_elapse.mp hs
    exact hp
  | act e =>
    have hacts := step_act hs
    intro i hi l hl
    rw [hacts.time]
    by_cases hnow : t.arrived i = s.time
    · rw [hnow, add_assoc]
      exact le_add_of_nonneg_right (add_nonneg (hw.nonneg hl) hlag)
    · have hturn : w.turn e ≠ some i := fun hturn => hnow (hacts.turned i hturn)
      have hlt : i < w.size s.system := Nat.lt_of_not_le fun hge => hnow (hacts.started i hge)
      rw [hacts.kept i hlt hturn]
      exact h i hlt l (hw.kept hacts.act i hlt hturn ▸ hl)

end Timed
