import Mathlib.Algebra.BigOperators.Group.Finset.Basic
import Mathlib.Algebra.Order.BigOperators.Group.Finset
import Multiplextashtic.LinkTiming

/-! # Reconnecting with exponential back-off

How far apart the attempts of a reconnect loop are, and how long it may go without
one, over the runs of `LinkTiming.lean`. -/
namespace Multiplextashtic.PhysicalNode
open Multiplextashtic.Client (Time)
open Multiplextashtic.Protocol Run Sole

/-! ## The delays -/

/-- The delay behind so many attempts that have failed. -/
def delayAfter (config : ReconnectConfig) : Nat → Int
  | 0 => config.initialDelay
  | k + 1 => min (delayAfter config k * config.multiplier) config.maxDelay

/-- The delays before an attempt with so many others before it. -/
def delays (config : ReconnectConfig) (k : Nat) : Int := ∑ j ∈ Finset.range k, delayAfter config j

theorem delays_succ (config : ReconnectConfig) (k : Nat) :
    delays config (k + 1) = delays config k + delayAfter config k := Finset.sum_range_succ _ _

/-- **The back-off is exponential** up to the greatest delay. -/
theorem delayAfter_eq {config : ReconnectConfig} (hmultiplier : 1 ≤ config.multiplier)
    (hinitial : 0 ≤ config.initialDelay) (hmax : config.initialDelay ≤ config.maxDelay) (k : Nat) :
    delayAfter config k = min (config.initialDelay * config.multiplier ^ k) config.maxDelay := by
  have hgrows : config.maxDelay ≤ config.maxDelay * config.multiplier :=
    le_mul_of_one_le_right (hinitial.trans hmax) hmultiplier
  induction k with
  | zero =>
    rw [pow_zero, mul_one, min_eq_left hmax]
    rfl
  | succ k ih =>
    rw [delayAfter, ih, min_mul_of_nonneg _ _ (zero_le_one.trans hmultiplier), pow_succ, mul_assoc,
      min_assoc, min_eq_right hgrows]

theorem delayAfter_le (config : ReconnectConfig) (k : Nat) :
    delayAfter config k ≤ max config.initialDelay config.maxDelay := by
  cases k with
  | zero => exact le_max_left _ _
  | succ k => exact (min_le_right _ _).trans (le_max_right _ _)

variable {s t u : TimedManager} {i : Nat} {lag since : Time}

/-! ## The delays of a loop -/

/-- The attempts of a task that have failed. -/
def failures (i : Nat) (es : List (Timed.Event Event Time)) : Nat :=
  es.count (.act (.resume i .raised))

/-- Where a reconnect loop that began no sooner than `since` stands behind `k` attempts that
have failed: it has waited out the delays before. -/
def Paced (config : ReconnectConfig) (since : Time) (k : Nat) (arrived : Time) : Option Await → Prop
  | none => k = 0
  | some (.start .reconnectLoop) => k = 0
  | some (.sleep delay) =>
    delay = delayAfter config k ∧ since + delays config k * second ≤ arrived
  | some (.connect delay _) =>
    delay = delayAfter config k ∧ since + delays config (k + 1) * second ≤ arrived
  | some _ => True

theorem failures_raised (i : Nat) : failures i [.act (.resume i .raised)] = 1 :=
  List.count_singleton_self

theorem failures_other {e : Timed.Event Event Time} (h : e ≠ .act (.resume i .raised)) :
    failures i [e] = 0 := List.count_eq_zero.mpr fun hm => h (List.mem_singleton.mp hm).symm

/-- A turn of the loop: it waits out its delay, tries, and doubles the delay when it fails. -/
theorem Paced.turn {config : ReconnectConfig} {k : Nat} {a b : Await} {outcome : Outcome}
    {next : Option Coroutine} (h : Paced config since k (s.arrived i) (some a))
    (hconfig : s.system.manager.config.reconnect = config)
    (hgoes : Goes s.system.manager a outcome b next) (hsince : since ≤ s.time)
    (harrived : s.arrived i ≤ s.time) (hwaited : s.arrived i + a.shortest outcome ≤ s.time) :
    Paced config since (k + failures i [.act (.resume i outcome)]) s.time (some b) := by
  have hother (hne : outcome ≠ .raised) : failures i [.act (.resume i outcome)] = 0 := by
    refine failures_other ?_
    intro heq
    cases heq
    exact hne rfl
  cases hgoes with
  | first | hears | waits | ends | stops | connects => trivial
  | begins =>
    rw [hother Outcome.noConfusion, add_zero, h]
    refine ⟨by rw [← hconfig]; rfl, ?_⟩
    rw [delays, Finset.sum_range_zero, zero_mul, add_zero]
    exact hsince
  | attempts =>
    obtain ⟨rfl, hbefore⟩ := h
    rw [hother Outcome.noConfusion, add_zero]
    refine ⟨rfl, ?_⟩
    rw [delays_succ, add_mul, ← add_assoc]
    exact (add_le_add_left hbefore _).trans hwaited
  | goesOn =>
    rw [hother Outcome.noConfusion, add_zero]
    exact ⟨h.1, h.2.trans harrived⟩
  | fails =>
    obtain ⟨rfl, hbefore⟩ := h
    rw [failures_raised]
    exact ⟨by rw [← hconfig]; rfl, hbefore.trans harrived⟩

theorem Paced.step {config : ReconnectConfig} {k : Nat} {e : Timed.Event Event Time}
    (h : Paced config since k (s.arrived i) (awaits s.system.manager)[i]?)
    (hconfig : s.system.manager.config.reconnect = config) (hsince : since ≤ s.time)
    (harrived : ∀ i, s.arrived i ≤ s.time) (hs : timedStep s e = some t) :
    Paced config since (k + failures i [e]) (t.arrived i) (awaits t.system.manager)[i]? := by
  cases e with
  | elapse time =>
    obtain ⟨-, rfl⟩ := Timed.step_elapse.mp hs
    rw [failures_other (by simp)]
    exact h
  | act e =>
    have hacts := Timed.step_act hs
    have hchanges := step_changes (datedStep_some hacts.act).2.1
    have hnone (ha : (awaits s.system.manager)[i]? = none) : failures i [.act e] = 0 := by
      refine failures_other ?_
      intro heq
      cases heq
      cases hchanges with
      | turn hget => cases ha.symm.trans hget
      | stays hturn => cases hturn
    cases hb : (awaits t.system.manager)[i]? with
    | none =>
      have ha : (awaits s.system.manager)[i]? = none :=
        List.getElem?_eq_none (hchanges.length_le.trans (List.getElem?_eq_none_iff.mp hb))
      rw [ha] at h
      rw [hnone ha]
      exact h
    | some b =>
      cases hchanges.came hb with
      | stayed hturn ha =>
        have hlt := (List.getElem?_eq_some_iff.mp ha).1
        rw [ha] at h
        rw [hacts.kept i (timing_size s.system ▸ hlt) hturn, failures_other]
        · exact h
        · intro heq
          cases heq
          exact hturn rfl
      | @started loop hlen =>
        have ha : (awaits s.system.manager)[i]? = none := List.getElem?_eq_none hlen
        rw [ha] at h
        rw [hnone ha]
        cases loop with
        | readLoop => trivial
        | reconnectLoop => exact h
      | @went outcome a _ _ he ha hgoes =>
        subst he
        rw [ha] at h
        rw [hacts.turned i rfl]
        refine h.turn hconfig hgoes hsince (harrived i) ?_
        exact timing_shortest ha ▸ hacts.waited i rfl
      | cancelled => trivial

section
variable {config : PhysicalNodeConfig} {failed : Option ConnectAwait}
  {before es : List (Timed.Event Event Time)}

theorem run_paced (hu : run timedStep (begun config failed) before = some u)
    (hr : run timedStep u es = some s)
    (hnew : ∀ a, (awaits u.system.manager)[i]? = some a → ∃ loop, a = .start loop) :
    Paced config.reconnect u.time (failures i es) (s.arrived i) (awaits s.system.manager)[i]? := by
  have hstart : Paced config.reconnect u.time (failures i []) (u.arrived i)
      (awaits u.system.manager)[i]? := by
    cases ha : (awaits u.system.manager)[i]? with
    | none => rfl
    | some a =>
      obtain ⟨loop, rfl⟩ := hnew a ha
      cases loop with
      | readLoop => trivial
      | reconnectLoop => rfl
  refine (invariant_history (P := fun es s => u.time ≤ s.time ∧
    Paced config.reconnect u.time (failures i es) (s.arrived i) (awaits s.system.manager)[i]?)
    ⟨le_rfl, hstart⟩ ?_ hr).2
  intro es s e t hs h he
  refine ⟨h.1.trans (Timed.time_le_step he), ?_⟩
  have hall : run timedStep (begun config failed) (before ++ es) = some s :=
    run_append.mpr ⟨u, hu, hs⟩
  have hconfig : s.system.manager.config.reconnect = config.reconnect := by
    rw [run_config hall, begun_config]
  have hcount : failures i (es ++ [e]) = failures i es + failures i [e] := List.count_append
  rw [hcount]
  exact h.2.step hconfig h.1 (Timed.run_arrived_le (fun _ => le_rfl) hall) he

/-- **The attempts of a reconnect loop are spaced**: an attempt is made when the delays up to
it have passed since any time before the loop began. -/
theorem run_spaced (hu : run timedStep (begun config failed) before = some u)
    (hr : run timedStep u es = some s)
    (hnew : ∀ a, (awaits u.system.manager)[i]? = some a → ∃ loop, a = .start loop)
    {delay : Int} {await : ConnectAwait}
    (ha : (awaits s.system.manager)[i]? = some (.connect delay await)) :
    delay = delayAfter config.reconnect (failures i es) ∧
      delays config.reconnect (failures i es + 1) * second ≤ s.time - u.time := by
  have hpaced := run_paced hu hr hnew
  rw [ha] at hpaced
  refine ⟨hpaced.1, le_sub_iff_add_le'.mpr (hpaced.2.trans ?_)⟩
  exact Timed.run_arrived_le (fun _ => le_rfl) (run_append.mpr ⟨u, hu, hr⟩) i

/-- **A manager that is to reconnect is at it**: it tries, or has been waiting for no longer
than the greatest delay. -/
theorem run_retried (hlag : 0 ≤ lag) (henabled : config.reconnect.enabled = true)
    (hp : Along timedStep (Timed.Punctual timing lag) (begun config failed) es)
    (hr : run timedStep (begun config failed) es = some s)
    (hrunning : s.system.manager.running = true)
    (hdown : s.system.manager.connected = false) :
    ∃ i, Only Task.live s.system.manager.tasks i ∧
      ((∃ delay await, (awaits s.system.manager)[i]? = some (.connect delay await)) ∨
        s.time - s.arrived i ≤
          max 0 (max config.reconnect.initialDelay config.reconnect.maxDelay) * second + lag) := by
  obtain ⟨-, hdue⟩ := run_heard hlag hp hr
  have hconfig : s.system.manager.config = config := (run_config hr).trans (begun_config _ _)
  cases run_loops hr with
  | reading _ _ hup => cases hup.symm.trans hdown
  | off _ _ hoff =>
    rw [hconfig, henabled] at hoff
    cases hoff
  | stoppingRead _ hstopped | stoppingReconnect _ hstopped | stopped _ hstopped =>
    cases hstopped.symm.trans hrunning
  | @reconnecting i a _ _ _ _ _ ht ha ho =>
    refine ⟨i, ho, ?_⟩
    have hget : (awaits s.system.manager)[i]? = some a := by rw [awaits_get, ht]; rfl
    generalize hlongest :
      max config.reconnect.initialDelay config.reconnect.maxDelay = longest
    have hwait : 0 ≤ max 0 longest * second := mul_nonneg (le_max_left 0 longest) second_nonneg
    cases a with
    | start loop =>
      refine .inr (sub_le_iff_le_add'.mpr ((due_await hdue hget rfl).trans ?_))
      rw [add_zero]
      gcongr
      exact le_add_of_nonneg_left hwait
    | sleep delay =>
      refine .inr (sub_le_iff_le_add'.mpr ((due_await hdue hget rfl).trans ?_))
      have hfirst : run timedStep (begun config failed) [] = some (begun config failed) := rfl
      have hpaced := run_paced hfirst hr fun _ => begun_start config failed (i := i)
      rw [hget] at hpaced
      have hdelay : delay ≤ longest := by
        rw [hpaced.1, ← hlongest]
        exact delayAfter_le _ _
      rw [add_assoc]
      gcongr
      exact max_le hwait (mul_le_mul_of_nonneg_right (hdelay.trans (le_max_right 0 _)) second_nonneg)
    | connect delay await => exact .inl ⟨delay, await, hget⟩
    | _ => exact ha.elim

end

/-- A first attempt that fails, and a second one two seconds later. -/
def retries : List (Timed.Event Event Time) :=
  [.act (.resume 0 .started), .elapse 1000000, .act (.resume 0 .returned),
    .act (.resume 0 .raised), .elapse 2000000, .act (.resume 0 .returned)]

theorem run_spaced_retries :
    ∃ s, run timedStep (begun {} (some .openConnection)) retries = some s ∧
      delays {} 2 * second ≤ s.time := by
  have hrun : (run timedStep (begun {} (some .openConnection)) retries).map
      (fun s => (awaits s.system.manager)[0]?) = some (some (.connect 2 .openConnection)) := by
    decide
  obtain ⟨s, hs, ha⟩ := Option.map_eq_some_iff.mp hrun
  have hfirst : run timedStep (begun {} (some .openConnection)) [] =
      some (begun {} (some .openConnection)) := rfl
  have hspaced := run_spaced hfirst hs (fun _ => begun_start _ _) ha
  exact ⟨s, hs, (sub_zero s.time) ▸ hspaced.2⟩

theorem run_retried_retries :
    ∃ s, run timedStep (begun {} (some .openConnection)) (retries.take 4) = some s ∧
      ∃ i, Only Task.live s.system.manager.tasks i ∧
        ((∃ delay await, (awaits s.system.manager)[i]? = some (.connect delay await)) ∨
          s.time - s.arrived i ≤ max 0 (max 1 60) * second + 1000) := by
  have hrun : (run timedStep (begun {} (some .openConnection)) (retries.take 4)).map
      (fun s => (s.system.manager.running, s.system.manager.connected)) = some (true, false) := by
    decide
  obtain ⟨s, hs, hup⟩ := Option.map_eq_some_iff.mp hrun
  obtain ⟨hrunning, hdown⟩ := Prod.mk.inj hup
  exact ⟨s, hs, run_retried (Int.natCast_nonneg 1000) rfl (by decide) hs hrunning hdown⟩

end Multiplextashtic.PhysicalNode
