import Mathlib.Algebra.GroupWithZero.Nat
import Mathlib.Data.List.Basic
import Multiplextashtic.Lib.Run

/-! # Runs that come to an end

Steps of a chosen kind that lower a measure. Any run of them is no longer than what
the measure loses, in whatever order they are taken, and every state has a run of
them to one in which none is left to take. -/
namespace Run

variable {S Ev : Type} {step : S → Ev → Option S} {P : S → Prop} {C : Ev → Prop} {μ : S → Nat}

/-- No step of the kind can happen. -/
def AtRest (step : S → Ev → Option S) (C : Ev → Prop) (s : S) : Prop := ∀ e, C e → step s e = none

/-- A run of the kind takes no more steps than the measure loses. -/
theorem length_add_measure (hP : ∀ s e t, P s → C e → step s e = some t → P t)
    (hμ : ∀ s e t, P s → C e → step s e = some t → μ t < μ s) :
    ∀ {es : List Ev} {s t : S}, P s → (∀ e ∈ es, C e) → run step s es = some t →
      es.length + μ t ≤ μ s
  | [], _, _, _, _, h => by
    cases h
    simp
  | e :: es, s, t, hs, hc, h => by
    obtain ⟨u, hu, hr⟩ := run_cons.mp h
    obtain ⟨he, hc⟩ := List.forall_mem_cons.mp hc
    have hrest := length_add_measure hP hμ (hP s e u hs he hu) hc hr
    have hless := hμ s e u hs he hu
    rw [List.length_cons]
    omega

/-- Every state comes to rest. -/
theorem comes_to_rest (hP : ∀ s e t, P s → C e → step s e = some t → P t)
    (hμ : ∀ s e t, P s → C e → step s e = some t → μ t < μ s) {s : S} (hs : P s) :
    ∃ es t, (∀ e ∈ es, C e) ∧ run step s es = some t ∧ AtRest step C t := by
  induction hn : μ s using Nat.strongRecOn generalizing s with
  | ind n ih =>
    by_cases hrest : AtRest step C s
    · exact ⟨[], s, List.forall_mem_nil _, rfl, hrest⟩
    · simp only [AtRest, not_forall] at hrest
      obtain ⟨e, he, hne⟩ := hrest
      obtain ⟨u, hu⟩ := Option.ne_none_iff_exists'.mp hne
      obtain ⟨es, t, hc, hr, ht⟩ := ih (μ u) (hn ▸ hμ s e u hs he hu) (hP s e u hs he hu) rfl
      exact ⟨e :: es, t, List.forall_mem_cons.mpr ⟨he, hc⟩, run_cons.mpr ⟨u, hu, hr⟩, ht⟩

/-! ## Measures of lists -/

variable {α : Type}

/-- A measure of a list that adds up those of its entries. -/
def total (μ : α → Nat) (l : List α) : Nat := (l.map μ).sum

@[simp] theorem total_nil (μ : α → Nat) : total μ [] = 0 := rfl

@[simp] theorem total_cons (μ : α → Nat) (a : α) (l : List α) :
    total μ (a :: l) = μ a + total μ l := by simp [total]

/-- What is done to one entry. -/
theorem total_set {μ : α → Nat} {l : List α} {i : Nat} {a : α} (b : α) (h : l[i]? = some a) :
    total μ (l.set i b) + μ a = total μ l + μ b := by
  induction l generalizing i with
  | nil => cases h
  | cons c l ih =>
    cases i with
    | zero =>
      cases h
      rw [List.set_cons_zero, total_cons, total_cons]
      omega
    | succ i =>
      have hl := ih h
      rw [List.set_cons_succ, total_cons, total_cons]
      omega

theorem total_mono {μ ν : α → Nat} (h : ∀ a, μ a ≤ ν a) (l : List α) : total μ l ≤ total ν l := by
  induction l with
  | nil => exact Nat.le_refl _
  | cons a l ih =>
    have ha := h a
    rw [total_cons, total_cons]
    omega

/-- What adds to one entry at most. -/
theorem total_modify_le {μ : α → Nat} {f : α → α} {k : Nat} (hf : ∀ a, μ (f a) ≤ μ a + k)
    (l : List α) (i : Nat) : total μ (l.modify i f) ≤ total μ l + k := by
  induction l generalizing i with
  | nil => simp
  | cons a l ih =>
    cases i with
    | zero =>
      have ha := hf a
      rw [List.modify_zero_cons, total_cons, total_cons]
      omega
    | succ i =>
      have hl := ih i
      rw [List.modify_succ_cons, total_cons, total_cons]
      omega

end Run
