import Mathlib.Data.List.Basic
import Mathlib.Data.List.Induction
import Mathlib.Data.Nat.Init
import Mathlib.Logic.Function.Basic

/-! # Interleavings

One sequence made of the sequences of several parties, each taken in its own
order. -/

variable {ι α : Type}

/-- The list is a merge of the parties' lists that keeps the order of each. -/
inductive Interleaving [DecidableEq ι] : (ι → List α) → List α → Prop
  | nil : Interleaving (fun _ => []) []
  | cons {parts : ι → List α} {merged : List α} (i : ι) (a : α) : Interleaving parts merged →
      Interleaving (Function.update parts i (a :: parts i)) (a :: merged)

namespace Interleaving
variable [DecidableEq ι]

/-- What the party `i` has among tagged items. -/
def part (items : List (ι × α)) (i : ι) : List α :=
  (items.filter fun e => e.1 = i).map Prod.snd

@[simp] theorem part_nil (i : ι) : part ([] : List (ι × α)) i = [] := rfl

theorem part_cons (i j : ι) (a : α) (items : List (ι × α)) :
    part ((i, a) :: items) j = if i = j then a :: part items j else part items j := by
  unfold part
  by_cases h : i = j <;> simp [h]

@[simp] theorem part_append (items more : List (ι × α)) (i : ι) :
    part (items ++ more) i = part items i ++ part more i := by
  simp [part]

/-- Tagged items interleave what each tag has. -/
theorem of_tagged : ∀ items : List (ι × α), Interleaving (part items) (items.map Prod.snd)
  | [] => .nil
  | (i, a) :: items => by
    have hparts : part ((i, a) :: items) = Function.update (part items) i (a :: part items i) := by
      funext j
      rw [part_cons]
      by_cases h : i = j
      · subst h
        rw [if_pos rfl, Function.update_self]
      · rw [if_neg h, Function.update_of_ne (Ne.symm h)]
    rw [hparts]
    exact .cons i a (of_tagged items)

theorem part_eq_nil {items : List (ι × α)} {i : ι} (h : ∀ x ∈ items, x.1 ≠ i) :
    part items i = [] := by
  rw [part, List.map_eq_nil_iff, List.filter_eq_nil_iff]
  intro x hx he
  exact h x hx (of_decide_eq_true he)

theorem mem_part {items : List (ι × α)} {i : ι} {a : α} : a ∈ part items i ↔ (i, a) ∈ items := by
  simp [part]

/-- Tags past the last one have nothing. -/
theorem flatMap_part_range {β : Type} {f : List α → List β} (hf : f [] = [])
    {items : List (Nat × α)} {m n : Nat} (hmn : m ≤ n) (hm : ∀ x ∈ items, x.1 < m) :
    (List.range n).flatMap (fun i => f (part items i)) =
      (List.range m).flatMap fun i => f (part items i) := by
  induction n, hmn using Nat.le_induction with
  | base => rfl
  | succ n hmn ih =>
    have hnone : part items n = [] :=
      part_eq_nil fun x hx => Nat.ne_of_lt (Nat.lt_of_lt_of_le (hm x hx) hmn)
    rw [List.range_succ, List.flatMap_append, ih, List.flatMap_singleton, hnone, hf,
      List.append_nil]

/-- What is added under the last tag is added at the end. -/
theorem flatMap_part_concat {β : Type} {f : List α → List β} (hf : f [] = [])
    {items : List (Nat × α)} {i n : Nat} {a : α} {more : List β} (hle : ∀ x ∈ items, x.1 ≤ i)
    (hi : i < n) (hmore : f (part items i ++ [a]) = f (part items i) ++ more) :
    (List.range n).flatMap (fun j => f (part (items ++ [(i, a)]) j)) =
      (List.range n).flatMap (fun j => f (part items j)) ++ more := by
  have hlt : ∀ x ∈ items, x.1 < i + 1 := fun x hx => Nat.lt_succ_of_le (hle x hx)
  have hlt' : ∀ x ∈ items ++ [(i, a)], x.1 < i + 1 := by
    intro x hx
    rcases List.mem_append.mp hx with hx | hx
    · exact hlt x hx
    · rw [List.mem_singleton.mp hx]
      exact Nat.lt_succ_self i
  have hbelow : (List.range i).flatMap (fun j => f (part (items ++ [(i, a)]) j)) =
      (List.range i).flatMap fun j => f (part items j) := by
    refine List.flatMap_congr ?_
    intro j hj
    have hne : i ≠ j := (Nat.ne_of_lt (List.mem_range.mp hj)).symm
    simp [part_cons, hne]
  have hhere : part (items ++ [(i, a)]) i = part items i ++ [a] := by simp [part_cons]
  rw [flatMap_part_range hf hi hlt, flatMap_part_range hf hi hlt', List.range_succ,
    List.flatMap_append, List.flatMap_append, List.flatMap_singleton, List.flatMap_singleton,
    hbelow, hhere, hmore, List.append_assoc]

/-- Where the tags come in order, the items are what the tags have, one after the other. -/
theorem flatMap_part {items : List (Nat × α)} (ho : (items.map Prod.fst).Pairwise (· ≤ ·)) :
    ∀ {n : Nat}, (∀ x ∈ items, x.1 < n) →
      (List.range n).flatMap (part items) = items.map Prod.snd := by
  induction items using List.reverseRecOn with
  | nil => simp
  | append_singleton items x ih =>
    intro n hn
    obtain ⟨k, a⟩ := x
    rw [List.map_append, List.pairwise_append] at ho
    obtain ⟨ho, -, hlast⟩ := ho
    have hle : ∀ x ∈ items, x.1 ≤ k := fun x hx =>
      hlast x.1 (List.mem_map_of_mem hx) k (by simp)
    have hk : k < n := hn (k, a) (by simp)
    have hconcat : (List.range n).flatMap (fun j => part (items ++ [(k, a)]) j) =
        (List.range n).flatMap (fun j => part items j) ++ [a] :=
      flatMap_part_concat (f := id) rfl hle hk rfl
    have hbefore := ih ho fun x hx => Nat.lt_of_le_of_lt (hle x hx) hk
    rw [hconcat, hbefore, List.map_append]
    rfl

end Interleaving
