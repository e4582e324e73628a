import Mathlib.Data.List.Basic
import Mathlib.Data.List.Nodup
import Mathlib.Data.List.Perm.Subperm
import Mathlib.Order.Defs.Unbundled

/-! # A cursor in a sorted list

A loop goes through a sorted list by position while elements are inserted into
it. What stands before the cursor stays there just as long as every element
inserted is behind it. -/
namespace Cursor

variable {K : Type} {r : K → K → Prop} [IsStrictOrder K r] {x y : K} {k k' l : List K} {n : Nat}

/-- With an element everything greater is behind the cursor. -/
theorem mem_drop_of_lt (h : k.Pairwise r) (hx : x ∈ k.drop n) (hxy : r x y) (hy : y ∈ k) :
    y ∈ k.drop n := by
  rw [← List.take_append_drop n k] at h hy
  refine (List.mem_append.mp hy).resolve_left ?_
  intro hy
  exact asymm hxy ((List.pairwise_append.mp h).2.2 y hy x hx)

/-- More than `n` elements are not all before position `n`. -/
theorem exists_mem_drop [DecidableEq K] (hl : l.Nodup) (hsub : l ⊆ k) (hn : n < l.length) :
    ∃ y ∈ l, y ∈ k.drop n := by
  by_contra hnone
  have htake : l ⊆ k.take n := by
    intro y hy
    have hk := hsub hy
    rw [← List.take_append_drop n k] at hk
    exact (List.mem_append.mp hk).resolve_right fun hdrop => hnone ⟨y, hy, hdrop⟩
  have hle := (List.subperm_of_subset hl htake).length_le
  rw [List.length_take] at hle
  omega

/-! ## Insertion

`k'` is the list with `x` inserted. -/

theorem mem_insert (hp : k'.Perm (k ++ [x])) : y ∈ k' ↔ y ∈ k ∨ y = x := by
  rw [hp.mem_iff, List.mem_append, List.mem_singleton]

section
variable (hk : k.Pairwise r) (hk' : k'.Pairwise r) (hp : k'.Perm (k ++ [x]))
include hk hk' hp

/-- **An insertion behind the cursor** leaves what is before it. -/
theorem take_insert (hn : n ≤ k.length) (hbefore : ∀ y ∈ k.take n, r y x) :
    k'.take n = k.take n := by
  induction n generalizing k k' with
  | zero => rfl
  | succ n ih =>
    cases k with
    | nil => exact absurd hn (Nat.not_succ_le_zero n)
    | cons a k =>
      cases k' with
      | nil => exact absurd hp.length_eq (by simp)
      | cons b k' =>
        have hax : r a x := hbefore a List.mem_cons_self
        have hab : b = a := by
          by_contra hne
          have ha : a ∈ k' := by
            have hmem := (mem_insert hp).mpr (.inl (List.mem_cons_self (a := a)))
            exact (List.mem_cons.mp hmem).resolve_left (Ne.symm hne)
          have hba : r b a := List.rel_of_pairwise_cons hk' ha
          rcases (mem_insert hp).mp List.mem_cons_self with hb | rfl
          · have hb := (List.mem_cons.mp hb).resolve_left hne
            exact asymm hba (List.rel_of_pairwise_cons hk hb)
          · exact asymm hba hax
        subst hab
        rw [List.take_succ_cons, List.take_succ_cons]
        refine congrArg (b :: ·) (ih hk.tail hk'.tail hp.cons_inv (Nat.le_of_succ_le_succ hn) ?_)
        intro y hy
        exact hbefore y (List.mem_cons_of_mem _ hy)

variable [DecidableEq K]

/-- **An insertion before the cursor** shifts an element over it. -/
theorem exists_shifted (hn : n ≤ k.length) (hy : y ∈ k.take n) (hxy : r x y) :
    ∃ z ∈ k.take n, z ∈ k'.drop n := by
  have hmem := fun z => mem_insert (y := z) hp
  have hnodup : (k ++ [x]).Nodup := hp.nodup_iff.mp hk'.nodup
  have hx : x ∉ k := by
    intro hx
    exact (List.nodup_append.mp hnodup).2.2 x hx x (List.mem_singleton_self x) rfl
  have hl : (x :: k.take n).Nodup := List.nodup_cons.mpr
    ⟨fun h => hx (List.mem_of_mem_take h), hk.nodup.sublist (List.take_sublist _ _)⟩
  have hsub : x :: k.take n ⊆ k' := by
    intro z hz
    rcases List.mem_cons.mp hz with rfl | hz
    · exact (hmem z).mpr (.inr rfl)
    · exact (hmem z).mpr (.inl (List.mem_of_mem_take hz))
  obtain ⟨z, hz, hdrop⟩ := exists_mem_drop (n := n) hl hsub (by simp [hn])
  rcases List.mem_cons.mp hz with rfl | hz
  · exact ⟨y, hy, mem_drop_of_lt hk' hdrop hxy (hsub (List.mem_cons_of_mem _ hy))⟩
  · exact ⟨z, hz, hdrop⟩

/-- What is behind the cursor stays behind it. -/
theorem mem_drop_insert (hy : y ∈ k.drop n) : y ∈ k'.drop n := by
  have hmem := fun z => mem_insert (y := z) hp
  have hlt : ∀ z ∈ k.take n, r z y := by
    have hsplit := hk
    rw [← List.take_append_drop n k] at hsplit
    exact fun z hz => (List.pairwise_append.mp hsplit).2.2 z hz y hy
  have hl : (y :: k.take n).Nodup := List.nodup_cons.mpr
    ⟨fun h => irrefl (r := r) y (hlt y h),
      hk.nodup.sublist (List.take_sublist _ _)⟩
  have hsub : y :: k.take n ⊆ k' := by
    intro z hz
    rcases List.mem_cons.mp hz with rfl | hz
    · exact (hmem z).mpr (.inl (List.mem_of_mem_drop hy))
    · exact (hmem z).mpr (.inl (List.mem_of_mem_take hz))
  have hn : n ≤ k.length := by
    have hpos := List.length_pos_of_mem hy
    rw [List.length_drop] at hpos
    omega
  obtain ⟨z, hz, hdrop⟩ := exists_mem_drop (n := n) hl hsub (by simp [hn])
  rcases List.mem_cons.mp hz with rfl | hz
  · exact hdrop
  · exact mem_drop_of_lt hk' hdrop (hlt z hz) (hsub List.mem_cons_self)

end

end Cursor
