import Multiplextashtic.Lib.Table

/-! # Replicas of a table

A reader keeps for each key the row it was told last. It is told of every change of
the table as it is made, and besides of rows as they stand when somebody looks them
up. A row that was looked up may reach the reader ahead of changes that were made
before: those are still to come, and set it right. -/
namespace Replica
open Table

variable {α K : Type} [DecidableEq K] {key : α → K} {current current' : K → Option α}
  {told more before after : List α} {a : α} {k : K}

/-- What was told last of the key is the row the table has for it. -/
def Agrees (key : α → K) (current : K → Option α) (told : List α) (k : K) : Prop :=
  ∀ a, lastOf key told k = some a → current k = some a

/-- Something was told of the key. -/
def Told (key : α → K) (told : List α) (k : K) : Prop := ∃ a ∈ told, key a = k

/-! ## What was told of a key -/

omit [DecidableEq K] in
theorem Told.mono {told' : List α} (h : Told key told k) (hsub : told ⊆ told') :
    Told key told' k := by
  obtain ⟨a, ha, hk⟩ := h
  exact ⟨a, hsub ha, hk⟩

omit [DecidableEq K] in
theorem Told.concat (h : key a = k) : Told key (told ++ [a]) k :=
  ⟨a, List.mem_append_right _ (List.mem_singleton_self a), h⟩

/-- A key that something was told of has a last row. -/
theorem Told.last (h : Told key told k) : ∃ a, lastOf key told k = some a := by
  obtain ⟨a, ha, hk⟩ := h
  cases hlast : lastOf key told k with
  | none => exact absurd hk (lastOf_eq_none_iff.mp hlast a ha)
  | some b => exact ⟨b, rfl⟩

/-! ## Agreement -/

theorem agrees_nil (k : K) : Agrees key current [] k := fun _ h => nomatch h

/-- **Changes that the reader is told of last.** -/
theorem Agrees.change (h : Agrees key current told k)
    (hk : current' k = (lastOf key more k).or (current k)) :
    Agrees key current' (told ++ more) k := by
  intro b hb
  rw [lastOf_append] at hb
  rw [hk]
  cases hlast : lastOf key more k with
  | some c => rwa [hlast] at hb
  | none =>
    rw [hlast, Option.none_or] at hb
    exact h b hb

/-- **Rows as they stand**, told at any place: what comes behind them is no older. -/
theorem Agrees.lookup (h : Agrees key current (before ++ after) k)
    (hmore : ∀ a ∈ more, current (key a) = some a) :
    Agrees key current (before ++ more ++ after) k := by
  intro b hb
  rw [lastOf_append, lastOf_append] at hb
  rw [Agrees, lastOf_append] at h
  cases hafter : lastOf key after k with
  | some c =>
    rw [hafter, Option.some_or] at h hb
    exact h b hb
  | none =>
    rw [hafter, Option.none_or] at h hb
    cases hlast : lastOf key more k with
    | some c =>
      rw [hlast, Option.some_or] at hb
      rw [← hb, ← hmore c (mem_of_lastOf hlast), key_of_get hlast]
    | none =>
      rw [hlast, Option.none_or] at hb
      exact h b hb

/-- **The reader has the row of the table**, if something was told of each key that has one. -/
theorem Agrees.eq (h : Agrees key current told k)
    (hcovers : ∀ a, current k = some a → Told key told k) : lastOf key told k = current k := by
  cases hlast : lastOf key told k with
  | some a => exact (h a hlast).symm
  | none =>
    cases hcurrent : current k with
    | none => rfl
    | some a =>
      obtain ⟨b, hb⟩ := (hcovers a hcurrent).last
      rw [hlast] at hb
      cases hb

end Replica
