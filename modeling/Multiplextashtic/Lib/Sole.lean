import Mathlib.Data.List.Basic

/-! # One live entry

Entries of a list, of which at most one is live: tasks that hand over to each
other, each ending as it starts the next. -/
namespace Sole

variable {α : Type} {live : α → Prop} {l : List α} {a b : α} {i j : Nat}

/-- No entry is live. -/
def Idle (live : α → Prop) (l : List α) : Prop := ∀ (i : Nat) a, l[i]? = some a → ¬ live a

/-- The entry at `i` is live, and no other. -/
structure Only (live : α → Prop) (l : List α) (i : Nat) : Prop where
  here : ∃ a, l[i]? = some a ∧ live a
  only : ∀ (j : Nat) b, l[j]? = some b → live b → j = i

theorem Only.single (h : Only live l i) (j k : Nat) (b c : α) (hj : l[j]? = some b)
    (hk : l[k]? = some c) (hb : live b) (hc : live c) : j = k :=
  (h.only j b hj hb).trans (h.only k c hk hc).symm

theorem Idle.single (h : Idle live l) (j k : Nat) (b c : α) (hj : l[j]? = some b)
    (_ : l[k]? = some c) (hb : live b) (_ : live c) : j = k := absurd hb (h j b hj)

theorem idle_nil : Idle live [] := by
  intro i a h
  cases h

/-- A new entry among idle ones. -/
theorem Idle.append (h : Idle live l) (hb : live b) : Only live (l ++ [b]) l.length := by
  refine ⟨⟨b, List.getElem?_concat_length, hb⟩, ?_⟩
  intro j c hj hc
  rcases Nat.lt_or_ge j l.length with hlt | hge
  · rw [List.getElem?_append_left hlt] at hj
    exact absurd hc (h j c hj)
  · obtain ⟨hlen, -⟩ := List.getElem?_eq_some_iff.mp hj
    rw [List.length_append, List.length_singleton] at hlen
    omega

/-- What is done to the live entry leaves the others. -/
theorem Only.set (h : Only live l i) (ha : live a) : Only live (l.set i a) i := by
  obtain ⟨b, hb, -⟩ := h.here
  obtain ⟨hlt, -⟩ := List.getElem?_eq_some_iff.mp hb
  refine ⟨⟨a, List.getElem?_set_self hlt, ha⟩, ?_⟩
  intro j c hj hc
  by_cases hij : i = j
  · exact hij.symm
  · rw [List.getElem?_set_ne hij] at hj
    exact h.only j c hj hc

theorem Only.clear (h : Only live l i) (ha : ¬ live a) : Idle live (l.set i a) := by
  intro j c hj hc
  by_cases hij : i = j
  · subst hij
    obtain ⟨b, hb, -⟩ := h.here
    obtain ⟨hlt, -⟩ := List.getElem?_eq_some_iff.mp hb
    rw [List.getElem?_set_self hlt] at hj
    cases hj
    exact ha hc
  · rw [List.getElem?_set_ne hij] at hj
    exact hij (h.only j c hj hc).symm

/-- What leaves entries live or not. -/
theorem Only.modify {f : α → α} (h : Only live l i) (hf : ∀ a, live (f a) ↔ live a) (j : Nat) :
    Only live (l.modify j f) i := by
  have hmodify (k : Nat) : ∃ g : α → α, (∀ a, live (g a) ↔ live a) ∧
      (l.modify j f)[k]? = l[k]?.map g := by
    by_cases hk : j = k
    · subst hk
      exact ⟨f, hf, List.getElem?_modify_eq f j l⟩
    · refine ⟨id, fun _ => Iff.rfl, ?_⟩
      rw [List.getElem?_modify_ne f l hk, Option.map_id_apply]
  constructor
  · obtain ⟨a, ha, hlive⟩ := h.here
    obtain ⟨g, hg, hget⟩ := hmodify i
    exact ⟨g a, by rw [hget, ha]; rfl, (hg a).mpr hlive⟩
  · intro k b hk hb
    obtain ⟨g, hg, hget⟩ := hmodify k
    rw [hget] at hk
    obtain ⟨a, ha, rfl⟩ := Option.map_eq_some_iff.mp hk
    exact h.only k a ha ((hg a).mp hb)

/-- The live entry ends as it starts another. -/
theorem Only.handOver (h : Only live l i) (ha : ¬ live a) (hb : live b) :
    Only live ((l ++ [b]).set i a) l.length := by
  obtain ⟨c, hc, -⟩ := h.here
  obtain ⟨hlt, -⟩ := List.getElem?_eq_some_iff.mp hc
  have hidle := (h.clear ha).append hb
  rwa [List.length_set, ← List.set_append_left _ _ hlt] at hidle

end Sole
