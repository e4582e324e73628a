import Mathlib.Data.List.Induction
import Mathlib.Data.List.Nodup
import Mathlib.Data.List.Perm.Basic
import Mathlib.Order.Defs.Unbundled

/-! # Keyed tables

A dictionary as the list of its rows, one for each key. Writing a row replaces
the row of its key, or adds it at the end. Whatever is done to the order of the
rows besides, a table holds the row that was last written for each key; kept in
the order of the keys it is nothing but that. -/
namespace Table

variable {α β K : Type} [DecidableEq K]

/-- No two rows have the same key. -/
def Unique (key : α → K) (t : List α) : Prop := (t.map key).Nodup

def write (key : α → K) (a : α) : List α → List α
  | [] => [a]
  | b :: t => if key b = key a then a :: t else b :: write key a t

def get (key : α → K) (t : List α) (k : K) : Option α := t.find? fun a => key a = k

/-- The last of the rows that has the key. -/
def lastOf (key : α → K) (as : List α) (k : K) : Option α := get key as.reverse k

variable {key : α → K} {a b : α} {k : K} {t t' as : List α}

/-! ## Writing by position -/

theorem write_of_findIdx?_some {p : α → Bool} (hp : ∀ b, p b = true ↔ key b = key a) {i : Nat}
    (h : t.findIdx? p = some i) : write key a t = t.set i a := by
  induction t generalizing i with
  | nil => cases h
  | cons b t ih =>
    rw [List.findIdx?_cons] at h
    by_cases hb : key b = key a
    · rw [if_pos ((hp b).mpr hb)] at h
      cases h
      rw [write, if_pos hb]
      rfl
    · rw [if_neg (mt (hp b).mp hb)] at h
      obtain ⟨j, hj, rfl⟩ := Option.map_eq_some_iff.mp h
      rw [write, if_neg hb, ih hj]
      rfl

theorem write_of_findIdx?_none {p : α → Bool} (hp : ∀ b, p b = true ↔ key b = key a)
    (h : t.findIdx? p = none) : write key a t = t ++ [a] := by
  induction t with
  | nil => rfl
  | cons b t ih =>
    rw [List.findIdx?_cons] at h
    by_cases hb : key b = key a
    · rw [if_pos ((hp b).mpr hb)] at h
      cases h
    · rw [if_neg (mt (hp b).mp hb)] at h
      rw [write, if_neg hb, ih (Option.map_eq_none_iff.mp h)]
      rfl

/-! ## One write -/

theorem keys_write : (write key a t).map key =
    if key a ∈ t.map key then t.map key else t.map key ++ [key a] := by
  induction t with
  | nil => rfl
  | cons b t ih =>
    rw [write]
    by_cases hb : key b = key a
    · simp [hb]
    · rw [if_neg hb, List.map_cons, ih]
      have hmem : key a ∈ (b :: t).map key ↔ key a ∈ t.map key := by
        rw [List.map_cons, List.mem_cons, or_iff_right (Ne.symm hb)]
      by_cases h : key a ∈ t.map key
      · rw [if_pos h, if_pos (hmem.mpr h)]
        rfl
      · rw [if_neg h, if_neg (mt hmem.mp h)]
        rfl

theorem Unique.write (h : Unique key t) (a : α) : Unique key (write key a t) := by
  unfold Unique
  rw [keys_write]
  split
  · exact h
  · next hmem =>
    refine List.nodup_append.mpr ⟨h, List.nodup_singleton _, ?_⟩
    rintro k hk k' hk' rfl
    exact hmem (List.mem_singleton.mp hk' ▸ hk)

theorem get_cons : get key (b :: t) k = if key b = k then some b else get key t k := by
  unfold get
  by_cases hb : key b = k <;> simp [hb]

theorem get_write : get key (write key a t) k = if key a = k then some a else get key t k := by
  induction t with
  | nil => exact get_cons
  | cons b t ih =>
    rw [Table.write, get_cons]
    by_cases hb : key b = key a
    · rw [if_pos hb, get_cons]
      by_cases ha : key a = k
      · rw [if_pos ha, if_pos ha]
      · rw [if_neg ha, if_neg ha, if_neg (hb ▸ ha)]
    · rw [if_neg hb, get_cons, ih]
      by_cases ha : key a = k
      · rw [if_pos ha, if_pos ha, if_neg (ha ▸ hb)]
      · rw [if_neg ha, if_neg ha]

/-! ## Rows by key -/

theorem key_of_get (h : get key t k = some a) : key a = k :=
  of_decide_eq_true (List.find?_some (p := fun a => decide (key a = k)) h)

theorem get_eq_some_iff (hu : Unique key t) : get key t k = some a ↔ a ∈ t ∧ key a = k := by
  constructor
  · intro h
    exact ⟨List.mem_of_find?_eq_some h, key_of_get h⟩
  · rintro ⟨ha, rfl⟩
    cases h : get key t (key a) with
    | none =>
      have hnone := List.find?_eq_none.mp h a ha
      exact absurd (decide_eq_true rfl) hnone
    | some b =>
      rw [List.inj_on_of_nodup_map hu (List.mem_of_find?_eq_some h) ha (key_of_get h)]

/-- The rows of a key that has one. -/
theorem filter_key (hu : Unique key t) (ha : a ∈ t) : (t.filter fun b => key b = key a) = [a] := by
  induction t with
  | nil => cases ha
  | cons b t ih =>
    obtain ⟨hb, hu⟩ := List.nodup_cons.mp hu
    by_cases hkey : key b = key a
    · have hnone : (t.filter fun c => key c = key a) = [] := by
        refine List.filter_eq_nil_iff.mpr ?_
        intro c hc hck
        rw [hkey, ← of_decide_eq_true hck] at hb
        exact hb (List.mem_map_of_mem hc)
      rw [List.filter_cons, if_pos (decide_eq_true hkey), hnone]
      rcases List.mem_cons.mp ha with rfl | ha
      · rfl
      · exact absurd (List.mem_map_of_mem ha) (hkey ▸ hb)
    · rw [List.filter_cons, if_neg (by simpa using hkey)]
      refine ih hu ((List.mem_cons.mp ha).resolve_left ?_)
      rintro rfl
      exact hkey rfl

omit [DecidableEq K] in
theorem Unique.nil (key : α → K) : Unique key [] := List.nodup_nil

omit [DecidableEq K] in
theorem Unique.perm (h : Unique key t) (hp : t.Perm t') : Unique key t' := (hp.map key).nodup h

/-- The order of the rows does not matter. -/
theorem get_perm (hu : Unique key t) (hp : t.Perm t') : get key t k = get key t' k := by
  ext a
  rw [get_eq_some_iff hu, get_eq_some_iff (hu.perm hp), hp.mem_iff]

/-! ## The last row of a key -/

@[simp] theorem lastOf_nil : lastOf key [] k = none := rfl

theorem mem_of_lastOf (h : lastOf key as k = some a) : a ∈ as :=
  List.mem_reverse.mp (List.mem_of_find?_eq_some h)

theorem lastOf_concat :
    lastOf key (as ++ [a]) k = if key a = k then some a else lastOf key as k := by
  rw [lastOf, List.reverse_append]
  exact get_cons

theorem lastOf_singleton : lastOf key [a] k = if key a = k then some a else none := by
  rw [← List.nil_append [a], lastOf_concat, lastOf_nil]

theorem lastOf_eq_some_iff : lastOf key as k = some a ↔
    key a = k ∧ ∃ before after, as = before ++ a :: after ∧ ∀ b ∈ after, key b ≠ k := by
  constructor
  · intro h
    refine ⟨key_of_get h, ?_⟩
    obtain ⟨-, later, earlier, heq, hlater⟩ := List.find?_eq_some_iff_append.mp h
    refine ⟨earlier.reverse, later.reverse, ?_, ?_⟩
    · rw [← List.reverse_reverse as, heq]
      simp
    · intro b hb
      simpa using hlater b (List.mem_reverse.mp hb)
  · rintro ⟨hk, before, after, rfl, hafter⟩
    refine List.find?_eq_some_iff_append.mpr
      ⟨decide_eq_true hk, after.reverse, before.reverse, ?_, ?_⟩
    · simp
    · intro b hb
      simpa using hafter b (List.mem_reverse.mp hb)

theorem lastOf_append {bs : List α} :
    lastOf key (as ++ bs) k = (lastOf key bs k).or (lastOf key as k) := by
  rw [lastOf, List.reverse_append]
  exact List.find?_append

theorem lastOf_eq_none_iff : lastOf key as k = none ↔ ∀ a ∈ as, key a ≠ k := by
  rw [lastOf, get, List.find?_eq_none]
  simp

/-- Two keys have the same last row only when they have none. -/
theorem lastOf_eq_lastOf_iff {k' : K} (hne : k ≠ k') :
    lastOf key as k = lastOf key as k' ↔ ∀ a ∈ as, key a ≠ k ∧ key a ≠ k' := by
  constructor
  · intro h
    have hnone : lastOf key as k = none := by
      cases hlast : lastOf key as k with
      | none => rfl
      | some a => exact absurd ((key_of_get hlast).symm.trans (key_of_get (h ▸ hlast))) hne
    intro a ha
    exact ⟨lastOf_eq_none_iff.mp hnone a ha, lastOf_eq_none_iff.mp (h ▸ hnone) a ha⟩
  · intro h
    rw [lastOf_eq_none_iff.mpr fun a ha => (h a ha).1,
      lastOf_eq_none_iff.mpr fun a ha => (h a ha).2]

theorem lastOf_map {f : β → α} {bs : List β} :
    lastOf key (bs.map f) k = (lastOf (fun b => key (f b)) bs k).map f := by
  unfold lastOf get
  rw [← List.map_reverse, List.find?_map]
  rfl

/-- The rows of one key, whatever is made of them. -/
theorem lastOf_filter {key' : β → K} {f : α → β} (hf : ∀ a, key a = k → key' (f a) = k) :
    lastOf key' ((as.filter fun a => key a = k).map f) k = (lastOf key as k).map f := by
  induction as using List.reverseRecOn with
  | nil => rfl
  | append_singleton as a ih =>
    rw [List.filter_append, List.map_append, lastOf_append, ih, lastOf_concat]
    by_cases ha : key a = k
    · simp [ha, lastOf_singleton, hf a ha]
    · simp [ha]

/-! ## Tables that are written to -/

section
variable {f : List α → α → List α} (hf : ∀ t a, (f t a).Perm (Table.write key a t))
include hf

theorem Unique.foldl (h : Unique key t) (as : List α) : Unique key (as.foldl f t) := by
  induction as generalizing t with
  | nil => exact h
  | cons a as ih => exact ih ((h.write a).perm (hf t a).symm)

/-- **A table holds the last row written for each key**, or else what it held. -/
theorem get_foldl (h : Unique key t) :
    get key (as.foldl f t) k = (lastOf key as k).or (get key t k) := by
  induction as using List.reverseRecOn with
  | nil => rfl
  | append_singleton as a ih =>
    rw [List.foldl_concat, get_perm ((Unique.foldl hf h as).write a |>.perm (hf _ a).symm) (hf _ a),
      get_write, lastOf_concat, ih]
    split <;> rfl

end

/-! ## Ordered tables -/

/-- The rows stand in strict order of their keys. -/
def Ordered (r : K → K → Prop) (key : α → K) (t : List α) : Prop :=
  t.Pairwise fun a b => r (key a) (key b)

section
variable {r : K → K → Prop} [IsStrictOrder K r]

omit [DecidableEq K] in
theorem Ordered.unique (h : Ordered r key t) : Unique key t := by
  have hkeys : (t.map key).Pairwise r := List.pairwise_map.mpr h
  exact hkeys.nodup

/-- An ordered table is determined by what it holds for each key. -/
theorem Ordered.ext (h : Ordered r key t) (h' : Ordered r key t')
    (hget : ∀ k, get key t k = get key t' k) : t = t' := by
  have hmem : ∀ a, a ∈ t ↔ a ∈ t' := by
    intro a
    have ht := get_eq_some_iff h.unique (a := a) (k := key a)
    have ht' := get_eq_some_iff h'.unique (a := a) (k := key a)
    rw [and_iff_left rfl] at ht ht'
    rw [← ht, ← ht', hget]
  have hperm := (List.perm_ext_iff_of_nodup h.unique.of_map h'.unique.of_map).mpr hmem
  refine hperm.eq_of_pairwise ?_ h h'
  intro a b _ _ hab hba
  exact absurd hba (asymm hab)

omit [DecidableEq K] in
/-- The first row found is the least. -/
theorem Ordered.find?_eq_some_iff {p : α → Bool} (h : Ordered r key t) :
    t.find? p = some a ↔ a ∈ t ∧ p a = true ∧ ∀ b ∈ t, p b = true → ¬ r (key b) (key a) := by
  constructor
  · intro hf
    refine ⟨List.mem_of_find?_eq_some hf, List.find?_some hf, ?_⟩
    obtain ⟨-, before, after, rfl, hbefore⟩ := List.find?_eq_some_iff_append.mp hf
    intro b hb hp hba
    rcases List.mem_append.mp hb with hb | hb
    · exact absurd hp (by simpa using hbefore b hb)
    · rcases List.mem_cons.mp hb with rfl | hb
      · exact irrefl (r := r) (key b) hba
      · have hab := (List.pairwise_cons.mp (List.pairwise_append.mp h).2.1).1 b hb
        exact asymm hab hba
  · intro ⟨ha, hp, hleast⟩
    cases hf : t.find? p with
    | none => exact absurd hp (List.find?_eq_none.mp hf a ha)
    | some c =>
      obtain ⟨hpc, before, after, rfl, hbefore⟩ := List.find?_eq_some_iff_append.mp hf
      rcases List.mem_append.mp ha with ha | ha
      · exact absurd hp (by simpa using hbefore a ha)
      · rcases List.mem_cons.mp ha with rfl | ha
        · rfl
        · have hca := (List.pairwise_cons.mp (List.pairwise_append.mp h).2.1).1 a ha
          exact absurd hca (hleast c (by simp) hpc)

end

end Table
