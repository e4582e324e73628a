import Mathlib.Data.List.Basic
import Mathlib.Data.List.Induction
import Mathlib.Order.Defs.PartialOrder

/-! # Limiting repeated requests

Requests for keys come as time goes on, and a limiter lets each of them start
something or suppresses it. What it should suppress is what comes too soon after
a start of the same key, and nothing else. One limiter does just that: `keyed`,
which knows all starts. A limiter that knows only its last start does the same
as long as `keyed` suppresses no request behind one for another key. -/
namespace Throttle

variable {K T : Type}

/-- A request and what became of it. -/
structure Decision (K T : Type) where
  key : K
  time : T
  starts : Bool
  deriving DecidableEq, Repr

variable {ds before : List (Decision K T)} {d : Decision K T}

def Decision.request (d : Decision K T) : K × T := (d.key, d.time)

theorem Decision.eq_mk_iff {b : Bool} : d = ⟨d.key, d.time, b⟩ ↔ d.starts = b := by
  cases d
  simp

def started (ds : List (Decision K T)) : List (Decision K T) := ds.filter (·.starts)

theorem started_concat : started (ds ++ [d]) = started ds ++ if d.starts then [d] else [] := by
  rw [started, List.filter_append, List.filter_cons]
  rfl

/-! ## Decision by decision -/

/-- `C` holds of every decision and those before it. -/
def Each (C : List (Decision K T) → Decision K T → Prop) (ds : List (Decision K T)) : Prop :=
  ∀ before d after, ds = before ++ d :: after → C before d

section
variable {C D : List (Decision K T) → Decision K T → Prop}

theorem each_nil : Each C [] := by
  intro before d after h
  simp at h

theorem each_concat : Each C (ds ++ [d]) ↔ Each C ds ∧ C ds d := by
  constructor
  · intro h
    refine ⟨?_, h ds d [] rfl⟩
    intro before d' after heq
    exact h before d' (after ++ [d]) (by simp [heq])
  · intro ⟨h, hd⟩ before d' after heq
    rcases List.eq_nil_or_concat' after with rfl | ⟨after, last, rfl⟩
    · obtain ⟨rfl, rfl⟩ := List.append_singleton_inj.mp heq
      exact hd
    · have heq' : ds ++ [d] = (before ++ d' :: after) ++ [last] := by simp [heq]
      exact h before d' after (List.append_singleton_inj.mp heq').1

theorem Each.imp (hCD : ∀ before d, C before d → D before d) (h : Each C ds) : Each D ds :=
  fun before d after heq => hCD before d (h before d after heq)

theorem each_and : Each (fun before d => C before d ∧ D before d) ds ↔ Each C ds ∧ Each D ds := by
  constructor
  · intro h
    exact ⟨h.imp fun _ _ => And.left, h.imp fun _ _ => And.right⟩
  · intro ⟨hC, hD⟩ before d after heq
    exact ⟨hC before d after heq, hD before d after heq⟩

theorem each_iff_take : Each C ds ↔ ∀ i (h : i < ds.length), C (ds.take i) ds[i] := by
  constructor
  · intro heach i hi
    exact heach _ _ (ds.drop (i + 1)) (by simp)
  · rintro h before d after rfl
    simpa using h before.length (by simp)

instance each_decidable [∀ before d, Decidable (C before d)] : Decidable (Each C ds) :=
  decidable_of_iff' _ each_iff_take

end

/-! ## The law -/

section
variable (near : T → T → Prop)

/-- A start of the key before the time `t` is near it. -/
def TooSoon (before : List (Decision K T)) (k : K) (t : T) : Prop :=
  ∃ x ∈ started before, x.key = k ∧ near x.time t

/-- Only what comes too soon is suppressed. -/
def OnlyTooSoon (ds : List (Decision K T)) : Prop :=
  Each (fun before d => d.starts = false → TooSoon near before d.key d.time) ds

/-- No two starts of one key are near. -/
def Spaced (ds : List (Decision K T)) : Prop :=
  (started ds).Pairwise fun x y => x.key = y.key → ¬ near x.time y.time

variable {near}

theorem spaced_iff_each : Spaced near ds ↔
    Each (fun before d => d.starts = true → ¬ TooSoon near before d.key d.time) ds := by
  induction ds using List.reverseRecOn with
  | nil => exact ⟨fun _ => each_nil, fun _ => .nil⟩
  | append_singleton ds d ih =>
    rw [each_concat, ← ih, Spaced, started_concat]
    cases hd : d.starts with
    | false => simp [Spaced]
    | true =>
      simp only [if_true, List.pairwise_append, List.pairwise_singleton, true_and, Spaced,
        List.mem_singleton, forall_eq, true_imp_iff]
      refine and_congr_right fun _ => ?_
      constructor
      · intro h ⟨x, hx, hkey, hnear⟩
        exact h x hx hkey hnear
      · intro h x hx hkey hnear
        exact h ⟨x, hx, hkey, hnear⟩

/-- The law as what it says of each decision. -/
theorem law_iff_each : OnlyTooSoon near ds ∧ Spaced near ds ↔
    Each (fun before d => d.starts = true ↔ ¬ TooSoon near before d.key d.time) ds := by
  rw [spaced_iff_each, OnlyTooSoon, ← each_and]
  constructor
  · refine Each.imp ?_
    intro before d ⟨hsup, hstart⟩
    refine ⟨hstart, ?_⟩
    intro hn
    by_contra hd
    exact hn (hsup (eq_false_of_ne_true hd))
  · refine Each.imp ?_
    intro before d h
    refine ⟨?_, h.mp⟩
    intro hd
    by_contra hn
    have hs := h.mpr hn
    rw [hd] at hs
    cases hs

end

/-! ## The limiter that knows all starts -/

section
variable [DecidableEq K] (near : T → T → Prop) [DecidableRel near]

instance tooSoon_decidable (before : List (Decision K T)) (k : K) (t : T) :
    Decidable (TooSoon near before k t) :=
  inferInstanceAs (Decidable (∃ x ∈ started before, x.key = k ∧ near x.time t))

instance spaced_decidable (ds : List (Decision K T)) : Decidable (Spaced near ds) :=
  inferInstanceAs
    (Decidable ((started ds).Pairwise fun x y => x.key = y.key → ¬ near x.time y.time))

/-- What the law makes of the requests. -/
def keyed (rs : List (K × T)) : List (Decision K T) :=
  rs.foldl (fun ds r => ds ++ [⟨r.1, r.2, !decide (TooSoon near ds r.1 r.2)⟩]) []

/-- The law suppresses no request behind one for another key. -/
def Steady (rs : List (K × T)) : Prop :=
  Each (fun before d => ∀ p, before.getLast? = some p → p.key ≠ d.key → d.starts = true)
    (keyed near rs)

instance steady_decidable (rs : List (K × T)) : Decidable (Steady near rs) :=
  have (before : List (Decision K T)) (d : Decision K T) :
      Decidable (∀ p, before.getLast? = some p → p.key ≠ d.key → d.starts = true) :=
    inferInstanceAs (Decidable (∀ p ∈ before.getLast?, p.key ≠ d.key → d.starts = true))
  inferInstanceAs (Decidable (Each _ (keyed near rs)))

variable {near}

theorem keyed_concat : keyed near ((ds ++ [d]).map Decision.request) =
    keyed near (ds.map Decision.request) ++ [⟨d.key, d.time,
      !decide (TooSoon near (keyed near (ds.map Decision.request)) d.key d.time)⟩] := by
  rw [List.map_append]
  exact List.foldl_concat ..

theorem steady_concat : Steady near ((ds ++ [d]).map Decision.request) ↔
    Steady near (ds.map Decision.request) ∧
      ∀ p, (keyed near (ds.map Decision.request)).getLast? = some p → p.key ≠ d.key →
        ¬ TooSoon near (keyed near (ds.map Decision.request)) d.key d.time := by
  unfold Steady
  rw [keyed_concat, each_concat]
  simp only [Bool.not_eq_true', decide_eq_false_iff_not]

/-- **The law has one limiter.** -/
theorem law_iff_keyed : OnlyTooSoon near ds ∧ Spaced near ds ↔
    ds = keyed near (ds.map Decision.request) := by
  rw [law_iff_each]
  induction ds using List.reverseRecOn with
  | nil => exact ⟨fun _ => rfl, fun _ => each_nil⟩
  | append_singleton ds d ih =>
    rw [each_concat, ih, keyed_concat, List.append_singleton_inj]
    refine and_congr_right fun hds => ?_
    rw [← hds, Decision.eq_mk_iff]
    by_cases hn : TooSoon near ds d.key d.time <;> simp [hn]

end

/-! ## The limiter that knows its last start -/

section
variable (near : T → T → Prop)

/-- A request is suppressed when the last start is near it and of its key. -/
def OneSlot (ds : List (Decision K T)) : Prop :=
  Each (fun before d => d.starts = false ↔
    ∃ l, (started before).getLast? = some l ∧ l.key = d.key ∧ near l.time d.time) ds

variable {near}

theorem OneSlot.onlyTooSoon (h : OneSlot near ds) : OnlyTooSoon near ds := by
  refine Each.imp ?_ h
  intro before d hd hs
  obtain ⟨l, hl, hkey, hnear⟩ := hd.mp hs
  exact ⟨l, List.mem_of_getLast? hl, hkey, hnear⟩

/-- The last start is of the key that was requested last. -/
theorem OneSlot.last_key (h : OneSlot near (ds ++ [d])) :
    ∃ l, (started (ds ++ [d])).getLast? = some l ∧ l.key = d.key := by
  obtain ⟨-, hd⟩ := each_concat.mp h
  rw [started_concat]
  cases hs : d.starts with
  | true => exact ⟨d, by simp, rfl⟩
  | false =>
    obtain ⟨l, hl, hkey, -⟩ := hd.mp hs
    exact ⟨l, by simpa using hl, hkey⟩

/-- Behind a request for another key the one slot lets everything start. -/
theorem OneSlot.starts_of_ne {p : Decision K T} (h : OneSlot near (ds ++ [d]))
    (hp : ds.getLast? = some p) (hne : p.key ≠ d.key) : d.starts = true := by
  obtain ⟨hds, hd⟩ := each_concat.mp h
  obtain ⟨before, rfl⟩ := List.getLast?_eq_some_iff.mp hp
  obtain ⟨l, hl, hkey⟩ := OneSlot.last_key hds
  by_contra hs
  obtain ⟨l', hl', hkey', -⟩ := hd.mp (eq_false_of_ne_true hs)
  rw [hl] at hl'
  cases hl'
  exact hne (hkey.symm.trans hkey')

variable [Preorder T] (hnear : ∀ s s' t, s ≤ s' → near s t → near s' t)

/-- No start is later than the last one. -/
theorem le_last_start {x l : Decision K T} (ht : (ds.map Decision.time).Pairwise (· ≤ ·))
    (hl : (started ds).getLast? = some l) (hx : x ∈ started ds) : x.time ≤ l.time := by
  have hstarts : (started ds).Pairwise fun x y => x.time ≤ y.time :=
    (List.pairwise_map.mp ht).filter _
  obtain ⟨before, heq⟩ := List.getLast?_eq_some_iff.mp hl
  rw [heq] at hstarts hx
  rcases List.mem_append.mp hx with hx | hx
  · exact (List.pairwise_append.mp hstarts).2.2 x hx l (by simp)
  · rw [List.mem_singleton.mp hx]

include hnear in
/-- Behind a request for its own key, and wherever nothing came too soon, the one
slot decides as the law does. -/
theorem OneSlot.decides (h : OneSlot near (ds ++ [d]))
    (ht : (ds.map Decision.time).Pairwise (· ≤ ·))
    (hchange : ∀ p, ds.getLast? = some p → p.key ≠ d.key → ¬ TooSoon near ds d.key d.time) :
    d.starts = true ↔ ¬ TooSoon near ds d.key d.time := by
  obtain ⟨hds, hd⟩ := each_concat.mp h
  constructor
  · intro hs ⟨x, hx, hkey, hxd⟩
    rcases List.eq_nil_or_concat' ds with rfl | ⟨ds, p, rfl⟩
    · cases hx
    · by_cases hp : p.key = d.key
      · obtain ⟨l, hl, hlp⟩ := OneSlot.last_key hds
        have hsup := hd.mpr ⟨l, hl, hlp.trans hp, hnear _ _ _ (le_last_start ht hl hx) hxd⟩
        rw [hs] at hsup
        cases hsup
      · exact hchange p (by simp) hp ⟨x, hx, hkey, hxd⟩
  · intro hn
    by_contra hs
    exact hn ((each_concat.mp h.onlyTooSoon).2 (eq_false_of_ne_true hs))

variable [DecidableEq K] [DecidableRel near]

include hnear in
/-- **The one slot keeps the law exactly on steady requests.** -/
theorem OneSlot.spaced_iff (h : OneSlot near ds)
    (ht : (ds.map Decision.time).Pairwise (· ≤ ·)) :
    Spaced near ds ↔ Steady near (ds.map Decision.request) := by
  have hlaw : Spaced near ds ↔ ds = keyed near (ds.map Decision.request) := by
    rw [← law_iff_keyed, and_iff_right h.onlyTooSoon]
  rw [hlaw]
  clear hlaw
  induction ds using List.reverseRecOn with
  | nil => exact ⟨fun _ => each_nil, fun _ => rfl⟩
  | append_singleton ds d ih =>
    have hds := (each_concat.mp h).1
    have htimes : (ds.map Decision.time).Pairwise (· ≤ ·) := by
      rw [List.map_append] at ht
      exact (List.pairwise_append.mp ht).1
    have hprefix : ds = keyed near (ds.map Decision.request) ↔
        Steady near (ds.map Decision.request) := ih hds htimes
    rw [keyed_concat, List.append_singleton_inj, steady_concat, ← hprefix]
    refine and_congr_right fun heq => ?_
    rw [← heq, Decision.eq_mk_iff]
    constructor
    · intro hd p hp hne
      rw [h.starts_of_ne hp hne] at hd
      simpa using hd
    · intro hchange
      have hd := OneSlot.decides hnear h htimes hchange
      by_cases hn : TooSoon near ds d.key d.time <;> simpa [hn] using hd

end

end Throttle
