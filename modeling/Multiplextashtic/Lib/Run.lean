import Mathlib.Data.List.Basic
import Mathlib.Data.List.Induction

/-! # Runs of a partial step function

A system is a step function that says which events can happen in a state. A run
is a list of events, each possible where it happens. -/
namespace Run

variable {S Ev O : Type}

/-- The state after the events, `none` when one of them cannot happen. -/
def run (step : S → Ev → Option S) : S → List Ev → Option S
  | s, [] => some s
  | s, e :: es => (step s e).bind fun t => run step t es

/-- `C` holds of every step of the run, in the state it is taken in. -/
def Along (step : S → Ev → Option S) (C : S → Ev → Prop) : S → List Ev → Prop
  | _, [] => True
  | s, e :: es => C s e ∧ ∀ t, step s e = some t → Along step C t es

variable {step : S → Ev → Option S}

instance Along.decidable {C : S → Ev → Prop} [∀ s e, Decidable (C s e)] :
    ∀ (s : S) (es : List Ev), Decidable (Along step C s es)
  | _, [] => isTrue trivial
  | s, e :: es =>
    match h : step s e with
    | none =>
      decidable_of_iff (C s e) ⟨fun hc => ⟨hc, fun _ ht => nomatch h.symm.trans ht⟩, And.left⟩
    | some t =>
      have := Along.decidable (C := C) t es
      decidable_of_iff (C s e ∧ Along step C t es)
        ⟨fun hc => ⟨hc.1, fun _ hu => Option.some.inj (h.symm.trans hu) ▸ hc.2⟩,
          fun hc => ⟨hc.1, hc.2 t h⟩⟩

theorem run_cons {s t : S} {e : Ev} {es : List Ev} :
    run step s (e :: es) = some t ↔ ∃ u, step s e = some u ∧ run step u es = some t :=
  Option.bind_eq_some_iff

theorem run_append {s t : S} {es fs : List Ev} :
    run step s (es ++ fs) = some t ↔ ∃ u, run step s es = some u ∧ run step u fs = some t := by
  induction es generalizing s with
  | nil => simp [run]
  | cons e es ih =>
    rw [List.cons_append, run_cons]
    constructor
    · rintro ⟨u, hu, hr⟩
      obtain ⟨v, hv, hr⟩ := ih.mp hr
      exact ⟨v, run_cons.mpr ⟨u, hu, hv⟩, hr⟩
    · rintro ⟨v, hv, hr⟩
      obtain ⟨u, hu, hv⟩ := run_cons.mp hv
      exact ⟨u, hu, ih.mpr ⟨v, hv, hr⟩⟩

/-- What every step preserves, under a condition met along the run, holds after it. -/
theorem invariant_along {P : S → Prop} {C : S → Ev → Prop}
    (hstep : ∀ s e t, P s → C s e → step s e = some t → P t) :
    ∀ {es : List Ev} {s t : S}, P s → Along step C s es → run step s es = some t → P t
  | [], s, t, hs, _, h => by cases h; exact hs
  | e :: es, s, t, hs, hc, h => by
    obtain ⟨u, hu, hr⟩ := run_cons.mp h
    exact invariant_along hstep (hstep s e u hs hc.1 hu) (hc.2 u hu) hr

theorem along_of_mem {C : S → Ev → Prop} : ∀ {es : List Ev} {s : S},
    (∀ s, ∀ e ∈ es, C s e) → Along step C s es
  | [], _, _ => trivial
  | e :: _, s, h => ⟨h s e List.mem_cons_self, fun _ _ =>
    along_of_mem fun s e he => h s e (List.mem_cons_of_mem _ he)⟩

theorem Along.and {C D : S → Ev → Prop} : ∀ {es : List Ev} {s : S}, Along step C s es →
    Along step D s es → Along step (fun s e => C s e ∧ D s e) s es
  | [], _, _, _ => trivial
  | _ :: _, _, hc, hd => ⟨⟨hc.1, hd.1⟩, fun t ht => Along.and (hc.2 t ht) (hd.2 t ht)⟩

/-- What every step preserves holds after every run. -/
theorem invariant {P : S → Prop} (hstep : ∀ s e t, P s → step s e = some t → P t) {es : List Ev}
    {s t : S} (hs : P s) (h : run step s es = some t) : P t :=
  invariant_along (C := fun _ _ => True) (fun s e t hp _ => hstep s e t hp) hs
    (along_of_mem fun _ _ _ => trivial) h

theorem along_append {C : S → Ev → Prop} {t : S} : ∀ {es fs : List Ev} {s : S},
    run step s es = some t →
      (Along step C s (es ++ fs) ↔ Along step C s es ∧ Along step C t fs)
  | [], fs, s, h => by
    cases h
    exact (and_iff_right trivial).symm
  | e :: es, fs, s, h => by
    obtain ⟨u, hu, hr⟩ := run_cons.mp h
    constructor
    · rintro ⟨hc, hrest⟩
      obtain ⟨hes, hfs⟩ := (along_append hr).mp (hrest u hu)
      refine ⟨⟨hc, ?_⟩, hfs⟩
      intro u' hu'
      cases hu.symm.trans hu'
      exact hes
    · rintro ⟨⟨hc, hes⟩, hfs⟩
      refine ⟨hc, ?_⟩
      intro u' hu'
      cases hu.symm.trans hu'
      exact (along_append hr).mpr ⟨hes u hu, hfs⟩

/-- A run meets the condition in every step, or there is a first step that breaks it. -/
theorem along_or_breaks (C : S → Ev → Prop) : ∀ {es : List Ev} {s t : S},
    run step s es = some t → Along step C s es ∨ ∃ before e after u v,
      es = before ++ e :: after ∧ Along step C s before ∧ run step s before = some u ∧ ¬ C u e ∧
        step u e = some v ∧ run step v after = some t
  | [], _, _, _ => .inl trivial
  | e :: es, s, t, h => by
    obtain ⟨u, hu, hr⟩ := run_cons.mp h
    by_cases hc : C s e
    · rcases along_or_breaks C hr with halong | ⟨before, e', after, u', v, rfl, halong, hrun, hbreak⟩
      · refine .inl ⟨hc, ?_⟩
        intro t' ht'
        cases hu.symm.trans ht'
        exact halong
      · refine .inr ⟨e :: before, e', after, u', v, rfl, ⟨hc, ?_⟩, run_cons.mpr ⟨u, hu, hrun⟩,
          hbreak⟩
        intro t' ht'
        cases hu.symm.trans ht'
        exact halong
    · exact .inr ⟨[], e, es, s, u, rfl, trivial, rfl, hc, hu, hr⟩

/-- What every step preserves of the state and of the events so far. -/
theorem invariant_history {P : List Ev → S → Prop} {s : S} (hs : P [] s)
    (hstep : ∀ es t e u, run step s es = some t → P es t → step t e = some u → P (es ++ [e]) u)
    {es : List Ev} {t : S} (h : run step s es = some t) : P es t := by
  induction es using List.reverseRecOn generalizing t with
  | nil =>
    cases h
    exact hs
  | append_singleton es e ih =>
    obtain ⟨u, hu, hr⟩ := run_append.mp h
    obtain ⟨v, hv, hr⟩ := run_cons.mp hr
    cases hr
    exact hstep es u e _ hu (ih hu) hv

/-! ## Outputs

A step may put something out; a run puts these out in order. -/

def outputs (step : S → Ev → Option S) (out : S → Ev → Option O) : S → List Ev → List O
  | _, [] => []
  | s, e :: es => (out s e).toList ++ (step s e).elim [] fun t => outputs step out t es

theorem outputs_cons {out : S → Ev → Option O} {s t : S} {e : Ev} {es : List Ev}
    (h : step s e = some t) :
    outputs step out s (e :: es) = (out s e).toList ++ outputs step out t es := by
  rw [outputs, h, Option.elim_some]

/-- An output that the events alone decide. -/
theorem outputs_eq_filterMap {f : Ev → Option O} : ∀ {es : List Ev} {s t : S},
    run step s es = some t → outputs step (fun _ e => f e) s es = es.filterMap f
  | [], _, _, _ => rfl
  | e :: es, s, t, h => by
    obtain ⟨u, hu, hr⟩ := run_cons.mp h
    rw [outputs_cons hu, outputs_eq_filterMap hr, List.filterMap_cons]
    cases f e <;> rfl

/-- What every step preserves of the state and of the outputs so far. -/
theorem invariant_outputs {P : S → List O → Prop} {C : Ev → Prop} {out : S → Ev → Option O}
    (hstep : ∀ s os e t, P s os → C e → step s e = some t → P t (os ++ (out s e).toList)) :
    ∀ {es : List Ev} {s t : S} {os : List O}, P s os → (∀ e ∈ es, C e) → run step s es = some t →
      P t (os ++ outputs step out s es)
  | [], s, t, os, hs, _, h => by
    cases h
    rwa [outputs, List.append_nil]
  | e :: es, s, t, os, hs, hc, h => by
    obtain ⟨u, hu, hr⟩ := run_cons.mp h
    have hu' := hstep s os e u hs (hc e List.mem_cons_self) hu
    rw [outputs_cons hu, ← List.append_assoc]
    exact invariant_outputs hstep hu' (fun e' he' => hc e' (List.mem_cons_of_mem _ he')) hr

/-- An output that another one decides. -/
theorem outputs_filterMap {A : Type} {out : S → Ev → Option O} {out' : S → Ev → Option A}
    {f : O → Option A} (hf : ∀ s e, out' s e = (out s e).bind f) :
    ∀ (es : List Ev) (s : S), outputs step out' s es = (outputs step out s es).filterMap f
  | [], _ => rfl
  | e :: es, s => by
    have hhead : (out' s e).toList = (out s e).toList.filterMap f := by
      rw [hf]
      cases out s e with
      | none => rfl
      | some o => cases hfo : f o <;> simp [hfo]
    rw [outputs, outputs, List.filterMap_append, hhead]
    congr 1
    cases step s e with
    | none => rfl
    | some t => exact outputs_filterMap hf es t

/-- **What goes in comes out in order, or is still held**: if every step of a run does
that meets a condition, the run does. -/
theorem conserved_along {P : S → Prop} {C : S → Ev → Prop} {held : S → List O}
    {inp out : S → Ev → Option O} (hP : ∀ s e t, P s → C s e → step s e = some t → P t)
    (hstep : ∀ s e t, P s → C s e → step s e = some t →
      (out s e).toList ++ held t = held s ++ (inp s e).toList) :
    ∀ {es : List Ev} {s t : S}, P s → Along step C s es → run step s es = some t →
      outputs step out s es ++ held t = held s ++ outputs step inp s es
  | [], s, t, _, _, h => by
    cases h
    exact (List.append_nil _).symm
  | e :: es, s, t, hs, hc, h => by
    obtain ⟨u, hu, hr⟩ := run_cons.mp h
    have ih := conserved_along hP hstep (hP s e u hs hc.1 hu) (hc.2 u hu) hr
    rw [outputs_cons hu, outputs_cons hu, List.append_assoc, ih, ← List.append_assoc,
      hstep s e u hs hc.1 hu, List.append_assoc]

theorem conserved {P : S → Prop} {held : S → List O} {inp out : S → Ev → Option O}
    (hP : ∀ s e t, P s → step s e = some t → P t)
    (hstep : ∀ s e t, P s → step s e = some t →
      (out s e).toList ++ held t = held s ++ (inp s e).toList)
    {es : List Ev} {s t : S} (hs : P s) (h : run step s es = some t) :
    outputs step out s es ++ held t = held s ++ outputs step inp s es :=
  conserved_along (C := fun _ _ => True) (fun s e t hp _ => hP s e t hp)
    (fun s e t hp _ => hstep s e t hp) hs (along_of_mem fun _ _ _ => trivial) h

/-- A part of the state that each step's input works on. -/
theorem folded {A : Type} {part : S → A} {f : A → O → A} {inp : S → Ev → Option O}
    (hstep : ∀ s e t, step s e = some t → part t = (inp s e).elim (part s) (f (part s))) :
    ∀ {es : List Ev} {s t : S}, run step s es = some t →
      part t = (outputs step inp s es).foldl f (part s)
  | [], s, t, h => by
    cases h
    rfl
  | e :: es, s, t, h => by
    obtain ⟨u, hu, hr⟩ := run_cons.mp h
    rw [outputs_cons hu, List.foldl_append, folded hstep hr, hstep s e u hu]
    cases inp s e <;> rfl

/-- A record that grows by what each step puts out. -/
theorem recorded {record : S → List O} {inp : S → Ev → Option O}
    (hstep : ∀ s e t, step s e = some t → record t = record s ++ (inp s e).toList) {es : List Ev}
    {s t : S} (h : run step s es = some t) : record t = record s ++ outputs step inp s es := by
  have hnone (s : S) (e : Ev) : (none : Option O) = (inp s e).bind fun _ => none := by
    cases inp s e <;> rfl
  have hout : outputs step (fun _ _ => none) s es = ([] : List O) := by
    rw [outputs_filterMap hnone]
    simp
  have hkept (s : S) (e : Ev) (t : S) (_ : True) (he : step s e = some t) :
      (none : Option O).toList ++ record t = record s ++ (inp s e).toList := hstep s e t he
  have hc := conserved (P := fun _ => True) (fun _ _ _ _ _ => trivial) hkept trivial h
  rwa [hout, List.nil_append] at hc

end Run
