import Multiplextashtic.Lib.Run

/-! # Runs of one system inside another

A part of a system's state is itself a system when each step of the whole is a run of
the part. A run of the whole is then one of the part: the runs of its steps, one
behind the other. -/
namespace Run

variable {S T Ev Ev' O : Type} {step : S → Ev → Option S} {step' : T → Ev' → Option T}
  {P : S → Prop} {part : S → T} {events : S → Ev → List Ev'}

/-- The events of the part in a run of the whole. -/
def expand (step : S → Ev → Option S) (events : S → Ev → List Ev') : S → List Ev → List Ev'
  | _, [] => []
  | s, e :: es => events s e ++ (step s e).elim [] fun t => expand step events t es

theorem expand_cons {s t : S} {e : Ev} {es : List Ev} (h : step s e = some t) :
    expand step events s (e :: es) = events s e ++ expand step events t es := by
  rw [expand, h, Option.elim_some]

/-- Where `P` holds, each step of the whole is the run of its events in the part. -/
structure Embeds (step : S → Ev → Option S) (step' : T → Ev' → Option T) (P : S → Prop)
    (part : S → T) (events : S → Ev → List Ev') : Prop where
  keeps : ∀ {s e t}, P s → step s e = some t → P t
  steps : ∀ {s e t}, P s → step s e = some t → run step' (part s) (events s e) = some (part t)

/-- **A run of the whole is a run of the part.** -/
theorem Embeds.run (h : Embeds step step' P part events) : ∀ {es : List Ev} {s t : S}, P s →
    Run.run step s es = some t →
      P t ∧ Run.run step' (part s) (expand step events s es) = some (part t)
  | [], s, t, hs, hr => by
    cases hr
    exact ⟨hs, rfl⟩
  | e :: es, s, t, hs, hr => by
    obtain ⟨u, hu, hr⟩ := run_cons.mp hr
    obtain ⟨ht, hrest⟩ := h.run (h.keeps hs hu) hr
    rw [expand_cons hu]
    exact ⟨ht, run_append.mpr ⟨part u, h.steps hs hu, hrest⟩⟩

theorem outputs_append {out : S → Ev → Option O} : ∀ {es fs : List Ev} {s t : S},
    run step s es = some t →
      outputs step out s (es ++ fs) = outputs step out s es ++ outputs step out t fs
  | [], fs, s, t, h => by
    cases h
    rfl
  | e :: es, fs, s, t, h => by
    obtain ⟨u, hu, hr⟩ := run_cons.mp h
    rw [List.cons_append, outputs_cons hu, outputs_cons hu, outputs_append hr, List.append_assoc]

end Run
