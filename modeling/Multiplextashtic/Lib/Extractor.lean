import Mathlib.Data.List.Basic

/-! # Pulling items out of a growing buffer

An extractor looks at a buffer and either takes an item off it or says that it
has none, in both cases with the part of the buffer it keeps. A reader appends
what arrives and extracts until there is none. Nothing is assumed about what a
failing extractor keeps, so the rules below name the loss: `Keeps` says that a
stop threw away nothing a reference decoder would have used, and `Laid` says
where the items taken stand in the input, whatever was thrown away. -/

/-- The extraction function, with the fact that taking an item shrinks the buffer. -/
structure Extractor (α β : Type) where
  step : List α → Option β × List α
  shrinks : ∀ {b p r}, step b = (some p, r) → r.length < b.length

namespace Extractor

variable {α β : Type}

/-- At most `n` extractions. -/
def drainN (E : Extractor α β) : Nat → List α → List β × List α
  | 0, b => ([], b)
  | n + 1, b => match E.step b with
    | (none, r) => ([], r)
    | (some p, r) => (p :: (drainN E n r).1, (drainN E n r).2)

/-- Extract until there is none. -/
def drain (E : Extractor α β) (b : List α) : List β × List α := drainN E (b.length + 1) b

theorem drainN_fuel (E : Extractor α β) : ∀ (n m : Nat) (b : List α),
    b.length < n → b.length < m → drainN E n b = drainN E m b
  | 0, _, _, h, _ => absurd h (Nat.not_lt_zero _)
  | _, 0, _, _, h => absurd h (Nat.not_lt_zero _)
  | n + 1, m + 1, b, hn, hm => by
    simp only [drainN]
    match h : E.step b with
    | (none, r) => rfl
    | (some p, r) =>
      have hr := E.shrinks h
      have he := drainN_fuel E n m r (by omega) (by omega)
      simp only [he]

theorem drain_none {E : Extractor α β} {b r : List α} (h : E.step b = (none, r)) :
    drain E b = ([], r) := by
  simp [drain, drainN, h]

theorem drain_some {E : Extractor α β} {b r : List α} {p : β} (h : E.step b = (some p, r)) :
    drain E b = (p :: (drain E r).1, (drain E r).2) := by
  have hr := E.shrinks h
  have he := drainN_fuel E b.length (r.length + 1) r hr (by omega)
  simp only [drain, drainN, h, he]

/-- Induction along the extractions of one drain. -/
theorem drain_induction {E : Extractor α β} {P : List α → Prop}
    (stop : ∀ b r, E.step b = (none, r) → P b)
    (take : ∀ b p r, E.step b = (some p, r) → P r → P b) (b : List α) : P b := by
  induction hn : b.length using Nat.strongRecOn generalizing b with
  | ind n ih =>
    match h : E.step b with
    | (none, r) => exact stop b r h
    | (some p, r) => exact take b p r h (ih r.length (hn ▸ E.shrinks h) r rfl)

/-! ## Feeding chunks -/

/-- Append each chunk in turn and drain; the items of all drains, and the last buffer. -/
def feed (E : Extractor α β) : List α → List (List α) → List β × List α
  | b, [] => ([], b)
  | b, c :: cs =>
    ((drain E (b ++ c)).1 ++ (feed E (drain E (b ++ c)).2 cs).1, (feed E (drain E (b ++ c)).2 cs).2)

/-- The buffers on which the drains of a feed start. -/
def starts (E : Extractor α β) : List α → List (List α) → List (List α)
  | _, [] => []
  | b, c :: cs => (b ++ c) :: starts E (drain E (b ++ c)).2 cs

theorem feed_append (E : Extractor α β) (cs ds : List (List α)) : ∀ b : List α,
    feed E b (cs ++ ds) =
      ((feed E b cs).1 ++ (feed E (feed E b cs).2 ds).1, (feed E (feed E b cs).2 ds).2) := by
  induction cs with
  | nil => intro b; simp [feed]
  | cons c cs ih => intro b; simp [feed, ih]

/-! ## A reference decoder -/

/-- Draining `d` loses nothing of what `ref` reads from `d` and the bytes `u` still to come. -/
def Keeps (E : Extractor α β) (ref : List α → List β) (d u : List α) : Prop :=
  ref (d ++ u) = (drain E d).1 ++ ref ((drain E d).2 ++ u)

/-- Every drain of the feed keeps what `ref` reads from the rest of the input. -/
def KeepsAll (E : Extractor α β) (ref : List α → List β) : List α → List (List α) → Prop
  | _, [] => True
  | b, c :: cs => Keeps E ref (b ++ c) cs.flatten ∧ KeepsAll E ref (drain E (b ++ c)).2 cs

/-- A feed that loses nothing extracts what the reference reads from the whole
input, up to what the reference still finds in the last buffer. -/
theorem feed_eq_ref {E : Extractor α β} {ref : List α → List β} :
    ∀ (cs : List (List α)) (b : List α), KeepsAll E ref b cs →
      ref (b ++ cs.flatten) = (feed E b cs).1 ++ ref (feed E b cs).2
  | [], b, _ => by simp [feed]
  | c :: cs, b, ⟨hk, hs⟩ => by
    have hrest := feed_eq_ref cs _ hs
    rw [List.flatten_cons, ← List.append_assoc, hk, hrest]
    simp [feed]

/-! ## Where the items lie -/

/-- `d` ends in `b`, and in front of it hold the items `ps` in order, each
encoded as it stands, with discarded parts around them. -/
inductive Laid (enc : β → List α) : List α → List β → List α → Prop
  | kept (g b : List α) : Laid enc (g ++ b) [] b
  | item {d b : List α} {p : β} {ps : List β} (g : List α) : Laid enc d ps b →
      Laid enc (g ++ (enc p ++ d)) (p :: ps) b

/-- Every call works on what is there: a stop keeps the end of the buffer, and an item
is taken from where its encoding stands in front of the rest. -/
structure Sound (E : Extractor α β) (enc : β → List α) : Prop where
  stops : ∀ {b r}, E.step b = (none, r) → r <:+ b
  takes : ∀ {b p r}, E.step b = (some p, r) → enc p ++ r <:+ b

namespace Laid
variable {enc : β → List α} {d b r x : List α} {p : β} {ps qs : List β}

theorem start (enc : β → List α) (d : List α) : Laid enc d [] d := .kept [] d

theorem prepend (g : List α) (h : Laid enc d ps b) : Laid enc (g ++ d) ps b := by
  cases h with
  | kept g' b => exact List.append_assoc g g' b ▸ .kept (g ++ g') b
  | @item d b p ps g' h => exact List.append_assoc g g' (enc p ++ d) ▸ .item (g ++ g') h

/-- What is read from the kept part continues what was read before. -/
theorem trans (h : Laid enc d ps b) (h' : Laid enc b qs r) : Laid enc d (ps ++ qs) r := by
  induction h with
  | kept g b => exact h'.prepend g
  | item g _ ih => exact .item g (ih h')

/-- Later input lengthens the kept part. -/
theorem append (h : Laid enc d ps b) (x : List α) : Laid enc (d ++ x) ps (b ++ x) := by
  induction h with
  | kept g b => exact List.append_assoc g b x ▸ .kept g (b ++ x)
  | item g _ ih =>
    simp only [List.append_assoc]
    exact .item g ih

theorem stop {E : Extractor α β} (hE : E.Sound enc) (h : Laid enc d ps b)
    (hs : E.step b = (none, r)) : Laid enc d ps r := by
  obtain ⟨g, rfl⟩ := hE.stops hs
  simpa using h.trans (.kept g r)

theorem take {E : Extractor α β} (hE : E.Sound enc) (h : Laid enc d ps b)
    (hs : E.step b = (some p, r)) : Laid enc d (ps ++ [p]) r := by
  obtain ⟨g, rfl⟩ := hE.takes hs
  exact h.trans (.item g (start enc r))

/-- The discarded parts, named. -/
theorem parts (h : Laid enc d ps b) : ∃ g gs, gs.length = ps.length ∧
    d = g ++ (List.zipWith (fun p g => enc p ++ g) ps gs).flatten ++ b := by
  induction h with
  | kept g b => exact ⟨g, [], rfl, by simp⟩
  | @item d b p ps g _ ih =>
    obtain ⟨g', gs, hlen, rfl⟩ := ih
    exact ⟨g, g' :: gs, by simp [hlen], by simp⟩

end Laid

end Extractor
