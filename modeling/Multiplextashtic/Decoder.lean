import Mathlib.Data.List.Induction
import Mathlib.Data.List.TakeWhile
import Multiplextashtic.Lib.Run
import Multiplextashtic.ReadLoop

/-! # The read loops, call by call

A read loop between two of its calls. It waits for `read`, or it is in the inner
loop and calls `find_frame` next. A reader can be stopped anywhere, also in the
middle of an inner loop: when `_handle_to_radio` raises, the payloads behind the
one it was given are never taken. -/
namespace Multiplextashtic.ReadLoop
open Multiplextashtic.Protocol Extractor Run

/-- The loop's buffer and place, with the record of what it read and delivered. -/
structure Reader where
  buffer : Bytes := []
  parsing : Bool := false
  reads : List Bytes := []
  delivered : List Bytes := []
  deriving DecidableEq, Repr

/-- The calls of the loop; `read` returned `chunk`. -/
inductive ReadEvent where
  | read (chunk : Bytes)
  | findFrame
  deriving DecidableEq, Repr

/-- An empty chunk ends the loop, and nothing is read from inside the inner one. -/
def readStep (r : Reader) : ReadEvent → Option Reader
  | .read chunk =>
    if r.parsing ∨ chunk = [] then none
    else some { r with buffer := r.buffer ++ chunk, parsing := true, reads := r.reads ++ [chunk] }
  | .findFrame =>
    if r.parsing then
      match findFrame r.buffer with
      | (none, buffer) => some { r with buffer, parsing := false }
      | (some payload, buffer) => some { r with buffer, delivered := r.delivered ++ [payload] }
    else none

/-! ## What a step can do -/

theorem readStep_read {r s : Reader} {chunk : Bytes} (h : readStep r (.read chunk) = some s) :
    r.parsing = false ∧ chunk ≠ [] ∧
      s = ⟨r.buffer ++ chunk, true, r.reads ++ [chunk], r.delivered⟩ := by
  simp only [readStep] at h
  split at h
  · cases h
  · next hc =>
    cases h
    simpa using hc

theorem readStep_findFrame {r s : Reader} (h : readStep r .findFrame = some s) :
    r.parsing = true ∧
      ((∃ b, findFrame r.buffer = (none, b) ∧ s = ⟨b, false, r.reads, r.delivered⟩) ∨
        ∃ p b, findFrame r.buffer = (some p, b) ∧
          s = ⟨b, true, r.reads, r.delivered ++ [p]⟩) := by
  simp only [readStep] at h
  split at h
  · next hp =>
    refine ⟨hp, ?_⟩
    split at h
    · next b hb => exact .inl ⟨b, hb, (Option.some.inj h).symm⟩
    · next p b hb =>
      refine .inr ⟨p, b, hb, ?_⟩
      rw [← Option.some.inj h, hp]
  · cases h

/-! ## Where the payloads come from -/

/-- The frames of what was delivered stand in what was read, in front of the buffer. -/
structure Reader.Sound (r : Reader) : Prop where
  laid : Laid frame r.reads.flatten r.delivered r.buffer
  bounded : ∀ p ∈ r.delivered, p.length ≤ maxPacketSize

theorem readStep_sound {r s : Reader} {e : ReadEvent} (hr : r.Sound) (h : readStep r e = some s) :
    s.Sound := by
  obtain ⟨hlaid, hbound⟩ := hr
  cases e with
  | read chunk =>
    obtain ⟨-, -, rfl⟩ := readStep_read h
    refine ⟨?_, hbound⟩
    simpa using hlaid.append chunk
  | findFrame =>
    obtain ⟨-, ⟨b, hb, rfl⟩ | ⟨p, b, hb, rfl⟩⟩ := readStep_findFrame h
    · exact ⟨hlaid.stop frames_sound hb, hbound⟩
    · refine ⟨hlaid.take frames_sound hb, ?_⟩
      intro q hq
      rcases List.mem_append.mp hq with hq | hq
      · exact hbound q hq
      · rw [List.mem_singleton.mp hq]
        exact findFrame_length hb

theorem reader_sound {es : List ReadEvent} {r : Reader} (h : run readStep {} es = some r) :
    r.Sound := by
  have hstart : Reader.Sound {} := ⟨Laid.start frame [], by simp⟩
  exact invariant (fun _ _ _ => readStep_sound) hstart h

/-- **Everything delivered was there.** Wherever a read loop stands, what it read is the
encoded frames of the payloads it delivered, in order, with bytes it threw away
around them, and then its buffer. -/
theorem read_layout (es : List ReadEvent) (r : Reader) (h : run readStep {} es = some r) :
    (∀ p ∈ r.delivered, p.length ≤ maxPacketSize) ∧
      ∃ fs g₀ gs, r.delivered.mapM encodeFrame = .ok fs ∧ gs.length = fs.length ∧
        r.reads.flatten = g₀ ++ (List.zipWith (· ++ ·) fs gs).flatten ++ r.buffer := by
  obtain ⟨hlaid, hbound⟩ := reader_sound h
  obtain ⟨g₀, gs, hlen, hread⟩ := hlaid.parts
  refine ⟨hbound, r.delivered.map frame, g₀, gs, mapM_encodeFrame hbound, by simp [hlen], ?_⟩
  rw [List.zipWith_map_left]
  exact hread

/-- A byte of noise and two frames in three reads, with the beginning of a third frame
behind them; the inner loop of the last read is still at work. -/
def noisy : List ReadEvent :=
  [.read [0x07, 0x94], .findFrame, .read [0xC3, 0x00, 0x01, 0x08], .findFrame, .findFrame,
    .read [0x94, 0xC3, 0x00, 0x00, 0x94, 0xC3, 0x00], .findFrame]

theorem read_layout_noisy :
    ∃ r, run readStep {} noisy = some r ∧ r.delivered = [[0x08], []] ∧
      (∀ p ∈ r.delivered, p.length ≤ maxPacketSize) ∧
      ∃ fs g₀ gs, r.delivered.mapM encodeFrame = .ok fs ∧ gs.length = fs.length ∧
        r.reads.flatten = g₀ ++ (List.zipWith (· ++ ·) fs gs).flatten ++ r.buffer :=
  ⟨_, rfl, rfl, read_layout noisy _ rfl⟩

/-! ## The reader and the loop as a whole -/

/-- What the inner loop still takes, and what it leaves. -/
def Reader.pending (r : Reader) : List Bytes × Bytes :=
  if r.parsing then drain frames r.buffer else ([], r.buffer)

/-- The loop over the reads so far has delivered what the reader has and what it still takes. -/
def Reader.OnCourse (r : Reader) : Prop :=
  feed frames [] r.reads = (r.delivered ++ r.pending.1, r.pending.2)

theorem readStep_onCourse {r s : Reader} {e : ReadEvent} (hr : r.OnCourse)
    (h : readStep r e = some s) : s.OnCourse := by
  simp only [Reader.OnCourse] at hr ⊢
  cases e with
  | read chunk =>
    obtain ⟨hp, -, rfl⟩ := readStep_read h
    simp only [Reader.pending, hp, Bool.false_eq_true, if_false, List.append_nil] at hr
    simp [Reader.pending, feed_append, feed, hr]
  | findFrame =>
    obtain ⟨hp, ⟨b, hb, rfl⟩ | ⟨p, b, hb, rfl⟩⟩ := readStep_findFrame h
    · simpa [Reader.pending, hp, drain_of_none hb] using hr
    · simpa [Reader.pending, hp, drain_of_some hb] using hr

/-- Every inner loop comes to its end. -/
theorem inner_returns (b : Bytes) : ∀ (reads delivered : List Bytes), ∃ es r,
    run readStep ⟨b, true, reads, delivered⟩ es = some r ∧ r.parsing = false ∧ r.reads = reads := by
  induction b using inner_induction with
  | stop b r h =>
    intro reads delivered
    refine ⟨[.findFrame], ⟨r, false, reads, delivered⟩, ?_, rfl, rfl⟩
    simp [run, readStep, h]
  | take b p rest h ih =>
    intro reads delivered
    obtain ⟨es, r, hr, hp, hreads⟩ := ih reads (delivered ++ [p])
    refine ⟨.findFrame :: es, r, ?_, hp, hreads⟩
    simp [run, readStep, h, hr]

/-- Every list of reads is read to its end. -/
theorem reads_return (chunks : List Bytes) (hc : ∀ c ∈ chunks, c ≠ []) :
    ∃ es r, run readStep {} es = some r ∧ r.parsing = false ∧ r.reads = chunks := by
  induction chunks using List.reverseRecOn with
  | nil => exact ⟨[], {}, rfl, rfl, rfl⟩
  | append_singleton chunks c ih =>
    have hbefore : ∀ c' ∈ chunks, c' ≠ [] := fun c' h => hc c' (List.mem_append_left _ h)
    have hne : c ≠ [] := hc c (by simp)
    obtain ⟨es, r, hrun, hp, hreads⟩ := ih hbefore
    obtain ⟨fs, s, hin, hs, hall⟩ := inner_returns (r.buffer ++ c) (r.reads ++ [c]) r.delivered
    refine ⟨es ++ .read c :: fs, s, run_append.mpr ⟨r, hrun, ?_⟩, hs, by rw [hall, hreads]⟩
    exact run_cons.mpr ⟨_, by simp [readStep, hp, hne], hin⟩

/-- The loop as a whole ends where the reader does that takes its calls one by one. -/
theorem readLoop_reader (chunks : List Bytes) : ∃ es r, run readStep {} es = some r ∧
    r.reads = received chunks ∧ readLoop [] chunks = (r.delivered, r.buffer) := by
  have hne : ∀ c ∈ received chunks, c ≠ [] := by
    intro c hc
    simpa using List.mem_takeWhile_imp hc
  obtain ⟨es, r, hrun, hp, hreads⟩ := reads_return (received chunks) hne
  refine ⟨es, r, hrun, hreads, ?_⟩
  have hstart : Reader.OnCourse {} := rfl
  have hcourse := invariant (fun _ _ _ => readStep_onCourse) hstart hrun
  rw [Reader.OnCourse, hreads] at hcourse
  simpa [readLoop, Reader.pending, hp] using hcourse

end Multiplextashtic.ReadLoop
