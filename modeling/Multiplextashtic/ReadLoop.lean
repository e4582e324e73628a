import Mathlib.Data.List.Basic
import Mathlib.Data.List.TakeWhile
import Multiplextashtic.Protocol

/-! # The read loops

`ClientHandler._read_loop` and `PhysicalNodeManager._read_loop` share one shape:
append what `read(4096)` returned, call `find_frame` until it returns `None`,
read again. An empty read is the end of the stream. What the loop delivers is
compared with `decode`, which reads a whole stream at once and never forgets a
byte it may still need. -/
namespace Multiplextashtic.ReadLoop
open Multiplextashtic.Protocol Extractor

/-- The reads the loop acts on: `if not chunk: break`. -/
def received (chunks : List Bytes) : List Bytes := chunks.takeWhile (! ·.isEmpty)

/-- The payloads delivered and the buffer held after the reads. -/
def readLoop (buffer : Bytes) (chunks : List Bytes) : List Bytes × Bytes :=
  feed frames buffer (received chunks)

theorem drain_of_none {d r : Bytes} (h : findFrame d = (none, r)) : drain frames d = ([], r) :=
  drain_none h

theorem drain_of_some {d p r : Bytes} (h : findFrame d = (some p, r)) :
    drain frames d = (p :: (drain frames r).1, (drain frames r).2) :=
  drain_some h

/-- Induction along the calls of one inner loop. -/
theorem inner_induction {P : Bytes → Prop} (stop : ∀ d r, findFrame d = (none, r) → P d)
    (take : ∀ d p r, findFrame d = (some p, r) → P r → P d) (d : Bytes) : P d :=
  drain_induction (fun b r (h : frames.step b = (none, r)) => stop b r h)
    (fun b p r (h : frames.step b = (some p, r)) => take b p r h) d

/-! ## Calls and stops of the inner loop -/

/-- `find_frame` finds a complete frame in `d` and keeps `rest`. -/
def Takes (d rest : Bytes) : Prop :=
  ∃ i hi lo body, findStart d = some i ∧ d.drop i = start1 :: start2 :: hi :: lo :: body ∧
    payloadLength hi lo ≤ maxPacketSize ∧ payloadLength hi lo ≤ body.length ∧
    rest = body.drop (payloadLength hi lo)

/-- The inner loop that starts on `d` calls `find_frame` on `e`. -/
inductive Calls : Bytes → Bytes → Prop
  | first (d : Bytes) : Calls d d
  | next {d rest e : Bytes} : Takes d rest → Calls rest e → Calls d e

/-- The first header in `e` has a length field over the limit, with `rest` behind it. -/
def Overlong (e rest : Bytes) : Prop :=
  ∃ i hi lo, findStart e = some i ∧ e.drop i = start1 :: start2 :: hi :: lo :: rest ∧
    maxPacketSize < payloadLength hi lo

/-- Too short for a header, or a frame cut short that starts at the first byte. -/
def Waiting (b : Bytes) : Prop :=
  b.length < 4 ∨ ∃ hi lo body, b = start1 :: start2 :: hi :: lo :: body ∧
    payloadLength hi lo ≤ maxPacketSize ∧ body.length < payloadLength hi lo

theorem takes_of_findFrame {d p rest : Bytes} (h : findFrame d = (some p, rest)) :
    Takes d rest := by
  cases findFrame_found h with
  | frame hs hd hl hb => exact ⟨_, _, _, _, hs, hd, hl, hb, rfl⟩

theorem findFrame_of_takes {d rest : Bytes} (h : Takes d rest) :
    ∃ p, findFrame d = (some p, rest) := by
  obtain ⟨i, hi, lo, body, hs, hd, hl, hb, rfl⟩ := h
  exact ⟨_, findFrame_of_frame hs hd hl hb⟩

theorem findFrame_of_overlong {e rest : Bytes} (h : Overlong e rest) :
    findFrame e = (none, rest) := by
  obtain ⟨i, hi, lo, hs, hd, hl⟩ := h
  have hlen : 4 ≤ (e.drop i).length := by simp [hd]
  rw [List.length_drop] at hlen
  simp [findFrame, hs, hd, hl, Nat.not_lt.mpr (by omega : 4 ≤ e.length)]

theorem findFrame_of_waiting {b : Bytes} (h : Waiting b) : findFrame b = (none, b) := by
  rcases h with h | ⟨hi, lo, body, rfl, hl, hb⟩
  · simp [findFrame, h]
  · simp [findFrame, Nat.not_lt.mpr hl, hb]

theorem waiting_length {b : Bytes} (h : Waiting b) : b.length ≤ 4 + maxPacketSize - 1 := by
  rcases h with h | ⟨hi, lo, body, rfl, hl, hb⟩
  · simp only [maxPacketSize]; omega
  · simp only [List.length_cons]; omega

/-- What a call that finds no frame keeps: it waits, or is what follows an over-long length. -/
theorem waiting_or_overlong {e r : Bytes} (h : findFrame e = (none, r)) :
    Waiting r ∨ Overlong e r := by
  cases findFrame_found h with
  | short hs => exact .inl (.inl hs)
  | noStart _ _ => exact .inl (.inl (by simp))
  | cutHeader _ hs => exact .inl (.inl hs)
  | overlong hs hd hl => exact .inr ⟨_, _, _, hs, hd, hl⟩
  | cutPayload hs hd hl hb => exact .inl (.inr ⟨_, _, _, hd, hl, hb⟩)

/-- A buffer is quiescent for `find_frame` exactly when it waits for further bytes. -/
theorem quiescent_iff (b : Bytes) : findFrame b = (none, b) ↔ Waiting b := by
  constructor
  · intro h
    rcases waiting_or_overlong h with hw | ⟨i, hi, lo, _, hd, _⟩
    · exact hw
    · have hlen := congrArg List.length hd
      simp only [List.length_drop, List.length_cons] at hlen
      omega
  · exact findFrame_of_waiting

/-- The last call of an inner loop. -/
theorem drain_last (d : Bytes) : ∃ e, Calls d e ∧ findFrame e = (none, (drain frames d).2) := by
  induction d using inner_induction with
  | stop d r h => exact ⟨d, .first d, by rw [drain_of_none h]; exact h⟩
  | take d p r h ih =>
    obtain ⟨e, hc, he⟩ := ih
    exact ⟨e, .next (takes_of_findFrame h) hc, by rw [drain_of_some h]; exact he⟩

/-- An inner loop stops at the first over-long length it comes to. -/
theorem drain_of_overlong {d e rest : Bytes} (hc : Calls d e) (ho : Overlong e rest) :
    (drain frames d).2 = rest := by
  induction hc with
  | first d => rw [drain_of_none (findFrame_of_overlong ho)]
  | next ht _ ih =>
    obtain ⟨p, hp⟩ := findFrame_of_takes ht
    rw [drain_of_some hp]
    exact ih ho

/-- The buffer an inner loop leaves waits, unless the loop stopped at an
over-long length with something behind it that does not. -/
theorem drain_waiting_iff (d : Bytes) : Waiting (drain frames d).2 ↔
    ∀ e rest, Calls d e → Overlong e rest → Waiting rest := by
  constructor
  · intro h e rest hc ho
    rwa [drain_of_overlong hc ho] at h
  · intro h
    obtain ⟨e, hc, he⟩ := drain_last d
    rcases waiting_or_overlong he with hw | ho
    · exact hw
    · exact h e _ hc ho

/-! ## What is retained -/

/-- The buffers on which the inner loop starts in a run of the read loop. -/
def loopStarts (chunks : List Bytes) : List Bytes := starts frames [] (received chunks)

/-- **Every retained buffer is quiescent and short exactly when what follows an
over-long length, wherever an inner loop stops at one, waits by itself.** -/
theorem readLoop_quiescent_iff (chunks : List Bytes) :
    (∀ d ∈ loopStarts chunks,
      findFrame (drain frames d).2 = (none, (drain frames d).2) ∧
        (drain frames d).2.length ≤ 4 + maxPacketSize - 1) ↔
    ∀ d ∈ loopStarts chunks, ∀ e rest, Calls d e → Overlong e rest → Waiting rest := by
  constructor
  · intro h d hd
    exact (drain_waiting_iff d).mp ((quiescent_iff _).mp (h d hd).1)
  · intro h d hd
    have hw := (drain_waiting_iff d).mpr (h d hd)
    exact ⟨findFrame_of_waiting hw, waiting_length hw⟩

/-- One read with an over-long length in front of an empty frame: the frame stays in the buffer. -/
theorem readLoop_not_quiescent :
    ∃ chunks : List Bytes, (∀ c ∈ chunks, c ≠ []) ∧ ∃ d ∈ loopStarts chunks,
      findFrame (drain frames d).2 ≠ (none, (drain frames d).2) :=
  ⟨[[0x94, 0xC3, 0xFF, 0xFF, 0x94, 0xC3, 0x00, 0x00]], by decide,
    [0x94, 0xC3, 0xFF, 0xFF, 0x94, 0xC3, 0x00, 0x00], by decide, by decide⟩

/-! ## Streams of frames -/

/-- A proper prefix of a frame waits. -/
theorem waiting_of_prefix {q t : Bytes} (hq : q.length ≤ maxPacketSize) (ht : t <+: frame q)
    (hne : t ≠ frame q) : Waiting t := by
  by_cases hshort : t.length < 4
  · exact .inl hshort
  obtain ⟨u, hu⟩ := ht
  obtain ⟨s1, s2, hi, lo, body, rfl⟩ : ∃ s1 s2 hi lo body, t = s1 :: s2 :: hi :: lo :: body := by
    rcases t with _ | ⟨s1, _ | ⟨s2, _ | ⟨hi, _ | ⟨lo, body⟩⟩⟩⟩
    all_goals first | exact ⟨s1, s2, hi, lo, body, rfl⟩ | simp at hshort
  simp only [frame, header, List.cons_append, List.nil_append, List.cons.injEq] at hu hne
  obtain ⟨h1, h2, h3, h4, hbody⟩ := hu
  subst h1 h2 h3 h4
  have hn := payloadLength_header q.length hq
  refine .inr ⟨_, _, body, rfl, by rw [hn]; exact hq, ?_⟩
  have hu0 : u ≠ [] := by
    rintro rfl
    have hbq : body = q := by simpa using hbody
    exact hne (by rw [hbq])
  have hlen := congrArg List.length hbody
  have hpos := List.length_pos_iff.mpr hu0
  rw [List.length_append] at hlen
  rw [hn]
  omega

/-- The bytes of a list of frames. -/
def stream (ps : List Bytes) : Bytes := (ps.map frame).flatten

/-- Draining the first bytes of a stream of frames takes the frames that are
complete and waits on a prefix of the next. -/
theorem drain_stream {q t : Bytes} (hq : q.length ≤ maxPacketSize) (ht : t <+: frame q)
    (hne : t ≠ frame q) : ∀ (ps : List Bytes) (x u : Bytes), (∀ p ∈ ps, p.length ≤ maxPacketSize) →
      x ++ u = stream ps ++ t →
      ∃ taken left r, ps = taken ++ left ∧ drain frames x = (taken, r) ∧ Waiting r ∧
        r ++ u = stream left ++ t
  | [], x, u, _, hx => by
    have hxt : x <+: t := ⟨u, by simpa [stream] using hx⟩
    have hw : Waiting x := by
      refine waiting_of_prefix hq (hxt.trans ht) fun he => hne ?_
      exact List.IsPrefix.eq_of_length_le ht (by rw [← he]; exact hxt.length_le)
    exact ⟨[], [], x, rfl, drain_of_none (findFrame_of_waiting hw), hw, hx⟩
  | p :: ps, x, u, hps, hx => by
    have hp := hps p List.mem_cons_self
    have hx' : x ++ u = frame p ++ (stream ps ++ t) := by simpa [stream] using hx
    by_cases hpx : frame p <+: x
    · obtain ⟨y, rfl⟩ := hpx
      rw [List.append_assoc] at hx'
      obtain ⟨taken, left, r, rfl, hd, hw, hr⟩ := drain_stream hq ht hne ps y u
        (fun p' h' => hps p' (List.mem_cons_of_mem _ h')) (List.append_cancel_left hx')
      refine ⟨p :: taken, left, r, rfl, ?_, hw, hr⟩
      rw [drain_of_some (findFrame_frame hp y), hd]
    · have hxp : x <+: frame p := by
        rcases List.prefix_or_prefix_of_prefix ⟨u, hx'⟩ (List.prefix_append (frame p) _) with h | h
        · exact h
        · exact absurd h hpx
      have hw := waiting_of_prefix hp hxp fun he => hpx (he ▸ List.prefix_refl _)
      exact ⟨[], p :: ps, x, rfl, drain_of_none (findFrame_of_waiting hw), hw, hx⟩

/-- Feeding a stream of frames to a buffer that waits. -/
theorem feed_stream {q t : Bytes} (hq : q.length ≤ maxPacketSize) (ht : t <+: frame q)
    (hne : t ≠ frame q) : ∀ (cs : List Bytes) (ps : List Bytes) (b : Bytes),
      (∀ p ∈ ps, p.length ≤ maxPacketSize) → Waiting b → b ++ cs.flatten = stream ps ++ t →
      feed frames b cs = (ps, t)
  | [], ps, b, hps, hw, hb => by
    have hb' : b = stream ps ++ t := by simpa using hb
    cases ps with
    | nil => simpa [feed, stream] using hb'
    | cons p ps =>
      -- a buffer that waits holds no complete frame
      have hp : p.length ≤ maxPacketSize := hps p List.mem_cons_self
      have hf : findFrame b = (some p, stream ps ++ t) := by
        rw [hb', show stream (p :: ps) ++ t = frame p ++ (stream ps ++ t) by simp [stream]]
        exact findFrame_frame hp _
      rw [findFrame_of_waiting hw] at hf
      cases hf
  | c :: cs, ps, b, hps, _, hb => by
    have hb' : (b ++ c) ++ cs.flatten = stream ps ++ t := by simpa using hb
    obtain ⟨taken, left, r, rfl, hd, hw, hr⟩ := drain_stream hq ht hne ps (b ++ c) cs.flatten hps hb'
    have ih := feed_stream hq ht hne cs left r (fun p h => hps p (List.mem_append_right _ h)) hw hr
    simp [feed, hd, ih]

theorem mapM_encodeFrame {ps : List Bytes} (h : ∀ p ∈ ps, p.length ≤ maxPacketSize) :
    ps.mapM encodeFrame = .ok (ps.map frame) := by
  induction ps with
  | nil => rfl
  | cons p ps ih =>
    rw [List.mapM_cons, encodeFrame_ok (h p List.mem_cons_self),
      ih fun p' h' => h p' (List.mem_cons_of_mem _ h')]
    rfl

/-- **Framing survives every chunking.** Reads that make up encoded frames and
the beginning of a further one deliver the payloads in order, and the beginning
stays in the buffer. -/
theorem readLoop_stream (ps : List Bytes) (hps : ∀ p ∈ ps, p.length ≤ maxPacketSize)
    (q : Bytes) (hq : q.length ≤ maxPacketSize) (fs : List Bytes) (f t : Bytes)
    (hfs : ps.mapM encodeFrame = .ok fs) (hf : encodeFrame q = .ok f) (ht : t <+: f) (hne : t ≠ f)
    (chunks : List Bytes) (hc : (received chunks).flatten = fs.flatten ++ t) :
    readLoop [] chunks = (ps, t) := by
  rw [mapM_encodeFrame hps] at hfs
  rw [encodeFrame_ok hq] at hf
  cases hfs
  cases hf
  exact feed_stream hq ht hne _ ps [] hps (.inl (by simp)) (by simpa [stream] using hc)

/-- An empty payload, one that is a start pair, and the first byte of a third
frame, cut inside the start pair and inside the length. -/
theorem readLoop_stream_cut :
    readLoop [] [[0x94], [0xC3, 0x00, 0x00, 0x94, 0xC3, 0x00], [0x02, 0x94], [0xC3, 0x94]] =
      ([[], [0x94, 0xC3]], [0x94]) :=
  readLoop_stream [[], [0x94, 0xC3]] (by decide) [0x01] (by decide)
    [[0x94, 0xC3, 0x00, 0x00], [0x94, 0xC3, 0x00, 0x02, 0x94, 0xC3]] [0x94, 0xC3, 0x00, 0x01, 0x01]
    [0x94] (by rfl) (by rfl) (by decide) (by decide) _ (by decide)

/-! ## Noise -/

/-- What a stream carries, read as a whole: skip to the next start pair, skip a
header whose length is over the limit, take the payload of any other. -/
def decode : Bytes → List Bytes
  | a :: b :: rest =>
    if a = start1 ∧ b = start2 then
      match rest with
      | hi :: lo :: body =>
        if payloadLength hi lo > maxPacketSize then decode body
        else if body.length < payloadLength hi lo then []
        else body.take (payloadLength hi lo) :: decode (body.drop (payloadLength hi lo))
      | _ => []
    else decode (b :: rest)
  | _ => []
termination_by d => d.length
decreasing_by all_goals (simp only [List.length_cons, List.length_drop]; omega)

theorem decode_skip {a b : UInt8} (rest : Bytes) (h : ¬ (a = start1 ∧ b = start2)) :
    decode (a :: b :: rest) = decode (b :: rest) := by
  rw [decode.eq_def]
  simp only [h, if_false]

theorem decode_pair (hi lo : UInt8) (body : Bytes) :
    decode (start1 :: start2 :: hi :: lo :: body) =
      if payloadLength hi lo > maxPacketSize then decode body
      else if body.length < payloadLength hi lo then []
      else body.take (payloadLength hi lo) :: decode (body.drop (payloadLength hi lo)) := by
  rw [decode.eq_def]
  simp only [and_self, if_true]

theorem decode_short {d : Bytes} (h : d.length < 4) : decode d = [] := by
  induction d with
  | nil => rw [decode.eq_def]
  | cons a d ih =>
    match d, h with
    | [], _ => rw [decode.eq_def]
    | b :: rest, h =>
      have hrest : rest.length < 2 := by simp only [List.length_cons] at h; omega
      by_cases hab : a = start1 ∧ b = start2
      · rw [decode.eq_def]
        simp only [hab, and_self, if_true]
        match rest, hrest with
        | [], _ | [_], _ => rfl
      · rw [decode_skip rest hab]
        exact ih (by simp only [List.length_cons]; omega)

/-- Noise in front of the first start pair carries nothing. -/
theorem decode_drop {d : Bytes} {i : Nat} (h : findStart d = some i) :
    decode d = decode (d.drop i) := by
  induction d generalizing i with
  | nil => simp [findStart] at h
  | cons a d ih =>
    cases d with
    | nil => simp [findStart] at h
    | cons b rest =>
      simp only [findStart] at h
      split at h
      · cases h; rfl
      · next hab =>
        obtain ⟨j, hj, rfl⟩ := Option.map_eq_some_iff.mp h
        rw [decode_skip rest hab]
        exact ih hj

/-- `d` holds no start pair, and none straddles its end and the bytes after it. -/
theorem decode_noStart {d u : Bytes} (h : findStart d = none)
    (hs : ¬ (d.getLast? = some start1 ∧ u.head? = some start2)) : decode (d ++ u) = decode u := by
  induction d with
  | nil => rfl
  | cons a d ih =>
    cases d with
    | nil =>
      cases u with
      | nil => rw [decode_short (by simp), decode_short (by simp)]
      | cons b u => exact decode_skip u (by simpa using hs)
    | cons b rest =>
      simp only [findStart] at h
      split at h
      · cases h
      · next hab =>
        rw [List.cons_append, List.cons_append, decode_skip _ hab, ← List.cons_append]
        exact ih (Option.map_eq_none_iff.mp h) (by simpa [List.getLast?_cons_cons] using hs)

/-- A call of `find_frame` on `d` throws away a START1 whose START2 comes next. -/
def SplitsPair (d u : Bytes) : Prop :=
  4 ≤ d.length ∧ findStart d = none ∧ d.getLast? = some start1 ∧ u.head? = some start2

theorem decode_drop_append {d : Bytes} {i : Nat} (u : Bytes) (h : findStart d = some i) :
    decode (d ++ u) = decode (d.drop i ++ u) := by
  obtain ⟨rest, hd⟩ := findStart_some h
  have hi : i ≤ d.length := by
    have := congrArg List.length hd
    simp only [List.length_drop, List.length_cons] at this
    omega
  rw [decode_drop (findStart_append u h), List.drop_append_of_le_length hi]

/-- What one call keeps carries what the buffer carried, unless the call splits a pair. -/
theorem decode_of_none {d r u : Bytes} (h : findFrame d = (none, r)) (hs : ¬ SplitsPair d u) :
    decode (d ++ u) = decode (r ++ u) := by
  cases findFrame_found h with
  | short _ => rfl
  | noStart hl hf => exact decode_noStart hf fun hb => hs ⟨hl, hf, hb⟩
  | cutHeader hf _ => exact decode_drop_append u hf
  | overlong hf hd hl =>
    rw [decode_drop_append u hf, hd]
    simp only [List.cons_append]
    rw [decode_pair, if_pos hl]
  | cutPayload hf _ _ _ => exact decode_drop_append u hf

theorem decode_of_some {d p r u : Bytes} (h : findFrame d = (some p, r)) :
    decode (d ++ u) = p :: decode (r ++ u) := by
  cases findFrame_found h with
  | @frame i hi lo body hf hd hl hb =>
    rw [decode_drop_append u hf, hd]
    simp only [List.cons_append]
    rw [decode_pair, if_neg (by omega), if_neg (by simp only [List.length_append]; omega),
      List.take_append_of_le_length hb, List.drop_append_of_le_length hb]

theorem keeps_of_calls {d u : Bytes} (h : ∀ e, Calls d e → ¬ SplitsPair e u) :
    Keeps frames decode d u := by
  induction d using inner_induction with
  | stop d r hd => rw [Keeps, drain_of_none hd]; exact decode_of_none hd (h d (.first d))
  | take d p r hd ih =>
    have := ih fun e hc => h e (.next (takes_of_findFrame hd) hc)
    rw [Keeps] at this ⊢
    rw [drain_of_some hd, decode_of_some hd, this, List.cons_append]

theorem decode_waiting {b : Bytes} (h : Waiting b) : decode b = [] := by
  rcases h with h | ⟨hi, lo, body, rfl, hl, hb⟩
  · exact decode_short h
  · rw [decode_pair, if_neg (by omega), if_pos hb]

theorem decode_frame {p : Bytes} (hp : p.length ≤ maxPacketSize) (x : Bytes) :
    decode (frame p ++ x) = p :: decode x := by
  have h := decode_of_some (u := []) (findFrame_frame hp x)
  rwa [List.append_nil, List.append_nil] at h

theorem decode_stream_append {ps : List Bytes} (hps : ∀ p ∈ ps, p.length ≤ maxPacketSize)
    (t : Bytes) : decode (stream ps ++ t) = ps ++ decode t := by
  induction ps with
  | nil => rfl
  | cons p ps ih =>
    obtain ⟨hp, hps⟩ := List.forall_mem_cons.mp hps
    have hstream : stream (p :: ps) ++ t = frame p ++ (stream ps ++ t) := by simp [stream]
    rw [hstream, decode_frame hp, ih hps, List.cons_append]

theorem decode_stream {ps : List Bytes} (hps : ∀ p ∈ ps, p.length ≤ maxPacketSize) :
    decode (stream ps) = ps := by
  have h := decode_stream_append hps []
  rwa [decode_short (d := []) (by simp), List.append_nil, List.append_nil] at h

/-- What has arrived of a stream of frames: whole ones, and a part of the next. -/
theorem prefix_stream {ps : List Bytes} (hps : ∀ p ∈ ps, p.length ≤ maxPacketSize) {x : Bytes}
    (hx : x <+: stream ps) : ∃ taken t q, taken <+: ps ∧ x = stream taken ++ t ∧
      t <+: frame q ∧ t ≠ frame q ∧ q.length ≤ maxPacketSize := by
  have hframe (q : Bytes) : [] ≠ frame q := List.cons_ne_nil _ _ |>.symm
  induction ps generalizing x with
  | nil =>
    exact ⟨[], [], [], List.nil_prefix, List.prefix_nil.mp hx, List.nil_prefix, hframe _,
      Nat.zero_le _⟩
  | cons p ps ih =>
    obtain ⟨hp, hps⟩ := List.forall_mem_cons.mp hps
    have hstream : stream (p :: ps) = frame p ++ stream ps := by simp [stream]
    rw [hstream] at hx
    by_cases hpx : frame p <+: x
    · obtain ⟨y, rfl⟩ := hpx
      obtain ⟨taken, t, q, htaken, rfl, hq⟩ := ih hps ((List.prefix_append_right_inj _).mp hx)
      refine ⟨p :: taken, t, q, List.cons_prefix_cons.mpr ⟨rfl, htaken⟩, ?_, hq⟩
      simp [stream]
    · have hxp : x <+: frame p := by
        rcases List.prefix_or_prefix_of_prefix hx (List.prefix_append (frame p) _) with h | h
        · exact h
        · exact absurd h hpx
      exact ⟨[], x, p, List.nil_prefix, rfl, hxp, fun he => hpx (he ▸ List.prefix_refl _), hp⟩

/-- What has arrived of a stream of frames carries the first of its payloads. -/
theorem decode_prefix {ps : List Bytes} (hps : ∀ p ∈ ps, p.length ≤ maxPacketSize) {x : Bytes}
    (hx : x <+: stream ps) : decode x <+: ps := by
  obtain ⟨taken, t, q, htaken, rfl, ht, hne, hq⟩ := prefix_stream hps hx
  have hwaits := waiting_of_prefix hq ht hne
  rw [decode_stream_append fun p hp => hps p (htaken.subset hp), decode_waiting hwaits,
    List.append_nil]
  exact htaken

theorem received_eq {chunks : List Bytes} (hc : ∀ c ∈ chunks, c ≠ []) :
    received chunks = chunks := by
  refine List.takeWhile_eq_self_iff.mpr ?_
  intro c hm
  simpa using hc c hm

/-- One more read. -/
theorem readLoop_concat {chunks : List Bytes} (hc : ∀ c ∈ chunks, c ≠ []) {c : Bytes}
    (hne : c ≠ []) : readLoop [] (chunks ++ [c]) =
      ((readLoop [] chunks).1 ++ (drain frames ((readLoop [] chunks).2 ++ c)).1,
        (drain frames ((readLoop [] chunks).2 ++ c)).2) := by
  have hc' : ∀ d ∈ chunks ++ [c], d ≠ [] := by
    intro d hd
    rcases List.mem_append.mp hd with hd | hd
    · exact hc d hd
    · exact List.mem_singleton.mp hd ▸ hne
  unfold readLoop
  rw [received_eq hc, received_eq hc', feed_append]
  simp [feed]

/-- However it is read, what has arrived of a stream of frames delivers what it carries. -/
theorem readLoop_prefix {ps : List Bytes} (hps : ∀ p ∈ ps, p.length ≤ maxPacketSize)
    {chunks : List Bytes} (hc : ∀ c ∈ chunks, c ≠ []) (hx : chunks.flatten <+: stream ps) :
    (readLoop [] chunks).1 = decode chunks.flatten ∧ (readLoop [] chunks).1 <+: ps := by
  obtain ⟨taken, t, q, htaken, he, ht, hne, hq⟩ := prefix_stream hps hx
  have hsize : ∀ p ∈ taken, p.length ≤ maxPacketSize := fun p hp => hps p (htaken.subset hp)
  have hread : readLoop [] chunks = (taken, t) := by
    unfold readLoop
    rw [received_eq hc]
    exact feed_stream hq ht hne chunks taken [] hsize (.inl (by simp)) he
  have hwaits := waiting_of_prefix hq ht hne
  rw [hread, he, decode_stream_append hsize, decode_waiting hwaits, List.append_nil]
  exact ⟨rfl, htaken⟩

/-- Bytes other than START1 carry nothing. -/
theorem decode_replicate {b : UInt8} (hb : b ≠ start1) (n : Nat) (x : Bytes) :
    decode (List.replicate n b ++ x) = decode x := by
  induction n with
  | zero => rfl
  | succ n ih =>
    rw [List.replicate_succ, List.cons_append, ← ih]
    cases hr : List.replicate n b ++ x with
    | nil => rw [decode_short (by simp), decode_short (by simp)]
    | cons c rest => exact decode_skip rest fun h => hb h.1

/-- No call of the run throws away a START1 just before its START2. -/
def KeepsPairs (cs : List Bytes) : Prop :=
  ∀ pre c post, cs = pre ++ c :: post → ∀ e, Calls ((feed frames [] pre).2 ++ c) e →
    ¬ SplitsPair e post.flatten

/-- The last inner loop leaves no complete frame behind an over-long length. -/
def LeavesNone (cs : List Bytes) : Prop :=
  ∀ pre c, cs = pre ++ [c] → ∀ e rest, Calls ((feed frames [] pre).2 ++ c) e → Overlong e rest →
    decode rest = []

theorem keepsAll_of_keepsPairs {cs : List Bytes} (h : KeepsPairs cs) :
    ∀ (done rest : List Bytes), cs = done ++ rest →
      KeepsAll frames decode (feed frames [] done).2 rest
  | _, [], _ => trivial
  | done, c :: rest, he => by
    refine ⟨keeps_of_calls (h done c rest he), ?_⟩
    have := keepsAll_of_keepsPairs h (done ++ [c]) rest (by simp [he])
    simpa [feed_append, feed] using this

theorem feed_concat (pre : List Bytes) (c : Bytes) :
    (feed frames [] (pre ++ [c])).2 = (drain frames ((feed frames [] pre).2 ++ c)).2 := by
  simp [feed_append, feed]

/-- The frames left in the last buffer are those behind its over-long length. -/
theorem leavesNone_iff (cs : List Bytes) : LeavesNone cs ↔ decode (feed frames [] cs).2 = [] := by
  constructor
  · intro h
    rcases List.eq_nil_or_concat' cs with rfl | ⟨pre, c, rfl⟩
    · exact decode_short (by simp [feed])
    · rw [feed_concat]
      obtain ⟨e, hc, he⟩ := drain_last ((feed frames [] pre).2 ++ c)
      rcases waiting_or_overlong he with hw | ho
      · exact decode_waiting hw
      · exact h pre c rfl e _ hc ho
  · rintro h pre c rfl e rest hc ho
    rwa [feed_concat, drain_of_overlong hc ho] at h

/-- A run that splits no pair delivers what the stream carries exactly when it
leaves no frame behind. -/
theorem readLoop_decode_iff {chunks : List Bytes} (hp : KeepsPairs (received chunks)) :
    (readLoop [] chunks).1 = decode (received chunks).flatten ↔ LeavesNone (received chunks) := by
  have hf := feed_eq_ref (received chunks) [] (keepsAll_of_keepsPairs hp [] _ rfl)
  rw [List.nil_append] at hf
  rw [leavesNone_iff, hf, readLoop]
  simp

/-- **Chunking does not matter to runs that split no start pair and leave no
frame behind an over-long length.** -/
theorem readLoop_chunking (chunks chunks' : List Bytes)
    (hs : (received chunks).flatten = (received chunks').flatten)
    (hp : KeepsPairs (received chunks)) (hl : LeavesNone (received chunks))
    (hp' : KeepsPairs (received chunks')) (hl' : LeavesNone (received chunks')) :
    (readLoop [] chunks).1 = (readLoop [] chunks').1 := by
  rw [(readLoop_decode_iff hp).mpr hl, (readLoop_decode_iff hp').mpr hl', hs]

/-- Two reads split no pair when the first is too short to be thrown away. -/
theorem keepsPairs_two {a b : Bytes} (h : a.length < 4) : KeepsPairs [a, b] := by
  intro pre c post he e hc hs
  rcases pre with _ | ⟨x, _ | ⟨y, pre⟩⟩
  · obtain ⟨hac, -⟩ := List.cons.inj he
    have hn : findFrame c = (none, c) := findFrame_of_waiting (.inl (hac ▸ h))
    cases hc with
    | first => exact absurd hs.1 (by simpa [feed, ← hac] using h)
    | next ht _ =>
      obtain ⟨p, hp⟩ := findFrame_of_takes ht
      rw [show (feed frames [] []).2 ++ c = c from rfl, hn] at hp
      cases hp
  · have hpost : post = [] := by
      have := congrArg List.length he
      simpa using this
    simpa [hpost] using hs.2.2.2
  · have := congrArg List.length he
    simp at this

/-- A byte of noise and a frame, cut inside the start pair and behind it. -/
theorem readLoop_chunking_noise :
    (readLoop [] [[0x00, 0x94], [0xC3, 0x00, 0x01, 0x07]]).1 =
      (readLoop [] [[0x00, 0x94, 0xC3], [0x00, 0x01, 0x07]]).1 :=
  readLoop_chunking _ _ (by decide) (keepsPairs_two (by decide))
    ((leavesNone_iff _).mpr (decode_short (by decide))) (keepsPairs_two (by decide))
    ((leavesNone_iff _).mpr (decode_short (by decide)))

/-- Three bytes of noise and an empty frame: cut inside the start pair the frame is lost. -/
theorem readLoop_splits_pair :
    ∃ chunks chunks' : List Bytes, (∀ c ∈ chunks, c ≠ []) ∧ (∀ c ∈ chunks', c ≠ []) ∧
      chunks.flatten = chunks'.flatten ∧ (readLoop [] chunks).1 ≠ (readLoop [] chunks').1 :=
  ⟨[[0x00, 0x00, 0x00, 0x94], [0xC3, 0x00, 0x00]], [[0x00, 0x00, 0x00, 0x94, 0xC3, 0x00, 0x00]],
    by decide, by decide, by decide, by decide⟩

end Multiplextashtic.ReadLoop
