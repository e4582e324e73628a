import Multiplextashtic.Lib.Extractor

/-! # The framing protocol

`[0x94, 0xC3, len_hi, len_lo, payload...]`: `encode_frame` and `find_frame` of
`protocol.py`. `find_frame` answers `None` both for a frame that is not there
yet and for bytes it threw away; the second component says what it kept. -/
namespace Multiplextashtic.Protocol

abbrev Bytes := List UInt8

def start1 : UInt8 := 0x94
def start2 : UInt8 := 0xC3
def maxPacketSize : Nat := 512

/-- The Python exceptions the program raises or catches. -/
inductive PyError where
  | valueError (msg : String)
  | attributeError (msg : String)
  | decodeError
  | connectionReset
  deriving DecidableEq, Repr

def header (length : Nat) : Bytes :=
  [start1, start2, UInt8.ofNat ((length >>> 8) &&& 0xFF), UInt8.ofNat (length &&& 0xFF)]

def tooLarge (length : Nat) : PyError :=
  .valueError s!"Payload size {length} exceeds MAX_PACKET_SIZE {maxPacketSize}"

def encodeFrame (payload : Bytes) : Except PyError Bytes :=
  if payload.length > maxPacketSize then .error (tooLarge payload.length)
  else .ok (header payload.length ++ payload)

/-- The index of the first start pair, `none` where the loop leaves `start = -1`. -/
def findStart : Bytes → Option Nat
  | a :: b :: rest =>
    if a = start1 ∧ b = start2 then some 0 else (findStart (b :: rest)).map (· + 1)
  | _ => none

def payloadLength (hi lo : UInt8) : Nat := (hi.toNat <<< 8) ||| lo.toNat

def findFrame (data : Bytes) : Option Bytes × Bytes :=
  if data.length < 4 then (none, data)
  else match findStart data with
    | none => (none, [])
    | some start =>
      match data.drop start with
      | _ :: _ :: hi :: lo :: body =>
        if payloadLength hi lo > maxPacketSize then (none, body)
        else if body.length < payloadLength hi lo then (none, data.drop start)
        else (some (body.take (payloadLength hi lo)), body.drop (payloadLength hi lo))
      | short => (none, short)

/-! ## Headers -/

theorem payloadLength_eq (hi lo : UInt8) : payloadLength hi lo = hi.toNat * 256 + lo.toNat := by
  have hlo := lo.toNat_lt
  rw [payloadLength, ← Nat.shiftLeft_add_eq_or_of_lt hlo, Nat.shiftLeft_eq]

theorem payloadLength_header (n : Nat) (h : n ≤ maxPacketSize) :
    payloadLength (UInt8.ofNat ((n >>> 8) &&& 0xFF)) (UInt8.ofNat (n &&& 0xFF)) = n := by
  have h1 : (n >>> 8) &&& 0xFF = n / 256 % 256 := by
    rw [Nat.shiftRight_eq_div_pow]; exact Nat.and_two_pow_sub_one_eq_mod _ 8
  have h2 : n &&& 0xFF = n % 256 := Nat.and_two_pow_sub_one_eq_mod _ 8
  simp only [maxPacketSize] at h
  rw [payloadLength_eq, h1, h2]
  simp only [UInt8.toNat_ofNat']
  omega

theorem header_payloadLength (hi lo : UInt8) :
    header (payloadLength hi lo) = [start1, start2, hi, lo] := by
  have hhi := hi.toNat_lt
  have hlo := lo.toNat_lt
  have h1 : (payloadLength hi lo >>> 8) &&& 0xFF = hi.toNat := by
    rw [Nat.shiftRight_eq_div_pow, payloadLength_eq]
    rw [show (0xFF : Nat) = 2 ^ 8 - 1 from rfl, Nat.and_two_pow_sub_one_eq_mod]
    omega
  have h2 : payloadLength hi lo &&& 0xFF = lo.toNat := by
    rw [show (0xFF : Nat) = 2 ^ 8 - 1 from rfl, Nat.and_two_pow_sub_one_eq_mod, payloadLength_eq]
    omega
  simp [header, h1, h2]

/-- The bytes `encode_frame` returns for a payload it accepts. -/
def frame (payload : Bytes) : Bytes := header payload.length ++ payload

theorem encodeFrame_ok {p : Bytes} (h : p.length ≤ maxPacketSize) :
    encodeFrame p = .ok (frame p) := by
  simp [encodeFrame, frame, Nat.not_lt.mpr h]

/-! ## The first start pair -/

@[simp] theorem findStart_pair (rest : Bytes) : findStart (start1 :: start2 :: rest) = some 0 := by
  simp [findStart]

theorem findStart_some {d : Bytes} {i : Nat} (h : findStart d = some i) :
    ∃ rest, d.drop i = start1 :: start2 :: rest := by
  induction d generalizing i with
  | nil => simp [findStart] at h
  | cons a d ih =>
    cases d with
    | nil => simp [findStart] at h
    | cons b rest =>
      simp only [findStart] at h
      split at h
      · next hab => cases h; exact ⟨rest, by simp [hab]⟩
      · obtain ⟨j, hj, rfl⟩ := Option.map_eq_some_iff.mp h
        simpa using ih hj

/-- A start pair in sight stays the first one whatever arrives later. -/
theorem findStart_append {d : Bytes} {i : Nat} (x : Bytes) (h : findStart d = some i) :
    findStart (d ++ x) = some i := by
  induction d generalizing i with
  | nil => simp [findStart] at h
  | cons a d ih =>
    cases d with
    | nil => simp [findStart] at h
    | cons b rest =>
      simp only [findStart, List.cons_append] at h ⊢
      split at h
      · next hab => rw [if_pos hab]; exact h
      · next hab =>
        obtain ⟨j, hj, rfl⟩ := Option.map_eq_some_iff.mp h
        rw [if_neg hab]
        exact Option.map_eq_some_iff.mpr ⟨j, ih hj, rfl⟩

/-- Behind noise that holds no start pair the first pair is the one that follows it,
also when the noise ends in START1. -/
theorem findStart_noise {noise : Bytes} (rest : Bytes) (hn : ¬ [start1, start2] <:+: noise) :
    findStart (noise ++ start1 :: start2 :: rest) = some noise.length := by
  induction noise with
  | nil => exact findStart_pair rest
  | cons a noise ih =>
    have htail : ¬ [start1, start2] <:+: noise := fun h => hn (List.infix_cons h)
    have ih := ih htail
    cases noise with
    | nil =>
      have hpair : ¬ (a = start1 ∧ start1 = start2) := by simp [start1, start2]
      simp [findStart, hpair]
    | cons b noise =>
      have hpair : ¬ (a = start1 ∧ b = start2) := by
        intro ⟨ha, hb⟩
        exact hn ⟨[], noise, by simp [ha, hb]⟩
      simp only [List.cons_append, List.length_cons] at ih ⊢
      rw [findStart, if_neg hpair, ih]
      rfl

/-! ## What a call of `find_frame` can do -/

/-- The six ways out of `find_frame`, named after what they find. -/
inductive Found (d : Bytes) : Option Bytes × Bytes → Prop
  | short : d.length < 4 → Found d (none, d)
  | noStart : 4 ≤ d.length → findStart d = none → Found d (none, [])
  | cutHeader {i : Nat} : findStart d = some i → (d.drop i).length < 4 → Found d (none, d.drop i)
  | overlong {i : Nat} {hi lo : UInt8} {body : Bytes} : findStart d = some i →
      d.drop i = start1 :: start2 :: hi :: lo :: body → maxPacketSize < payloadLength hi lo →
      Found d (none, body)
  | cutPayload {i : Nat} {hi lo : UInt8} {body : Bytes} : findStart d = some i →
      d.drop i = start1 :: start2 :: hi :: lo :: body → payloadLength hi lo ≤ maxPacketSize →
      body.length < payloadLength hi lo → Found d (none, d.drop i)
  | frame {i : Nat} {hi lo : UInt8} {body : Bytes} : findStart d = some i →
      d.drop i = start1 :: start2 :: hi :: lo :: body → payloadLength hi lo ≤ maxPacketSize →
      payloadLength hi lo ≤ body.length →
      Found d (some (body.take (payloadLength hi lo)), body.drop (payloadLength hi lo))

theorem findFrame_found {d : Bytes} {r : Option Bytes × Bytes} (h : findFrame d = r) :
    Found d r := by
  unfold findFrame at h
  split at h
  · next hs => exact h ▸ .short hs
  · next hs =>
    cases hf : findStart d with
    | none => rw [hf] at h; exact h ▸ .noStart (by omega) hf
    | some i =>
      obtain ⟨rest, hd⟩ := findStart_some hf
      rw [hf] at h
      match rest, hd with
      | [], hd | [_], hd =>
        simp only [hd] at h
        exact h ▸ hd ▸ .cutHeader hf (by simp [hd])
      | hi :: lo :: body, hd =>
        simp only [hd] at h
        split at h
        · next hl => exact h ▸ .overlong hf hd hl
        · split at h
          · next hl hb => exact h ▸ hd ▸ .cutPayload hf hd (by omega) hb
          · next hl hb => exact h ▸ .frame hf hd (by omega) (by omega)

/-- A frame in sight is extracted the same way whatever follows it. -/
theorem findFrame_of_frame {d body : Bytes} {i : Nat} {hi lo : UInt8} (hs : findStart d = some i)
    (hd : d.drop i = start1 :: start2 :: hi :: lo :: body)
    (hl : payloadLength hi lo ≤ maxPacketSize) (hb : payloadLength hi lo ≤ body.length) :
    findFrame d = (some (body.take (payloadLength hi lo)), body.drop (payloadLength hi lo)) := by
  have hlen : 4 ≤ (d.drop i).length := by simp [hd]
  rw [List.length_drop] at hlen
  simp [findFrame, hs, hd, Nat.not_lt.mpr hl, Nat.not_lt.mpr hb,
    Nat.not_lt.mpr (by omega : 4 ≤ d.length)]

/-- Behind noise that holds no start pair a frame is found, and what follows it stays. -/
theorem findFrame_noise {noise p : Bytes} (hn : ¬ [start1, start2] <:+: noise)
    (hp : p.length ≤ maxPacketSize) (x : Bytes) :
    findFrame (noise ++ frame p ++ x) = (some p, x) := by
  have hlen := payloadLength_header p.length hp
  have hsplit : noise ++ frame p ++ x = noise ++ start1 :: start2 ::
      UInt8.ofNat ((p.length >>> 8) &&& 0xFF) :: UInt8.ofNat (p.length &&& 0xFF) :: (p ++ x) := by
    simp [frame, header]
  have hstart := findStart_noise (UInt8.ofNat ((p.length >>> 8) &&& 0xFF) ::
    UInt8.ofNat (p.length &&& 0xFF) :: (p ++ x)) hn
  rw [hsplit, findFrame_of_frame hstart List.drop_left (by rw [hlen]; exact hp)
    (by rw [hlen]; simp), hlen]
  simp

theorem findFrame_frame {p : Bytes} (h : p.length ≤ maxPacketSize) (x : Bytes) :
    findFrame (frame p ++ x) = (some p, x) := by
  have hn : ¬ [start1, start2] <:+: ([] : Bytes) := by simp
  exact findFrame_noise hn h x

/-- **`find_frame` resynchronises**: a frame is found behind any bytes that hold no
start pair, also when they end in START1, and what follows it stays. -/
theorem findFrame_resync (noise p tail : Bytes) (hn : ¬ [start1, start2] <:+: noise)
    (hp : p.length ≤ maxPacketSize) :
    ∃ f, encodeFrame p = .ok f ∧ findFrame (noise ++ f ++ tail) = (some p, tail) :=
  ⟨frame p, encodeFrame_ok hp, findFrame_noise hn hp tail⟩

/-- Noise that ends in START1, and a payload that is itself a start pair. -/
theorem findFrame_resync_start1 :
    ∃ f, encodeFrame [0x94, 0xC3] = .ok f ∧
      findFrame ([0x07, 0x94] ++ f ++ [0x94]) = (some [0x94, 0xC3], [0x94]) :=
  findFrame_resync [0x07, 0x94] [0x94, 0xC3] [0x94] (by decide) (by decide)

theorem findFrame_shrinks {d p r : Bytes} (h : findFrame d = (some p, r)) :
    r.length < d.length := by
  cases findFrame_found h with
  | @frame i hi lo body hs hd hl hb =>
    have hlen := congrArg List.length hd
    simp only [List.length_drop, List.length_cons] at hlen ⊢
    omega

theorem findFrame_length {d p r : Bytes} (h : findFrame d = (some p, r)) :
    p.length ≤ maxPacketSize := by
  cases findFrame_found h with
  | frame hs hd hl hb => simp only [List.length_take]; omega

/-- A call that finds no frame keeps the end of the data. -/
theorem findFrame_none_suffix {d r : Bytes} (h : findFrame d = (none, r)) : r <:+ d := by
  cases findFrame_found h with
  | short _ => exact List.suffix_refl d
  | noStart _ _ => exact List.nil_suffix
  | cutHeader _ _ => exact List.drop_suffix _ d
  | @overlong i hi lo _ _ hd _ =>
    have hrest : r <:+ d.drop i := ⟨[start1, start2, hi, lo], by simp [hd]⟩
    exact hrest.trans (List.drop_suffix i d)
  | cutPayload _ _ _ _ => exact List.drop_suffix _ d

/-- A payload is the one its header announces, in front of the bytes that are kept. -/
theorem findFrame_some_suffix {d p r : Bytes} (h : findFrame d = (some p, r)) :
    frame p ++ r <:+ d := by
  cases findFrame_found h with
  | @frame i hi lo body _ hd hl hb =>
    have hlen : (body.take (payloadLength hi lo)).length = payloadLength hi lo :=
      List.length_take_of_le hb
    have hframe : frame (body.take (payloadLength hi lo)) ++ body.drop (payloadLength hi lo) =
        d.drop i := by
      rw [frame, hlen, header_payloadLength, List.append_assoc, List.take_append_drop, hd]
      rfl
    exact hframe ▸ List.drop_suffix i d

/-- `find_frame` as an extractor. -/
def frames : Extractor UInt8 Bytes := ⟨findFrame, findFrame_shrinks⟩

theorem frames_sound : frames.Sound frame := ⟨findFrame_none_suffix, findFrame_some_suffix⟩

end Multiplextashtic.Protocol
