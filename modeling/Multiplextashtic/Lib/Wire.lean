import Mathlib.Data.List.Basic
import Mathlib.Tactic.Ring

/-! # The protobuf wire format

Varints, tags and the three value encodings proto3 messages of 32-bit scalars,
strings and submessages need. A message is written from *slots*: its field
numbers in order, each with the value it has, if any. Reading gives the list of
fields back; of a repeated field number the last occurrence counts. -/
namespace Wire

abbrev Bytes := List UInt8

/-! ## Varints -/

/-- `k` continuation groups and a last one, low groups first. -/
def varintN : Nat → Nat → Bytes
  | 0, n => [UInt8.ofNat n]
  | k + 1, n => UInt8.ofNat (n % 128 + 128) :: varintN k (n / 128)

def varint (n : Nat) : Bytes := varintN (n.log2 / 7) n

def readVarint : Bytes → Option (Nat × Bytes)
  | [] => none
  | b :: bs =>
    if b.toNat < 128 then some (b.toNat, bs)
    else (readVarint bs).map fun r => (b.toNat % 128 + 128 * r.1, r.2)

theorem varintN_length : ∀ (k n : Nat), (varintN k n).length = k + 1
  | 0, _ => rfl
  | k + 1, n => by simp [varintN, varintN_length k]

@[simp] theorem varint_length (n : Nat) : (varint n).length = n.log2 / 7 + 1 := varintN_length _ _

theorem readVarint_varintN (rest : Bytes) : ∀ (k n : Nat), n < 128 ^ (k + 1) →
    readVarint (varintN k n ++ rest) = some (n, rest)
  | 0, n, h => by
    have hn : (UInt8.ofNat n).toNat = n := by rw [UInt8.toNat_ofNat']; omega
    simp only [varintN, List.singleton_append, readVarint, hn]
    rw [if_pos (by omega)]
  | k + 1, n, h => by
    have hb : (UInt8.ofNat (n % 128 + 128)).toNat = n % 128 + 128 := by
      rw [UInt8.toNat_ofNat']; omega
    have hk : n / 128 < 128 ^ (k + 1) := by
      rw [Nat.pow_succ] at h; exact Nat.div_lt_of_lt_mul (by rwa [Nat.mul_comm])
    simp only [varintN, List.cons_append, readVarint, hb, readVarint_varintN rest k _ hk]
    rw [if_neg (by omega)]
    simp only [Option.map_some, Option.some.injEq, Prod.mk.injEq, and_true]
    omega

@[simp] theorem readVarint_varint (n : Nat) (rest : Bytes) :
    readVarint (varint n ++ rest) = some (n, rest) := by
  refine readVarint_varintN rest _ n ?_
  have h7 : (128 : Nat) ^ (n.log2 / 7 + 1) = 2 ^ (7 * (n.log2 / 7 + 1)) := by
    rw [Nat.pow_mul]
  rw [h7]
  exact Nat.lt_of_lt_of_le Nat.lt_log2_self (Nat.pow_le_pow_right (by omega) (by omega))

/-! ## Fixed 32-bit values -/

def fixed32 (n : UInt32) : Bytes :=
  [UInt8.ofNat n.toNat, UInt8.ofNat (n.toNat / 256), UInt8.ofNat (n.toNat / 65536),
    UInt8.ofNat (n.toNat / 16777216)]

def readFixed32 : Bytes → Option (UInt32 × Bytes)
  | a :: b :: c :: d :: rest =>
    some (UInt32.ofNat (a.toNat + 256 * b.toNat + 65536 * c.toNat + 16777216 * d.toNat), rest)
  | _ => none

@[simp] theorem readFixed32_fixed32 (n : UInt32) (rest : Bytes) :
    readFixed32 (fixed32 n ++ rest) = some (n, rest) := by
  have hn := n.toNat_lt
  simp only [fixed32, List.cons_append, List.nil_append, readFixed32, UInt8.toNat_ofNat',
    Option.some.injEq, Prod.mk.injEq, and_true]
  apply UInt32.toNat_inj.mp
  rw [UInt32.toNat_ofNat']
  omega

/-! ## Fields -/

inductive Value where
  | varint (n : Nat)
  | len (bytes : Bytes)
  | fixed32 (n : UInt32)
  deriving DecidableEq, Repr

abbrev Field := Nat × Value

def encodeField : Field → Bytes
  | (num, .varint n) => varint (num * 8) ++ varint n
  | (num, .len bytes) => varint (num * 8 + 2) ++ (varint bytes.length ++ bytes)
  | (num, .fixed32 n) => varint (num * 8 + 5) ++ fixed32 n

def encode (fs : List Field) : Bytes := (fs.map encodeField).flatten

/-- The value of a field whose tag announced this wire type. -/
def readValue (wireType : Nat) (bs : Bytes) : Option (Value × Bytes) :=
  match wireType with
  | 0 => (readVarint bs).map fun r => (.varint r.1, r.2)
  | 2 => (readVarint bs).bind fun r =>
    if r.2.length < r.1 then none else some (.len (r.2.take r.1), r.2.drop r.1)
  | 5 => (readFixed32 bs).map fun r => (.fixed32 r.1, r.2)
  | _ => none

def readField (bs : Bytes) : Option (Field × Bytes) :=
  (readVarint bs).bind fun tag =>
    (readValue (tag.1 % 8) tag.2).map fun r => ((tag.1 / 8, r.1), r.2)

def parseN : Nat → Bytes → Option (List Field)
  | _, [] => some []
  | 0, _ :: _ => none
  | n + 1, b :: bs => (readField (b :: bs)).bind fun r => (parseN n r.2).map (r.1 :: ·)

/-- All fields of a message; every field takes at least one byte. -/
def parse (bs : Bytes) : Option (List Field) := parseN bs.length bs

theorem readField_encodeField (f : Field) (rest : Bytes) :
    readField (encodeField f ++ rest) = some (f, rest) := by
  obtain ⟨num, value⟩ := f
  cases value with
  | varint n => simp [encodeField, readField, readValue]
  | len bytes =>
    have h1 : (num * 8 + 2) % 8 = 2 := by omega
    have h2 : (num * 8 + 2) / 8 = num := by omega
    simp [encodeField, readField, readValue, h1, h2, Nat.not_lt.mpr (Nat.le_add_right _ _)]
  | fixed32 n =>
    have h1 : (num * 8 + 5) % 8 = 5 := by omega
    have h2 : (num * 8 + 5) / 8 = num := by omega
    simp [encodeField, readField, readValue, h1, h2]

theorem encodeField_pos (f : Field) : 0 < (encodeField f).length := by
  obtain ⟨num, value⟩ := f
  cases value <;> simp [encodeField]

theorem parseN_encode : ∀ (fs : List Field) (n : Nat), (encode fs).length ≤ n →
    parseN n (encode fs) = some fs
  | [], n, _ => by cases n <;> rfl
  | f :: fs, n, h => by
    have hpos := encodeField_pos f
    have he : encode (f :: fs) = encodeField f ++ encode fs := rfl
    rw [he, List.length_append] at h
    match n, h with
    | 0, h => omega
    | n + 1, h =>
      obtain ⟨b, bs, hb⟩ : ∃ b bs, encodeField f ++ encode fs = b :: bs :=
        List.exists_cons_of_ne_nil fun hn => by
          have := congrArg List.length hn
          rw [List.length_append, List.length_nil] at this
          omega
      rw [he, hb, parseN, ← hb, readField_encodeField]
      simp [parseN_encode fs n (by omega)]

@[simp] theorem parse_encode (fs : List Field) : parse (encode fs) = some fs :=
  parseN_encode fs _ (Nat.le_refl _)

theorem encodeField_len_length {num : Nat} (h : (num * 8 + 2).log2 < 7) (b : Bytes) :
    (encodeField (num, .len b)).length = 1 + (b.length.log2 / 7 + 1) + b.length := by
  simp only [encodeField, List.length_append, varint_length]
  omega

theorem encodeField_varint_length {num : Nat} (h : (num * 8).log2 < 7) (n : Nat) :
    (encodeField (num, .varint n)).length = 1 + (n.log2 / 7 + 1) := by
  simp only [encodeField, List.length_append, varint_length]
  omega

theorem encodeField_fixed32_length {num : Nat} (h : (num * 8 + 5).log2 < 7) (n : UInt32) :
    (encodeField (num, .fixed32 n)).length = 5 := by
  simp only [encodeField, List.length_append, varint_length, fixed32, List.length_cons,
    List.length_nil]
  omega

/-! ## Slots -/

abbrev Slot := Nat × Option Value

/-- The fields of the slots that have a value. -/
def fields (slots : List Slot) : List Field := slots.filterMap fun s => s.2.map (s.1, ·)

/-- The message with these slots. -/
def message (slots : List Slot) : Bytes := encode (fields slots)

/-- The last occurrence of one of the field numbers `nums`. -/
def lastOf (nums : List Nat) : List Field → Option Field
  | [] => none
  | f :: fs => (lastOf nums fs).or (if f.1 ∈ nums then some f else none)

def last (num : Nat) (fs : List Field) : Option Value := (lastOf [num] fs).map Prod.snd

/-- The last slot with a value whose number is one of `nums`. -/
def slotOf (nums : List Nat) : List Slot → Option Field
  | [] => none
  | s :: ss => (slotOf nums ss).or (if s.1 ∈ nums then s.2.map (s.1, ·) else none)

@[simp] theorem lastOf_fields (nums : List Nat) (slots : List Slot) :
    lastOf nums (fields slots) = slotOf nums slots := by
  induction slots with
  | nil => rfl
  | cons s ss ih =>
    obtain ⟨num, value⟩ := s
    cases value with
    | none => simpa [fields, slotOf] using ih
    | some v =>
      have hf : fields ((num, some v) :: ss) = (num, v) :: fields ss := rfl
      rw [hf, lastOf, ih]
      rfl

@[simp] theorem last_fields (num : Nat) (slots : List Slot) :
    last num (fields slots) = (slotOf [num] slots).map Prod.snd := by
  rw [last, lastOf_fields]

theorem message_cons_some (num : Nat) (v : Value) (ss : List Slot) :
    message ((num, some v) :: ss) = encodeField (num, v) ++ message ss := rfl

theorem message_cons_none (num : Nat) (ss : List Slot) :
    message ((num, none) :: ss) = message ss := rfl

/-! ## Scalars

A scalar without presence is left out when it is zero. -/

def u32 (n : UInt32) : Option Value := if n = 0 then none else some (.varint n.toNat)
def i32 (n : Int32) : Option Value :=
  if n = 0 then none else some (.varint (n.toBitVec.signExtend 64).toNat)
def bool (b : Bool) : Option Value := if b then some (.varint 1) else none
def f32 (n : UInt32) : Option Value := if n = 0 then none else some (.fixed32 n)
def bytes (b : Bytes) : Option Value := if b = [] then none else some (.len b)
def utf8 (s : String) : Bytes := s.toByteArray.data.toList
def str (s : String) : Option Value := bytes (utf8 s)

def u32Of : Option Value → UInt32
  | some (.varint n) => UInt32.ofNat n
  | _ => 0

def i32Of : Option Value → Int32
  | some (.varint n) => Int32.ofBitVec (BitVec.ofNat 32 n)
  | _ => 0

def boolOf : Option Value → Bool
  | some (.varint n) => n != 0
  | _ => false

def f32Of : Option Value → UInt32
  | some (.fixed32 n) => n
  | _ => 0

def bytesOf : Option Value → Bytes
  | some (.len b) => b
  | _ => []

/-- A string, `none` where the bytes are not UTF-8. -/
def strOf (v : Option Value) : Option String := String.fromUTF8? ⟨(bytesOf v).toArray⟩

@[simp] theorem u32Of_u32 (n : UInt32) : u32Of (u32 n) = n := by
  unfold u32
  split <;> simp_all [u32Of]

theorem i32_bits (x : BitVec 32) : BitVec.ofNat 32 (x.signExtend 64).toNat = x := by
  apply BitVec.eq_of_getElem_eq
  intro i hi
  rw [BitVec.ofNat_toNat, BitVec.getElem_setWidth, BitVec.getLsbD_signExtend]
  simp [hi]
  omega

@[simp] theorem i32Of_i32 (n : Int32) : i32Of (i32 n) = n := by
  unfold i32
  split
  · simp_all [i32Of]
  · simp only [i32Of, i32_bits, Int32.ofBitVec_toBitVec]

@[simp] theorem boolOf_bool (b : Bool) : boolOf (bool b) = b := by cases b <;> rfl

@[simp] theorem f32Of_f32 (n : UInt32) : f32Of (f32 n) = n := by
  unfold f32
  split <;> simp_all [f32Of]

@[simp] theorem bytesOf_bytes (b : Bytes) : bytesOf (bytes b) = b := by
  unfold bytes
  split <;> simp_all [bytesOf]

@[simp] theorem strOf_str (s : String) : strOf (str s) = some s := by
  simp [strOf, str, utf8, String.fromUTF8?, String.fromUTF8, s.isValidUTF8]

/-! Scalars with presence. -/

def someU32 (o : Option UInt32) : Option Value := o.map fun n => .varint n.toNat
def someI32 (o : Option Int32) : Option Value :=
  o.map fun n => .varint (n.toBitVec.signExtend 64).toNat
def someF32 (o : Option UInt32) : Option Value := o.map .fixed32
def someSF32 (o : Option Int32) : Option Value := o.map fun n => .fixed32 n.toUInt32

def someU32Of (v : Option Value) : Option UInt32 := v.map fun w => u32Of (some w)
def someI32Of (v : Option Value) : Option Int32 := v.map fun w => i32Of (some w)
def someF32Of (v : Option Value) : Option UInt32 := v.map fun w => f32Of (some w)
def someSF32Of (v : Option Value) : Option Int32 := v.map fun w => (f32Of (some w)).toInt32

@[simp] theorem someU32Of_someU32 (o : Option UInt32) : someU32Of (someU32 o) = o := by
  cases o <;> simp [someU32Of, someU32, u32Of]

@[simp] theorem someI32Of_someI32 (o : Option Int32) : someI32Of (someI32 o) = o := by
  cases o with
  | none => rfl
  | some n => simp only [someI32Of, someI32, i32Of, Option.map_some, i32_bits, Int32.ofBitVec_toBitVec]

@[simp] theorem someF32Of_someF32 (o : Option UInt32) : someF32Of (someF32 o) = o := by
  cases o <;> simp [someF32Of, someF32, f32Of]

@[simp] theorem someSF32Of_someSF32 (o : Option Int32) : someSF32Of (someSF32 o) = o := by
  cases o <;> simp [someSF32Of, someSF32, f32Of]

end Wire
