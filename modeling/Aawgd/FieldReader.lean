import Aawgd.WireFormat

/-! The fields of a protobuf message read back: a varint, a field, and a message as the
list of its fields. What the encoders of `WireFormat` write is read as it was written. -/
namespace WireFormat

/-- The number at the start of the bytes, and what follows it. -/
def readVarint : List UInt8 → Option (Nat × List UInt8)
  | [] => none
  | b :: rest =>
    if b < 128 then some (b.toNat, rest)
    else (readVarint rest).map fun (n, rest) => (b.toNat - 128 + 128 * n, rest)

theorem readVarint_cons (b : UInt8) (rest : List UInt8) : readVarint (b :: rest) =
    if b < 128 then some (b.toNat, rest)
    else (readVarint rest).map fun (n, rest) => (b.toNat - 128 + 128 * n, rest) := rfl

theorem readVarint_varint (n : Nat) (rest : List UInt8) :
    readVarint (varint n ++ rest) = some (n, rest) := by
  induction n using Nat.strongRecOn with
  | ind n ih =>
    rw [varint]
    split
    next h =>
      have hb : (UInt8.ofNat n).toNat = n := by
        rw [UInt8.toNat_ofNat']
        omega
      have hlast : UInt8.ofNat n < 128 := by
        rw [UInt8.lt_iff_toNat_lt, hb]
        simpa using h
      rw [List.singleton_append, readVarint_cons, if_pos hlast, hb]
    next h =>
      have hb : (UInt8.ofNat (128 + n % 128)).toNat = 128 + n % 128 := by
        rw [UInt8.toNat_ofNat']
        omega
      have hmore : ¬ UInt8.ofNat (128 + n % 128) < 128 := by
        rw [UInt8.lt_iff_toNat_lt, hb]
        simp
      have hsum : 128 + n % 128 - 128 + 128 * (n / 128) = n := by omega
      rw [List.cons_append, readVarint_cons, if_neg hmore, ih (n / 128) (by omega),
        Option.map_some, hb]
      simp only [hsum]

/-- A field with its number: a varint, or bytes behind their length. -/
inductive Field where
  | int (number value : Nat)
  | string (number : Nat) (value : List UInt8)
  deriving DecidableEq

namespace Field

def number : Field → Nat
  | .int number _ | .string number _ => number

def bytes : Field → List UInt8
  | .int number value => varint (8 * number) ++ varint value
  | .string number value => varint (8 * number + 2) ++ varint value.length ++ value

end Field

/-- Field numbers start at one; of the wire types, two are known here. -/
def readField (s : List UInt8) : Option (Field × List UInt8) := do
  let (tag, rest) ← readVarint s
  if tag / 8 = 0 then none
  else if tag % 8 = 0 then
    let (value, rest) ← readVarint rest
    return (.int (tag / 8) value, rest)
  else if tag % 8 = 2 then
    let (length, rest) ← readVarint rest
    if length ≤ rest.length then return (.string (tag / 8) (rest.take length), rest.drop length)
    else none
  else none

/-- All fields, at most as many as the bound says. -/
def readFields : Nat → List UInt8 → Option (List Field)
  | _, [] => some []
  | 0, _ => none
  | n+1, s => do
    let (field, rest) ← readField s
    let fields ← readFields n rest
    return field :: fields

theorem readField_bytes {f : Field} (h : 0 < f.number) (rest : List UInt8) :
    readField (f.bytes ++ rest) = some (f, rest) := by
  cases f with
  | int number value =>
    have hdiv : 8 * number / 8 = number := by omega
    have hnumber : number ≠ 0 := Nat.ne_of_gt h
    simp [readField, Field.bytes, readVarint_varint, hdiv, hnumber, - Nat.div_eq_zero_iff]
  | string number value =>
    have hdiv : (8 * number + 2) / 8 = number := by omega
    have hmod : (8 * number + 2) % 8 = 2 := by omega
    have hnumber : number ≠ 0 := Nat.ne_of_gt h
    simp [readField, Field.bytes, readVarint_varint, hdiv, hmod, hnumber, - Nat.div_eq_zero_iff]

theorem Field.bytes_ne_nil (f : Field) : f.bytes ≠ [] := by
  have hvarint (n : Nat) : varint n ≠ [] := by
    rw [varint]
    split <;> simp
  cases f <;> simp [Field.bytes, hvarint]

theorem readFields_succ {n : Nat} {s : List UInt8} (hs : s ≠ []) : readFields (n + 1) s =
    (readField s).bind fun p => (readFields n p.2).map (p.1 :: ·) := by
  cases s with
  | nil => exact absurd rfl hs
  | cons b s =>
    cases hfield : readField (b :: s) with
    | none => simp [readFields, hfield]
    | some p => cases hrest : readFields n p.2 <;> simp [readFields, hfield, hrest]

/-- A message of well-numbered fields is read back. -/
theorem readFields_bytes (fs : List Field) (h : ∀ f ∈ fs, 0 < f.number) {n : Nat}
    (hn : fs.length ≤ n) : readFields n (fs.flatMap Field.bytes) = some fs := by
  induction fs generalizing n with
  | nil => cases n <;> rfl
  | cons f fs ih =>
    obtain _ | n := n
    · simp at hn
    have hne : f.bytes ++ fs.flatMap Field.bytes ≠ [] := by simp [f.bytes_ne_nil]
    have hrest := ih (fun f' hf' => h f' (List.mem_cons_of_mem f hf')) (Nat.le_of_succ_le_succ hn)
    rw [List.flatMap_cons, readFields_succ hne, readField_bytes (h f List.mem_cons_self),
      Option.bind_some, hrest, Option.map_some]

/-- No message starts with a zero. -/
theorem readFields_zero (n : Nat) (s : List UInt8) : readFields n (0 :: s) = none := by
  cases n with
  | zero => rfl
  | succ n => rfl

/-! Signed values -/

/-- A varint as an `int32`: its low 32 bits in two's complement. -/
def int32 (n : Nat) : Int := (Int32.ofNat n).toInt

theorem int32_unsigned64 {v : Int} (h : -2 ^ 31 ≤ v) (h' : v < 2 ^ 31) :
    int32 (unsigned64 v) = v := by
  have hn : ((v % 2 ^ 64).toNat : Int) = v % 2 ^ 64 := Int.toNat_of_nonneg (by omega)
  have hsize : Int32.size = 4294967296 := rfl
  rw [int32, unsigned64, Int32.toInt_ofNat', hn, hsize, Int.bmod_def]
  split <;> omega

end WireFormat
