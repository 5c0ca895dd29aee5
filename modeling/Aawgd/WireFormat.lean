import Mathlib.Algebra.Group.Int.Defs
import Mathlib.Algebra.Group.Nat.Defs
import Mathlib.Data.List.Basic

/-! Numbers and fields on the wire: 16-bit numbers in big-endian order, base-128
varints, and the two kinds of protobuf fields made of them. -/
namespace WireFormat

/-! Big-endian 16-bit numbers -/

def bigEndian16 (n : UInt16) : List UInt8 :=
  [UInt8.ofNat (n.toNat / 256), UInt8.ofNat (n.toNat % 256)]

def fromBigEndian16 (high low : UInt8) : UInt16 := UInt16.ofNat (256 * high.toNat + low.toNat)

@[simp] theorem bigEndian16_length (n : UInt16) : (bigEndian16 n).length = 2 := rfl

theorem fromBigEndian16_ofNat (n : UInt16) :
    fromBigEndian16 (UInt8.ofNat (n.toNat / 256)) (UInt8.ofNat (n.toNat % 256)) = n := by
  have hn := n.toNat_lt
  have hhigh : n.toNat / 256 < 256 := by omega
  have hlow : n.toNat % 256 < 256 := by omega
  apply UInt16.toNat_inj.mp
  simp only [fromBigEndian16, UInt16.toNat_ofNat', UInt8.toNat_ofNat', Nat.reducePow,
    Nat.mod_eq_of_lt hhigh, Nat.mod_eq_of_lt hlow]
  omega

/-! Varints -/

/-- Seven bits a byte, the lowest first, the high bit set on all but the last. -/
def varint (n : Nat) : List UInt8 :=
  if n / 128 = 0 then [UInt8.ofNat n]
  else UInt8.ofNat (128 + n % 128) :: varint (n / 128)
  termination_by n

def varintSize (n : Nat) : Nat := if n / 128 = 0 then 1 else 1 + varintSize (n / 128)
  termination_by n

theorem varint_length (n : Nat) : (varint n).length = varintSize n := by
  induction n using Nat.strongRecOn with
  | ind n ih =>
    rw [varint, varintSize]
    split
    · rfl
    · rw [List.length_cons, ih (n / 128) (by omega), Nat.add_comm]

/-! Fields -/

/-- A signed number as its 64-bit two's complement. -/
def unsigned64 (v : Int) : Nat := (v % 2 ^ 64).toNat

def intField (field : Nat) (v : Int) : List UInt8 := varint (8 * field) ++ varint (unsigned64 v)

def intFieldSize (v : Int) : Nat := 1 + varintSize (unsigned64 v)

def stringField (field : Nat) (s : List UInt8) : List UInt8 :=
  varint (8 * field + 2) ++ varint s.length ++ s

def stringFieldSize (length : Nat) : Nat := 1 + (length + varintSize length)

/-- The tags of the first fifteen fields take one byte. -/
theorem tag_length {field wireType : Nat} (h : field < 16) (hw : wireType < 8) :
    (varint (8 * field + wireType)).length = 1 := by
  rw [varint, if_pos (by omega), List.length_singleton]

theorem intField_length {field : Nat} (h : field < 16) (v : Int) :
    (intField field v).length = intFieldSize v := by
  have htag := tag_length h (show 0 < 8 by omega)
  rw [Nat.add_zero] at htag
  rw [intField, List.length_append, htag, varint_length, intFieldSize]

theorem stringField_length {field : Nat} (h : field < 16) (s : List UInt8) :
    (stringField field s).length = stringFieldSize s.length := by
  rw [stringField, List.length_append, List.length_append, tag_length h (by omega), varint_length,
    stringFieldSize]
  omega

end WireFormat
