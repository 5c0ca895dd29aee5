import Aawgd.FieldReader
import Mathlib.Algebra.Order.Ring.Nat
import Mathlib.Data.List.Nodup
import Mathlib.Logic.Function.Basic

/-! Messages of required fields as the protobuf compiler generates them for its small
runtime: has bits, sizes, serializing, merging and parsing, each driven by the table of the
fields. The runtime that reads the wire is a parameter with the behaviour it documents. -/
namespace LiteMessage
open WireFormat

/-! Tables and messages -/

/-- What a field holds. An enumeration is told which numbers are among its values. -/
inductive Kind where
  | string
  | int32
  | enum (isValid : Int → Bool)

structure FieldInfo where
  bit : Nat
  number : Nat
  kind : Kind

def Kind.wireType : Kind → Nat
  | .string => 2
  | .int32 | .enum _ => 0

def FieldInfo.tag (f : FieldInfo) : Nat := 8 * f.number + f.kind.wireType

/-- The fields of a message; their tags take one byte. -/
structure Table where
  fields : List FieldInfo
  bits_lt : ∀ f ∈ fields, f.bit < 32
  numbers : ∀ f ∈ fields, 0 < f.number ∧ f.number < 16
  bits_nodup : (fields.map FieldInfo.bit).Nodup
  numbers_nodup : (fields.map FieldInfo.number).Nodup

/-- The values are kept by has bit; `text` for strings, `number` for the others. -/
@[ext] structure Message where
  hasBits : BitVec 32
  text : Nat → List UInt8
  number : Nat → Int
  unknownFields : List UInt8

namespace Message

/-- A message that was just constructed or cleared. -/
def empty : Message := ⟨0, fun _ => [], fun _ => 0, []⟩

def has (m : Message) (f : FieldInfo) : Bool := m.hasBits.getLsbD f.bit

def setText (m : Message) (f : FieldInfo) (value : List UInt8) : Message :=
  { m with hasBits := m.hasBits ||| BitVec.twoPow 32 f.bit,
           text := Function.update m.text f.bit value }

def setNumber (m : Message) (f : FieldInfo) (value : Int) : Message :=
  { m with hasBits := m.hasBits ||| BitVec.twoPow 32 f.bit,
           number := Function.update m.number f.bit value }

def addUnknown (m : Message) (record : List UInt8) : Message :=
  { m with unknownFields := m.unknownFields ++ record }

def orBits (m : Message) (bits : BitVec 32) : Message := { m with hasBits := m.hasBits ||| bits }

end Message

/-- All has bits of the table. -/
def Table.mask (t : Table) : BitVec 32 :=
  t.fields.foldr (fun f bits => BitVec.twoPow 32 f.bit ||| bits) 0

def isInitialized (t : Table) (m : Message) : Bool :=
  (m.hasBits &&& t.mask) ^^^ t.mask == 0

/-! Serializing -/

def fieldBytes (m : Message) (f : FieldInfo) : List UInt8 :=
  match f.kind with
  | .string => stringField f.number (m.text f.bit)
  | .int32 | .enum _ => intField f.number (m.number f.bit)

def fieldSize (m : Message) (f : FieldInfo) : Nat :=
  match f.kind with
  | .string => stringFieldSize (m.text f.bit).length
  | .int32 | .enum _ => intFieldSize (m.number f.bit)

/-- `_InternalSerialize`. -/
def internalSerialize (t : Table) (m : Message) : List UInt8 :=
  (t.fields.flatMap fun f => if m.has f then fieldBytes m f else []) ++ m.unknownFields

def requiredFieldsByteSizeFallback (t : Table) (m : Message) : Nat :=
  (t.fields.map fun f => if m.has f then fieldSize m f else 0).sum

def byteSizeLong (t : Table) (m : Message) : Nat :=
  (if isInitialized t m then (t.fields.map (fieldSize m)).sum
    else requiredFieldsByteSizeFallback t m) + m.unknownFields.length

/-! Merging and clearing -/

/-- A string is copied by its setter, a number is only stored. -/
def copyField (source m : Message) (f : FieldInfo) : Message :=
  match f.kind with
  | .string => m.setText f (source.text f.bit)
  | .int32 | .enum _ => { m with number := Function.update m.number f.bit (source.number f.bit) }

def copyFields (source m : Message) (fs : List FieldInfo) : Message :=
  fs.foldl (fun m f => if source.has f then copyField source m f else m) m

def mergeFrom (t : Table) (m source : Message) : Message :=
  let m :=
    if source.hasBits &&& t.mask = 0 then m
    else (copyFields source m t.fields).orBits source.hasBits
  m.addUnknown source.unknownFields

def clearField (m : Message) (f : FieldInfo) : Message :=
  match f.kind with
  | .string => { m with text := Function.update m.text f.bit [] }
  | .int32 | .enum _ => { m with number := Function.update m.number f.bit 0 }

def clearFields (clears : FieldInfo → Bool) (m : Message) (fs : List FieldInfo) : Message :=
  fs.foldl (fun m f => if clears f then clearField m f else m) m

/-- Strings are emptied where they are there, numbers are zeroed together. -/
def clear (t : Table) (zeroed : Bool) (m : Message) : Message :=
  let clears (f : FieldInfo) : Bool :=
    match f.kind with
    | .string => m.has f
    | .int32 | .enum _ => zeroed
  { clearFields clears m t.fields with hasBits := 0, unknownFields := [] }

/-! Has bits -/

theorem mask_bit (fs : List FieldInfo) (i : Nat) :
    (fs.foldr (fun f bits => BitVec.twoPow 32 f.bit ||| bits) (0 : BitVec 32)).getLsbD i = true ↔
      ∃ f ∈ fs, f.bit = i ∧ i < 32 := by
  induction fs with
  | nil => simp
  | cons f fs ih =>
    rw [List.foldr_cons, BitVec.getLsbD_or, Bool.or_eq_true, ih, BitVec.getLsbD_twoPow]
    simp only [Bool.and_eq_true, decide_eq_true_eq, List.mem_cons, exists_eq_or_imp]
    refine or_congr ⟨fun h => ⟨h.2, h.2 ▸ h.1⟩, fun h => ⟨h.1 ▸ h.2, h.1⟩⟩ Iff.rfl

theorem Table.mask_iff (t : Table) (i : Nat) :
    t.mask.getLsbD i = true ↔ ∃ f ∈ t.fields, f.bit = i := by
  rw [Table.mask, mask_bit]
  constructor
  · rintro ⟨f, hf, hbit, -⟩
    exact ⟨f, hf, hbit⟩
  · rintro ⟨f, hf, rfl⟩
    exact ⟨f, hf, rfl, t.bits_lt f hf⟩

/-- A message is initialized when every field of the table is there. -/
theorem isInitialized_iff (t : Table) (m : Message) :
    isInitialized t m = true ↔ ∀ f ∈ t.fields, m.has f = true := by
  simp only [isInitialized, beq_iff_eq, Message.has]
  constructor
  · intro h f hf
    have hmask := (t.mask_iff f.bit).mpr ⟨f, hf, rfl⟩
    have hbit := congrArg (BitVec.getLsbD · f.bit) h
    simpa [hmask] using hbit
  · intro h
    apply BitVec.eq_of_getLsbD_eq
    intro i hi
    simp only [BitVec.getLsbD_xor, BitVec.getLsbD_and]
    cases hmask : t.mask.getLsbD i with
    | false => simp
    | true =>
      obtain ⟨f, hf, rfl⟩ := (t.mask_iff i).mp hmask
      simp [h f hf]

/-! Sizes -/

theorem fieldBytes_length {f : FieldInfo} (h : f.number < 16) (m : Message) :
    (fieldBytes m f).length = fieldSize m f := by
  unfold fieldBytes fieldSize
  cases f.kind with
  | string => exact stringField_length h _
  | int32 | enum isValid => exact intField_length h _

/-- Both ways to compute the size give the number of bytes that are written, for a message
with any of its fields missing. -/
theorem byteSizeLong_eq (t : Table) (m : Message) :
    byteSizeLong t m = (internalSerialize t m).length := by
  have hfallback : requiredFieldsByteSizeFallback t m =
      (t.fields.flatMap fun f => if m.has f then fieldBytes m f else []).length := by
    rw [requiredFieldsByteSizeFallback, List.length_flatMap]
    congr 1
    refine List.map_congr_left fun f hf => ?_
    cases m.has f with
    | false => rfl
    | true => exact (fieldBytes_length (t.numbers f hf).2 m).symm
  rw [byteSizeLong, internalSerialize, List.length_append, ← hfallback]
  congr 1
  split
  next hall =>
    rw [requiredFieldsByteSizeFallback]
    congr 1
    refine List.map_congr_left fun f hf => ?_
    rw [(isInitialized_iff t m).mp hall f hf]
    rfl
  next => rfl

/-! The runtime -/

/-- The longest string the runtime reads: a size must stay clear of the largest `int`. -/
def maxString : Nat := 2 ^ 31 - 17

/-- The functions of the protobuf runtime that generated parsers call, with what is left of
the input, and what is documented of them. `parseUnknown` is handed the tag and gives the
bytes to keep; they are written so that they are kept once more when they are read again. -/
structure Runtime where
  readTag : List UInt8 → Option (Nat × List UInt8)
  readString : List UInt8 → Option (List UInt8 × List UInt8)
  readVarint32 : List UInt8 → Option (Nat × List UInt8)
  readVarint64 : List UInt8 → Option (Nat × List UInt8)
  parseUnknown : Nat → List UInt8 → Option (List UInt8 × List UInt8)
  readTag_some : ∀ {s tag rest}, readTag s = some (tag, rest) →
    tag < 2 ^ 32 ∧ rest.length < s.length
  readString_some : ∀ {s value rest}, readString s = some (value, rest) →
    value.length ≤ maxString ∧ rest.length ≤ s.length
  readVarint32_some : ∀ {s value rest}, readVarint32 s = some (value, rest) →
    rest.length ≤ s.length
  readVarint64_some : ∀ {s value rest}, readVarint64 s = some (value, rest) →
    value < 2 ^ 64 ∧ rest.length ≤ s.length
  parseUnknown_some : ∀ {tag s kept rest}, parseUnknown tag s = some (kept, rest) →
    rest.length ≤ s.length ∧
      ∃ body, kept = varint tag ++ body ∧ ∀ s', parseUnknown tag (body ++ s') = some (kept, s')
  readTag_varint : ∀ tag s, 0 < tag → tag < 2 ^ 32 → readTag (varint tag ++ s) = some (tag, s)
  readString_encoded : ∀ value s, value.length ≤ maxString →
    readString (varint value.length ++ value ++ s) = some (value, s)
  readVarint32_varint : ∀ n s, n < 2 ^ 64 → readVarint32 (varint n ++ s) = some (n % 2 ^ 32, s)
  readVarint64_varint : ∀ n s, n < 2 ^ 64 → readVarint64 (varint n ++ s) = some (n, s)

/-! Parsing -/

/-- What a round of a parser comes to: the next round, the end of the message at a tag that
ends groups, or a failure. -/
inductive Round where
  | next (m : Message) (rest : List UInt8)
  | ended (m : Message) (tag : Nat)
  | failed

/-- The case of a field in the parser's switch. -/
def parseField (rt : Runtime) (m : Message) (f : FieldInfo) (s : List UInt8) : Round :=
  match f.kind with
  | .string =>
    match rt.readString s with
    | some (value, rest) => .next (m.setText f value) rest
    | none => .failed
  | .int32 =>
    match rt.readVarint32 s with
    | some (value, rest) => .next (m.setNumber f (int32 value)) rest
    | none => .failed
  | .enum isValid =>
    match rt.readVarint64 s with
    | some (value, rest) =>
      -- the number is cut to an int before it is looked up
      if isValid (int32 value) then .next (m.setNumber f (int32 value)) rest
      else .next (m.addUnknown (varint (8 * f.number) ++ varint value)) rest
    | none => .failed

def parseRecord (rt : Runtime) (t : Table) (m : Message) (tag : Nat) (s : List UInt8) : Round :=
  match t.fields.find? fun f => f.number == tag / 8 && f.tag == tag % 256 with
  | some f => parseField rt m f s
  | none =>
    if tag = 0 ∨ tag % 8 = 4 then .ended m tag
    else
      match rt.parseUnknown tag s with
      | some (kept, rest) => .next (m.addUnknown kept) rest
      | none => .failed

theorem parseField_le {rt : Runtime} {m m' : Message} {f : FieldInfo} {s rest : List UInt8}
    (h : parseField rt m f s = .next m' rest) : rest.length ≤ s.length := by
  unfold parseField at h
  split at h
  · split at h
    next hread =>
      cases h
      exact (rt.readString_some hread).2
    next => cases h
  · split at h
    next hread =>
      cases h
      exact rt.readVarint32_some hread
    next => cases h
  · split at h
    next hread =>
      split at h
      · cases h
        exact (rt.readVarint64_some hread).2
      · cases h
        exact (rt.readVarint64_some hread).2
    next => cases h

theorem parseRecord_le {rt : Runtime} {t : Table} {m m' : Message} {tag : Nat}
    {s rest : List UInt8} (h : parseRecord rt t m tag s = .next m' rest) :
    rest.length ≤ s.length := by
  unfold parseRecord at h
  split at h
  next => exact parseField_le h
  next =>
    split at h
    next => cases h
    next =>
      split at h
      next hread =>
        cases h
        exact (rt.parseUnknown_some hread).1
      next => cases h

/-- What a parser comes to, with the tag that ended it early. -/
inductive Parsed where
  | done (m : Message)
  | ended (m : Message) (tag : Nat)
  | failed

/-- `_InternalParse`, from a message that may hold something already. -/
def internalParse (rt : Runtime) (t : Table) (m : Message) (s : List UInt8) : Parsed :=
  if s = [] then .done m
  else
    match _htag : rt.readTag s with
    | none => .failed
    | some (tag, rest) =>
      match _hround : parseRecord rt t m tag rest with
      | .failed => .failed
      | .ended m tag => .ended m tag
      | .next m rest => internalParse rt t m rest
  termination_by s.length
  decreasing_by
    have htag := (rt.readTag_some _htag).2
    have hround := parseRecord_le _hround
    omega

/-! Records, one by one -/

section parsing
variable {rt : Runtime} {t : Table} {m : Message}

theorem varint_ne_nil (n : Nat) : varint n ≠ [] := by
  rw [varint]
  split <;> simp

theorem internalParse_round {s rest : List UInt8} {tag : Nat} (hne : s ≠ [])
    (hread : rt.readTag s = some (tag, rest)) :
    internalParse rt t m s =
      match parseRecord rt t m tag rest with
      | .failed => .failed
      | .ended m tag => .ended m tag
      | .next m rest => internalParse rt t m rest := by
  rw [internalParse, if_neg hne]
  split
  next hnone =>
    rw [hread] at hnone
    cases hnone
  next tag' rest' hsome =>
    rw [hread] at hsome
    cases hsome
    split <;> simp_all

/-- A round whose tag is written as a varint. -/
theorem internalParse_tag {tag : Nat} (hpos : 0 < tag) (hlt : tag < 2 ^ 32) (s : List UInt8) :
    internalParse rt t m (varint tag ++ s) =
      match parseRecord rt t m tag s with
      | .failed => .failed
      | .ended m tag => .ended m tag
      | .next m rest => internalParse rt t m rest :=
  internalParse_round (by simp [varint_ne_nil]) (rt.readTag_varint tag s hpos hlt)

theorem tag_parts {f : FieldInfo} (h : f.number < 16) :
    f.tag / 8 = f.number ∧ f.tag % 256 = f.tag ∧ f.tag < 2 ^ 32 := by
  have hwire : f.kind.wireType < 8 := by
    cases f.kind <;> simp [Kind.wireType]
  simp only [FieldInfo.tag]
  omega

theorem eq_of_number {f g : FieldInfo} (hf : f ∈ t.fields) (hg : g ∈ t.fields)
    (h : f.number = g.number) : f = g :=
  List.inj_on_of_nodup_map t.numbers_nodup hf hg h

theorem find_field {f : FieldInfo} (hf : f ∈ t.fields) :
    (t.fields.find? fun g => g.number == f.tag / 8 && g.tag == f.tag % 256) = some f := by
  obtain ⟨hdiv, hmod, -⟩ := tag_parts (t.numbers f hf).2
  rw [hdiv, hmod]
  cases hfind : t.fields.find? fun g => g.number == f.number && g.tag == f.tag with
  | none =>
    have hmiss := List.find?_eq_none.mp hfind f hf
    simp at hmiss
  | some g =>
    have hg := List.find?_some hfind
    simp only [Bool.and_eq_true, beq_iff_eq] at hg
    rw [eq_of_number (List.mem_of_find?_eq_some hfind) hf hg.1]

/-- The round of a field of the table. -/
theorem internalParse_field {f : FieldInfo} (hf : f ∈ t.fields) (s : List UInt8) :
    internalParse rt t m (varint f.tag ++ s) =
      match parseField rt m f s with
      | .failed => .failed
      | .ended m tag => .ended m tag
      | .next m rest => internalParse rt t m rest := by
  obtain ⟨-, -, hlt⟩ := tag_parts (t.numbers f hf).2
  have hpos : 0 < f.tag := by
    have hnumber := (t.numbers f hf).1
    simp only [FieldInfo.tag]
    omega
  rw [internalParse_tag hpos hlt, parseRecord, find_field hf]

theorem unsigned64_lt (v : Int) : unsigned64 v < 2 ^ 64 := by
  unfold unsigned64
  omega

theorem int32_mod (n : Nat) : int32 (n % 2 ^ 32) = int32 n := by
  unfold int32
  rw [Int32.toInt_ofNat', Int32.toInt_ofNat']
  have hsize : Int32.size = 2 ^ 32 := rfl
  rw [hsize, Int.natCast_mod, Int.emod_bmod]

theorem internalParse_text {f : FieldInfo} (hf : f ∈ t.fields) (hkind : f.kind = .string)
    {value : List UInt8} (hlen : value.length ≤ maxString) (rest : List UInt8) :
    internalParse rt t m (stringField f.number value ++ rest) =
      internalParse rt t (m.setText f value) rest := by
  have htag : 8 * f.number + 2 = f.tag := by rw [FieldInfo.tag, hkind]; rfl
  have hread := rt.readString_encoded value rest hlen
  rw [stringField, htag, List.append_assoc, List.append_assoc, internalParse_field hf, parseField,
    hkind, ← List.append_assoc]
  simp only [hread]

theorem internalParse_number {f : FieldInfo} (hf : f ∈ t.fields) {v : Int}
    (hkind : f.kind = .int32 ∨ ∃ isValid, f.kind = .enum isValid ∧ isValid v = true)
    (hmin : -2 ^ 31 ≤ v) (hmax : v < 2 ^ 31) (rest : List UInt8) :
    internalParse rt t m (intField f.number v ++ rest) =
      internalParse rt t (m.setNumber f v) rest := by
  have htag : 8 * f.number = f.tag := by
    obtain hint | ⟨isValid, henum, -⟩ := hkind
    · rw [FieldInfo.tag, hint]; rfl
    · rw [FieldInfo.tag, henum]; rfl
  rw [intField, htag, List.append_assoc, internalParse_field hf, parseField]
  obtain hint | ⟨isValid, henum, hvalid⟩ := hkind
  · have hread := rt.readVarint32_varint (unsigned64 v) rest (unsigned64_lt v)
    rw [hint]
    simp only [hread, int32_mod, int32_unsigned64 hmin hmax]
  · have hread := rt.readVarint64_varint (unsigned64 v) rest (unsigned64_lt v)
    rw [henum]
    simp only [hread, int32_unsigned64 hmin hmax, hvalid, if_true]

/-! What is kept of other fields -/

/-- Bytes that are kept as they stand when they are read. -/
def Kept (rt : Runtime) (t : Table) (chunk : List UInt8) : Prop :=
  ∀ m s, internalParse rt t m (chunk ++ s) = internalParse rt t (m.addUnknown chunk) s

theorem kept_unknown {tag : Nat} {s kept rest : List UInt8}
    (hfind : (t.fields.find? fun f => f.number == tag / 8 && f.tag == tag % 256) = none)
    (hend : ¬ (tag = 0 ∨ tag % 8 = 4)) (hlt : tag < 2 ^ 32)
    (hread : rt.parseUnknown tag s = some (kept, rest)) : Kept rt t kept := by
  intro m s'
  obtain ⟨-, body, rfl, hbody⟩ := rt.parseUnknown_some hread
  have hpos : 0 < tag := Nat.pos_of_ne_zero fun h => hend (.inl h)
  rw [List.append_assoc, internalParse_tag hpos hlt, parseRecord, hfind]
  simp only [if_neg hend, hbody]

/-- A number that is no value of its enumeration is kept as it stood on the wire. -/
theorem kept_invalid {f : FieldInfo} (hf : f ∈ t.fields) {isValid : Int → Bool}
    (hkind : f.kind = .enum isValid) {value : Nat} (hvalue : value < 2 ^ 64)
    (hinvalid : isValid (int32 value) = false) :
    Kept rt t (varint (8 * f.number) ++ varint value) := by
  intro m s
  have htag : 8 * f.number = f.tag := by rw [FieldInfo.tag, hkind]; rfl
  have hread := rt.readVarint64_varint value s hvalue
  rw [List.append_assoc, htag, internalParse_field hf, parseField, hkind]
  simp [hread, hinvalid, htag]

theorem internalParse_nil : internalParse rt t m [] = .done m := by
  rw [internalParse, if_pos rfl]

theorem internalParse_kept {chunks : List (List UInt8)} (h : ∀ c ∈ chunks, Kept rt t c) :
    internalParse rt t m chunks.flatten = .done (m.addUnknown chunks.flatten) := by
  induction chunks generalizing m with
  | nil => simp [internalParse_nil, Message.addUnknown]
  | cons c chunks ih =>
    rw [List.flatten_cons, h c List.mem_cons_self,
      ih fun c' hc' => h c' (List.mem_cons_of_mem c hc')]
    simp [Message.addUnknown]

/-! Messages -/

/-- What holds of every message: its has bits are those of the table, what is not there holds
its default, the values are of their kinds, and what it keeps of other fields is kept again. -/
structure WellFormed (rt : Runtime) (t : Table) (m : Message) : Prop where
  bits : ∀ i, m.hasBits.getLsbD i = true → ∃ f ∈ t.fields, f.bit = i
  text : ∀ i, m.text i ≠ [] → ∃ f ∈ t.fields, f.bit = i ∧ f.kind = .string ∧ m.has f = true
  text_length : ∀ i, (m.text i).length ≤ maxString
  number : ∀ i, m.number i ≠ 0 → ∃ f ∈ t.fields, f.bit = i ∧ f.kind ≠ .string ∧ m.has f = true
  number_range : ∀ i, -2 ^ 31 ≤ m.number i ∧ m.number i < 2 ^ 31
  valid : ∀ f ∈ t.fields, m.has f = true → ∀ isValid, f.kind = .enum isValid →
    isValid (m.number f.bit) = true
  unknown : ∃ chunks : List (List UInt8),
    (∀ c ∈ chunks, Kept rt t c) ∧ m.unknownFields = chunks.flatten

theorem WellFormed.empty : WellFormed rt t .empty where
  bits i h := by simp [Message.empty] at h
  text i h := absurd rfl h
  text_length i := Nat.zero_le _
  number i h := absurd rfl h
  number_range i := by simp [Message.empty]
  valid f _ h := by simp [Message.empty, Message.has] at h
  unknown := ⟨[], by simp, rfl⟩

theorem set_bit (t : Table) {f : FieldInfo} (hf : f ∈ t.fields) (bits : BitVec 32) (i : Nat) :
    (bits ||| BitVec.twoPow 32 f.bit).getLsbD i = true ↔ bits.getLsbD i = true ∨ i = f.bit := by
  have hlt := t.bits_lt f hf
  rw [BitVec.getLsbD_or, BitVec.getLsbD_twoPow, Bool.or_eq_true, Bool.and_eq_true,
    decide_eq_true_eq, decide_eq_true_eq]
  exact or_congr Iff.rfl ⟨fun h => h.2.symm, fun h => ⟨hlt, h.symm⟩⟩

theorem eq_of_bit {f g : FieldInfo} (hf : f ∈ t.fields) (hg : g ∈ t.fields)
    (h : f.bit = g.bit) : f = g :=
  List.inj_on_of_nodup_map t.bits_nodup hf hg h

/-- The has bits after a field is set are still those of the table. -/
theorem WellFormed.set_bits (h : WellFormed rt t m) {f : FieldInfo} (hf : f ∈ t.fields) (i : Nat)
    (hi : (m.hasBits ||| BitVec.twoPow 32 f.bit).getLsbD i = true) : ∃ g ∈ t.fields, g.bit = i := by
  obtain hold | rfl := (set_bit t hf m.hasBits i).mp hi
  · exact h.bits i hold
  · exact ⟨f, hf, rfl⟩

theorem WellFormed.setText (h : WellFormed rt t m) {f : FieldInfo} (hf : f ∈ t.fields)
    (hkind : f.kind = .string) {value : List UInt8} (hlen : value.length ≤ maxString) :
    WellFormed rt t (m.setText f value) where
  bits := h.set_bits hf
  text i hi := by
    by_cases hbit : i = f.bit
    · exact ⟨f, hf, hbit.symm, hkind, (set_bit t hf _ _).mpr (.inr rfl)⟩
    · have hold : m.text i ≠ [] := by simpa [Message.setText, hbit] using hi
      obtain ⟨g, hg, hgi, hgkind, hhas⟩ := h.text i hold
      exact ⟨g, hg, hgi, hgkind, (set_bit t hf _ _).mpr (.inl hhas)⟩
  text_length i := by
    by_cases hbit : i = f.bit
    · simpa [Message.setText, hbit] using hlen
    · simpa [Message.setText, hbit] using h.text_length i
  number i hi := by
    obtain ⟨g, hg, hgi, hgkind, hhas⟩ := h.number i hi
    exact ⟨g, hg, hgi, hgkind, (set_bit t hf _ _).mpr (.inl hhas)⟩
  number_range := h.number_range
  valid g hg hhas isValid henum := by
    obtain hold | hbit := (set_bit t hf _ _).mp hhas
    · exact h.valid g hg hold isValid henum
    · rw [eq_of_bit hg hf hbit, hkind] at henum
      cases henum
  unknown := h.unknown

theorem WellFormed.setNumber (h : WellFormed rt t m) {f : FieldInfo} (hf : f ∈ t.fields)
    (hkind : f.kind ≠ .string) {value : Int} (hrange : -2 ^ 31 ≤ value ∧ value < 2 ^ 31)
    (hvalid : ∀ isValid, f.kind = .enum isValid → isValid value = true) :
    WellFormed rt t (m.setNumber f value) where
  bits := h.set_bits hf
  text i hi := by
    obtain ⟨g, hg, hgi, hgkind, hhas⟩ := h.text i hi
    exact ⟨g, hg, hgi, hgkind, (set_bit t hf _ _).mpr (.inl hhas)⟩
  text_length := h.text_length
  number i hi := by
    by_cases hbit : i = f.bit
    · exact ⟨f, hf, hbit.symm, hkind, (set_bit t hf _ _).mpr (.inr rfl)⟩
    · have hold : m.number i ≠ 0 := by simpa [Message.setNumber, hbit] using hi
      obtain ⟨g, hg, hgi, hgkind, hhas⟩ := h.number i hold
      exact ⟨g, hg, hgi, hgkind, (set_bit t hf _ _).mpr (.inl hhas)⟩
  number_range i := by
    by_cases hbit : i = f.bit
    · simpa [Message.setNumber, hbit] using hrange
    · simpa [Message.setNumber, hbit] using h.number_range i
  valid g hg hhas isValid henum := by
    by_cases hbit : g.bit = f.bit
    · rw [eq_of_bit hg hf hbit] at henum ⊢
      simpa [Message.setNumber] using hvalid isValid henum
    · obtain hold | hnew := (set_bit t hf _ _).mp hhas
      · simpa [Message.setNumber, hbit] using h.valid g hg hold isValid henum
      · exact absurd hnew hbit
  unknown := h.unknown

theorem WellFormed.addKept (h : WellFormed rt t m) {chunks : List (List UInt8)}
    (hkept : ∀ c ∈ chunks, Kept rt t c) : WellFormed rt t (m.addUnknown chunks.flatten) := by
  obtain ⟨old, hold, heq⟩ := h.unknown
  refine { h with unknown := ⟨old ++ chunks, fun c hc => ?_, by simp [Message.addUnknown, heq]⟩ }
  exact (List.mem_append.mp hc).elim (hold c) (hkept c)

theorem WellFormed.addChunk (h : WellFormed rt t m) {chunk : List UInt8} (hkept : Kept rt t chunk) :
    WellFormed rt t (m.addUnknown chunk) := by
  simpa using h.addKept (show ∀ c ∈ [chunk], Kept rt t c by simpa using hkept)

theorem int32_range (n : Nat) : -2 ^ 31 ≤ int32 n ∧ int32 n < 2 ^ 31 := by
  have hmin := Int32.le_toInt (Int32.ofNat n)
  have hmax := Int32.toInt_lt (Int32.ofNat n)
  exact ⟨hmin, hmax⟩

/-! What is accepted is well formed -/

theorem WellFormed.parseField (h : WellFormed rt t m) {f : FieldInfo} (hf : f ∈ t.fields)
    {s rest : List UInt8} {m' : Message} (hround : parseField rt m f s = .next m' rest) :
    WellFormed rt t m' := by
  unfold LiteMessage.parseField at hround
  split at hround
  next hkind =>
    split at hround
    next hread =>
      cases hround
      exact h.setText hf hkind (rt.readString_some hread).1
    next => cases hround
  next hkind =>
    split at hround
    next =>
      cases hround
      exact h.setNumber hf (by simp [hkind]) (int32_range _) (by simp [hkind])
    next => cases hround
  next isValid hkind =>
    split at hround
    next value rest' hread =>
      split at hround
      next hvalid =>
        cases hround
        refine h.setNumber hf (by simp [hkind]) (int32_range _) fun isValid' henum => ?_
        rw [hkind] at henum
        cases henum
        exact hvalid
      next hinvalid =>
        cases hround
        exact h.addChunk
          (kept_invalid hf hkind (rt.readVarint64_some hread).1 (Bool.eq_false_iff.mpr hinvalid))
    next => cases hround

theorem WellFormed.parseRecord (h : WellFormed rt t m) {tag : Nat} (hlt : tag < 2 ^ 32)
    {s rest : List UInt8} {m' : Message} (hround : parseRecord rt t m tag s = .next m' rest) :
    WellFormed rt t m' := by
  unfold LiteMessage.parseRecord at hround
  split at hround
  next f hfind => exact h.parseField (List.mem_of_find?_eq_some hfind) hround
  next hfind =>
    split at hround
    next => cases hround
    next hend =>
      split at hround
      next hread =>
        cases hround
        exact h.addChunk (kept_unknown hfind hend hlt hread)
      next => cases hround

/-- A tag that ends a group leaves the message as it was. -/
theorem parseRecord_ended {tag tag' : Nat} {s : List UInt8} {m' : Message}
    (hround : parseRecord rt t m tag s = .ended m' tag') : m' = m := by
  unfold LiteMessage.parseRecord at hround
  split at hround
  next =>
    unfold LiteMessage.parseField at hround
    repeat' split at hround
    all_goals cases hround
  next =>
    split at hround
    next =>
      cases hround
      rfl
    next => split at hround <;> cases hround

/-- The message that a parser leaves, unless it fails. -/
def Parsed.message? : Parsed → Option Message
  | .done m | .ended m _ => some m
  | .failed => none

/-- Whatever the input, the message that comes of it is well formed. -/
theorem WellFormed.internalParse (h : WellFormed rt t m) {s : List UInt8} {m' : Message}
    (hparse : (internalParse rt t m s).message? = some m') : WellFormed rt t m' := by
  induction m, s using LiteMessage.internalParse.induct rt t with
  | case1 m =>
    rw [internalParse_nil] at hparse
    cases hparse
    exact h
  | case2 m s hne hread =>
    rw [LiteMessage.internalParse, if_neg hne] at hparse
    split at hparse
    next => cases hparse
    next hsome =>
      rw [hread] at hsome
      cases hsome
  | case3 m s hne tag rest hread hround =>
    rw [internalParse_round hne hread, hround] at hparse
    cases hparse
  | case4 m s hne tag rest hread m'' tag' hround =>
    rw [internalParse_round hne hread, hround] at hparse
    cases hparse
    rw [parseRecord_ended hround]
    exact h
  | case5 m s hne tag rest hread m'' rest' hround ih =>
    rw [internalParse_round hne hread, hround] at hparse
    exact ih (h.parseRecord (rt.readTag_some hread).1 hround) hparse

/-! Serialized messages -/

/-- What the record of a field sets. -/
def setField (source m : Message) (f : FieldInfo) : Message :=
  match f.kind with
  | .string => m.setText f (source.text f.bit)
  | .int32 | .enum _ => m.setNumber f (source.number f.bit)

def setFields (source m : Message) (fs : List FieldInfo) : Message :=
  fs.foldl (fun m f => if source.has f then setField source m f else m) m

theorem setFields_cons (source m : Message) (f : FieldInfo) (fs : List FieldInfo) :
    setFields source m (f :: fs) =
      setFields source (if source.has f then setField source m f else m) fs := rfl

theorem copyFields_cons (source m : Message) (f : FieldInfo) (fs : List FieldInfo) :
    copyFields source m (f :: fs) =
      copyFields source (if source.has f then copyField source m f else m) fs := rfl

theorem internalParse_setField {source : Message} (h : WellFormed rt t source) {f : FieldInfo}
    (hf : f ∈ t.fields) (hhas : source.has f = true) (s : List UInt8) :
    internalParse rt t m (fieldBytes source f ++ s) =
      internalParse rt t (setField source m f) s := by
  obtain ⟨hmin, hmax⟩ := h.number_range f.bit
  unfold fieldBytes setField
  cases hkind : f.kind with
  | string => exact internalParse_text hf hkind (h.text_length f.bit) s
  | int32 => exact internalParse_number hf (.inl hkind) hmin hmax s
  | enum isValid =>
    exact internalParse_number hf (.inr ⟨isValid, hkind, h.valid f hf hhas isValid hkind⟩)
      hmin hmax s

theorem internalParse_fields {source : Message} (h : WellFormed rt t source)
    {fs : List FieldInfo} (hfs : fs ⊆ t.fields) (s : List UInt8) :
    internalParse rt t m
        ((fs.flatMap fun f => if source.has f then fieldBytes source f else []) ++ s) =
      internalParse rt t (setFields source m fs) s := by
  induction fs generalizing m with
  | nil => rfl
  | cons f fs ih =>
    obtain ⟨hf, hsub⟩ := List.cons_subset.mp hfs
    rw [List.flatMap_cons, List.append_assoc, setFields_cons]
    cases hhas : source.has f with
    | false => exact ih hsub
    | true =>
      simp only [if_true]
      rw [internalParse_setField h hf hhas]
      exact ih hsub

/-! Setting the fields of a message is merging it -/

/-- The has bits of the fields that are there. -/
def present (source : Message) (fs : List FieldInfo) : BitVec 32 :=
  (fs.filter source.has).foldr (fun f bits => BitVec.twoPow 32 f.bit ||| bits) 0

theorem setField_hasBits (source m : Message) (f : FieldInfo) :
    (setField source m f).hasBits = m.hasBits ||| BitVec.twoPow 32 f.bit := by
  unfold setField
  cases f.kind <;> rfl

theorem setFields_hasBits (source m : Message) (fs : List FieldInfo) :
    (setFields source m fs).hasBits = m.hasBits ||| present source fs := by
  induction fs generalizing m with
  | nil => simp [setFields, present]
  | cons f fs ih =>
    rw [setFields_cons, ih, present, present, List.filter_cons]
    cases source.has f with
    | false => rfl
    | true =>
      simp only [if_true, List.foldr_cons]
      rw [setField_hasBits, BitVec.or_assoc]

theorem WellFormed.present_eq {source : Message} (h : WellFormed rt t source) :
    present source t.fields = source.hasBits := by
  apply BitVec.eq_of_getLsbD_eq
  intro i hi
  rw [Bool.eq_iff_iff, present, mask_bit]
  constructor
  · rintro ⟨f, hf, rfl, -⟩
    exact (List.mem_filter.mp hf).2
  · intro hbit
    obtain ⟨f, hf, rfl⟩ := h.bits i hbit
    exact ⟨f, List.mem_filter.mpr ⟨hf, hbit⟩, rfl, hi⟩

theorem setField_orBits (source m : Message) (bits : BitVec 32) (f : FieldInfo) :
    setField source (m.orBits bits) f = (setField source m f).orBits bits := by
  have hbits : m.hasBits ||| bits ||| BitVec.twoPow 32 f.bit =
      m.hasBits ||| BitVec.twoPow 32 f.bit ||| bits := by
    rw [BitVec.or_assoc, BitVec.or_comm bits, BitVec.or_assoc]
  unfold setField
  cases f.kind <;> simp only [Message.setText, Message.setNumber, Message.orBits, hbits]

theorem setFields_orBits (source m : Message) (bits : BitVec 32) (fs : List FieldInfo) :
    setFields source (m.orBits bits) fs = (setFields source m fs).orBits bits := by
  induction fs generalizing m with
  | nil => rfl
  | cons f fs ih =>
    rw [setFields_cons, setFields_cons, ← ih]
    split
    next => rw [setField_orBits]
    next => rfl

/-- With the has bits of the source, a copied field is a field that was set. -/
theorem copyField_orBits {source : Message} {f : FieldInfo} (h : source.has f = true)
    (m : Message) :
    (copyField source m f).orBits source.hasBits = (setField source m f).orBits source.hasBits := by
  have hbits : BitVec.twoPow 32 f.bit ||| source.hasBits = source.hasBits := by
    apply BitVec.eq_of_getLsbD_eq
    intro i hi
    rw [BitVec.getLsbD_or, BitVec.getLsbD_twoPow]
    by_cases hbit : f.bit = i
    · rw [Message.has, hbit] at h
      simp [h]
    · simp [hbit]
  unfold copyField setField
  cases f.kind with
  | string => rfl
  | int32 | enum isValid => simp [Message.setNumber, Message.orBits, BitVec.or_assoc, hbits]

theorem copyFields_orBits (source m : Message) (fs : List FieldInfo) :
    (copyFields source m fs).orBits source.hasBits =
      (setFields source m fs).orBits source.hasBits := by
  induction fs generalizing m with
  | nil => rfl
  | cons f fs ih =>
    rw [copyFields_cons, setFields_cons, ih]
    split
    next hhas =>
      rw [← setFields_orBits, copyField_orBits hhas, setFields_orBits]
    next => rfl

theorem WellFormed.hasBits_and_mask {source : Message} (h : WellFormed rt t source) :
    source.hasBits &&& t.mask = source.hasBits := by
  apply BitVec.eq_of_getLsbD_eq
  intro i hi
  rw [BitVec.getLsbD_and, Bool.eq_iff_iff, Bool.and_eq_true, and_iff_left_iff_imp, t.mask_iff]
  exact h.bits i

theorem WellFormed.setFields_orBits {source : Message} (h : WellFormed rt t source) (m : Message) :
    (setFields source m t.fields).orBits source.hasBits = setFields source m t.fields := by
  have hbits := setFields_hasBits source m t.fields
  rw [h.present_eq] at hbits
  rw [Message.orBits, hbits, BitVec.or_assoc, BitVec.or_self, ← hbits]

theorem setFields_none {source : Message} (h : source.hasBits = 0) (m : Message)
    (fs : List FieldInfo) : setFields source m fs = m := by
  induction fs generalizing m with
  | nil => rfl
  | cons f fs ih =>
    have hhas : source.has f = false := by simp [Message.has, h]
    rw [setFields_cons, hhas]
    exact ih m

theorem WellFormed.merge_eq {source : Message} (h : WellFormed rt t source) (m : Message) :
    mergeFrom t m source = (setFields source m t.fields).addUnknown source.unknownFields := by
  rw [mergeFrom, h.hasBits_and_mask]
  split
  next hnone => rw [setFields_none hnone]
  next => rw [copyFields_orBits, h.setFields_orBits]

/-- What a message is written as, parsed into another one, is merged into it. -/
theorem WellFormed.internalParse_serialize {source : Message} (h : WellFormed rt t source)
    (m : Message) :
    LiteMessage.internalParse rt t m (internalSerialize t source) =
      .done (mergeFrom t m source) := by
  obtain ⟨chunks, hkept, hbytes⟩ := h.unknown
  rw [internalSerialize, internalParse_fields h (List.Subset.refl _), hbytes,
    internalParse_kept hkept, ← hbytes, h.merge_eq]

theorem setFields_text {source m : Message} {fs : List FieldInfo} {i : Nat}
    (h : m.text i = source.text i ∨
      ∃ f ∈ fs, f.bit = i ∧ f.kind = .string ∧ source.has f = true) :
    (setFields source m fs).text i = source.text i := by
  induction fs generalizing m with
  | nil => exact h.elim id (by simp)
  | cons f fs ih =>
    rw [setFields_cons]
    apply ih
    by_cases hset : f.bit = i ∧ f.kind = .string ∧ source.has f = true
    · obtain ⟨rfl, hkind, hhas⟩ := hset
      simp [hhas, setField, hkind, Message.setText]
    · obtain hold | ⟨g, hg, hrest⟩ := h
      · left
        split
        next hhas =>
          unfold setField
          cases hkind : f.kind with
          | string =>
            have hbit : i ≠ f.bit := fun hbit => hset ⟨hbit.symm, hkind, hhas⟩
            simpa [Message.setText, hbit] using hold
          | int32 | enum isValid => exact hold
        next => exact hold
      · obtain rfl | hg := List.mem_cons.mp hg
        · exact absurd hrest hset
        · exact .inr ⟨g, hg, hrest⟩

theorem setFields_number {source m : Message} {fs : List FieldInfo} {i : Nat}
    (h : m.number i = source.number i ∨
      ∃ f ∈ fs, f.bit = i ∧ f.kind ≠ .string ∧ source.has f = true) :
    (setFields source m fs).number i = source.number i := by
  induction fs generalizing m with
  | nil => exact h.elim id (by simp)
  | cons f fs ih =>
    rw [setFields_cons]
    apply ih
    by_cases hset : f.bit = i ∧ f.kind ≠ .string ∧ source.has f = true
    · obtain ⟨rfl, hkind, hhas⟩ := hset
      left
      rw [if_pos hhas, setField]
      split
      next hstring => exact absurd hstring hkind
      all_goals simp [Message.setNumber]
    · obtain hold | ⟨g, hg, hrest⟩ := h
      · left
        split
        next hhas =>
          unfold setField
          cases hkind : f.kind with
          | string => exact hold
          | int32 | enum isValid =>
            have hbit : i ≠ f.bit := fun hbit => hset ⟨hbit.symm, by simp [hkind], hhas⟩
            simpa [Message.setNumber, hbit] using hold
        next => exact hold
      · obtain rfl | hg := List.mem_cons.mp hg
        · exact absurd hrest hset
        · exact .inr ⟨g, hg, hrest⟩

theorem setFields_unknown (source m : Message) (fs : List FieldInfo) :
    (setFields source m fs).unknownFields = m.unknownFields := by
  induction fs generalizing m with
  | nil => rfl
  | cons f fs ih =>
    rw [setFields_cons, ih]
    split
    next =>
      unfold setField
      cases f.kind <;> rfl
    next => rfl

/-- A message merged into a new one is copied. -/
theorem WellFormed.merge_empty {source : Message} (h : WellFormed rt t source) :
    mergeFrom t .empty source = source := by
  rw [h.merge_eq]
  apply Message.ext
  · rw [Message.addUnknown, setFields_hasBits, h.present_eq]
    simp [Message.empty]
  · funext i
    refine setFields_text ?_
    by_cases hi : source.text i = []
    · exact .inl hi.symm
    · exact .inr (h.text i hi)
  · funext i
    refine setFields_number ?_
    by_cases hi : source.number i = 0
    · exact .inl hi.symm
    · exact .inr (h.number i hi)
  · rw [Message.addUnknown, setFields_unknown]
    rfl

/-! Every message -/

theorem WellFormed.setFields {source : Message} (hsource : WellFormed rt t source)
    {fs : List FieldInfo} (hfs : fs ⊆ t.fields) (h : WellFormed rt t m) :
    WellFormed rt t (setFields source m fs) := by
  induction fs generalizing m with
  | nil => exact h
  | cons f fs ih =>
    obtain ⟨hf, hsub⟩ := List.cons_subset.mp hfs
    rw [setFields_cons]
    refine ih hsub ?_
    split
    next hhas =>
      unfold setField
      split
      next hkind => exact h.setText hf hkind (hsource.text_length f.bit)
      all_goals
        next hkind =>
        exact h.setNumber hf (by simp [hkind]) (hsource.number_range f.bit)
          (hsource.valid f hf hhas)
    next => exact h

theorem WellFormed.merge {source : Message} (h : WellFormed rt t m)
    (hsource : WellFormed rt t source) : WellFormed rt t (mergeFrom t m source) := by
  obtain ⟨chunks, hkept, hbytes⟩ := hsource.unknown
  rw [hsource.merge_eq, hbytes]
  exact (hsource.setFields (List.Subset.refl _) h).addKept hkept

/-! Clearing -/

theorem clearFields_cons (clears : FieldInfo → Bool) (m : Message) (f : FieldInfo)
    (fs : List FieldInfo) : clearFields clears m (f :: fs) =
      clearFields clears (if clears f then clearField m f else m) fs := rfl

theorem clearFields_text {clears : FieldInfo → Bool} {fs : List FieldInfo} {i : Nat}
    (h : m.text i = [] ∨ ∃ f ∈ fs, f.bit = i ∧ f.kind = .string ∧ clears f = true) :
    (clearFields clears m fs).text i = [] := by
  induction fs generalizing m with
  | nil => exact h.elim id (by simp)
  | cons f fs ih =>
    rw [clearFields_cons]
    apply ih
    obtain hold | ⟨g, hg, hbit, hkind, hclears⟩ := h
    · left
      split
      next =>
        unfold clearField
        cases f.kind with
        | string => by_cases hbit : i = f.bit <;> simp [hbit, hold]
        | int32 | enum isValid => exact hold
      next => exact hold
    · obtain rfl | hg := List.mem_cons.mp hg
      · left
        simp [hclears, clearField, hkind, hbit]
      · exact .inr ⟨g, hg, hbit, hkind, hclears⟩

theorem clearFields_number {clears : FieldInfo → Bool} {fs : List FieldInfo} {i : Nat}
    (h : m.number i = 0 ∨ ∃ f ∈ fs, f.bit = i ∧ f.kind ≠ .string ∧ clears f = true) :
    (clearFields clears m fs).number i = 0 := by
  induction fs generalizing m with
  | nil => exact h.elim id (by simp)
  | cons f fs ih =>
    rw [clearFields_cons]
    apply ih
    obtain hold | ⟨g, hg, hbit, hkind, hclears⟩ := h
    · left
      split
      next =>
        unfold clearField
        cases f.kind with
        | string => exact hold
        | int32 | enum isValid => by_cases hbit : i = f.bit <;> simp [hbit, hold]
      next => exact hold
    · obtain rfl | hg := List.mem_cons.mp hg
      · left
        rw [if_pos hclears, clearField]
        split
        next hstring => exact absurd hstring hkind
        all_goals simp [hbit]
      · exact .inr ⟨g, hg, hbit, hkind, hclears⟩

/-- A cleared message is a new one. Numbers may be left alone when none of them is there. -/
theorem WellFormed.clear_eq (h : WellFormed rt t m) {zeroed : Bool}
    (hzeroed : zeroed = false → ∀ f ∈ t.fields, f.kind ≠ .string → m.has f = false) :
    clear t zeroed m = .empty := by
  apply Message.ext
  · rfl
  · funext i
    refine clearFields_text ?_
    by_cases hi : m.text i = []
    · exact .inl hi
    · obtain ⟨f, hf, hbit, hkind, hhas⟩ := h.text i hi
      exact .inr ⟨f, hf, hbit, hkind, by simp [hkind, hhas]⟩
  · funext i
    refine clearFields_number ?_
    by_cases hi : m.number i = 0
    · exact .inl hi
    · obtain ⟨f, hf, hbit, hkind, hhas⟩ := h.number i hi
      refine .inr ⟨f, hf, hbit, hkind, ?_⟩
      have hyes : zeroed = true := by
        by_contra hno
        simp [hzeroed (Bool.eq_false_iff.mpr hno) f hf hkind] at hhas
      split
      next hstring => exact absurd hstring hkind
      all_goals exact hyes
  · rfl

/-! Everything a program can do with messages -/

/-- The messages that the operations make out of new ones. The input of a parser is anything,
and a parser may stop early. -/
inductive Made (rt : Runtime) (t : Table) : Message → Prop where
  | new : Made rt t .empty
  | setText {m : Message} (f : FieldInfo) (value : List UInt8) (hm : Made rt t m)
      (hf : f ∈ t.fields) (hkind : f.kind = .string) (hlen : value.length ≤ maxString) :
      Made rt t (m.setText f value)
  | setNumber {m : Message} (f : FieldInfo) (value : Int) (hm : Made rt t m) (hf : f ∈ t.fields)
      (hkind : f.kind ≠ .string) (hrange : -2 ^ 31 ≤ value ∧ value < 2 ^ 31)
      (hvalid : ∀ isValid, f.kind = .enum isValid → isValid value = true) :
      Made rt t (m.setNumber f value)
  | mergeFrom {m source : Message} (hm : Made rt t m) (hsource : Made rt t source) :
      Made rt t (mergeFrom t m source)
  | clear {m : Message} {zeroed : Bool} (hm : Made rt t m)
      (hzeroed : zeroed = false → ∀ f ∈ t.fields, f.kind ≠ .string → m.has f = false) :
      Made rt t (clear t zeroed m)
  | internalParse {m m' : Message} {s : List UInt8} (hm : Made rt t m)
      (hparse : (internalParse rt t m s).message? = some m') : Made rt t m'

theorem Made.wellFormed (h : Made rt t m) : WellFormed rt t m := by
  induction h with
  | new => exact .empty
  | setText _ _ _ hf hkind hlen ih => exact ih.setText hf hkind hlen
  | setNumber _ _ _ hf hkind hrange hvalid ih => exact ih.setNumber hf hkind hrange hvalid
  | mergeFrom _ _ ih ihsource => exact ih.merge ihsource
  | clear _ hzeroed ih =>
    rw [ih.clear_eq hzeroed]
    exact .empty
  | internalParse _ hparse ih => exact ih.internalParse hparse

end parsing

/-! A runtime -/

theorem readVarint_some {s rest : List UInt8} {n : Nat} (h : readVarint s = some (n, rest)) :
    rest.length < s.length := by
  induction s generalizing n with
  | nil => cases h
  | cons b s ih =>
    rw [readVarint_cons] at h
    split at h
    next =>
      cases h
      exact Nat.lt_succ_self _
    next =>
      obtain ⟨⟨n', rest'⟩, hread, heq⟩ := Option.map_eq_some_iff.mp h
      cases heq
      exact Nat.lt_succ_of_lt (ih hread)

def readBelow (bound : Nat) (s : List UInt8) : Option (Nat × List UInt8) :=
  (readVarint s).filter fun p => p.1 < bound

theorem readBelow_some {bound n : Nat} {s rest : List UInt8}
    (h : readBelow bound s = some (n, rest)) : n < bound ∧ rest.length < s.length := by
  obtain ⟨hread, hlt⟩ := Option.filter_eq_some_iff.mp h
  exact ⟨by simpa using hlt, readVarint_some hread⟩

theorem readBelow_varint {bound n : Nat} (h : n < bound) (s : List UInt8) :
    readBelow bound (varint n ++ s) = some (n, s) := by
  rw [readBelow, readVarint_varint, Option.filter_some]
  simp [h]

def readBytes (length : Nat) (s : List UInt8) : Option (List UInt8 × List UInt8) :=
  if length ≤ s.length then some (s.take length, s.drop length) else none

theorem readBytes_some {length : Nat} {s value rest : List UInt8}
    (h : readBytes length s = some (value, rest)) :
    value.length = length ∧ rest.length ≤ s.length := by
  unfold readBytes at h
  split at h
  next hle =>
    cases h
    simpa using hle
  next => cases h

theorem readBytes_append (value s : List UInt8) :
    readBytes value.length (value ++ s) = some (value, s) := by
  simp [readBytes]

def readSized (s : List UInt8) : Option (List UInt8 × List UInt8) :=
  (readBelow (maxString + 1) s).bind fun (length, rest) => readBytes length rest

theorem readSized_some {s value rest : List UInt8} (h : readSized s = some (value, rest)) :
    value.length ≤ maxString ∧ rest.length ≤ s.length := by
  obtain ⟨⟨length, rest'⟩, hlength, hvalue⟩ := Option.bind_eq_some_iff.mp h
  obtain ⟨hlt, hshort⟩ := readBelow_some hlength
  obtain ⟨heq, hle⟩ := readBytes_some hvalue
  exact ⟨heq ▸ Nat.le_of_lt_succ hlt, hle.trans (Nat.le_of_lt hshort)⟩

theorem readSized_encoded {value : List UInt8} (h : value.length ≤ maxString) (s : List UInt8) :
    readSized (varint value.length ++ value ++ s) = some (value, s) := by
  rw [readSized, List.append_assoc, readBelow_varint (Nat.lt_succ_of_le h)]
  exact readBytes_append value s

/-- The body of a record behind its tag, as it is written again. Groups are not read. -/
def readBody (tag : Nat) (s : List UInt8) : Option (List UInt8 × List UInt8) :=
  if tag / 8 = 0 then none
  else if tag % 8 = 0 then (readBelow (2 ^ 64) s).map fun (value, rest) => (varint value, rest)
  else if tag % 8 = 1 then readBytes 8 s
  else if tag % 8 = 2 then
    (readSized s).map fun (value, rest) => (varint value.length ++ value, rest)
  else if tag % 8 = 5 then readBytes 4 s
  else none

theorem readBody_some {tag : Nat} {s body rest : List UInt8}
    (h : readBody tag s = some (body, rest)) :
    rest.length ≤ s.length ∧ ∀ s', readBody tag (body ++ s') = some (body, s') := by
  unfold readBody at h ⊢
  split at h
  next => cases h
  next hnumber =>
    simp only [if_neg hnumber]
    split at h
    next hint =>
      simp only [if_pos hint]
      obtain ⟨⟨value, rest'⟩, hread, heq⟩ := Option.map_eq_some_iff.mp h
      cases heq
      obtain ⟨hlt, hshort⟩ := readBelow_some hread
      exact ⟨Nat.le_of_lt hshort, fun s' => by rw [readBelow_varint hlt]; rfl⟩
    next hint =>
      simp only [if_neg hint]
      split at h
      next hlong =>
        simp only [if_pos hlong]
        obtain ⟨heq, hle⟩ := readBytes_some h
        exact ⟨hle, fun s' => heq ▸ readBytes_append body s'⟩
      next hlong =>
        simp only [if_neg hlong]
        split at h
        next hstring =>
          simp only [if_pos hstring]
          obtain ⟨⟨value, rest'⟩, hread, heq⟩ := Option.map_eq_some_iff.mp h
          cases heq
          obtain ⟨hlen, hle⟩ := readSized_some hread
          exact ⟨hle, fun s' => by rw [readSized_encoded hlen]; rfl⟩
        next hstring =>
          simp only [if_neg hstring]
          split at h
          next hshort =>
            simp only [if_pos hshort]
            obtain ⟨heq, hle⟩ := readBytes_some h
            exact ⟨hle, fun s' => heq ▸ readBytes_append body s'⟩
          next => cases h

/-- A runtime with all its laws. -/
def Runtime.plain : Runtime where
  readTag := readBelow (2 ^ 32)
  readString := readSized
  readVarint32 s := (readBelow (2 ^ 64) s).map fun (n, rest) => (n % 2 ^ 32, rest)
  readVarint64 := readBelow (2 ^ 64)
  parseUnknown tag s := (readBody tag s).map fun (body, rest) => (varint tag ++ body, rest)
  readTag_some := readBelow_some
  readString_some := readSized_some
  readVarint32_some h := by
    obtain ⟨⟨n, rest'⟩, hread, heq⟩ := Option.map_eq_some_iff.mp h
    cases heq
    exact Nat.le_of_lt (readBelow_some hread).2
  readVarint64_some h := ⟨(readBelow_some h).1, Nat.le_of_lt (readBelow_some h).2⟩
  parseUnknown_some h := by
    obtain ⟨⟨body, rest'⟩, hread, heq⟩ := Option.map_eq_some_iff.mp h
    cases heq
    obtain ⟨hle, hagain⟩ := readBody_some hread
    exact ⟨hle, body, rfl, fun s' => by rw [hagain]; rfl⟩
  readTag_varint _ s _ h := readBelow_varint h s
  readString_encoded _ s h := readSized_encoded h s
  readVarint32_varint _ s h := by rw [readBelow_varint h]; rfl
  readVarint64_varint _ s h := readBelow_varint h s

end LiteMessage
