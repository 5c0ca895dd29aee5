import Aawgd.CallProgram

/-! C strings: programs that look at memory byte by byte, what they return and how far
they look, and the string functions as such programs. -/
namespace CString
open CallProgram

/-- A program whose only calls are loads from addresses. -/
abbrev Scan := CallProgram Nat fun _ => UInt8

variable {α β : Type}

def look (memory : Nat → UInt8) (p : Scan α) : Outcome Nat (fun _ => UInt8) Unit α :=
  run (fun s i => (memory i, s)) p ()

/-- In this memory the program returns the value and loads from no address above the bound. -/
structure Looks (memory : Nat → UInt8) (p : Scan α) (a : α) (bound : Nat) : Prop where
  value : (look memory p).value = a
  within : ∀ ev ∈ (look memory p).trace, ev.1 ≤ bound

section rules
variable {memory : Nat → UInt8} {bound : Nat}

theorem Looks.ret (a : α) : Looks memory (.ret a) a bound := ⟨rfl, by simp [look]⟩

theorem Looks.load {i : Nat} (h : i ≤ bound) : Looks memory (perform i) (memory i) bound :=
  ⟨rfl, by simpa [look, perform] using h⟩

theorem Looks.bind {p : Scan α} {f : α → Scan β} {a : α} {b : β} (hp : Looks memory p a bound)
    (hf : Looks memory (f a) b bound) : Looks memory (p >>= f) b bound := by
  have hrun := run_bind (fun s i => (memory i, s)) p f ()
  have hvalue : (run (fun s i => (memory i, s)) p ()).value = a := hp.value
  rw [hvalue] at hrun
  constructor
  · rw [look, hrun]
    exact hf.value
  · intro ev hev
    rw [look, hrun] at hev
    cases List.mem_append.mp hev with
    | inl h => exact hp.within ev h
    | inr h => exact hf.within ev h

theorem Looks.mono {p : Scan α} {a : α} {bound' : Nat} (h : Looks memory p a bound)
    (hle : bound ≤ bound') : Looks memory p a bound' :=
  ⟨h.value, fun ev hev => Nat.le_trans (h.within ev hev) hle⟩

end rules

/-! The string functions, on an array of a given size -/

/-- The bytes from an address up to the first one to stop at, and that one. -/
def upTo (size : Nat) (stop : UInt8 → Bool) (i : Nat) : Scan (List UInt8 × UInt8) :=
  if i < size then do
    let b ← perform i
    if stop b = true then return ([], b)
    let (bs, last) ← upTo size stop (i+1)
    return (b :: bs, last)
  else return ([], 0)
  termination_by size - i

def strlen (size i : Nat) : Scan Nat := do
  let (bs, _) ← upTo size (· == 0) i
  return bs.length

/-- The address of the first c of the string, for a c other than NUL. -/
def strchr (size i : Nat) (c : UInt8) : Scan (Option Nat) := do
  let (bs, b) ← upTo size (fun b => b == c || b == 0) i
  return if b = c then some (i + bs.length) else none

/-- The string itself. -/
def string (size i : Nat) : Scan (List UInt8) := do
  let (bs, _) ← upTo size (· == 0) i
  return bs

/-- The n bytes from an address on. -/
def copy (i : Nat) : Nat → Scan (List UInt8)
  | 0 => return []
  | n+1 => do
    let b ← perform i
    let bs ← copy (i+1) n
    return b :: bs

/-- The memory holds these bytes from the address on. -/
def Holds (memory : Nat → UInt8) (i : Nat) (bs : List UInt8) : Prop :=
  ∀ j b, bs[j]? = some b → memory (i + j) = b

section holds
variable {memory : Nat → UInt8} {i : Nat}

theorem Holds.head {b : UInt8} {bs : List UInt8} (h : Holds memory i (b :: bs)) :
    memory i = b := h 0 b rfl

theorem Holds.tail {b : UInt8} {bs : List UInt8} (h : Holds memory i (b :: bs)) :
    Holds memory (i+1) bs := by
  intro j c hc
  have hj : i + 1 + j = i + (j+1) := by omega
  rw [hj]
  exact h (j+1) c hc

theorem Holds.right {bs cs : List UInt8} (h : Holds memory i (bs ++ cs)) :
    Holds memory (i + bs.length) cs := by
  induction bs generalizing i with
  | nil => exact h
  | cons b bs ih =>
    have hi : i + (b :: bs).length = i + 1 + bs.length := by
      rw [List.length_cons]
      omega
    rw [hi]
    exact ih h.tail

theorem upTo_looks {size : Nat} {stop : UInt8 → Bool} {bs : List UInt8} {last : UInt8}
    {rest : List UInt8} (h : Holds memory i (bs ++ last :: rest)) (hsize : i + bs.length < size)
    (hbs : ∀ b ∈ bs, stop b = false) (hlast : stop last = true) :
    Looks memory (upTo size stop i) (bs, last) (i + bs.length) := by
  induction bs generalizing i with
  | nil =>
    rw [upTo, if_pos (by simpa using hsize)]
    apply (Looks.load (Nat.le_refl _)).bind
    rw [h.head, if_pos hlast]
    exact .ret _
  | cons b bs ih =>
    rw [List.length_cons] at hsize ⊢
    rw [upTo, if_pos (by omega)]
    apply (Looks.load (by omega)).bind
    rw [h.head, if_neg (by simp [hbs b])]
    have hrest := ih h.tail (by omega) fun c hc => hbs c (List.mem_cons_of_mem b hc)
    exact (hrest.mono (by omega)).bind (.ret _)

theorem copy_looks {bs rest : List UInt8} (h : Holds memory i (bs ++ rest)) :
    Looks memory (copy i bs.length) bs (i + bs.length) := by
  induction bs generalizing i with
  | nil => exact .ret _
  | cons b bs ih =>
    rw [List.length_cons, copy]
    apply (Looks.load (by omega)).bind
    rw [h.head]
    exact ((ih h.tail).mono (by omega)).bind (.ret _)

variable (size : Nat) {bs rest : List UInt8}

theorem strlen_looks (h : Holds memory i (bs ++ 0 :: rest)) (hsize : i + bs.length < size)
    (hbs : 0 ∉ bs) : Looks memory (strlen size i) bs.length (i + bs.length) := by
  have hstop : ∀ b ∈ bs, (b == 0) = false := fun b hb => by
    simpa using fun h0 : b = 0 => hbs (h0 ▸ hb)
  exact (upTo_looks h hsize hstop rfl).bind (.ret _)

theorem string_looks (h : Holds memory i (bs ++ 0 :: rest)) (hsize : i + bs.length < size)
    (hbs : 0 ∉ bs) : Looks memory (string size i) bs (i + bs.length) := by
  have hstop : ∀ b ∈ bs, (b == 0) = false := fun b hb => by
    simpa using fun h0 : b = 0 => hbs (h0 ▸ hb)
  exact (upTo_looks h hsize hstop rfl).bind (.ret _)

theorem strchr_found {c : UInt8} (h : Holds memory i (bs ++ c :: rest))
    (hsize : i + bs.length < size) (hbs : 0 ∉ bs) (hc : c ∉ bs) :
    Looks memory (strchr size i c) (some (i + bs.length)) (i + bs.length) := by
  have hstop : ∀ b ∈ bs, (b == c || b == 0) = false := fun b hb => by
    simpa using ⟨fun h0 : b = c => hc (h0 ▸ hb), fun h0 : b = 0 => hbs (h0 ▸ hb)⟩
  have hvalue : (if c = c then some (i + bs.length) else none) = some (i + bs.length) := if_pos rfl
  rw [← hvalue]
  exact (upTo_looks h hsize hstop (by simp)).bind (.ret _)

theorem strchr_missing {c : UInt8} (h : Holds memory i (bs ++ 0 :: rest))
    (hsize : i + bs.length < size) (hbs : 0 ∉ bs) (hc : c ∉ bs) (h0 : c ≠ 0) :
    Looks memory (strchr size i c) none (i + bs.length) := by
  have hstop : ∀ b ∈ bs, (b == c || b == 0) = false := fun b hb => by
    simpa using ⟨fun h0 : b = c => hc (h0 ▸ hb), fun h0 : b = 0 => hbs (h0 ▸ hb)⟩
  have hvalue : (if 0 = c then some (i + bs.length) else none) = none := if_neg (Ne.symm h0)
  rw [← hvalue]
  exact (upTo_looks h hsize hstop (by simp)).bind (.ret _)

end holds

end CString
