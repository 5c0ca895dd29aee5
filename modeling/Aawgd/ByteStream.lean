import Mathlib.Data.List.Basic

/-! Blocking descriptors: what a read or a write may answer, and a byte stream
that the kernel hands out in pieces of its own choosing. -/
namespace ByteStream

/-- What `read` may give when `n` bytes are asked for. -/
inductive ReadResult (n : Nat) where
  | error
  | eof
  | data (bytes : List UInt8) (pos : 0 < bytes.length) (le : bytes.length ≤ n)

/-- What `write` may give when `n` bytes are handed over. -/
inductive WriteResult (n : Nat) where
  | error
  | accepted (count : Nat) (le : count ≤ n)

def ReadResult.bytes {n : Nat} : ReadResult n → List UInt8
  | .data bs _ _ => bs
  | _ => []

def WriteResult.count {n : Nat} : WriteResult n → Nat
  | .accepted k _ => k
  | .error => 0

theorem WriteResult.count_le {n : Nat} (r : WriteResult n) : r.count ≤ n := by
  cases r with
  | error => exact Nat.zero_le n
  | accepted k le => exact le

/-- What a read answers once the stream is used up. -/
inductive Ending where
  | eof
  | error
  deriving DecidableEq

def Ending.result (n : Nat) : Ending → ReadResult n
  | .eof => .eof
  | .error => .error

/-- A way to split a stream: how many bytes the i-th read gives when m could be given. -/
structure Chunking where
  size : Nat → Nat → Nat
  pos : ∀ i m, 0 < m → 0 < size i m
  le : ∀ i m, size i m ≤ m

/-- The bytes not read yet and the number of reads so far. -/
structure Stream where
  left : List UInt8
  calls : Nat

/-- Pieces as large as asked for. -/
def Chunking.whole : Chunking := ⟨fun _ m => m, fun _ _ h => h, fun _ _ => Nat.le_refl _⟩

def Stream.take (ch : Chunking) (s : Stream) (n : Nat) : List UInt8 :=
  s.left.take (ch.size s.calls (min n s.left.length))

theorem Stream.take_pos (ch : Chunking) (s : Stream) (n : Nat) (h : 0 < min n s.left.length) :
    0 < (s.take ch n).length := by
  have hp := ch.pos s.calls _ h
  simp only [Stream.take, List.length_take]
  omega

theorem Stream.take_le (ch : Chunking) (s : Stream) (n : Nat) : (s.take ch n).length ≤ n := by
  have hl := ch.le s.calls (min n s.left.length)
  simp only [Stream.take, List.length_take]
  omega

/-- `read` on the stream. -/
def Stream.read (ch : Chunking) (e : Ending) (s : Stream) (n : Nat) : ReadResult n × Stream :=
  if h : 0 < min n s.left.length then
    (.data (s.take ch n) (s.take_pos ch n h) (s.take_le ch n),
      ⟨s.left.drop (s.take ch n).length, s.calls + 1⟩)
  else (e.result n, ⟨s.left, s.calls + 1⟩)

/-- A read the stream can serve in full takes as many bytes as the chunking says. -/
theorem Stream.read_of_le (ch : Chunking) (e : Ending) (s : Stream) {n : Nat}
    (h : n ≤ s.left.length) : (s.read ch e n).1.bytes = s.left.take (ch.size s.calls n) ∧
      (s.read ch e n).2 = ⟨s.left.drop (ch.size s.calls n), s.calls + 1⟩ := by
  have hmin : min n s.left.length = n := Nat.min_eq_left h
  have hle := ch.le s.calls n
  unfold Stream.read
  split
  next hpos =>
    have htake : s.take ch n = s.left.take (ch.size s.calls n) := by rw [Stream.take, hmin]
    have hlen : (s.take ch n).length = ch.size s.calls n := by
      rw [htake, List.length_take]
      omega
    exact ⟨htake, by rw [hlen]⟩
  next hzero =>
    have hn : ch.size s.calls n = 0 := by omega
    rw [hn]
    cases e <;> exact ⟨rfl, rfl⟩

/-- A read of an unfinished stream gives its next bytes, at least one. -/
theorem Stream.read_data (ch : Chunking) (e : Ending) (s : Stream) {n : Nat} (hn : 0 < n)
    (hs : s.left ≠ []) : ∃ bs pos le, bs <+: s.left ∧
      s.read ch e n = (.data bs pos le, ⟨s.left.drop bs.length, s.calls + 1⟩) := by
  have hl : 0 < s.left.length := List.length_pos_iff.mpr hs
  have h : 0 < min n s.left.length := by omega
  refine ⟨s.take ch n, s.take_pos ch n h, s.take_le ch n, List.take_prefix _ _, ?_⟩
  rw [Stream.read, dif_pos h]

/-- A read of a finished stream gives the ending. -/
theorem Stream.read_end (ch : Chunking) (e : Ending) (s : Stream) (n : Nat) (hs : s.left = []) :
    s.read ch e n = (e.result n, ⟨[], s.calls + 1⟩) := by
  have h : ¬ 0 < min n s.left.length := by simp [hs]
  rw [Stream.read, dif_neg h, hs]

end ByteStream
