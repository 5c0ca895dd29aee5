import Aawgd.Launcher

/-! Successive calls of `ReadMessage` on the phone's stream: they stay in step with its
frames exactly as long as every read returns all it asked for. -/
namespace Aawgd.AAWirelessLauncher
open ByteStream CallProgram WireFormat

/-- One frame of the handshake. -/
structure HandshakeFrame where
  id : UInt16
  body : Bytes
  fits : body.length < 2 ^ 16

namespace HandshakeFrame

/-- The body's length, the id, the body. -/
def bytes (f : HandshakeFrame) : Bytes :=
  bigEndian16 (UInt16.ofNat f.body.length) ++ (bigEndian16 f.id ++ f.body)

/-- The three reads of a frame are not split when the first of them is read number i. -/
def Whole (ch : Chunking) (i : Nat) (f : HandshakeFrame) : Prop :=
  ch.size i 2 = 2 ∧ ch.size (i+1) 2 = 2 ∧ ch.size (i+2) f.body.length = f.body.length

end HandshakeFrame

/-- The phone at the other end: a blocking stream, cut into reads in some way. -/
def phone (ch : Chunking) (e : Ending) : Stream → (c : LaunchCall) → LaunchAnswer c × Stream
  | s, .getFlags => (0, s)
  | s, .setFlags _ => ((), s)
  | s, .allocate n => (zeroed n, s)
  | s, .write block => (taken block, s)
  | s, .read n => s.read ch e n

section stream
variable (ch : Chunking) (e : Ending)

/-- What `ReadMessage` returns and leaves of the stream. -/
def readNext (s : Stream) : Outcome LaunchCall LaunchAnswer Stream MessageId :=
  run (phone ch e) readMessage s

variable {ch} {e}

theorem readNext_first_short {s : Stream} (h : (s.read ch e 2).1.bytes.length ≠ 2) :
    (readNext ch e s).value = .invalid := by
  rw [readNext, readMessage_eq, run_call]
  simp only [phone]
  split
  next a b hr => exact absurd (by rw [hr]; rfl) h
  next => rfl

theorem readNext_second_short {s : Stream}
    (h : ((s.read ch e 2).2.read ch e 2).1.bytes.length ≠ 2) :
    (readNext ch e s).value = .invalid := by
  rw [readNext, readMessage_eq, run_call]
  simp only [phone]
  split
  next a b hr =>
    rw [run_call]
    simp only [phone]
    split
    next a b hr => exact absurd (by rw [hr]; rfl) h
    next => rfl
  next => rfl

theorem readNext_full {s : Stream} {a b c d : UInt8} (h : (s.read ch e 2).1.bytes = [a, b])
    (h' : ((s.read ch e 2).2.read ch e 2).1.bytes = [c, d]) :
    (readNext ch e s).value = .ofUInt16 (fromBigEndian16 c d) ∧ (readNext ch e s).state =
      (((s.read ch e 2).2.read ch e 2).2.read ch e (fromBigEndian16 a b).toNat).2 := by
  rw [readNext, readMessage_eq, run_call]
  simp only [phone, h]
  rw [run_call]
  simp only [phone, h']
  exact ⟨rfl, rfl⟩

variable (ch) (e) in
/-- One call on a stream that starts with a frame. -/
theorem readNext_frame {s : Stream} {f : HandshakeFrame} {rest : Bytes}
    (hs : s.left = f.bytes ++ rest) :
    if ch.size s.calls 2 = 2 ∧ ch.size (s.calls + 1) 2 = 2 then
      (readNext ch e s).value = .ofUInt16 f.id ∧ (readNext ch e s).state =
        ⟨(f.body ++ rest).drop (ch.size (s.calls + 2) f.body.length), s.calls + 3⟩
    else (readNext ch e s).value = .invalid := by
  have hlen : s.left.length = 4 + (f.body.length + rest.length) := by
    simp [hs, HandshakeFrame.bytes]
    omega
  have hle₁ := ch.le s.calls 2
  have hle₂ := ch.le (s.calls + 1) 2
  obtain ⟨hbytes₁, hstate₁⟩ := s.read_of_le ch e (show 2 ≤ s.left.length by omega)
  by_cases h₁ : ch.size s.calls 2 = 2
  · rw [h₁, hs] at hbytes₁ hstate₁
    have hdrop : (s.read ch e 2).2 = ⟨bigEndian16 f.id ++ (f.body ++ rest), s.calls + 1⟩ := by
      rw [hstate₁]
      rfl
    obtain ⟨hbytes₂, hstate₂⟩ := (s.read ch e 2).2.read_of_le ch e (n := 2)
      (by rw [hdrop]; simp)
    by_cases h₂ : ch.size (s.calls + 1) 2 = 2
    · rw [if_pos ⟨h₁, h₂⟩]
      simp only [hdrop, h₂] at hbytes₂ hstate₂
      obtain ⟨hvalue, hstate⟩ := readNext_full hbytes₁ (by rw [hdrop]; exact hbytes₂)
      have hbody : (UInt16.ofNat f.body.length).toNat = f.body.length :=
        Nat.mod_eq_of_lt f.fits
      rw [fromBigEndian16_ofNat] at hvalue hstate
      rw [hdrop, hstate₂, hbody] at hstate
      obtain ⟨-, hstate₃⟩ := Stream.read_of_le ch e ⟨f.body ++ rest, s.calls + 2⟩
        (show f.body.length ≤ (f.body ++ rest).length by simp)
      exact ⟨hvalue, hstate.trans hstate₃⟩
    · rw [if_neg (fun h => h₂ h.2)]
      apply readNext_second_short
      rw [hbytes₂, List.length_take, hdrop]
      simp only [List.length_append, bigEndian16_length]
      omega
  · rw [if_neg (fun h => h₁ h.1)]
    apply readNext_first_short
    rw [hbytes₁, List.length_take]
    omega

theorem invalid_ne (n : UInt16) : MessageId.invalid ≠ .ofUInt16 n := by
  simp [MessageId.invalid, MessageId.ofUInt16]

variable (ch) (e) in
/-- A call returns the frame's id and stops at the next frame exactly when none of its
three reads is split. -/
theorem readNext_iff {s : Stream} {f : HandshakeFrame} {rest : Bytes}
    (hs : s.left = f.bytes ++ rest) :
    ((readNext ch e s).value = .ofUInt16 f.id ∧ (readNext ch e s).state.left = rest) ↔
      f.Whole ch s.calls := by
  have hframe := readNext_frame ch e hs
  split at hframe
  next hhead =>
    obtain ⟨hvalue, hstate⟩ := hframe
    have hle := ch.le (s.calls + 2) f.body.length
    rw [hvalue, hstate]
    constructor
    · intro h
      have hlen := congrArg List.length h.2
      simp only [List.length_drop, List.length_append] at hlen
      exact ⟨hhead.1, hhead.2, by omega⟩
    · intro h
      rw [h.2.2]
      simp
  next hhead =>
    constructor
    · intro h
      exact absurd (hframe.symm.trans h.1) (invalid_ne f.id)
    · intro h
      exact absurd ⟨h.1, h.2.1⟩ hhead

theorem readNext_whole {s : Stream} {f : HandshakeFrame} {rest : Bytes}
    (hs : s.left = f.bytes ++ rest) (h : f.Whole ch s.calls) :
    (readNext ch e s).state = ⟨rest, s.calls + 3⟩ := by
  have hframe := readNext_frame ch e hs
  rw [if_pos ⟨h.1, h.2.1⟩, h.2.2] at hframe
  rw [hframe.2]
  simp

/-! A whole handshake -/

variable (ch e)

/-- The stream before the k-th of successive calls, the first being number 0. -/
def position (s : Stream) : Nat → Stream
  | 0 => s
  | k+1 => (readNext ch e (position s k)).state

/-- Every successive call returns the id of its frame and stops at the next one. -/
def InStep (s : Stream) (fs : List HandshakeFrame) : Prop :=
  ∀ k f, fs[k]? = some f → (readNext ch e (position ch e s k)).value = .ofUInt16 f.id ∧
    (position ch e s (k+1)).left = (fs.drop (k+1)).flatMap HandshakeFrame.bytes

variable {ch e}

theorem position_whole {fs : List HandshakeFrame} {s : Stream}
    (hs : s.left = fs.flatMap HandshakeFrame.bytes) {k : Nat} (hk : k ≤ fs.length)
    (h : ∀ j (f : HandshakeFrame), j < k → fs[j]? = some f → f.Whole ch (s.calls + 3 * j)) :
    position ch e s k = ⟨(fs.drop k).flatMap HandshakeFrame.bytes, s.calls + 3 * k⟩ := by
  induction k with
  | zero => simp [position, ← hs]
  | succ k ih =>
    have ih := ih (by omega) fun j f hj => h j f (by omega)
    have hk' : k < fs.length := by omega
    have hleft : (position ch e s k).left =
        fs[k].bytes ++ (fs.drop (k+1)).flatMap HandshakeFrame.bytes := by
      rw [ih, List.drop_eq_getElem_cons hk', List.flatMap_cons]
    have hwhole := h k fs[k] (by omega) (List.getElem?_eq_getElem hk')
    rw [position, readNext_whole hleft (by rw [ih]; exact hwhole), ih]
    rfl

/-- Call k in a run whose earlier calls were in step. -/
theorem call_iff {fs : List HandshakeFrame} {k : Nat} {f : HandshakeFrame} (hf : fs[k]? = some f)
    (h : ∀ j (g : HandshakeFrame), j < k → fs[j]? = some g → g.Whole ch (3 * j)) :
    ((readNext ch e (position ch e ⟨fs.flatMap HandshakeFrame.bytes, 0⟩ k)).value = .ofUInt16 f.id ∧
      (position ch e ⟨fs.flatMap HandshakeFrame.bytes, 0⟩ (k+1)).left =
        (fs.drop (k+1)).flatMap HandshakeFrame.bytes) ↔ f.Whole ch (3 * k) := by
  obtain ⟨hk, hget⟩ := List.getElem?_eq_some_iff.mp hf
  let start : Stream := ⟨fs.flatMap HandshakeFrame.bytes, 0⟩
  have hpos : position ch e start k = ⟨(fs.drop k).flatMap HandshakeFrame.bytes, 0 + 3 * k⟩ :=
    position_whole rfl (Nat.le_of_lt hk) (by simpa [start] using h)
  have hleft : (position ch e start k).left =
      f.bytes ++ (fs.drop (k+1)).flatMap HandshakeFrame.bytes := by
    rw [hpos, List.drop_eq_getElem_cons hk, List.flatMap_cons, hget]
  have hcalls : (position ch e start k).calls = 3 * k := by rw [hpos, Nat.zero_add]
  have hcall := readNext_iff ch e hleft
  rwa [hcalls] at hcall

/-- Successive calls stay in step with the frames exactly when no read of theirs is split. -/
theorem inStep_iff (fs : List HandshakeFrame) (ch : Chunking) (e : Ending) :
    InStep ch e ⟨fs.flatMap HandshakeFrame.bytes, 0⟩ fs ↔
      ∀ k (f : HandshakeFrame), fs[k]? = some f → f.Whole ch (3 * k) := by
  constructor
  · intro h k
    induction k using Nat.strongRecOn with
    | ind k ih =>
      intro f hf
      exact (call_iff hf fun j g hj hg => ih j hj g hg).mp (h k f hf)
  · intro h k f hf
    exact (call_iff hf fun j g _ hg => h j g hg).mpr (h k f hf)

end stream

/-- The body of the first frame comes in two pieces. -/
def splitBody : Chunking where
  size i m := if i = 2 then min m 1 else m
  pos i m h := by
    split <;> omega
  le i m := by
    split <;> omega

/-- A `WifiStartResponse` and a `WifiConnectStatus`, each with a body of two bytes. -/
def twoFrames : List HandshakeFrame := [⟨7, [8, 0], by decide⟩, ⟨6, [8, 0], by decide⟩]

theorem splitBody_out_of_step :
    ¬ InStep splitBody .eof ⟨twoFrames.flatMap HandshakeFrame.bytes, 0⟩ twoFrames := by
  intro h
  have hsecond := (h 1 _ rfl).1
  revert hsecond
  decide +kernel

end Aawgd.AAWirelessLauncher
