import Aawgd.ByteStream
import Aawgd.CallProgram
import Aawgd.Frame

/-! The frame reader of the proxy: the calls a forward thread makes, `readFully`
and `readMessage`, and what they do on every trace and on a byte stream. -/
namespace Aawgd
open ByteStream CallProgram

inductive ProxyDirection where
  | tcpToUsb | usbToTcp
  deriving DecidableEq

inductive Fd where
  | tcp | usb
  deriving DecidableEq

/-- Everything a forward thread does that another thread or the kernel can see. -/
inductive Call where
  | shouldExit
  | raiseExit
  | read (fd : Fd) (offset nbyte : Nat)
  | write (fd : Fd) (block : List UInt8)
  | setErrnoEmsgsize
  | hasThread (d : ProxyDirection)
  | kill (d : ProxyDirection)
  deriving DecidableEq

@[reducible] def Answer : Call → Type
  | .shouldExit => Bool
  | .read _ _ n => ReadResult n
  | .write _ b => WriteResult b.length
  | .hasThread _ => Bool
  | .raiseExit | .setErrnoEmsgsize | .kill _ => Unit

abbrev Proxy := CallProgram Call Answer
abbrev Trace := List (Event Call Answer)

def sys (c : Call) : Proxy (Answer c) := perform c

/-- The thread's buffer, addressed by offset. It is not initialised and is reused. -/
abbrev Buffer := Nat → UInt8

def store (buffer : Buffer) (offset : Nat) (bytes : List UInt8) : Buffer :=
  fun i => if offset ≤ i then bytes[i - offset]?.getD (buffer i) else buffer i

/-- The first n bytes of the buffer. -/
def contents (buffer : Buffer) (n : Nat) : List UInt8 := (List.range n).map buffer

/-- `AAWProxy::readFully`, entered with `offset` bytes between the start of the
buffer and the pointer it was given. The result is -1 for an error, 0 for end of
file, and the requested length otherwise. -/
def readLoop (fd : Fd) (nbyte : Nat) (buffer : Buffer) (offset remaining : Nat) :
    Proxy (Int × Buffer) :=
  if remaining = 0 then .ret (nbyte, buffer)
  else .call (.read fd offset remaining) fun
    | .error => .ret (-1, buffer)
    | .eof => .ret (0, buffer)
    | .data bytes _ _ =>
      readLoop fd nbyte (store buffer offset bytes) (offset + bytes.length)
        (remaining - bytes.length)
  termination_by remaining

def readFully (fd : Fd) (buffer : Buffer) (offset nbyte : Nat) : Proxy (Int × Buffer) :=
  readLoop fd nbyte buffer offset nbyte

def FRAME_TYPE_FIRST : UInt8 := (1 : UInt8) <<< 0
def FRAME_TYPE_LAST : UInt8 := (1 : UInt8) <<< 1
def FRAME_TYPE_MASK : UInt8 := FRAME_TYPE_FIRST ||| FRAME_TYPE_LAST

/-- What is declared to follow the four header bytes, from the last three of them. -/
def messageLength (flags high low : UInt8) : Nat :=
  if flags &&& FRAME_TYPE_MASK = FRAME_TYPE_FIRST then (high.toNat <<< 8) + low.toNat + 4
  else (high.toNat <<< 8) + low.toNat

def headerLength : Nat := 4

/-- `AAWProxy::readMessage`. -/
def readMessage (fd : Fd) (buffer : Buffer) (bufferLen : Nat) : Proxy (Int × Buffer) := do
  let (len, buffer) ← readFully fd buffer 0 headerLength
  if len ≤ 0 then return (len, buffer)
  let length := messageLength (buffer 1) (buffer 2) (buffer 3)
  if headerLength + length > bufferLen then
    sys .setErrnoEmsgsize
    return (-1, buffer)
  let (len, buffer) ← readFully fd buffer headerLength length
  if len ≤ 0 then return (len, buffer)
  return ((headerLength + length : Nat), buffer)

@[simp] theorem sys_bind {α : Type} (c : Call) (f : Answer c → Proxy α) :
    (sys c >>= f) = .call c f := rfl

/-! The buffer -/

@[simp] theorem store_nil (buffer : Buffer) (offset : Nat) : store buffer offset [] = buffer := by
  funext i
  simp [store]

theorem store_append (buffer : Buffer) (offset : Nat) (xs ys : List UInt8) :
    store (store buffer offset xs) (offset + xs.length) ys = store buffer offset (xs ++ ys) := by
  funext i
  simp only [store]
  by_cases h₁ : offset ≤ i
  · by_cases h₂ : offset + xs.length ≤ i
    · have h₃ : xs.length ≤ i - offset := by omega
      have h₄ : i - (offset + xs.length) = i - offset - xs.length := by omega
      simp [h₁, h₂, List.getElem?_append_right h₃, List.getElem?_eq_none h₃, h₄]
    · have h₃ : i - offset < xs.length := by omega
      simp [h₁, h₂, List.getElem?_append_left h₃]
  · have h₂ : ¬ offset + xs.length ≤ i := by omega
    simp [h₁, h₂]

theorem store_get (buffer : Buffer) (bytes : List UInt8) (i : Nat) (h : i < bytes.length) :
    store buffer 0 bytes i = bytes[i] := by
  simp [store, List.getElem?_eq_getElem h]

theorem contents_store (buffer : Buffer) (bytes : List UInt8) :
    contents (store buffer 0 bytes) bytes.length = bytes := by
  apply List.ext_getElem
  · simp [contents]
  · intro i h₁ h₂
    simp [contents, store_get buffer bytes i h₂]

/-! What the reads of a trace brought in -/

def eventBytes : Event Call Answer → List UInt8
  | ⟨.read _ _ _, r⟩ => r.bytes
  | _ => []

/-- The bytes consumed from the source descriptor. -/
def consumed (tr : Trace) : List UInt8 := tr.flatMap eventBytes

@[simp] theorem consumed_nil : consumed [] = [] := rfl
@[simp] theorem consumed_cons (ev : Event Call Answer) (tr : Trace) :
    consumed (ev :: tr) = eventBytes ev ++ consumed tr := rfl
@[simp] theorem consumed_append (tr₁ tr₂ : Trace) :
    consumed (tr₁ ++ tr₂) = consumed tr₁ ++ consumed tr₂ := List.flatMap_append

def isWrite : Call → Bool
  | .write _ _ => true
  | _ => false

/-- `readFully` does nothing but read, and every read aims at the same end. -/
theorem readLoop_only {q : Call → Prop} {fd : Fd} (nbyte : Nat) (buffer : Buffer)
    (offset remaining : Nat) (hread : ∀ i n, i + n = offset + remaining → q (.read fd i n)) :
    (readLoop fd nbyte buffer offset remaining).Only q := by
  induction remaining using Nat.strongRecOn generalizing buffer offset with
  | ind remaining ih =>
    rw [readLoop]
    split
    · trivial
    · refine ⟨hread _ _ rfl, fun r => ?_⟩
      cases r with
      | error | eof => trivial
      | data bytes pos le =>
        refine ih _ (by omega) _ _ fun i n hi => hread i n ?_
        omega

/-- When `readFully` succeeds the requested bytes are in place, and they are the
bytes it consumed. -/
theorem readLoop_traces {fd : Fd} {nbyte offset remaining : Nat} {buffer buffer' : Buffer}
    {tr : Trace} {len : Int}
    (h : Traces (readLoop fd nbyte buffer offset remaining) tr (some (len, buffer')))
    (hlen : 0 < len) : len = nbyte ∧ (consumed tr).length = remaining ∧
      buffer' = store buffer offset (consumed tr) := by
  induction remaining using Nat.strongRecOn generalizing buffer offset tr with
  | ind remaining ih =>
    rw [readLoop] at h
    split at h
    next h0 =>
      cases h
      simp [h0]
    next h0 =>
      cases h with
      | call c k r tail =>
        cases r with
        | error | eof =>
          cases tail
          omega
        | data bytes pos le =>
          obtain ⟨h₁, h₂, h₃⟩ := ih (remaining - bytes.length) (by omega) tail
          refine ⟨h₁, ?_, ?_⟩
          · simp only [consumed_cons, eventBytes, ReadResult.bytes, List.length_append, h₂]
            omega
          · rw [h₃, store_append]
            rfl

theorem messageLength_eq (flags high low : UInt8) : messageLength flags high low =
    (if flags &&& 3 = 1 then 4 else 0) + (256 * high.toNat + low.toNat) := by
  have hmask : FRAME_TYPE_MASK = 3 := rfl
  have hfirst : FRAME_TYPE_FIRST = 1 := rfl
  simp only [messageLength, hmask, hfirst, Nat.shiftLeft_eq]
  split <;> omega

/-- What `readMessage` computes from the header in the buffer is the declared size. -/
theorem frameLength_store (buffer : Buffer) (header body : List UInt8)
    (h : header.length = headerLength) : frameLength (header ++ body) = headerLength +
      messageLength (store buffer 0 header 1) (store buffer 0 header 2)
        (store buffer 0 header 3) := by
  match header, h with
  | [a, b, c, d], _ =>
    rw [messageLength_eq]
    exact Nat.add_assoc _ _ _

/-- The reads of `readMessage` end inside a buffer that has room for a header. -/
theorem readMessage_only {q : Call → Prop} {fd : Fd} {bufferLen : Nat}
    (hread : ∀ i n, i + n ≤ max headerLength bufferLen → q (.read fd i n))
    (herrno : q .setErrnoEmsgsize) (buffer : Buffer) :
    (readMessage fd buffer bufferLen).Only q := by
  refine (readLoop_only _ _ _ _ fun i n hi => hread i n (by omega)).bind fun ⟨len, buffer⟩ => ?_
  dsimp only
  split
  · trivial
  split
  · exact ⟨herrno, fun _ => trivial⟩
  refine (readLoop_only _ _ _ _ fun i n hi => hread i n (by omega)).bind fun ⟨len, buffer⟩ => ?_
  dsimp only
  split <;> trivial

/-- When `readMessage` succeeds it has consumed one whole frame that fits the
buffer, and the buffer starts with that frame. -/
theorem readMessage_traces {fd : Fd} {buffer buffer' : Buffer} {bufferLen : Nat} {tr : Trace}
    {len : Int} (h : Traces (readMessage fd buffer bufferLen) tr (some (len, buffer')))
    (hlen : 0 < len) : len = (consumed tr).length ∧
      (consumed tr).length = frameLength (consumed tr) ∧
      (consumed tr).length ≤ bufferLen ∧ buffer' = store buffer 0 (consumed tr) := by
  obtain ⟨⟨len₁, buffer₁⟩, tr₁, tr₂, rfl, h₁, h₂⟩ := traces_bind_some h
  dsimp only at h₂
  split at h₂
  · cases h₂
    omega
  obtain ⟨-, hlen₁, rfl⟩ := readLoop_traces h₁ (by omega)
  split at h₂
  · cases h₂ with
    | call c k r tail =>
      cases tail
      omega
  obtain ⟨⟨len₂, buffer₂⟩, tr₃, tr₄, rfl, h₃, h₄⟩ := traces_bind_some h₂
  dsimp only at h₄
  split at h₄
  · cases h₄
    omega
  obtain ⟨-, hlen₂, rfl⟩ := readLoop_traces h₃ (by omega)
  cases h₄
  have hf := frameLength_store buffer (consumed tr₁) (consumed tr₃) hlen₁
  have htotal : (consumed tr₁ ++ consumed tr₃).length =
      frameLength (consumed tr₁ ++ consumed tr₃) := by
    rw [List.length_append, hf, hlen₁, hlen₂]
  simp only [List.append_nil, consumed_append]
  refine ⟨?_, htotal, ?_, ?_⟩
  · rw [htotal, hf]
  · rw [htotal, hf]
    omega
  · rw [← store_append, hlen₁, Nat.zero_add]

end Aawgd
