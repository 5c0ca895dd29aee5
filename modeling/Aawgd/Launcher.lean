import Aawgd.ByteStream
import Aawgd.CallProgram
import Aawgd.Config
import Aawgd.WireFormat

/-! The Bluetooth launcher: the two messages it sends, `SendMessage`, `ReadMessage` and
`launch`, call by call. -/
namespace Aawgd
open ByteStream CallProgram WireFormat

/-- A message and its serialization, whose size is known beforehand. -/
structure MessageLite where
  byteSizeLong : Nat
  serialized : Bytes
  serialized_length : serialized.length = byteSizeLong

/-- `WifiStartRequest` with both fields set. -/
def wifiStartRequest (ipAddress : Bytes) (port : Int) : MessageLite where
  byteSizeLong := stringFieldSize ipAddress.length + intFieldSize port
  serialized := stringField 1 ipAddress ++ intField 2 port
  serialized_length := by
    simp [stringField_length, intField_length]

/-- `WifiInfoResponse` with all five fields set. -/
def wifiInfoResponse (ssid key bssid : Bytes) (securityMode : SecurityMode)
    (accessPointType : AccessPointType) : MessageLite where
  byteSizeLong := stringFieldSize ssid.length + stringFieldSize key.length +
    stringFieldSize bssid.length + intFieldSize securityMode.number +
    intFieldSize accessPointType.number
  serialized := stringField 1 ssid ++ stringField 2 key ++ stringField 3 bssid ++
    intField 4 securityMode.number ++ intField 5 accessPointType.number
  serialized_length := by
    simp [stringField_length, intField_length]
    omega

/-- An enumeration over `int`: a cast can give it any value. -/
structure MessageId where
  value : Int
  deriving DecidableEq

namespace MessageId

def invalid : MessageId := ⟨-1⟩
def wifiStartRequest : MessageId := ⟨1⟩
def wifiInfoRequest : MessageId := ⟨2⟩
def wifiInfoResponse : MessageId := ⟨3⟩

/-- The cast of a 16-bit number. -/
def ofUInt16 (n : UInt16) : MessageId := ⟨n.toNat⟩

def toUInt16 (i : MessageId) : UInt16 := UInt16.ofInt i.value

end MessageId

/-- What the launcher asks of the kernel and of the allocator. -/
inductive LaunchCall where
  | getFlags
  | setFlags (flags : BitVec 32)
  | allocate (n : Nat)
  | write (block : Bytes)
  | read (nbyte : Nat)
  deriving DecidableEq

/-- New memory holds whatever it held before. -/
@[reducible] def LaunchAnswer : LaunchCall → Type
  | .getFlags => BitVec 32
  | .setFlags _ => Unit
  | .allocate n => { memory : Bytes // memory.length = n }
  | .write block => WriteResult block.length
  | .read n => ReadResult n

/-- Memory that holds zeros. -/
def zeroed (n : Nat) : LaunchAnswer (.allocate n) := ⟨List.replicate n 0, List.length_replicate⟩

/-- The peer takes the block whole. -/
def taken (block : Bytes) : LaunchAnswer (.write block) := .accepted block.length (Nat.le_refl _)

abbrev Launch := CallProgram LaunchCall LaunchAnswer
abbrev LaunchTrace := List (Event LaunchCall LaunchAnswer)

def launchCall (c : LaunchCall) : Launch (LaunchAnswer c) := perform c

/-- `memcpy` into a buffer. What would fall behind its end is not part of it. -/
def memcpy (buffer : Bytes) (offset : Nat) (source : Bytes) : Bytes :=
  (buffer.take offset ++ source ++ buffer.drop (offset + source.length)).take buffer.length

/-- The size is cut to 16 bits, and once more when the header is added. -/
def messageSize (message : MessageLite) : UInt16 := UInt16.ofNat message.byteSizeLong

def frameSize (message : MessageLite) : UInt16 := messageSize message + 4

/-- `SerializeToArray` fails when the message does not fit the given size. -/
def serializeToArray (message : MessageLite) (buffer : Bytes) (offset size : Nat) : Bytes :=
  if message.byteSizeLong ≤ size then memcpy buffer offset message.serialized else buffer

/-- The buffer that `SendMessage` hands to `write`, from the memory it was allocated. -/
def sentFrame (messageId : MessageId) (message : MessageLite) (memory : Bytes) : Bytes :=
  let buffer := memcpy memory 0 (bigEndian16 (messageSize message))
  let buffer := memcpy buffer 2 (bigEndian16 messageId.toUInt16)
  serializeToArray message buffer 4 (messageSize message).toNat

namespace AAWirelessLauncher

/-! What the buffer holds -/

/-- The frame of a message: its full length, the id, the payload. -/
def encoded (messageId : MessageId) (message : MessageLite) : Bytes :=
  bigEndian16 (UInt16.ofNat message.byteSizeLong) ++
    (bigEndian16 messageId.toUInt16 ++ message.serialized)

theorem encoded_length (messageId : MessageId) (message : MessageLite) :
    (encoded messageId message).length = 4 + message.byteSizeLong := by
  simp only [encoded, List.length_append, bigEndian16_length, message.serialized_length]
  omega

theorem messageSize_toNat (message : MessageLite) :
    (messageSize message).toNat = message.byteSizeLong % 2 ^ 16 :=
  UInt16.toNat_ofNat'

theorem frameSize_toNat (message : MessageLite) :
    (frameSize message).toNat = (message.byteSizeLong % 2 ^ 16 + 4) % 2 ^ 16 := by
  rw [frameSize, UInt16.toNat_add, messageSize_toNat]
  rfl

theorem memcpy_of_le {buffer source : Bytes} {offset : Nat}
    (h : offset + source.length ≤ buffer.length) : memcpy buffer offset source =
      buffer.take offset ++ (source ++ buffer.drop (offset + source.length)) := by
  rw [memcpy, List.append_assoc]
  apply List.take_of_length_le
  simp only [List.length_append, List.length_take, List.length_drop]
  omega

theorem memcpy_length (buffer source : Bytes) (offset : Nat) :
    (memcpy buffer offset source).length = buffer.length := by
  simp only [memcpy, List.length_take, List.length_append, List.length_drop]
  omega

/-- In four bytes and more, the header takes the place of the first four. -/
theorem memcpy_header (m₀ m₁ m₂ m₃ : UInt8) (tail : Bytes) (size id : UInt16) :
    memcpy (memcpy (m₀ :: m₁ :: m₂ :: m₃ :: tail) 0 (bigEndian16 size)) 2 (bigEndian16 id) =
      bigEndian16 size ++ (bigEndian16 id ++ tail) := by
  rw [memcpy_of_le (by rw [memcpy_length, bigEndian16_length]; simp),
    memcpy_of_le (by rw [bigEndian16_length]; simp)]
  rfl

theorem sentFrame_fits (messageId : MessageId) {message : MessageLite} {memory : Bytes}
    (h : message.byteSizeLong ≤ 65531) (hm : memory.length = (frameSize message).toNat) :
    sentFrame messageId message memory = encoded messageId message := by
  have hsize : (messageSize message).toNat = message.byteSizeLong := by
    rw [messageSize_toNat]
    omega
  have hlen : memory.length = 4 + message.serialized.length := by
    rw [hm, frameSize_toNat, message.serialized_length]
    omega
  match memory, hlen with
  | [], hlen | [_], hlen | [_, _], hlen | [_, _, _], hlen =>
    simp only [List.length_nil, List.length_cons] at hlen
    omega
  | m₀ :: m₁ :: m₂ :: m₃ :: tail, hlen =>
    have htail : tail.length = message.serialized.length := by
      simp only [List.length_cons] at hlen
      omega
    rw [sentFrame, memcpy_header, serializeToArray, if_pos (Nat.le_of_eq hsize.symm), memcpy_of_le]
    · rw [encoded, messageSize]
      simp [bigEndian16, htail]
      omega
    · simp only [List.length_append, bigEndian16_length, htail]
      omega

theorem sentFrame_length (messageId : MessageId) (message : MessageLite) (memory : Bytes) :
    (sentFrame messageId message memory).length = memory.length := by
  unfold sentFrame serializeToArray
  split <;> simp only [memcpy_length]

/-- A message longer than its size says is not serialized: behind the header stands what the
memory held. -/
theorem sentFrame_cut (messageId : MessageId) {message : MessageLite} {m₀ m₁ m₂ m₃ : UInt8}
    {tail : Bytes} (h : (messageSize message).toNat < message.byteSizeLong) :
    sentFrame messageId message (m₀ :: m₁ :: m₂ :: m₃ :: tail) =
      bigEndian16 (messageSize message) ++ (bigEndian16 messageId.toUInt16 ++ tail) := by
  rw [sentFrame, memcpy_header, serializeToArray, if_neg (Nat.not_le.mpr h)]

/-! The calls -/

/-- `AAWirelessLauncher::SendMessage`. -/
def sendMessage (messageId : MessageId) (message : MessageLite) : Launch Unit := do
  let memory ← launchCall (.allocate (frameSize message).toNat)
  let _ ← launchCall (.write (sentFrame messageId message memory.1))
  return ()

/-- `AAWirelessLauncher::ReadMessage`. Nothing is asked of the body it reads. -/
def readMessage : Launch MessageId := do
  match (← launchCall (.read 2)).bytes with
  | [lengthHigh, lengthLow] =>
    match (← launchCall (.read 2)).bytes with
    | [idHigh, idLow] =>
      let length := fromBigEndian16 lengthHigh lengthLow
      let _ ← launchCall (.allocate length.toNat)
      let _ ← launchCall (.read length.toNat)
      return .ofUInt16 (fromBigEndian16 idHigh idLow)
    | _ => return .invalid
  | _ => return .invalid

def oNonblock : BitVec 32 := 0o4000

/-- `AAWirelessLauncher::launch`. -/
def launch (wifiInfo : WifiInfo) : Launch Unit := do
  let flags ← launchCall .getFlags
  launchCall (.setFlags (flags &&& ~~~oNonblock))
  sendMessage .wifiStartRequest (wifiStartRequest wifiInfo.ipAddress wifiInfo.port)
  let messageId ← readMessage
  if messageId ≠ .wifiInfoRequest then return ()
  sendMessage .wifiInfoResponse (wifiInfoResponse wifiInfo.ssid wifiInfo.key wifiInfo.bssid
    wifiInfo.securityMode wifiInfo.accessPointType)
  let _ ← readMessage
  let _ ← readMessage
  return ()

/-- `ReadMessage` as the calls it makes. -/
theorem readMessage_eq : readMessage = .call (.read 2) fun r =>
    match r.bytes with
    | [lengthHigh, lengthLow] => .call (.read 2) fun r' =>
      match r'.bytes with
      | [idHigh, idLow] => .call (.allocate (fromBigEndian16 lengthHigh lengthLow).toNat) fun _ =>
        .call (.read (fromBigEndian16 lengthHigh lengthLow).toNat) fun _ =>
          .ret (.ofUInt16 (fromBigEndian16 idHigh idLow))
      | _ => .ret .invalid
    | _ => .ret .invalid := rfl

/-- A peer that takes what it is sent and hangs up. -/
def silent : Unit → (c : LaunchCall) → LaunchAnswer c × Unit
  | s, .getFlags => (0, s)
  | s, .setFlags _ => ((), s)
  | s, .allocate n => (zeroed n, s)
  | s, .write block => (taken block, s)
  | s, .read _ => (.eof, s)

/-- A peer that asks for the access point at once. -/
def asking : Nat → (c : LaunchCall) → LaunchAnswer c × Nat
  | s, .getFlags => (0, s)
  | s, .setFlags _ => ((), s)
  | s, .allocate n => (zeroed n, s)
  | s, .write block => (taken block, s)
  | 0, .read 2 => (.data [0, 0] (by decide) (by decide), 1)
  | 1, .read 2 => (.data [0, 2] (by decide) (by decide), 2)
  | s, .read _ => (.eof, s)

end AAWirelessLauncher

end Aawgd
