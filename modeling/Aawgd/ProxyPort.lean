import Aawgd.FieldReader
import Aawgd.LauncherSending
import Aawgd.SessionDescriptors

/-! The port of the proxy: the number that `startServer` puts into the bind address, and
the number that the phone finds in the `WifiStartRequest`. Both come from one environment
variable, one through 16 bits and one through 32. -/
namespace Aawgd.ProxyPort
open ByteStream CallProgram WireFormat AAWirelessLauncher

/-! The server with its address -/

/-- The two bytes of a 16-bit number in network order. -/
def htons (n : UInt16) : UInt8 × UInt8 :=
  (UInt8.ofNat (n.toNat / 256), UInt8.ofNat (n.toNat % 256))

structure SockAddrIn where
  sinFamily : UInt16
  sinAddr : UInt32
  sinPort : UInt8 × UInt8
  deriving DecidableEq

/-- The port number that the kernel takes from an address. -/
def SockAddrIn.port (address : SockAddrIn) : UInt16 :=
  fromBigEndian16 address.sinPort.1 address.sinPort.2

def AF_INET : UInt16 := 2
def INADDR_ANY : UInt32 := 0

inductive ServerCall where
  | socket
  | reuseAddress (serverSock : Nat)
  | bind (serverSock : Nat) (address : SockAddrIn)
  | listen (serverSock backlog : Nat)
  deriving DecidableEq

@[reducible] def ServerAnswer : ServerCall → Type
  | .socket => Option Nat
  | .reuseAddress _ | .bind _ _ | .listen _ _ => Bool

abbrev Server := CallProgram ServerCall ServerAnswer
abbrev ServerTrace := List (Event ServerCall ServerAnswer)

def server (c : ServerCall) : Server (ServerAnswer c) := perform c

/-- `AAWProxy::startServer` with its argument. -/
def startServer (port : Int) : Server (Option Nat) := do
  let some serverSock ← server .socket | return none
  if (← server (.reuseAddress serverSock)) = false then return none
  let address : SockAddrIn := ⟨AF_INET, INADDR_ANY, htons (UInt16.ofInt port)⟩
  if (← server (.bind serverSock address)) = false then return none
  if (← server (.listen serverSock 3)) = false then return none
  return some serverSock

/-- The call without the address and the backlog. -/
def forget : ServerCall → ServeCall
  | .socket => .socket
  | .reuseAddress serverSock => .reuseAddress serverSock
  | .bind serverSock _ => .bind serverSock
  | .listen serverSock _ => .listen serverSock

def answerOf : (c : ServerCall) → ServeAnswer (forget c) → ServerAnswer c
  | .socket => id
  | .reuseAddress _ | .bind _ _ | .listen _ _ => id

/-- On every port it is the `startServer` whose descriptors are followed elsewhere. -/
theorem startServer_relabel (port : Int) :
    (startServer port).relabel forget answerOf = AAWProxy.startServer := by
  refine congrArg (call ServeCall.socket) (funext fun socket => ?_)
  cases socket with
  | none => rfl
  | some serverSock =>
    refine congrArg (call (ServeCall.reuseAddress serverSock)) (funext fun reused => ?_)
    cases reused with
    | false => rfl
    | true =>
      refine congrArg (call (ServeCall.bind serverSock)) (funext fun bound => ?_)
      cases bound with
      | false => rfl
      | true =>
        refine congrArg (call (ServeCall.listen serverSock)) (funext fun listening => ?_)
        cases listening <;> rfl

/-- The addresses that sockets are bound to. -/
def bound? : Event ServerCall ServerAnswer → Option (Nat × UInt16)
  | ⟨.bind serverSock address, _⟩ => some (serverSock, address.port)
  | _ => none

def bounds (tr : ServerTrace) : List (Nat × UInt16) := tr.filterMap bound?

/-- The kernel reads the port from an address that `htons` wrote. -/
theorem port_htons (port : UInt16) : SockAddrIn.port ⟨AF_INET, INADDR_ANY, htons port⟩ = port :=
  fromBigEndian16_ofNat port

/-- A server that starts has bound its socket once, to its argument cut to 16 bits. -/
theorem startServer_binds {port : Int} {tr : ServerTrace} {serverSock : Nat}
    (h : Traces (startServer port) tr (some (some serverSock))) :
    bounds tr = [(serverSock, UInt16.ofInt port)] := by
  obtain ⟨-, hnone⟩ | ⟨socket, tr₁, rfl, h₁⟩ := traces_call.mp h
  · cases hnone
  cases socket with
  | none => cases h₁
  | some sock =>
    obtain ⟨-, hnone⟩ | ⟨reused, tr₂, rfl, h₂⟩ := traces_call.mp h₁
    · cases hnone
    cases reused with
    | false => cases h₂
    | true =>
      obtain ⟨-, hnone⟩ | ⟨bound, tr₃, rfl, h₃⟩ := traces_call.mp h₂
      · cases hnone
      cases bound with
      | false => cases h₃
      | true =>
        obtain ⟨-, hnone⟩ | ⟨listening, tr₄, rfl, h₄⟩ := traces_call.mp h₃
        · cases hnone
        cases listening with
        | false => cases h₄
        | true =>
          cases h₄
          exact congrArg (fun p => [(serverSock, p)]) (port_htons (UInt16.ofInt port))

/-! What the phone reads -/

/-- The port in a `WifiStartRequest`: the last value of its second field. -/
def portField (payload : Bytes) : Option Int := do
  let fields ← readFields payload.length payload
  let value ← (fields.filterMap fun
    | .int 2 value => some value
    | _ => none).getLast?
  return int32 value

/-- The port in a frame with the id of a `WifiStartRequest` and the length it has. -/
def toldPort : Bytes → Option Int
  | lengthHigh :: lengthLow :: idHigh :: idLow :: payload =>
    if (fromBigEndian16 lengthHigh lengthLow).toNat = payload.length ∧
        fromBigEndian16 idHigh idLow = 1 then portField payload
    else none
  | _ => none

/-- The fields the request is written from. -/
theorem wifiStartRequest_fields (ipAddress : Bytes) (port : Int) :
    (wifiStartRequest ipAddress port).serialized =
      [Field.string 1 ipAddress, Field.int 2 (unsigned64 port)].flatMap Field.bytes := by
  simp [wifiStartRequest, Field.bytes, stringField, intField]

theorem portField_wifiStartRequest (ipAddress : Bytes) {port : Int} (h : -2 ^ 31 ≤ port)
    (h' : port < 2 ^ 31) : portField (wifiStartRequest ipAddress port).serialized = some port := by
  have hlen : 2 ≤ (wifiStartRequest ipAddress port).serialized.length := by
    rw [MessageLite.serialized_length]
    simp only [wifiStartRequest, stringFieldSize, intFieldSize]
    omega
  have hfields := readFields_bytes [Field.string 1 ipAddress, Field.int 2 (unsigned64 port)]
    (by simp [Field.number]) hlen
  rw [← wifiStartRequest_fields] at hfields
  simp [portField, hfields, int32_unsigned64 h h']

theorem toldPort_encoded {message : MessageLite} (h : message.byteSizeLong < 2 ^ 16) :
    toldPort (encoded .wifiStartRequest message) = portField message.serialized := by
  have hsize : (UInt16.ofNat message.byteSizeLong).toNat = message.serialized.length := by
    rw [message.serialized_length]
    exact UInt16.toNat_ofNat_of_lt h
  have hlength := fromBigEndian16_ofNat (UInt16.ofNat message.byteSizeLong)
  have hid := fromBigEndian16_ofNat MessageId.wifiStartRequest.toUInt16
  simp only [encoded, bigEndian16, List.cons_append, List.nil_append, toldPort]
  rw [hlength, hid, if_pos ⟨hsize, rfl⟩]

theorem portField_zeros (n : Nat) : portField (List.replicate n 0) = none := by
  cases n with
  | zero => rfl
  | succ n => simp [portField, List.replicate_succ, readFields_zero]

theorem toldPort_short {frame : Bytes} (h : frame.length < 4) : toldPort frame = none := by
  match frame, h with
  | [], _ | [_], _ | [_, _], _ | [_, _, _], _ => rfl

/-- In a frame of a larger request there is no port to be found where the memory held zeros. -/
theorem toldPort_too_long {message : MessageLite} (h : 65531 < message.byteSizeLong) :
    toldPort (sentFrame .wifiStartRequest message (zeroed (frameSize message).toNat).1) = none := by
  have hsize := messageSize_toNat message
  have hframe := frameSize_toNat message
  by_cases hshort : (frameSize message).toNat < 4
  · apply toldPort_short
    rw [sentFrame_length, (zeroed (frameSize message).toNat).2]
    exact hshort
  · have hfour : (frameSize message).toNat = (messageSize message).toNat + 4 := by omega
    have hbig : (messageSize message).toNat < message.byteSizeLong := by omega
    have hzeros : (zeroed (frameSize message).toNat).1 =
        0 :: 0 :: 0 :: 0 :: List.replicate (messageSize message).toNat 0 := by
      rw [hfour]
      rfl
    have hlength := fromBigEndian16_ofNat (messageSize message)
    have hid := fromBigEndian16_ofNat MessageId.wifiStartRequest.toUInt16
    rw [hzeros, sentFrame_cut _ hbig]
    simp only [bigEndian16, List.cons_append, List.nil_append, toldPort]
    rw [hlength, hid, List.length_replicate, if_pos ⟨rfl, rfl⟩, portField_zeros]

/-! The port in the environment -/

theorem stoi_range {s : Bytes} {n : Int} (h : stoi s = some n) : -2 ^ 31 ≤ n ∧ n < 2 ^ 31 := by
  unfold stoi at h
  split at h
  dsimp only at h
  split at h
  · cases h
  · split at h
    next hrange =>
      cases h
      exact hrange
    next => cases h

theorem port_range (e : Environment) :
    -2 ^ 31 ≤ (Config.getWifiInfo e).port ∧ (Config.getWifiInfo e).port < 2 ^ 31 := by
  change -2 ^ 31 ≤ Config.getenvInt e _ 5288 ∧ Config.getenvInt e _ 5288 < 2 ^ 31
  unfold Config.getenvInt
  split
  next => decide
  next value hvalue =>
    cases hstoi : stoi value with
    | none => decide
    | some n => exact stoi_range hstoi

/-- The variable is unset, or `stoi` throws on it, or its value is a port number. -/
def PortInRange (e : Environment) : Prop :=
  ∀ value n, e.getenv (bytes "AAWG_PROXY_PORT") = some value → stoi value = some n →
    0 ≤ n ∧ n < 2 ^ 16

theorem portInRange_iff (e : Environment) : PortInRange e ↔
    0 ≤ (Config.getWifiInfo e).port ∧ (Config.getWifiInfo e).port < 2 ^ 16 := by
  change PortInRange e ↔ 0 ≤ Config.getenvInt e _ 5288 ∧ Config.getenvInt e _ 5288 < 2 ^ 16
  unfold PortInRange Config.getenvInt
  cases hvalue : e.getenv (bytes "AAWG_PROXY_PORT") with
  | none => simp
  | some value =>
    simp only [Option.some.injEq]
    cases hstoi : stoi value with
    | none =>
      refine ⟨fun _ => by decide, ?_⟩
      rintro - value' n rfl hn
      simp [hstoi] at hn
    | some n =>
      refine ⟨fun h => h value n rfl hstoi, ?_⟩
      rintro h value' n' rfl hn
      rw [hstoi] at hn
      cases hn
      exact h

/-- Only a port number is the same in 16 bits. -/
theorem ofInt_eq_iff (port : Int) :
    port = (UInt16.ofInt port).toNat ↔ 0 ≤ port ∧ port < 2 ^ 16 := by
  have hcut : ((UInt16.ofInt port).toNat : Int) = port % 2 ^ 16 := by
    rw [UInt16.ofInt, UInt16.toNat_ofNat']
    omega
  rw [hcut]
  omega

/-! The phone is told where the server listens -/

def startRequest (e : Environment) : MessageLite :=
  wifiStartRequest (Config.getWifiInfo e).ipAddress (Config.getWifiInfo e).port

theorem startRequest_port (e : Environment) :
    portField (startRequest e).serialized = some (Config.getWifiInfo e).port :=
  portField_wifiStartRequest _ (port_range e).1 (port_range e).2

/-- Whenever the server has started and the request has been handed to `write`, the phone
finds in it the port that the socket is bound to. -/
def TellsBoundPort (e : Environment) : Prop :=
  ∀ served serverSock told o,
    Traces (startServer (Config.getWifiInfo e).port) served (some (some serverSock)) →
    Traces (launch (Config.getWifiInfo e)) told o → ∀ frame, (frames told).head? = some frame →
      ∃ port, bounds served = [(serverSock, port)] ∧ toldPort frame = some (port.toNat : Int)

/-- A request that fits its length field reaches the phone with its port. -/
theorem launch_tells {e : Environment} (h : (startRequest e).byteSizeLong ≤ 65531)
    {told : LaunchTrace} {o : Option Unit} (ht : Traces (launch (Config.getWifiInfo e)) told o)
    {frame : Bytes} (hframe : (frames told).head? = some frame) :
    toldPort frame = some (Config.getWifiInfo e).port := by
  have hstart : IsFrame .wifiStartRequest (startRequest e) frame := by
    obtain hnone | ⟨start, hstart, hsent | ⟨response, -, hsent⟩⟩ := (launch_on_request ht).sends
    · simp [hnone] at hframe
    · simp only [hsent, List.head?_cons, Option.some.injEq] at hframe
      exact hframe ▸ hstart
    · simp only [hsent, List.head?_cons, Option.some.injEq] at hframe
      exact hframe ▸ hstart
  rw [hstart.fits h, toldPort_encoded (by omega), startRequest_port]

/-- A server whose calls all succeed. -/
def willing : Unit → (c : ServerCall) → ServerAnswer c × Unit
  | s, .socket => (some 3, s)
  | s, .reuseAddress _ => (true, s)
  | s, .bind _ _ => (true, s)
  | s, .listen _ _ => (true, s)

theorem startServer_willing (port : Int) :
    ∃ served, Traces (startServer port) served (some (some 3)) :=
  ⟨_, run_traces willing (startServer port) ()⟩

/-- To a peer that hangs up, the request is sent and nothing else. -/
theorem launch_silent (w : WifiInfo) : frames (run silent (launch w) ()).trace =
    [sentFrame .wifiStartRequest (wifiStartRequest w.ipAddress w.port)
      (zeroed (frameSize (wifiStartRequest w.ipAddress w.port)).toNat).1] := rfl

theorem tellsBoundPort_iff (e : Environment) :
    TellsBoundPort e ↔ (startRequest e).byteSizeLong ≤ 65531 ∧ PortInRange e := by
  obtain ⟨served, hserved⟩ := startServer_willing (Config.getWifiInfo e).port
  have hbound := startServer_binds hserved
  rw [portInRange_iff, ← ofInt_eq_iff]
  constructor
  · intro h
    have htold := h served 3 _ _ hserved (run_traces silent (launch (Config.getWifiInfo e)) ())
      _ (by rw [launch_silent]; rfl)
    obtain ⟨port, hport, htold⟩ := htold
    rw [hbound] at hport
    cases hport
    by_cases hfits : (startRequest e).byteSizeLong ≤ 65531
    · refine ⟨hfits, Option.some.inj ?_⟩
      rw [← htold]
      exact (launch_tells hfits (run_traces silent (launch (Config.getWifiInfo e)) ())
        (by rw [launch_silent]; rfl)).symm
    · have hnone : toldPort _ = none := toldPort_too_long (Nat.lt_of_not_le hfits)
      rw [startRequest] at hnone
      simp [hnone] at htold
  · rintro ⟨hfits, hport⟩ served' serverSock told o hs ht frame hframe
    refine ⟨_, startServer_binds hs, ?_⟩
    rw [launch_tells hfits ht hframe, ← hport]

/-- The port field of the request is the port in the bind address exactly when the
variable gives a port number; the phone gets to read it exactly when, besides, the request
fits its 16-bit length. -/
theorem told_port (e : Environment) :
    (portField (startRequest e).serialized =
      some ((UInt16.ofInt (Config.getWifiInfo e).port).toNat : Int) ↔ PortInRange e) ∧
    (TellsBoundPort e ↔ (startRequest e).byteSizeLong ≤ 65531 ∧ PortInRange e) := by
  refine ⟨?_, tellsBoundPort_iff e⟩
  rw [startRequest_port, Option.some.injEq, ofInt_eq_iff, portInRange_iff]

/-- The port variable holds 70000. -/
def highPort : Environment where
  getenv name := if name = bytes "AAWG_PROXY_PORT" then some (bytes "70000") else none
  macAddress := bytes "02:00:00:00:00:01"

/-- The server listens on 4464, the phone is sent to 70000. -/
theorem highPort_mistold : (Config.getWifiInfo highPort).port = 70000 ∧
    UInt16.ofInt (Config.getWifiInfo highPort).port = 4464 ∧ ¬ TellsBoundPort highPort := by
  have hport : (Config.getWifiInfo highPort).port = 70000 := by decide
  refine ⟨hport, by rw [hport]; rfl, fun h => ?_⟩
  have hrange := (tellsBoundPort_iff highPort).mp h
  rw [portInRange_iff, hport] at hrange
  omega

end Aawgd.ProxyPort
