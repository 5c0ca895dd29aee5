import Aawgd.LauncherSending
import Aawgd.LiteMessage
import Aawgd.ProxyPort

/-! The two messages of the launcher as generated classes: their tables of fields and their
members. The launcher's own view of them, a size and some bytes, is one of these. -/
namespace Aawgd.LauncherMessages
open ByteStream CallProgram WireFormat LiteMessage

/-! `WifiStartRequest` -/

namespace WifiStartRequest

def ipAddress : FieldInfo := ⟨0, 1, .string⟩
def port : FieldInfo := ⟨1, 2, .int32⟩

def table : Table where
  fields := [ipAddress, port]
  bits_lt := by simp [ipAddress, port]
  numbers := by simp [ipAddress, port]
  bits_nodup := by simp [ipAddress, port]
  numbers_nodup := by simp [ipAddress, port]

def setIpAddress (m : Message) (value : Bytes) : Message := m.setText ipAddress value
def setPort (m : Message) (value : Int) : Message := m.setNumber port value

def isInitialized (m : Message) : Bool := LiteMessage.isInitialized table m
def byteSizeLong (m : Message) : Nat := LiteMessage.byteSizeLong table m
def internalSerialize (m : Message) : Bytes := LiteMessage.internalSerialize table m
def internalParse (rt : Runtime) (m : Message) (s : Bytes) : Parsed :=
  LiteMessage.internalParse rt table m s
def mergeFrom (m source : Message) : Message := LiteMessage.mergeFrom table m source

/-- The port is zeroed in any case. -/
def clear (m : Message) : Message := LiteMessage.clear table true m

def copyFrom (m source : Message) : Message := mergeFrom (clear m) source

end WifiStartRequest

/-! `WifiInfoResponse` -/

/-- `SecurityMode_IsValid`. -/
def securityModeIsValid (value : Int) : Bool := value ∈ [0, 1, 2, 3, 4, 8, 12, 20, 24, 28]

/-- `AccessPointType_IsValid`. -/
def accessPointTypeIsValid (value : Int) : Bool := value ∈ [0, 1]

namespace WifiInfoResponse

def ssid : FieldInfo := ⟨0, 1, .string⟩
def key : FieldInfo := ⟨1, 2, .string⟩
def bssid : FieldInfo := ⟨2, 3, .string⟩
def securityMode : FieldInfo := ⟨3, 4, .enum securityModeIsValid⟩
def accessPointType : FieldInfo := ⟨4, 5, .enum accessPointTypeIsValid⟩

def table : Table where
  fields := [ssid, key, bssid, securityMode, accessPointType]
  bits_lt := by simp [ssid, key, bssid, securityMode, accessPointType]
  numbers := by simp [ssid, key, bssid, securityMode, accessPointType]
  bits_nodup := by simp [ssid, key, bssid, securityMode, accessPointType]
  numbers_nodup := by simp [ssid, key, bssid, securityMode, accessPointType]

def setSsid (m : Message) (value : Bytes) : Message := m.setText ssid value
def setKey (m : Message) (value : Bytes) : Message := m.setText key value
def setBssid (m : Message) (value : Bytes) : Message := m.setText bssid value
def setSecurityMode (m : Message) (value : SecurityMode) : Message :=
  m.setNumber securityMode value.number
def setAccessPointType (m : Message) (value : AccessPointType) : Message :=
  m.setNumber accessPointType value.number

def isInitialized (m : Message) : Bool := LiteMessage.isInitialized table m
def byteSizeLong (m : Message) : Nat := LiteMessage.byteSizeLong table m
def internalSerialize (m : Message) : Bytes := LiteMessage.internalSerialize table m
def internalParse (rt : Runtime) (m : Message) (s : Bytes) : Parsed :=
  LiteMessage.internalParse rt table m s
def mergeFrom (m source : Message) : Message := LiteMessage.mergeFrom table m source

/-- The two numbers are zeroed when one of them is there. -/
def clear (m : Message) : Message := LiteMessage.clear table (m.hasBits &&& 0x18 != 0) m

def copyFrom (m source : Message) : Message := mergeFrom (clear m) source

end WifiInfoResponse

/-! Both classes -/

section
variable {rt : Runtime} {m source : Message}

theorem clear_request (h : WellFormed rt WifiStartRequest.table m) :
    WifiStartRequest.clear m = .empty :=
  h.clear_eq (by simp)

/-- The mask in `Clear` is that of the two numbers. -/
theorem clear_response (h : WellFormed rt WifiInfoResponse.table m) :
    WifiInfoResponse.clear m = .empty := by
  refine h.clear_eq fun hnone f hf hkind => ?_
  have hmask : m.hasBits &&& 0x18 = 0 := by simpa using hnone
  have hbit (i : Nat) (hi : (0x18 : BitVec 32).getLsbD i = true) : m.hasBits.getLsbD i = false := by
    have hand : (m.hasBits &&& 0x18).getLsbD i = false := by
      rw [hmask]
      exact BitVec.getLsbD_zero
    rwa [BitVec.getLsbD_and, hi, Bool.and_true] at hand
  simp only [WifiInfoResponse.table, List.mem_cons, List.not_mem_nil, or_false] at hf
  obtain rfl | rfl | rfl | rfl | rfl := hf
  · exact absurd rfl hkind
  · exact absurd rfl hkind
  · exact absurd rfl hkind
  · exact hbit 3 (by decide)
  · exact hbit 4 (by decide)

/-- Whatever was done to messages of the two classes, parsing foreign input included: what a
message is written as has the size that is announced, parsed into another message it is
merged, parsed after `Clear` it gives the message back, and so does `CopyFrom`. -/
theorem made_roundTrip (rt : Runtime) :
    (∀ m source, Made rt WifiStartRequest.table m → Made rt WifiStartRequest.table source →
      (WifiStartRequest.internalSerialize source).length = WifiStartRequest.byteSizeLong source ∧
      WifiStartRequest.internalParse rt m (WifiStartRequest.internalSerialize source) =
        .done (WifiStartRequest.mergeFrom m source) ∧
      WifiStartRequest.internalParse rt (WifiStartRequest.clear m)
        (WifiStartRequest.internalSerialize source) = .done source ∧
      WifiStartRequest.copyFrom m source = source) ∧
    (∀ m source, Made rt WifiInfoResponse.table m → Made rt WifiInfoResponse.table source →
      (WifiInfoResponse.internalSerialize source).length = WifiInfoResponse.byteSizeLong source ∧
      WifiInfoResponse.internalParse rt m (WifiInfoResponse.internalSerialize source) =
        .done (WifiInfoResponse.mergeFrom m source) ∧
      WifiInfoResponse.internalParse rt (WifiInfoResponse.clear m)
        (WifiInfoResponse.internalSerialize source) = .done source ∧
      WifiInfoResponse.copyFrom m source = source) := by
  constructor
  · intro m source hm hsource
    have hclear := clear_request hm.wellFormed
    refine ⟨(byteSizeLong_eq _ source).symm, hsource.wellFormed.internalParse_serialize m, ?_, ?_⟩
    · rw [hclear]
      exact (hsource.wellFormed.internalParse_serialize .empty).trans
        (congrArg Parsed.done hsource.wellFormed.merge_empty)
    · rw [WifiStartRequest.copyFrom, hclear]
      exact hsource.wellFormed.merge_empty
  · intro m source hm hsource
    have hclear := clear_response hm.wellFormed
    refine ⟨(byteSizeLong_eq _ source).symm, hsource.wellFormed.internalParse_serialize m, ?_, ?_⟩
    · rw [hclear]
      exact (hsource.wellFormed.internalParse_serialize .empty).trans
        (congrArg Parsed.done hsource.wellFormed.merge_empty)
    · rw [WifiInfoResponse.copyFrom, hclear]
      exact hsource.wellFormed.merge_empty

end

/-- A request without its address. -/
theorem made_roundTrip_port :
    WifiStartRequest.internalParse .plain (WifiStartRequest.clear .empty)
      (WifiStartRequest.internalSerialize (WifiStartRequest.setPort .empty 5288)) =
        .done (WifiStartRequest.setPort .empty 5288) :=
  ((made_roundTrip .plain).1 .empty (WifiStartRequest.setPort .empty 5288) .new
    (.setNumber WifiStartRequest.port 5288 .new (by simp [WifiStartRequest.table])
      (by simp [WifiStartRequest.port]) (by decide) (by simp [WifiStartRequest.port]))).2.2.1

/-! The messages of the launcher -/

/-- The request as the launcher fills it in. -/
def startMessage (w : WifiInfo) : Message :=
  WifiStartRequest.setPort (WifiStartRequest.setIpAddress .empty w.ipAddress) w.port

/-- The response as the launcher fills it in. -/
def infoMessage (w : WifiInfo) : Message :=
  let m := WifiInfoResponse.setSsid .empty w.ssid
  let m := WifiInfoResponse.setKey m w.key
  let m := WifiInfoResponse.setBssid m w.bssid
  let m := WifiInfoResponse.setSecurityMode m w.securityMode
  WifiInfoResponse.setAccessPointType m w.accessPointType

theorem startMessage_has (w : WifiInfo) :
    ∀ f ∈ WifiStartRequest.table.fields, (startMessage w).has f = true := by
  have hbits : (startMessage w).hasBits = WifiStartRequest.table.mask := by
    change (0 : BitVec 32) ||| BitVec.twoPow 32 0 ||| BitVec.twoPow 32 1 = _
    decide
  intro f hf
  rw [Message.has, hbits]
  exact (WifiStartRequest.table.mask_iff f.bit).mpr ⟨f, hf, rfl⟩

theorem infoMessage_has (w : WifiInfo) :
    ∀ f ∈ WifiInfoResponse.table.fields, (infoMessage w).has f = true := by
  have hbits : (infoMessage w).hasBits = WifiInfoResponse.table.mask := by
    change (0 : BitVec 32) ||| BitVec.twoPow 32 0 ||| BitVec.twoPow 32 1 ||| BitVec.twoPow 32 2 |||
      BitVec.twoPow 32 3 ||| BitVec.twoPow 32 4 = _
    decide
  intro f hf
  rw [Message.has, hbits]
  exact (WifiInfoResponse.table.mask_iff f.bit).mpr ⟨f, hf, rfl⟩

/-- The bytes that the launcher sends are those of the generated serializer. -/
theorem startMessage_serialize (w : WifiInfo) :
    WifiStartRequest.internalSerialize (startMessage w) =
      (wifiStartRequest w.ipAddress w.port).serialized := by
  have hall := startMessage_has w
  simp only [WifiStartRequest.table, List.forall_mem_cons] at hall
  simp only [WifiStartRequest.internalSerialize, LiteMessage.internalSerialize,
    WifiStartRequest.table, List.flatMap_cons, List.flatMap_nil, hall]
  simp [fieldBytes, wifiStartRequest, startMessage, WifiStartRequest.setIpAddress,
    WifiStartRequest.setPort, WifiStartRequest.ipAddress, WifiStartRequest.port, Message.setText,
    Message.setNumber, Message.empty]

theorem infoMessage_serialize (w : WifiInfo) :
    WifiInfoResponse.internalSerialize (infoMessage w) =
      (AAWirelessLauncher.responseMessage w).serialized := by
  have hall := infoMessage_has w
  simp only [WifiInfoResponse.table, List.forall_mem_cons] at hall
  simp only [WifiInfoResponse.internalSerialize, LiteMessage.internalSerialize,
    WifiInfoResponse.table, List.flatMap_cons, List.flatMap_nil, hall]
  simp [fieldBytes, AAWirelessLauncher.responseMessage, wifiInfoResponse, infoMessage,
    WifiInfoResponse.setSsid, WifiInfoResponse.setKey, WifiInfoResponse.setBssid,
    WifiInfoResponse.setSecurityMode, WifiInfoResponse.setAccessPointType, WifiInfoResponse.ssid,
    WifiInfoResponse.key, WifiInfoResponse.bssid, WifiInfoResponse.securityMode,
    WifiInfoResponse.accessPointType, Message.setText, Message.setNumber, Message.empty]

/-! What the phone makes of a frame -/

/-- The payload of a frame with this id and with the length it has. -/
def unframe (messageId : MessageId) : Bytes → Option Bytes
  | lengthHigh :: lengthLow :: idHigh :: idLow :: payload =>
    if (fromBigEndian16 lengthHigh lengthLow).toNat = payload.length ∧
        .ofUInt16 (fromBigEndian16 idHigh idLow) = messageId then some payload
    else none
  | _ => none

/-- A frame read with the generated parser: a message with all its required fields. -/
def receive (rt : Runtime) (t : Table) (messageId : MessageId) (frame : Bytes) : Option Message :=
  match unframe messageId frame with
  | none => none
  | some payload =>
    match LiteMessage.internalParse rt t .empty payload with
    | .done m => if LiteMessage.isInitialized t m then some m else none
    | _ => none

theorem unframe_encoded {messageId : MessageId} {message : MessageLite}
    (hid : MessageId.ofUInt16 messageId.toUInt16 = messageId)
    (h : message.byteSizeLong ≤ 65531) :
    unframe messageId (AAWirelessLauncher.encoded messageId message) = some message.serialized := by
  have hsize : (UInt16.ofNat message.byteSizeLong).toNat = message.serialized.length := by
    rw [message.serialized_length]
    exact UInt16.toNat_ofNat_of_lt (Nat.lt_of_le_of_lt h (by decide))
  have hlength := fromBigEndian16_ofNat (UInt16.ofNat message.byteSizeLong)
  have hnumber := fromBigEndian16_ofNat messageId.toUInt16
  simp only [AAWirelessLauncher.encoded, bigEndian16, List.cons_append, List.nil_append, unframe]
  rw [hlength, hnumber, if_pos ⟨hsize, hid⟩]

theorem receive_encoded {rt : Runtime} {t : Table} {m : Message} {messageId : MessageId}
    {message : MessageLite} (hm : WellFormed rt t m) (hall : ∀ f ∈ t.fields, m.has f = true)
    (hbytes : LiteMessage.internalSerialize t m = message.serialized)
    (hid : MessageId.ofUInt16 messageId.toUInt16 = messageId)
    (h : message.byteSizeLong ≤ 65531) :
    receive rt t messageId (AAWirelessLauncher.encoded messageId message) = some m := by
  rw [receive, unframe_encoded hid h]
  simp only [← hbytes, hm.internalParse_serialize, hm.merge_empty, (isInitialized_iff t m).mpr hall,
    if_true]

/-! The launcher is understood -/

theorem startMessage_made (rt : Runtime) {w : WifiInfo} (hport : -2 ^ 31 ≤ w.port ∧ w.port < 2 ^ 31)
    (h : (wifiStartRequest w.ipAddress w.port).byteSizeLong ≤ 65531) :
    Made rt WifiStartRequest.table (startMessage w) := by
  have hlen : w.ipAddress.length ≤ maxString := by
    simp only [wifiStartRequest, stringFieldSize] at h
    unfold maxString
    omega
  have haddress : WifiStartRequest.ipAddress ∈ WifiStartRequest.table.fields := List.mem_cons_self
  have hportField : WifiStartRequest.port ∈ WifiStartRequest.table.fields := by
    simp [WifiStartRequest.table]
  have hnew : Made rt WifiStartRequest.table .empty := .new
  have hset := hnew.setText WifiStartRequest.ipAddress w.ipAddress haddress rfl hlen
  exact .setNumber WifiStartRequest.port w.port hset hportField (by simp [WifiStartRequest.port])
    hport (by simp [WifiStartRequest.port])

/-- The enumerations of the configuration are values of those of the message. -/
theorem securityMode_valid (mode : SecurityMode) : securityModeIsValid mode.number = true ∧
    -2 ^ 31 ≤ mode.number ∧ mode.number < 2 ^ 31 := by
  cases mode <;> decide

theorem accessPointType_valid (type : AccessPointType) :
    accessPointTypeIsValid type.number = true ∧ -2 ^ 31 ≤ type.number ∧ type.number < 2 ^ 31 := by
  cases type <;> decide

theorem infoMessage_made (rt : Runtime) {w : WifiInfo}
    (h : (AAWirelessLauncher.responseMessage w).byteSizeLong ≤ 65531) :
    Made rt WifiInfoResponse.table (infoMessage w) := by
  simp only [AAWirelessLauncher.responseMessage, wifiInfoResponse, stringFieldSize] at h
  have hmax : 65531 ≤ maxString := by decide
  obtain ⟨hmode, hmodeRange⟩ := securityMode_valid w.securityMode
  obtain ⟨htype, htypeRange⟩ := accessPointType_valid w.accessPointType
  have hnew : Made rt WifiInfoResponse.table .empty := .new
  have hssid := hnew.setText WifiInfoResponse.ssid w.ssid (by simp [WifiInfoResponse.table]) rfl
    (by omega)
  have hkey := hssid.setText WifiInfoResponse.key w.key (by simp [WifiInfoResponse.table]) rfl
    (by omega)
  have hbssid := hkey.setText WifiInfoResponse.bssid w.bssid (by simp [WifiInfoResponse.table]) rfl
    (by omega)
  have hsecurity := hbssid.setNumber WifiInfoResponse.securityMode w.securityMode.number
    (by simp [WifiInfoResponse.table]) (by simp [WifiInfoResponse.securityMode]) hmodeRange
    fun isValid heq => by
      cases heq
      exact hmode
  exact hsecurity.setNumber WifiInfoResponse.accessPointType w.accessPointType.number
    (by simp [WifiInfoResponse.table]) (by simp [WifiInfoResponse.accessPointType]) htypeRange
    fun isValid heq => by
      cases heq
      exact htype

/-- Whatever the environment and however the peer answers: a frame of `launch` that fits its
length field is read by the generated parser as the message that was filled in from the
configuration, with every required field. -/
theorem launch_understood (rt : Runtime) {e : Environment} {tr : LaunchTrace} {o : Option Unit}
    (ht : Traces (AAWirelessLauncher.launch (Config.getWifiInfo e)) tr o) :
    (frames tr).length ≤ 2 ∧
    (∀ frame, (frames tr)[0]? = some frame →
      WifiStartRequest.byteSizeLong (startMessage (Config.getWifiInfo e)) ≤ 65531 →
      receive rt WifiStartRequest.table .wifiStartRequest frame =
        some (startMessage (Config.getWifiInfo e))) ∧
    (∀ frame, (frames tr)[1]? = some frame →
      WifiInfoResponse.byteSizeLong (infoMessage (Config.getWifiInfo e)) ≤ 65531 →
      receive rt WifiInfoResponse.table .wifiInfoResponse frame =
        some (infoMessage (Config.getWifiInfo e))) := by
  have hstart {frame : Bytes} (hframe : AAWirelessLauncher.IsFrame .wifiStartRequest
      (ProxyPort.startRequest e) frame)
      (hfits : WifiStartRequest.byteSizeLong (startMessage (Config.getWifiInfo e)) ≤ 65531) :
      receive rt WifiStartRequest.table .wifiStartRequest frame =
        some (startMessage (Config.getWifiInfo e)) := by
    have hbytes := startMessage_serialize (Config.getWifiInfo e)
    have hsize : (ProxyPort.startRequest e).byteSizeLong ≤ 65531 := by
      rw [← MessageLite.serialized_length]
      change (wifiStartRequest _ _).serialized.length ≤ _
      rw [← hbytes]
      exact (byteSizeLong_eq _ _).symm.trans_le hfits
    have hmade := startMessage_made rt (ProxyPort.port_range e) hsize
    rw [hframe.fits hsize]
    exact receive_encoded hmade.wellFormed (startMessage_has _) hbytes rfl hsize
  have hinfo {frame : Bytes} (hframe : AAWirelessLauncher.IsFrame .wifiInfoResponse
      (AAWirelessLauncher.responseMessage (Config.getWifiInfo e)) frame)
      (hfits : WifiInfoResponse.byteSizeLong (infoMessage (Config.getWifiInfo e)) ≤ 65531) :
      receive rt WifiInfoResponse.table .wifiInfoResponse frame =
        some (infoMessage (Config.getWifiInfo e)) := by
    have hbytes := infoMessage_serialize (Config.getWifiInfo e)
    have hsize :
        (AAWirelessLauncher.responseMessage (Config.getWifiInfo e)).byteSizeLong ≤ 65531 := by
      rw [← MessageLite.serialized_length, ← hbytes]
      exact (byteSizeLong_eq _ _).symm.trans_le hfits
    have hmade := infoMessage_made rt hsize
    rw [hframe.fits hsize]
    exact receive_encoded hmade.wellFormed (infoMessage_has _) hbytes rfl hsize
  obtain hnone | ⟨start, hisstart, hsent | ⟨response, hisresponse, hsent⟩⟩ :=
    (AAWirelessLauncher.launch_on_request ht).sends
  · simp [hnone]
  · rw [hsent]
    refine ⟨by simp, fun frame hframe => ?_, by simp⟩
    cases hframe
    exact hstart hisstart
  · rw [hsent]
    refine ⟨by simp, fun frame hframe => ?_, fun frame hframe => ?_⟩
    · cases hframe
      exact hstart hisstart
    · cases hframe
      exact hinfo hisresponse

def plainEnvironment : Environment := ⟨fun _ => none, bytes "02:00:00:00:00:01"⟩

theorem launch_understood_asked :
    (frames (run AAWirelessLauncher.asking (AAWirelessLauncher.launch (Config.getWifiInfo plainEnvironment))
      0).trace)[1]?.bind (receive .plain WifiInfoResponse.table .wifiInfoResponse) =
      some (infoMessage (Config.getWifiInfo plainEnvironment)) :=
  (launch_understood .plain
    (run_traces AAWirelessLauncher.asking (AAWirelessLauncher.launch (Config.getWifiInfo plainEnvironment)) 0)).2.2
    _ rfl (by decide +kernel)

end Aawgd.LauncherMessages
