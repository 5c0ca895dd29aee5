import Aawgd.LauncherRequest

/-! What `SendMessage` puts on the wire: the exact frame as long as the message and its
header fit a 16-bit length, and nothing of the kind beyond. -/
namespace Aawgd.AAWirelessLauncher
open ByteStream CallProgram WireFormat

/-- The exact frame is handed to `write`, or no byte at all; the buffer has room for the
frame, and whatever is sent starts with the message's length and id. -/
structure ExactOrNothing (messageId : MessageId) (message : MessageLite) (tr : LaunchTrace) :
    Prop where
  sent : (frames tr).flatten = [] ∨
    message.byteSizeLong < 2 ^ 16 ∧ frames tr = [encoded messageId message]
  room : ∀ ev ∈ tr, ∀ n, ev.1 = .allocate n → 4 + message.byteSizeLong ≤ n
  header : ∀ frame ∈ frames tr, frame ≠ [] → ∃ a b c d payload, frame = a :: b :: c :: d :: payload ∧
    (fromBigEndian16 a b).toNat = message.byteSizeLong ∧
    MessageId.ofUInt16 (fromBigEndian16 c d) = messageId

/-- Every execution of `SendMessage`, in whatever memory and however `write` ends. -/
def SendsExactly (messageId : MessageId) (message : MessageLite) : Prop :=
  ∀ tr, Traces (sendMessage messageId message) tr (some ()) → ExactOrNothing messageId message tr

/-- Beyond 65531 bytes the buffer is too small for the frame. -/
theorem frameSize_lt {message : MessageLite} (h : 65531 < message.byteSizeLong) :
    (frameSize message).toNat < 4 + message.byteSizeLong := by
  rw [frameSize_toNat]
  omega

theorem encoded_header {messageId : MessageId} {message : MessageLite}
    (hid : MessageId.ofUInt16 messageId.toUInt16 = messageId)
    (h : message.byteSizeLong ≤ 65531) : ∃ a b c d payload,
      encoded messageId message = a :: b :: c :: d :: payload ∧
      (fromBigEndian16 a b).toNat = message.byteSizeLong ∧
      MessageId.ofUInt16 (fromBigEndian16 c d) = messageId := by
  refine ⟨_, _, _, _, message.serialized, rfl, ?_, ?_⟩
  · rw [fromBigEndian16_ofNat]
    exact messageSize_toNat message ▸ Nat.mod_eq_of_lt (by omega)
  · rw [fromBigEndian16_ofNat, hid]

theorem sendsExactly_iff {messageId : MessageId} {message : MessageLite}
    (hid : MessageId.ofUInt16 messageId.toUInt16 = messageId) :
    SendsExactly messageId message ↔ message.byteSizeLong ≤ 65531 := by
  constructor
  · intro h
    have hexact := h _ (.call _ _ (zeroed (frameSize message).toNat) (.call _ _ .error (.ret ())))
    have hroom := hexact.room _ List.mem_cons_self _ rfl
    by_cases hle : message.byteSizeLong ≤ 65531
    · exact hle
    · have hlt := frameSize_lt (Nat.lt_of_not_le hle)
      omega
  · intro h tr ht
    obtain ⟨-, hnone⟩ | ⟨memory, tr₁, rfl, h₁⟩ := traces_call.mp ht
    · cases hnone
    obtain ⟨-, hnone⟩ | ⟨r, tr₂, rfl, h₂⟩ := traces_call.mp h₁
    · cases hnone
    obtain ⟨rfl, -⟩ := traces_ret.mp h₂
    have hframes : frames [⟨.allocate _, memory⟩, ⟨.write _, r⟩] = [encoded messageId message] :=
      congrArg (fun frame => [frame]) (sentFrame_fits messageId h memory.2)
    have hroom : 4 + message.byteSizeLong ≤ (frameSize message).toNat := by
      rw [frameSize_toNat]
      omega
    refine ⟨.inr ⟨by omega, hframes⟩, ?_, ?_⟩
    · intro ev hev n hn
      cases List.mem_pair.mp hev with
      | inl hfirst =>
        subst hfirst
        cases hn
        exact hroom
      | inr hsecond =>
        subst hsecond
        cases hn
    · intro frame hframe _
      rw [hframes, List.mem_singleton] at hframe
      rw [hframe]
      exact encoded_header hid h

/-! The two messages of the handshake -/

theorem enumFieldSize_eq {v : Int} (h : 0 ≤ v) (h' : v < 128) : intFieldSize v = 2 := by
  have hv : unsigned64 v / 128 = 0 := by
    unfold unsigned64
    omega
  rw [intFieldSize, varintSize, if_pos hv]

theorem responseMessage_size (e : Environment) : (responseMessage (Config.getWifiInfo e)).byteSizeLong =
    stringFieldSize (Config.getWifiInfo e).ssid.length +
      stringFieldSize (Config.getWifiInfo e).key.length +
      stringFieldSize (Config.getWifiInfo e).bssid.length + 4 := by
  have hmode : intFieldSize (Config.getWifiInfo e).securityMode.number = 2 :=
    enumFieldSize_eq (v := 8) (by omega) (by omega)
  have htype : intFieldSize (Config.getWifiInfo e).accessPointType.number = 2 :=
    enumFieldSize_eq (v := 1) (by omega) (by omega)
  simp only [responseMessage, wifiInfoResponse, hmode, htype]

/-- In every environment, each of the two messages is sent exactly when its size is at
most 65531 bytes. -/
theorem handshake_exact (e : Environment) :
    (SendsExactly .wifiStartRequest
        (wifiStartRequest (Config.getWifiInfo e).ipAddress (Config.getWifiInfo e).port) ↔
      stringFieldSize (Config.getWifiInfo e).ipAddress.length +
        intFieldSize (Config.getWifiInfo e).port ≤ 65531) ∧
    (SendsExactly .wifiInfoResponse (responseMessage (Config.getWifiInfo e)) ↔
      stringFieldSize (Config.getWifiInfo e).ssid.length +
        stringFieldSize (Config.getWifiInfo e).key.length +
        stringFieldSize (Config.getWifiInfo e).bssid.length + 4 ≤ 65531) := by
  constructor
  · exact sendsExactly_iff rfl
  · rw [sendsExactly_iff rfl, responseMessage_size]

/-- The password variable holds 70000 characters. -/
def longPassword : Environment where
  getenv name := if name = bytes "AAWG_WIFI_PASSWORD" then some (List.replicate 70000 97) else none
  macAddress := bytes "02:00:00:00:00:01"

theorem longPassword_corrupted :
    ¬ SendsExactly .wifiInfoResponse (responseMessage (Config.getWifiInfo longPassword)) := by
  intro h
  have hkey : (Config.getWifiInfo longPassword).key.length = 70000 := List.length_replicate
  rw [sendsExactly_iff rfl, responseMessage_size, hkey] at h
  unfold stringFieldSize at h
  omega

end Aawgd.AAWirelessLauncher
