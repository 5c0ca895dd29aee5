import Aawgd.Launcher

/-! What the launcher sends depends on what it was asked: the response with the
credentials goes out on a `WifiInfoRequest` and on nothing else. -/
namespace Aawgd
open ByteStream CallProgram WireFormat

/-! What a trace wrote and read -/

def written? : Event LaunchCall LaunchAnswer → Option Bytes
  | ⟨.write block, _⟩ => some block
  | _ => none

def readBytes? : Event LaunchCall LaunchAnswer → Option Bytes
  | ⟨.read _, r⟩ => some r.bytes
  | _ => none

/-- The frames handed to `write`. -/
def frames (tr : LaunchTrace) : List Bytes := tr.filterMap written?

/-- What each read returned. -/
def reads (tr : LaunchTrace) : List Bytes := tr.filterMap readBytes?

@[simp] theorem frames_append (tr₁ tr₂ : LaunchTrace) :
    frames (tr₁ ++ tr₂) = frames tr₁ ++ frames tr₂ := List.filterMap_append

@[simp] theorem reads_append (tr₁ tr₂ : LaunchTrace) :
    reads (tr₁ ++ tr₂) = reads tr₁ ++ reads tr₂ := List.filterMap_append

@[simp] theorem reads_nil : reads [] = [] := rfl

@[simp] theorem reads_read (n : Nat) (r : ReadResult n) (tr : LaunchTrace) :
    reads (⟨.read n, r⟩ :: tr) = r.bytes :: reads tr := rfl

@[simp] theorem reads_allocate (n : Nat) (memory : LaunchAnswer (.allocate n)) (tr : LaunchTrace) :
    reads (⟨.allocate n, memory⟩ :: tr) = reads tr := rfl

/-- The first two reads returned exactly two bytes each. -/
def firstId? : List Bytes → Option UInt16
  | [_, _] :: [idHigh, idLow] :: _ => some (fromBigEndian16 idHigh idLow)
  | _ => none

/-- The second of them holds the id of a `WifiInfoRequest`. -/
def Requested (rs : List Bytes) : Prop := firstId? rs = some 2

instance decidableRequested (rs : List Bytes) : Decidable (Requested rs) :=
  inferInstanceAs (Decidable (_ = _))

/-- The id that `ReadMessage` makes of its reads. -/
def readId (rs : List Bytes) : MessageId :=
  match firstId? rs with
  | some n => .ofUInt16 n
  | none => .invalid

theorem readId_eq_iff (rs : List Bytes) : readId rs = .wifiInfoRequest ↔ Requested rs := by
  unfold readId Requested
  cases firstId? rs with
  | none => simp [MessageId.invalid, MessageId.wifiInfoRequest]
  | some n =>
    have htwo : n = 2 ↔ n.toNat = 2 := by simp [← UInt16.toNat_inj]
    simp [MessageId.ofUInt16, MessageId.wifiInfoRequest, htwo]
    omega

namespace AAWirelessLauncher

/-! One message sent, one message read -/

/-- A frame of the message, in whatever memory it was built: where the message fits, its
length, the id and the payload. -/
structure IsFrame (messageId : MessageId) (message : MessageLite) (frame : Bytes) : Prop where
  built : ∃ memory : Bytes, memory.length = (frameSize message).toNat ∧
    frame = sentFrame messageId message memory
  fits : message.byteSizeLong ≤ 65531 → frame = encoded messageId message

theorem sentFrame_isFrame (messageId : MessageId) {message : MessageLite} {memory : Bytes}
    (hm : memory.length = (frameSize message).toNat) :
    IsFrame messageId message (sentFrame messageId message memory) :=
  ⟨⟨memory, hm, rfl⟩, fun h => sentFrame_fits messageId h hm⟩

theorem sendMessage_traces {messageId : MessageId} {message : MessageLite} {tr : LaunchTrace}
    {o : Option Unit} (h : Traces (sendMessage messageId message) tr o) :
    reads tr = [] ∧ tr.length ≤ 2 ∧
      (o = none ∧ frames tr = [] ∨ ∃ frame, IsFrame messageId message frame ∧ frames tr = [frame]) := by
  obtain ⟨rfl, rfl⟩ | ⟨memory, tr₁, rfl, h₁⟩ := traces_call.mp h
  · exact ⟨rfl, by simp, .inl ⟨rfl, rfl⟩⟩
  obtain ⟨rfl, rfl⟩ | ⟨r, tr₂, rfl, h₂⟩ := traces_call.mp h₁
  · exact ⟨rfl, by simp, .inl ⟨rfl, rfl⟩⟩
  obtain ⟨rfl, -⟩ := traces_ret.mp h₂
  exact ⟨rfl, by simp, .inr ⟨_, sentFrame_isFrame messageId memory.2, rfl⟩⟩

theorem firstId?_of_first {r : Bytes} (h : ∀ a b, r ≠ [a, b]) (rest : List Bytes) :
    firstId? (r :: rest) = none := by
  unfold firstId?
  split
  next a b _ _ _ heq => exact absurd (List.cons.inj heq).1 (h a b)
  next => rfl

theorem firstId?_of_second {r r' : Bytes} (h : ∀ a b, r' ≠ [a, b]) (rest : List Bytes) :
    firstId? (r :: r' :: rest) = none := by
  unfold firstId?
  split
  next _ _ a b _ heq => exact absurd (List.cons.inj (List.cons.inj heq).2).1 (h a b)
  next => rfl

/-- `ReadMessage` reads at most three times and sends nothing; whatever is read after it
does not change what it returns. -/
theorem readMessage_traces {tr : LaunchTrace} {o : Option MessageId}
    (h : Traces readMessage tr o) : frames tr = [] ∧ (reads tr).length ≤ 3 ∧ tr.length ≤ 4 ∧
      ∀ id, o = some id → ∀ rest, readId (reads tr ++ rest) = id := by
  rw [readMessage_eq] at h
  obtain ⟨rfl, rfl⟩ | ⟨r, tr₁, rfl, h₁⟩ := traces_call.mp h
  · exact ⟨rfl, by simp, by simp, by simp⟩
  split at h₁
  next lengthHigh lengthLow hr =>
    obtain ⟨rfl, rfl⟩ | ⟨r', tr₂, rfl, h₂⟩ := traces_call.mp h₁
    · exact ⟨rfl, by simp, by simp, by simp⟩
    split at h₂
    next idHigh idLow hr' =>
      obtain ⟨rfl, rfl⟩ | ⟨memory, tr₃, rfl, h₃⟩ := traces_call.mp h₂
      · exact ⟨rfl, by simp, by simp, by simp⟩
      obtain ⟨rfl, rfl⟩ | ⟨body, tr₄, rfl, h₄⟩ := traces_call.mp h₃
      · exact ⟨rfl, by simp, by simp, by simp⟩
      obtain ⟨rfl, ho⟩ := traces_done h₄
      refine ⟨rfl, by simp, by simp, ?_⟩
      intro id hid rest
      simp [readId, firstId?, hr, hr', ho id hid]
    next hr' =>
      obtain ⟨rfl, ho⟩ := traces_done h₂
      refine ⟨rfl, by simp, by simp, ?_⟩
      intro id hid rest
      simp [readId, firstId?_of_second hr', ho id hid]
  next hr =>
    obtain ⟨rfl, ho⟩ := traces_done h₁
    refine ⟨rfl, by simp, by simp, ?_⟩
    intro id hid rest
    simp [readId, firstId?_of_first hr, ho id hid]

/-! The two halves of `launch` -/

/-- Up to the first message read; the credentials are not in it. -/
def openingCalls (ipAddress : Bytes) (port : Int) : Launch MessageId := do
  let flags ← launchCall .getFlags
  launchCall (.setFlags (flags &&& ~~~oNonblock))
  sendMessage .wifiStartRequest (wifiStartRequest ipAddress port)
  readMessage

def responseMessage (w : WifiInfo) : MessageLite :=
  wifiInfoResponse w.ssid w.key w.bssid w.securityMode w.accessPointType

/-- From the response on. -/
def respond (w : WifiInfo) : Launch Unit := do
  sendMessage .wifiInfoResponse (responseMessage w)
  let _ ← readMessage
  let _ ← readMessage
  return ()

theorem launch_eq (w : WifiInfo) : launch w = openingCalls w.ipAddress w.port >>= fun messageId =>
    if messageId ≠ .wifiInfoRequest then .ret () else respond w := rfl

/-- The opening sends its one frame before it reads. -/
theorem openingCalls_traces {ipAddress : Bytes} {port : Int} {tr : LaunchTrace}
    {o : Option MessageId} (h : Traces (openingCalls ipAddress port) tr o) :
    (o = none ∧ frames tr = [] ∧ reads tr = [] ∨
      ∃ frame, IsFrame .wifiStartRequest (wifiStartRequest ipAddress port) frame ∧
        frames tr = [frame]) ∧
    (reads tr).length ≤ 3 ∧ tr.length ≤ 8 ∧
      ∀ id, o = some id → ∀ rest, readId (reads tr ++ rest) = id := by
  obtain ⟨rfl, rfl⟩ | ⟨flags, tr₁, rfl, h₁⟩ := traces_call.mp h
  · exact ⟨.inl ⟨rfl, rfl, rfl⟩, by simp, by simp, by simp⟩
  obtain ⟨rfl, rfl⟩ | ⟨r, tr₂, rfl, h₂⟩ := traces_call.mp h₁
  · exact ⟨.inl ⟨rfl, rfl, rfl⟩, Nat.zero_le _, by simp, by simp⟩
  have hframes (t : LaunchTrace) : frames (⟨.getFlags, flags⟩ :: ⟨.setFlags _, r⟩ :: t) = frames t := rfl
  have hreads (t : LaunchTrace) : reads (⟨.getFlags, flags⟩ :: ⟨.setFlags _, r⟩ :: t) = reads t := rfl
  rw [hframes, hreads]
  have h₂' : Traces (sendMessage .wifiStartRequest (wifiStartRequest ipAddress port) >>= fun _ =>
    readMessage) tr₂ o := h₂
  obtain ⟨rfl, hsend⟩ | ⟨u, tr₃, tr₄, rfl, hsend, hread⟩ := traces_bind h₂'
  · obtain ⟨hnoread, hlen, hframe⟩ := sendMessage_traces hsend
    refine ⟨?_, by simp [hnoread], by simp only [List.length_cons]; omega, by simp⟩
    cases hframe with
    | inl hnone => exact .inl ⟨rfl, hnone.2, hnoread⟩
    | inr hsome => exact .inr hsome
  · obtain ⟨hnoread, hlen, hframe⟩ := sendMessage_traces hsend
    obtain ⟨hnosend, hthree, hfour, hid⟩ := readMessage_traces hread
    obtain ⟨frame, hisframe, hsent⟩ := hframe.resolve_left (by simp)
    refine ⟨.inr ⟨frame, hisframe, by simp [hsent, hnosend]⟩, ?_, ?_, ?_⟩
    · simpa [hnoread] using hthree
    · simp only [List.length_cons, List.length_append]
      omega
    · simpa [hnoread] using hid

/-- The response is one frame, sent before anything more is read. -/
theorem respond_traces {w : WifiInfo} {tr : LaunchTrace} {o : Option Unit}
    (h : Traces (respond w) tr o) :
    (o = none ∧ frames tr = [] ∨
      ∃ frame, IsFrame .wifiInfoResponse (responseMessage w) frame ∧ frames tr = [frame]) ∧
    (reads tr).length ≤ 6 ∧ tr.length ≤ 10 := by
  obtain ⟨rfl, hsend⟩ | ⟨u, tr₁, tr₂, rfl, hsend, h₂⟩ := traces_bind h
  · obtain ⟨hnoread, hlen, hframe⟩ := sendMessage_traces hsend
    refine ⟨?_, by simp [hnoread], by omega⟩
    cases hframe with
    | inl hnone => exact .inl hnone
    | inr hsome => exact .inr hsome
  obtain ⟨hnoread, hlen, hframe⟩ := sendMessage_traces hsend
  obtain ⟨frame, hisframe, hsent⟩ := hframe.resolve_left (by simp)
  have hrest : frames tr₂ = [] ∧ (reads tr₂).length ≤ 6 ∧ tr₂.length ≤ 8 := by
    obtain ⟨-, hread⟩ | ⟨id, tr₃, tr₄, rfl, hread, h₄⟩ := traces_bind h₂
    · obtain ⟨hnosend, hthree, hfour, -⟩ := readMessage_traces hread
      exact ⟨hnosend, by omega, by omega⟩
    obtain ⟨hnosend, hthree, hfour, -⟩ := readMessage_traces hread
    obtain ⟨-, hread'⟩ | ⟨id', tr₅, tr₆, rfl, hread', h₆⟩ := traces_bind h₄
    · obtain ⟨hnosend', hthree', hfour', -⟩ := readMessage_traces hread'
      exact ⟨by simp [hnosend, hnosend'], by simp; omega, by simp; omega⟩
    · obtain ⟨hnosend', hthree', hfour', -⟩ := readMessage_traces hread'
      obtain ⟨rfl, -⟩ := traces_ret.mp h₆
      exact ⟨by simp [hnosend, hnosend'], by simp; omega, by simp; omega⟩
  obtain ⟨hnosend, hsix, height⟩ := hrest
  refine ⟨.inr ⟨frame, hisframe, by simp [hsent, hnosend]⟩, ?_, ?_⟩
  · simpa [hnoread] using hsix
  · simp only [List.length_append]
    omega

/-- What one call of `launch` may do, wherever it is watched up to. -/
structure OnRequest (w : WifiInfo) (tr : LaunchTrace) (o : Option Unit) : Prop where
  sends : frames tr = [] ∨
    (∃ start, IsFrame .wifiStartRequest (wifiStartRequest w.ipAddress w.port) start ∧
      (frames tr = [start] ∨ ∃ response, IsFrame .wifiInfoResponse (responseMessage w) response ∧
        frames tr = [start, response]))
  first : frames tr = [] → reads tr = [] ∧ o = none
  requested : (frames tr).length = 2 → Requested (reads tr)
  responds : o = some () → Requested (reads tr) → (frames tr).length = 2
  nine : (reads tr).length ≤ 9
  ends : tr.length ≤ 18

theorem launch_on_request {w : WifiInfo} {tr : LaunchTrace} {o : Option Unit}
    (h : Traces (launch w) tr o) : OnRequest w tr o := by
  rw [launch_eq] at h
  obtain ⟨rfl, hopen⟩ | ⟨id, tr₁, tr₂, rfl, hopen, h₂⟩ := traces_bind h
  · obtain ⟨hsent, hthree, height, -⟩ := openingCalls_traces hopen
    obtain ⟨-, hnone, hnoread⟩ | ⟨start, hisframe, hsent⟩ := hsent
    · exact ⟨.inl hnone, fun _ => ⟨hnoread, rfl⟩, by simp [hnone], by simp, by omega, by omega⟩
    · exact ⟨.inr ⟨start, hisframe, .inl hsent⟩, by simp [hsent], by simp [hsent], by simp,
        by omega, by omega⟩
  obtain ⟨hsent, hthree, height, hid⟩ := openingCalls_traces hopen
  obtain ⟨start, hisframe, hsent⟩ := hsent.resolve_left (by simp)
  have hid := hid id rfl
  by_cases hrequest : id = .wifiInfoRequest
  · rw [if_neg (by simpa using hrequest)] at h₂
    obtain ⟨hanswer, hsix, hten⟩ := respond_traces h₂
    have hreq : Requested (reads (tr₁ ++ tr₂)) := by
      rw [← readId_eq_iff, reads_append, hid, hrequest]
    have hnine : (reads (tr₁ ++ tr₂)).length ≤ 9 := by
      rw [reads_append, List.length_append]
      omega
    have hends : (tr₁ ++ tr₂).length ≤ 18 := by
      rw [List.length_append]
      omega
    obtain ⟨rfl, hnone⟩ | ⟨response, hresponse, hsent'⟩ := hanswer
    · have hframes : frames (tr₁ ++ tr₂) = [start] := by simp [hsent, hnone]
      exact ⟨.inr ⟨start, hisframe, .inl hframes⟩, by simp [hframes], fun _ => hreq, by simp,
        hnine, hends⟩
    · have hframes : frames (tr₁ ++ tr₂) = [start, response] := by simp [hsent, hsent']
      exact ⟨.inr ⟨start, hisframe, .inr ⟨response, hresponse, hframes⟩⟩, by simp [hframes],
        fun _ => hreq, by simp [hframes], hnine, hends⟩
  · rw [if_pos hrequest] at h₂
    obtain ⟨rfl, -⟩ := traces_ret.mp h₂
    rw [List.append_nil]
    have hreq : ¬ Requested (reads tr₁) := by
      rw [← readId_eq_iff, ← List.append_nil (reads tr₁), hid]
      exact hrequest
    exact ⟨.inr ⟨start, hisframe, .inl hsent⟩, by simp [hsent], by simp [hsent],
      fun _ hr => absurd hr hreq, by omega, by omega⟩

end AAWirelessLauncher

end Aawgd
