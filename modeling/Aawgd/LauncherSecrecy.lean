import Aawgd.LauncherSending

/-! The credentials and a peer that does not ask for them. New memory holds what it held
before, so it is not the same in two runs; a frame whose size is cut sends it. -/
namespace Aawgd.AAWirelessLauncher
open ByteStream CallProgram WireFormat

def requestMessage (w : WifiInfo) : MessageLite := wifiStartRequest w.ipAddress w.port

theorem requestMessage_size (w : WifiInfo) : (requestMessage w).byteSizeLong =
    stringFieldSize w.ipAddress.length + intFieldSize w.port := rfl

/-- The bytes the peer gets. -/
def sentTo : Event LaunchCall LaunchAnswer → Bytes
  | ⟨.write block, r⟩ => block.take r.count
  | _ => []

def received (tr : LaunchTrace) : Bytes := tr.flatMap sentTo

/-! An allocator beside the peer -/

/-- What the k-th block of memory asked for holds. -/
abbrev Memory := (k n : Nat) → { memory : Bytes // memory.length = n }

section peer
variable {σ : Type} (peer : σ → (c : LaunchCall) → LaunchAnswer c × σ)

/-- The peer answers every call but those for memory. -/
def withMemory (memory : Memory) : σ × Nat → (c : LaunchCall) → LaunchAnswer c × (σ × Nat)
  | (s, k), .allocate n => (memory k n, (s, k + 1))
  | (s, k), .getFlags => ((peer s .getFlags).1, ((peer s .getFlags).2, k))
  | (s, k), .setFlags flags => ((peer s (.setFlags flags)).1, ((peer s (.setFlags flags)).2, k))
  | (s, k), .write block => ((peer s (.write block)).1, ((peer s (.write block)).2, k))
  | (s, k), .read n => ((peer s (.read n)).1, ((peer s (.read n)).2, k))

def IsAllocate (c : LaunchCall) : Prop := ∃ n, c = .allocate n

/-- Two runs against the same peer, in two memories, of a program that does not look at it. -/
theorem received_eq {α : Type} {p : Launch α} (hp : p.Ignores IsAllocate) (memory memory' : Memory)
    (s : σ) (k : Nat) :
    (run (withMemory peer memory) p (s, k)).value = (run (withMemory peer memory') p (s, k)).value ∧
      received (run (withMemory peer memory) p (s, k)).trace =
        received (run (withMemory peer memory') p (s, k)).trace := by
  have hview (c : LaunchCall) (hc : IsAllocate c) (r r' : LaunchAnswer c) :
      sentTo ⟨c, r⟩ = sentTo ⟨c, r'⟩ := by
    obtain ⟨n, rfl⟩ := hc
    rfl
  have hnext (a b : σ × Nat) (c : LaunchCall) (hab : a = b) :
      (withMemory peer memory a c).2 = (withMemory peer memory' b c).2 := by
    subst hab
    cases c <;> rfl
  have hsame (a b : σ × Nat) (c : LaunchCall) (hab : a = b) (hc : ¬ IsAllocate c) :
      (withMemory peer memory a c).1 = (withMemory peer memory' b c).1 := by
    subst hab
    cases c with
    | allocate n => exact absurd ⟨n, rfl⟩ hc
    | getFlags | setFlags | write | read => rfl
  obtain ⟨hvalue, -, hseen⟩ := hp.run_eq hview hnext hsame (rfl : (s, k) = (s, k))
  exact ⟨hvalue, hseen⟩

end peer

/-! The memory is not looked at -/

theorem sendMessage_ignores (messageId : MessageId) {message : MessageLite}
    (h : message.byteSizeLong ≤ 65531) : (sendMessage messageId message).Ignores IsAllocate := by
  have hwrite (memory : LaunchAnswer (.allocate (frameSize message).toNat)) :
      sentFrame messageId message memory.1 = encoded messageId message :=
    sentFrame_fits messageId h memory.2
  refine ⟨fun _ memory memory' => ?_, fun memory => ⟨fun hc => ?_, fun _ => trivial⟩⟩
  · exact congrArg (fun frame => (do
      let _ ← launchCall (.write frame)
      return () : Launch Unit)) ((hwrite memory).trans (hwrite memory').symm)
  · obtain ⟨n, hn⟩ := hc
    cases hn

theorem readMessage_ignores : readMessage.Ignores IsAllocate := by
  have hread (n : Nat) : ¬ IsAllocate (.read n) := by
    rintro ⟨m, hm⟩
    cases hm
  rw [readMessage_eq]
  refine ⟨fun hc => absurd hc (hread 2), fun length => ?_⟩
  dsimp only
  split
  next lengthHigh lengthLow hlength =>
    refine ⟨fun hc => absurd hc (hread 2), fun id => ?_⟩
    dsimp only
    split
    next idHigh idLow hid =>
      exact ⟨fun _ _ _ => rfl, fun _ => ⟨fun hc => absurd hc (hread _), fun _ => trivial⟩⟩
    next => trivial
  next => trivial

theorem openingCalls_ignores {w : WifiInfo} (h : (requestMessage w).byteSizeLong ≤ 65531) :
    (openingCalls w.ipAddress w.port).Ignores IsAllocate := by
  refine ⟨?_, fun flags => ⟨?_, fun _ => ?_⟩⟩
  · rintro ⟨n, hn⟩
    cases hn
  · rintro ⟨n, hn⟩
    cases hn
  · exact (sendMessage_ignores .wifiStartRequest h).bind fun _ => readMessage_ignores

/-! Two configurations -/

section env
variable {σ : Type} (env : σ → (c : LaunchCall) → LaunchAnswer c × σ)

/-- A run in which nothing is asked for is the opening. -/
theorem run_opening {w : WifiInfo} {s : σ}
    (h : (run env (openingCalls w.ipAddress w.port) s).value ≠ .wifiInfoRequest) :
    (run env (launch w) s).trace = (run env (openingCalls w.ipAddress w.port) s).trace := by
  rw [launch_eq, run_bind, if_pos h, run_ret, List.append_nil]

theorem run_unrequested {w : WifiInfo} {s : σ}
    (h : ¬ Requested (reads (run env (launch w) s).trace)) :
    (run env (openingCalls w.ipAddress w.port) s).value ≠ .wifiInfoRequest := by
  obtain ⟨-, -, -, hid⟩ := openingCalls_traces (run_traces env (openingCalls w.ipAddress w.port) s)
  intro hv
  apply h
  rw [launch_eq, run_bind, ← readId_eq_iff, reads_append, hid _ rfl, hv]

end env

/-- A peer that does not ask gets the same bytes, whatever the credentials are and whatever
new memory holds. -/
def Independent (w : WifiInfo) : Prop :=
  ∀ {σ : Type} (peer : σ → (c : LaunchCall) → LaunchAnswer c × σ) (memory memory' : Memory) (s : σ)
    (ssid key bssid : Bytes),
    ¬ Requested (reads (run (withMemory peer memory) (launch w) (s, 0)).trace) →
    received (run (withMemory peer memory')
        (launch { w with ssid := ssid, key := key, bssid := bssid }) (s, 0)).trace =
      received (run (withMemory peer memory) (launch w) (s, 0)).trace

theorem independent_of_fits {w : WifiInfo} (h : (requestMessage w).byteSizeLong ≤ 65531) :
    Independent w := by
  intro σ peer memory memory' s ssid key bssid hnot
  obtain ⟨hvalue, hseen⟩ := received_eq peer (openingCalls_ignores h) memory memory' s 0
  have hunasked := run_unrequested _ hnot
  have hunasked' := hvalue ▸ hunasked
  have hopening := run_opening (withMemory peer memory')
    (w := { w with ssid := ssid, key := key, bssid := bssid }) hunasked'
  rw [run_opening _ hunasked, hopening]
  exact hseen.symm

/-! What a cut size gives away -/

/-- Memory that was filled with one byte. -/
def filled (b : UInt8) : Memory := fun _ n => ⟨List.replicate n b, List.length_replicate⟩

theorem silent_unrequested (w : WifiInfo) (memory : Memory) :
    ¬ Requested (reads (run (withMemory silent memory) (launch w) ((), 0)).trace) := by
  change ¬ Requested [[]]
  decide

theorem received_silent (w : WifiInfo) (memory : Memory) :
    received (run (withMemory silent memory) (launch w) ((), 0)).trace =
      sentFrame .wifiStartRequest (requestMessage w)
        (memory 0 (frameSize (requestMessage w)).toNat).1 := by
  change List.take (List.length _) _ ++ [] = _
  rw [List.append_nil, List.take_length]
  rfl

/-- A frame of a cut size, with room behind its header, shows the memory it was built in. -/
theorem received_cut {w : WifiInfo} (hcut : 2 ^ 16 ≤ (requestMessage w).byteSizeLong)
    (hroom : 4 < (frameSize (requestMessage w)).toNat) (ssid key bssid : Bytes) :
    received (run (withMemory silent (filled 1))
        (launch { w with ssid := ssid, key := key, bssid := bssid }) ((), 0)).trace ≠
      received (run (withMemory silent (filled 0)) (launch w) ((), 0)).trace := by
  intro hsame
  have hfirst := received_silent { w with ssid := ssid, key := key, bssid := bssid } (filled 1)
  rw [received_silent w, hfirst] at hsame
  have hshort : (messageSize (requestMessage w)).toNat < (requestMessage w).byteSizeLong := by
    rw [messageSize_toNat]
    omega
  obtain ⟨n, hn⟩ := Nat.exists_eq_add_of_lt hroom
  have hfilled (b : UInt8) : (filled b 0 (frameSize (requestMessage w)).toNat).1 =
      b :: b :: b :: b :: b :: List.replicate n b := by
    rw [hn]
    change List.replicate (4 + n + 1) b = _
    rw [Nat.add_comm 4 n]
    rfl
  change sentFrame _ (requestMessage w) (filled 1 0 (frameSize (requestMessage w)).toNat).1 = _
    at hsame
  rw [hfilled, hfilled, sentFrame_cut _ hshort, sentFrame_cut _ hshort] at hsame
  have htails := List.append_cancel_left (List.append_cancel_left hsame)
  exact absurd (List.cons.inj htails).1 (by decide)

theorem not_independent {w : WifiInfo} (hcut : 2 ^ 16 ≤ (requestMessage w).byteSizeLong)
    (hroom : 4 < (frameSize (requestMessage w)).toNat) : ¬ Independent w := fun h =>
  received_cut hcut hroom w.ssid w.key w.bssid
    (h silent (filled 0) (filled 1) () w.ssid w.key w.bssid (silent_unrequested w _))

/-! The frames -/

/-- What the launcher is meant to do. -/
structure OnlyOnRequest (w : WifiInfo) : Prop where
  calls : ∀ tr o, Traces (launch w) tr o → OnRequest w tr o
  framed : ∀ tr o, Traces (launch w) tr o → frames tr <+:
    [encoded .wifiStartRequest (requestMessage w), encoded .wifiInfoResponse (responseMessage w)]
  independent : Independent w

theorem framed_of_fits {w : WifiInfo} (hstart : (requestMessage w).byteSizeLong ≤ 65531)
    (hresponse : (responseMessage w).byteSizeLong ≤ 65531) {tr : LaunchTrace} {o : Option Unit}
    (h : Traces (launch w) tr o) : frames tr <+:
      [encoded .wifiStartRequest (requestMessage w),
        encoded .wifiInfoResponse (responseMessage w)] := by
  obtain hnone | ⟨start, hframe, hsent | ⟨response, hframe', hsent⟩⟩ := (launch_on_request h).sends
  · rw [hnone]
    exact List.nil_prefix
  · rw [hsent, hframe.fits hstart]
    exact ⟨[_], rfl⟩
  · rw [hsent, hframe.fits hstart, hframe'.fits hresponse]
    exact List.prefix_refl _

theorem frames_asking (w : WifiInfo) (memory : Memory) :
    frames (run (withMemory asking memory) (launch w) (0, 0)).trace =
      [sentFrame .wifiStartRequest (requestMessage w)
          (memory 0 (frameSize (requestMessage w)).toNat).1,
        sentFrame .wifiInfoResponse (responseMessage w)
          (memory 2 (frameSize (responseMessage w)).toNat).1] := rfl

/-- A frame of a larger message is too short. -/
theorem fits_of_encoded {messageId : MessageId} {message : MessageLite} {memory : Bytes}
    (hm : memory.length = (frameSize message).toNat)
    (h : sentFrame messageId message memory = encoded messageId message) :
    message.byteSizeLong ≤ 65531 := by
  by_contra hbig
  have hlength := congrArg List.length h
  rw [sentFrame_length, hm, encoded_length] at hlength
  have hlt := frameSize_lt (Nat.lt_of_not_le hbig)
  omega

theorem OnlyOnRequest.fits {w : WifiInfo} (h : OnlyOnRequest w) :
    (requestMessage w).byteSizeLong ≤ 65531 ∧ (responseMessage w).byteSizeLong ≤ 65531 := by
  have hasked := h.framed _ _ (run_traces (withMemory asking (filled 0)) (launch w) (0, 0))
  rw [frames_asking, List.cons_prefix_cons, List.cons_prefix_cons] at hasked
  obtain ⟨hstart, hresponse, -⟩ := hasked
  exact ⟨fits_of_encoded (filled 0 0 _).2 hstart, fits_of_encoded (filled 0 2 _).2 hresponse⟩

theorem onlyOnRequest_of_fits {w : WifiInfo} (hstart : (requestMessage w).byteSizeLong ≤ 65531)
    (hresponse : (responseMessage w).byteSizeLong ≤ 65531) : OnlyOnRequest w where
  calls _ _ h := launch_on_request h
  framed _ _ h := framed_of_fits hstart hresponse h
  independent := independent_of_fits hstart

/-- Which calls are made depends on the peer alone, in every configuration. The frames are
those of the two messages, and the credentials show to no peer that does not ask, as long
as both messages fit; a request whose size is cut sends what was in the memory. -/
theorem credentials_on_request (w : WifiInfo) :
    (∀ tr o, Traces (launch w) tr o → OnRequest w tr o) ∧
    (OnlyOnRequest w ↔
      (requestMessage w).byteSizeLong ≤ 65531 ∧ (responseMessage w).byteSizeLong ≤ 65531) ∧
    ((requestMessage w).byteSizeLong ≤ 65531 → Independent w) ∧
    (2 ^ 16 ≤ (requestMessage w).byteSizeLong → 4 < (frameSize (requestMessage w)).toNat →
      ¬ Independent w) :=
  ⟨fun _ _ h => launch_on_request h, ⟨OnlyOnRequest.fits, fun h => onlyOnRequest_of_fits h.1 h.2⟩,
    independent_of_fits, not_independent⟩

def home : WifiInfo := Config.getWifiInfo ⟨fun _ => none, bytes "02:00:00:00:00:01"⟩

theorem credentials_on_request_home : OnlyOnRequest home ∧ Independent home :=
  ⟨(credentials_on_request home).2.1.mpr (by decide +kernel),
    (credentials_on_request home).2.2.1 (by decide +kernel)⟩

/-- The address variable holds 70000 characters. -/
def longAddress : Environment where
  getenv name :=
    if name = bytes "AAWG_PROXY_IP_ADDRESS" then some (List.replicate 70000 97) else none
  macAddress := bytes "02:00:00:00:00:01"

theorem longAddress_size :
    (requestMessage (Config.getWifiInfo longAddress)).byteSizeLong = 70007 := by
  have hlength : (Config.getWifiInfo longAddress).ipAddress.length = 70000 := List.length_replicate
  have hport : (Config.getWifiInfo longAddress).port = 5288 := by decide +kernel
  rw [requestMessage_size, hlength, hport]
  decide +kernel

theorem longAddress_gives_away :
    (¬ Requested (reads (run (withMemory silent (filled 0))
      (launch (Config.getWifiInfo longAddress)) ((), 0)).trace) ∧
    received (run (withMemory silent (filled 1))
        (launch { Config.getWifiInfo longAddress with
          ssid := bytes "home", key := bytes "secret", bssid := [] }) ((), 0)).trace ≠
      received (run (withMemory silent (filled 0)) (launch (Config.getWifiInfo longAddress))
        ((), 0)).trace) ∧
    ¬ OnlyOnRequest (Config.getWifiInfo longAddress) := by
  have hcut : 2 ^ 16 ≤ (requestMessage (Config.getWifiInfo longAddress)).byteSizeLong := by
    rw [longAddress_size]
    decide
  have hroom : 4 < (frameSize (requestMessage (Config.getWifiInfo longAddress))).toNat := by
    rw [frameSize_toNat, longAddress_size]
    decide
  refine ⟨⟨silent_unrequested (Config.getWifiInfo longAddress) (filled 0), ?_⟩, fun h => ?_⟩
  · exact received_cut hcut hroom (bytes "home") (bytes "secret") []
  · exact not_independent hcut hroom h.independent

end Aawgd.AAWirelessLauncher
