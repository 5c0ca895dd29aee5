import Aawgd.Session

/-! What holds in every state of a session: the program points a forward thread can
be at, and which threads exist at each statement of `handleClient`. -/
namespace Aawgd
open ByteStream CallProgram

/-- The calls the loop of a forward thread makes. -/
def isLoopCall : Call → Bool
  | .shouldExit | .read _ _ _ | .write _ _ | .setErrnoEmsgsize => true
  | .raiseExit | .hasThread _ | .kill _ => false

def readsFirst (fd : Fd) {α : Type} : Proxy α → Bool
  | .call (.read fd' _ _) _ => fd' = fd
  | _ => false

/-- Every read of the descriptor but the first call comes right after a look at the
flag that found it unset. -/
def Checked (fd : Fd) {α : Type} : Proxy α → Prop
  | .ret _ => True
  | .call c k => ∀ r, (readsFirst fd (k r) = true →
      (⟨c, r⟩ : Event Call Answer) = ⟨.shouldExit, false⟩) ∧ Checked fd (k r)

/-- What is left of `stopForwarding` once a thread was signalled or skipped. -/
def signalsAfter : ProxyDirection → Proxy Unit
  | .usbToTcp => signal .tcpToUsb (.ret ())
  | .tcpToUsb => .ret ()

/-- The program points of a forward thread. -/
inductive Code.Form : Code → Prop
  | notStarted : Form .notStarted
  | looping (p : Proxy (Option Buffer)) (calls : p.Only (isLoopCall · = true))
    (checked : Checked .usb p) : Form (.looping p)
  | raise : Form (.stopping stopForwarding)
  | test (t : ProxyDirection) : Form (.stopping (signal t (signalsAfter t)))
  | send (t : ProxyDirection) : Form (.stopping (.call (.kill t) fun _ => signalsAfter t))
  | finished : Form .finished

/-! Rounds -/

theorem checked_of_only {fd : Fd} {α : Type} {p : Proxy α}
    (h : p.Only fun c => ∀ offset n, c ≠ .read fd offset n) : Checked fd p := by
  induction p with
  | ret a => trivial
  | call c k ih =>
    refine fun r => ⟨fun hr => ?_, ih r (h.2 r)⟩
    have hk := h.2 r
    cases hp : k r with
    | ret a => simp [hp, readsFirst] at hr
    | call c' k' =>
      rw [hp] at hk hr
      cases c' with
      | read fd' offset n =>
        have hfd : fd' = fd := by simpa [readsFirst] using hr
        exact absurd (by rw [hfd]) (hk.1 offset n)
      | _ => simp [readsFirst] at hr

theorem checkBlock_checked (fd : Fd) (d : ProxyDirection) (len : Int) (buffer : Buffer) :
    Checked fd (checkBlock d len buffer) ∧ readsFirst fd (checkBlock d len buffer) = false := by
  unfold checkBlock
  split
  · exact ⟨trivial, rfl⟩
  split
  · exact ⟨trivial, rfl⟩
  refine ⟨checked_of_only (only_unlessStopped (by simp) ⟨by simp, fun r => ?_⟩), rfl⟩
  cases r with
  | error => trivial
  | accepted k le => exact only_unlessStopped (by simp) trivial

/-- The flag is looked at right before each read of the accessory descriptor. -/
theorem forwardRound_checked (d : ProxyDirection) (buffer : Buffer) :
    Checked .usb (forwardRound d buffer) := by
  cases d with
  | tcpToUsb =>
    have honly : (forwardRound .tcpToUsb buffer).Only fun c => ∀ offset n, c ≠ .read .usb offset n :=
      forwardRound_only (by simp) (by simp [readFd]) (by simp) (by simp) buffer
    exact checked_of_only honly
  | usbToTcp =>
    intro stop
    cases stop with
    | true => exact ⟨nofun, trivial⟩
    | false =>
      refine ⟨fun _ => rfl, fun r => ?_⟩
      cases r with
      | error | eof => exact ⟨nofun, trivial⟩
      | data bytes pos le =>
        obtain ⟨hchecked, hfirst⟩ :=
          checkBlock_checked .usb .usbToTcp bytes.length (store buffer 0 bytes)
        exact ⟨fun h => absurd (h.symm.trans hfirst) (by simp), hchecked⟩

/-! Program points -/

theorem loop_form (d : ProxyDirection) (buffer : Buffer) :
    Code.Form (.looping (forwardRound d buffer)) := by
  have hcalls : (forwardRound d buffer).Only (isLoopCall · = true) :=
    forwardRound_only (q := (isLoopCall · = true)) rfl (fun _ _ => rfl) (fun _ => rfl) rfl buffer
  exact .looping _ hcalls (forwardRound_checked d buffer)

theorem ofRound_form {d : ProxyDirection} {p : Proxy (Option Buffer)}
    (hcalls : p.Only (isLoopCall · = true)) (hchecked : Checked .usb p) :
    (Code.ofRound d p).Form := by
  cases p with
  | ret o =>
    cases o with
    | none => exact .raise
    | some buffer => exact loop_form d buffer
  | call c k => exact .looping _ hcalls hchecked

theorem signalsAfter_form (t : ProxyDirection) : (Code.ofStop (signalsAfter t)).Form := by
  cases t with
  | usbToTcp => exact .test .tcpToUsb
  | tcpToUsb => exact .finished

theorem Code.Form.answered {code : Code} {d : ProxyDirection} {c : Call} {k : Answer c → Code}
    (h : code.Form) (hnext : code.next? d = some ⟨c, k⟩) (r : Answer c) : (k r).Form := by
  cases h with
  | notStarted | finished => cases hnext
  | looping p hcalls hchecked =>
    cases p with
    | ret o => cases hnext
    | call c k =>
      cases hnext
      exact ofRound_form (hcalls.2 r) (hchecked r).2
  | raise =>
    cases hnext
    exact .test .usbToTcp
  | test t =>
    cases hnext
    cases r with
    | false => exact signalsAfter_form t
    | true => exact .send t
  | send t =>
    cases hnext
    exact signalsAfter_form t

theorem call?_after_raise {code : Code} {d : ProxyDirection} {k : Unit → Code} (h : code.Form)
    (hnext : code.next? d = some ⟨.raiseExit, k⟩) (r : Unit) :
    (k r).call? = some (.hasThread .usbToTcp) := by
  cases h with
  | looping p hcalls hchecked =>
    cases p with
    | ret o => cases hnext
    | call c k =>
      cases hnext
      cases hcalls.1
  | raise =>
    cases hnext
    rfl
  | _ => cases hnext

theorem call?_after_test {code : Code} {d t : ProxyDirection} {k : Bool → Code} (h : code.Form)
    (hnext : code.next? d = some ⟨.hasThread t, k⟩) : (k true).call? = some (.kill t) := by
  cases h with
  | looping p hcalls hchecked =>
    cases p with
    | ret o => cases hnext
    | call c k =>
      cases hnext
      cases hcalls.1
  | test t =>
    cases hnext
    rfl
  | _ => cases hnext

theorem call?_of_next? {code : Code} {d : ProxyDirection} {c : Call} {k : Answer c → Code}
    (hnext : code.next? d = some ⟨c, k⟩) : code.call? = some c := by
  cases code with
  | notStarted | finished => cases hnext
  | looping p | stopping p =>
    cases p with
    | ret a => cases hnext
    | call c k =>
      cases hnext
      rfl

/-! The threads and their handles -/

/-- The order of the statements of `handleClient`. -/
def ClientPc.rank : ClientPc → Nat
  | .spawn .usbToTcp => 0
  | .assign .usbToTcp => 1
  | .spawn .tcpToUsb => 2
  | .assign .tcpToUsb => 3
  | .join .usbToTcp => 4
  | .reset .usbToTcp => 5
  | .join .tcpToUsb => 6
  | .reset .tcpToUsb => 7
  | .restore => 8
  | .closed => 9

def ClientPc.handle (pc : ClientPc) (d : ProxyDirection) : Handle :=
  if pc.rank ≤ (ClientPc.assign d).rank then .empty
  else if pc.rank ≤ (ClientPc.join d).rank then .engaged
  else if pc.rank ≤ (ClientPc.reset d).rank then .joined
  else .empty

structure Orderly (s : Session) : Prop where
  form : ∀ d, (s.forwarder d).code.Form
  handle : s.handle = s.client.handle
  unstarted : ∀ d, s.client.rank ≤ (ClientPc.spawn d).rank → (s.forwarder d).code = .notStarted
  ended : ∀ d, (ClientPc.join d).rank < s.client.rank → (s.forwarder d).code = .finished
  handler : s.handlerInstalled = (s.client != .closed)

section frame
variable (s : Session) (d : ProxyDirection) (c : Call)

@[simp] theorem perform_client : (s.perform c).client = s.client := by
  cases c <;> simp only [Session.perform, Session.kill]
  split <;> rfl

@[simp] theorem perform_handle : (s.perform c).handle = s.handle := by
  cases c <;> simp only [Session.perform, Session.kill]
  split <;> rfl

@[simp] theorem perform_handlerInstalled :
    (s.perform c).handlerInstalled = s.handlerInstalled := by
  cases c <;> simp only [Session.perform, Session.kill]
  split <;> rfl

@[simp] theorem perform_code : ((s.perform c).forwarder d).code = (s.forwarder d).code := by
  cases c <;> simp only [Session.perform, Session.kill]
  split
  next t _ => exact setPending_code s t true d
  next => rfl

@[simp] theorem perform_blocked :
    ((s.perform c).forwarder d).blocked = (s.forwarder d).blocked := by
  cases c <;> simp only [Session.perform, Session.kill]
  split
  next t _ => exact setPending_blocked s t true d
  next => rfl

end frame

/-- A thread with a next call is started and not yet joined. -/
theorem Orderly.alive {s : Session} (h : Orderly s) {d : ProxyDirection} {c : Call}
    (hc : (s.forwarder d).code.call? = some c) : (ClientPc.spawn d).rank < s.client.rank ∧
      s.client.rank ≤ (ClientPc.join d).rank := by
  constructor
  · by_contra hle
    rw [h.unstarted d (by omega)] at hc
    cases hc
  · by_contra hle
    rw [h.ended d (by omega)] at hc
    cases hc

theorem Orderly.handler_alive {s : Session} (h : Orderly s) {d : ProxyDirection} {c : Call}
    (hc : (s.forwarder d).code.call? = some c) : s.handlerInstalled = true := by
  obtain ⟨-, hle⟩ := h.alive hc
  rw [h.handler]
  cases hpc : s.client <;> cases d <;> simp_all [ClientPc.rank]

/-- A step of the threads leaves `handleClient` where it is. -/
theorem Orderly.frame {s s' : Session} (h : Orderly s) (hclient : s'.client = s.client)
    (hhandle : s'.handle = s.handle) (hinst : s'.handlerInstalled = s.handlerInstalled)
    (hcode : ∀ d, (s'.forwarder d).code = (s.forwarder d).code ∨
      ((∃ c, (s.forwarder d).code.call? = some c) ∧ (s'.forwarder d).code.Form)) :
    Orderly s' where
  form d := by
    cases hcode d with
    | inl he => exact he ▸ h.form d
    | inr hf => exact hf.2
  handle := by rw [hhandle, hclient, h.handle]
  unstarted d hle := by
    rw [hclient] at hle
    cases hcode d with
    | inl he => rw [he, h.unstarted d hle]
    | inr hf =>
      obtain ⟨⟨c, hc⟩, -⟩ := hf
      have halive := h.alive hc
      omega
  ended d hle := by
    rw [hclient] at hle
    cases hcode d with
    | inl he => rw [he, h.ended d hle]
    | inr hf =>
      obtain ⟨⟨c, hc⟩, -⟩ := hf
      have halive := h.alive hc
      omega
  handler := by rw [hinst, hclient, h.handler]

theorem Orderly.start : Orderly sessionStart where
  form _ := .notStarted
  handle := by
    funext d
    cases d <;> rfl
  unstarted _ _ := rfl
  ended d hlt := by
    cases d <;> simp [sessionStart, ClientPc.rank] at hlt
  handler := rfl

/-- A step of one thread to a proper program point. -/
theorem Orderly.resume {s : Session} (h : Orderly s) {d : ProxyDirection} {c : Call}
    (hc : (s.forwarder d).code.call? = some c) {code : Code} (hform : code.Form) :
    Orderly (s.resume d code) := by
  refine h.frame rfl rfl rfl fun e => ?_
  by_cases he : e = d
  · subst he
    exact .inr ⟨⟨c, hc⟩, by simpa [Session.resume] using hform⟩
  · exact .inl (by simp [Session.resume, he])

theorem Orderly.setPending {s : Session} (h : Orderly s) (d : ProxyDirection) (pending : Bool) :
    Orderly (s.setPending d pending) :=
  h.frame rfl rfl rfl fun e => .inl (setPending_code s d pending e)

theorem Orderly.perform {s : Session} (h : Orderly s) (c : Call) : Orderly (s.perform c) :=
  h.frame (by simp) (by simp) (by simp) fun d => .inl (by simp)

/-- A statement of `handleClient` that changes no thread. -/
theorem Orderly.advance {s s' : Session} (h : Orderly s)
    (hcode : ∀ d, (s'.forwarder d).code = (s.forwarder d).code)
    (hhandle : s'.handle = s'.client.handle) (hrank : s.client.rank ≤ s'.client.rank)
    (hended : ∀ d, (ClientPc.join d).rank < s'.client.rank →
      (ClientPc.join d).rank < s.client.rank ∨ (s.forwarder d).code = .finished)
    (hinst : s'.handlerInstalled = (s'.client != .closed)) : Orderly s' where
  form d := hcode d ▸ h.form d
  handle := hhandle
  unstarted d hle := by rw [hcode, h.unstarted d (by omega)]
  ended d hlt := by
    rw [hcode]
    cases hended d hlt with
    | inl hbefore => exact h.ended d hbefore
    | inr hcode => exact hcode
  handler := hinst

theorem Orderly.spawn {s : Session} (h : Orderly s) {d : ProxyDirection} {code : Code}
    (hpc : s.client = .spawn d) (hform : code.Form) :
    Orderly { s.resume d code with client := .assign d } where
  form e := by
    by_cases he : e = d
    · subst he
      simpa [Session.resume] using hform
    · simpa [Session.resume, he] using h.form e
  handle := by
    funext e
    change s.handle e = _
    rw [h.handle, hpc]
    cases d <;> cases e <;> rfl
  unstarted e hle := by
    have hne : e ≠ d := by
      intro he
      subst he
      cases e <;> simp [ClientPc.rank] at hle
    have hle' : s.client.rank ≤ (ClientPc.spawn e).rank := by
      rw [hpc]
      cases d <;> cases e <;> simp_all [ClientPc.rank]
    simpa [Session.resume, hne] using h.unstarted e hle'
  ended e hlt := by
    cases d <;> cases e <;> simp [ClientPc.rank] at hlt
  handler := by
    change s.handlerInstalled = true
    rw [h.handler, hpc]
    rfl

theorem Orderly.step {stack : ProxyDirection → Buffer} {s s' : Session} {a : Action}
    (h : Orderly s) (hstep : SessionStep stack s a s') : Orderly s' := by
  cases hstep with
  | spawn d hpc => exact h.spawn hpc (loop_form d _)
  | assign d hpc =>
    have hinst := h.handler
    have hhandle := h.handle
    rw [hpc] at hinst hhandle
    refine h.advance (fun _ => rfl) ?_ ?_ ?_ ?_
    · funext e
      change Function.update s.handle d .engaged e = _
      rw [hhandle]
      cases d <;> cases e <;> rfl
    · rw [hpc]
      cases d <;> simp [afterAssign, ClientPc.rank]
    · intro e hlt
      cases d <;> cases e <;> simp [afterAssign, ClientPc.rank] at hlt
    · cases d <;> exact hinst
  | join d hpc hended =>
    have hinst := h.handler
    have hhandle := h.handle
    rw [hpc] at hinst hhandle
    refine h.advance (fun _ => rfl) ?_ ?_ ?_ hinst
    · funext e
      change Function.update s.handle d .joined e = _
      rw [hhandle]
      cases d <;> cases e <;> rfl
    · rw [hpc]
      cases d <;> simp [ClientPc.rank]
    · intro e hlt
      rw [hpc]
      by_cases he : e = d
      · subst he
        refine .inr ?_
        cases hcode : (s.forwarder e).code <;> simp_all [Code.isFinished]
      · refine .inl ?_
        cases d <;> cases e <;> simp_all [ClientPc.rank]
  | reset d hpc =>
    have hinst := h.handler
    have hhandle := h.handle
    rw [hpc] at hinst hhandle
    refine h.advance (fun _ => rfl) ?_ ?_ ?_ ?_
    · funext e
      change Function.update s.handle d .empty e = _
      rw [hhandle]
      cases d <;> cases e <;> rfl
    · rw [hpc]
      cases d <;> simp [afterReset, ClientPc.rank]
    · intro e hlt
      rw [hpc]
      refine .inl ?_
      cases d <;> cases e <;> simp_all [afterReset, ClientPc.rank]
    · cases d <;> exact hinst
  | restore hpc =>
    have hhandle := h.handle
    rw [hpc] at hhandle
    refine h.advance (fun _ => rfl) ?_ ?_ ?_ rfl
    · change s.handle = _
      rw [hhandle]
      funext e
      cases e <;> rfl
    · rw [hpc]
      simp [ClientPc.rank]
    · intro e hlt
      rw [hpc]
      refine .inl ?_
      cases e <;> simp [ClientPc.rank]
  | enter d =>
    refine h.frame rfl rfl rfl fun e => .inl ?_
    by_cases he : e = d <;> simp [he]
  | answered d a c k r hnext =>
    exact (h.perform c).resume (by rw [perform_code, call?_of_next? hnext])
      ((h.form d).answered hnext r)
  | interrupted d c k r hnext =>
    exact (h.setPending d false).resume (by rw [setPending_code, call?_of_next? hnext])
      ((h.form d).answered hnext r)
  | ignored d => exact h.setPending d false

end Aawgd
