import Aawgd.SessionWakeup

/-! Teardown of a session: when `stopForwarding` signals through a handle that holds
no thread. The condition on a step says exactly which orders do. -/
namespace Aawgd
open ByteStream CallProgram

theorem kill_tested {code : Code} {d t : ProxyDirection} {c : Call} {k : Answer c → Code}
    {r : Answer c} (h : code.Form) (hnext : code.next? d = some ⟨c, k⟩)
    (hkill : (k r).call? = some (.kill t)) :
    (⟨c, r⟩ : Event Call Answer) = ⟨.hasThread t, true⟩ := by
  cases h with
  | notStarted | finished => cases hnext
  | looping p hcalls hchecked =>
    cases p with
    | ret o => cases hnext
    | call c k =>
      cases hnext
      have honly := hcalls.2 r
      cases hp : k r with
      | ret o =>
        simp only [hp] at hkill
        cases o <;> cases hkill
      | call c' k' =>
        simp only [hp] at hkill
        rw [hp] at honly
        cases hkill
        cases honly.1
  | raise =>
    cases hnext
    cases hkill
  | test u =>
    cases hnext
    cases r with
    | false => cases u <;> cases hkill
    | true =>
      cases hkill
      rfl
  | send u =>
    cases hnext
    cases u <;> cases hkill

/-- No signal went through a handle without a running thread or after the handler was
removed, and no thread is about to send one so. -/
structure Aimed (s : Session) : Prop where
  sent : s.crashed = false
  next : ∀ d t, (s.forwarder d).code.call? = some (.kill t) →
    s.handle t = .engaged ∧ s.handlerInstalled = true

/-- The USB_to_TCP thread is joined while the other thread is not between its test
of that handle and its signal, and the test is not made between join and reset. -/
def HandleKept (s : Session) : Action → Prop
  | .client => s.client = .join .usbToTcp →
    (s.forwarder .tcpToUsb).code.call? ≠ some (.kill .usbToTcp)
  | .run .tcpToUsb => (s.forwarder .tcpToUsb).code.call? = some (.hasThread .usbToTcp) →
    s.handle .usbToTcp ≠ .joined
  | _ => True

instance decidableHandleKept (s : Session) : (a : Action) → Decidable (HandleKept s a)
  | .client => inferInstanceAs (Decidable (_ → _))
  | .run .tcpToUsb => inferInstanceAs (Decidable (_ → _))
  | .run .usbToTcp | .enter _ | .returns _ _ | .deliver _ => .isTrue trivial

theorem first_join (t : ProxyDirection) :
    (ClientPc.join .usbToTcp).rank ≤ (ClientPc.join t).rank := by
  cases t <;> decide

/-- Only the TCP_to_USB thread can see a joined handle, and it is the other one's. -/
theorem Orderly.joined_seen {s : Session} (h : Orderly s) {d t : ProxyDirection} {c : Call}
    (hc : (s.forwarder d).code.call? = some c) (hjoined : s.handle t = .joined) :
    d = .tcpToUsb ∧ t = .usbToTcp := by
  obtain ⟨-, hle⟩ := h.alive hc
  have hlt : (ClientPc.join t).rank < s.client.rank := by
    by_contra hnot
    rw [h.handle, ClientPc.handle] at hjoined
    split at hjoined
    · cases hjoined
    · rw [if_pos (by omega)] at hjoined
      cases hjoined
  cases d with
  | usbToTcp =>
    have hfirst := first_join t
    omega
  | tcpToUsb =>
    cases t with
    | usbToTcp => exact ⟨rfl, rfl⟩
    | tcpToUsb => omega

/-- A thread that has ended makes no call. -/
theorem Orderly.ended_call {s : Session} (h : Orderly s) {d : ProxyDirection}
    (hlt : (ClientPc.join d).rank < s.client.rank) : (s.forwarder d).code.call? = none := by
  rw [h.ended d hlt]
  rfl

theorem Aimed.perform {s : Session} (h : Aimed s) {d : ProxyDirection} {c : Call}
    (hc : (s.forwarder d).code.call? = some c) : (s.perform c).crashed = false := by
  cases c with
  | kill t =>
    have hnext := h.next d t hc
    simp [Session.perform, Session.kill, hnext, Session.setPending, Session.put, h.sent]
  | _ => exact h.sent

/-- A step that leaves every waiting signal and the handle it goes to as they were. -/
theorem Aimed.frame {s s' : Session} (h : Aimed s) (hsent : s'.crashed = false)
    (hcall : ∀ d t, (s'.forwarder d).code.call? = some (.kill t) →
      (s.forwarder d).code.call? = some (.kill t) ∧
        (s.handle t = .engaged → s.handlerInstalled = true →
          s'.handle t = .engaged ∧ s'.handlerInstalled = true)) : Aimed s' where
  sent := hsent
  next d t hkill := by
    obtain ⟨hbefore, hkept⟩ := hcall d t hkill
    obtain ⟨hengaged, hinst⟩ := h.next d t hbefore
    exact hkept hengaged hinst

theorem Aimed.client_step {stack : ProxyDirection → Buffer} {s s' : Session} (ho : Orderly s)
    (h : Aimed s) (hstep : SessionStep stack s .client s') :
    Aimed s' ↔ HandleKept s .client := by
  cases hstep with
  | spawn d hpc =>
    apply iff_of_true _ (by simp [HandleKept, hpc])
    refine h.frame h.sent fun e t hkill => ?_
    by_cases he : e = d
    · subst he
      simp only [Session.resume, put_self] at hkill
      cases hkill
    · simp only [Session.resume, put_ne _ _ he] at hkill
      exact ⟨hkill, fun hengaged hinst => ⟨hengaged, hinst⟩⟩
  | assign d hpc =>
    apply iff_of_true _ (by simp [HandleKept, hpc])
    refine h.frame h.sent fun e t hkill => ?_
    refine ⟨hkill, fun hengaged hinst => ⟨?_, hinst⟩⟩
    by_cases ht : t = d <;> simp [Session.setHandle, ht, hengaged]
  | join d hpc hended =>
    have hover : ∀ t, (s.forwarder d).code.call? ≠ some (.kill t) := by
      intro t
      cases hcode : (s.forwarder d).code <;> simp_all [Code.isFinished, Code.call?]
    cases d with
    | tcpToUsb =>
      apply iff_of_true _ (by simp [HandleKept, hpc])
      refine h.frame h.sent fun e t hkill => ?_
      cases e with
      | tcpToUsb => exact absurd hkill (hover t)
      | usbToTcp =>
        have hnone := ho.ended_call (d := .usbToTcp) (by rw [hpc]; decide)
        exact absurd (hnone.symm.trans hkill) (by simp)
    | usbToTcp =>
      constructor
      · intro hsafe hjoin hkill
        have hengaged := (hsafe.next .tcpToUsb .usbToTcp hkill).1
        simp [Session.setHandle] at hengaged
      · intro hkept
        have hfree := hkept hpc
        refine h.frame h.sent fun e t hkill => ?_
        cases e with
        | usbToTcp => exact absurd hkill (hover t)
        | tcpToUsb =>
          have ht : t ≠ .usbToTcp := fun ht => hfree (ht ▸ hkill)
          exact ⟨hkill, fun hengaged hinst => ⟨by simp [Session.setHandle, ht, hengaged], hinst⟩⟩
  | reset d hpc =>
    apply iff_of_true _ (by simp [HandleKept, hpc])
    refine h.frame h.sent fun e t hkill => ?_
    refine ⟨hkill, fun hengaged hinst => ⟨?_, hinst⟩⟩
    have ht : t ≠ d := by
      intro ht
      rw [ht, ho.handle, hpc] at hengaged
      cases d <;> cases hengaged
    simp [Session.setHandle, ht, hengaged]
  | restore hpc =>
    apply iff_of_true _ (by simp [HandleKept, hpc])
    refine h.frame h.sent fun e t hkill => ?_
    have hnone := ho.ended_call (d := e) (by rw [hpc]; cases e <;> decide)
    rw [hnone] at hkill
    cases hkill
  | answered d a c k r hnext hown haction => simp at haction

/-- Neither a pending signal nor being blocked matters to the handles. -/
theorem Aimed.put {s : Session} (h : Aimed s) {d : ProxyDirection} {f : Forwarder}
    (hcode : f.code = (s.forwarder d).code) : Aimed (s.put d f) := by
  refine h.frame h.sent fun e t hkill => ⟨?_, fun hengaged hinst => ⟨hengaged, hinst⟩⟩
  by_cases he : e = d
  · subst he
    simpa [hcode] using hkill
  · simpa [he] using hkill

/-- The answer to a thread's call is safe exactly if the signal it leads to has a thread. -/
theorem Aimed.answered {s : Session} (h : Aimed s) {d : ProxyDirection} {c : Call}
    {code : Code} (hc : (s.forwarder d).code.call? = some c) :
    Aimed ((s.perform c).resume d code) ↔ ∀ t, code.call? = some (.kill t) →
      s.handle t = .engaged ∧ s.handlerInstalled = true := by
  constructor
  · intro hsafe t hkill
    have hnext := hsafe.next d t (by simpa [Session.resume] using hkill)
    simpa [Session.resume, Session.put] using hnext
  · intro hcode
    refine ⟨h.perform hc, fun e t hkill => ?_⟩
    have hgoal : s.handle t = .engaged ∧ s.handlerInstalled = true := by
      by_cases he : e = d
      · subst he
        exact hcode t (by simpa [Session.resume] using hkill)
      · exact h.next e t (by simpa [Session.resume, he] using hkill)
    simpa [Session.resume, Session.put] using hgoal

/-- An answer a blocked call got leads to no signal. -/
theorem Aimed.unblocked {s : Session} (ho : Orderly s) (h : Aimed s) {d : ProxyDirection}
    {c : Call} {k : Answer c → Code} (hnext : (s.forwarder d).code.next? d = some ⟨c, k⟩)
    (hblocking : c.blocks = true) (r : Answer c) : Aimed ((s.perform c).resume d (k r)) := by
  apply (h.answered (call?_of_next? hnext)).mpr
  intro t hkill
  have hevent := kill_tested (ho.form d) hnext hkill
  cases hevent
  cases hblocking

theorem Aimed.step {stack : ProxyDirection → Buffer} {s s' : Session} {a : Action}
    (ho : Orderly s) (h : Aimed s) (hstep : SessionStep stack s a s') :
    Aimed s' ↔ HandleKept s a := by
  cases a with
  | client => exact h.client_step ho hstep
  | enter d =>
    apply iff_of_true _ trivial
    cases hstep with
    | enter d => exact h.put rfl
    | answered d a c k r hnext hown haction => simp at haction
  | returns d event =>
    apply iff_of_true _ trivial
    cases hstep with
    | answered e a c k r hnext hown haction =>
      have hblocking : d = e ∧ c.blocks = true := by simpa using haction
      exact h.unblocked ho hnext hblocking.2 r
  | run d =>
    cases hstep with
    | answered e a c k r hnext hown haction =>
      have hde : d = e := by simpa using haction
      subst hde
      have hcall := call?_of_next? hnext
      rw [h.answered hcall]
      constructor
      · intro hsafe
        cases d with
        | usbToTcp => trivial
        | tcpToUsb =>
          intro htest hjoined
          cases hcall.symm.trans htest
          have hr := hown _ rfl
          rw [hjoined] at hr
          subst hr
          have hengaged := (hsafe .usbToTcp (call?_after_test (ho.form _) hnext)).1
          simp [hjoined] at hengaged
      · intro hkept t hkill
        cases kill_tested (ho.form d) hnext hkill
        have hpresent : (s.handle t != .empty) = true := hown _ rfl
        have hjoined : s.handle t ≠ .joined := by
          intro hjoined
          obtain ⟨rfl, rfl⟩ := ho.joined_seen hcall hjoined
          exact hkept hcall hjoined
        refine ⟨?_, ho.handler_alive hcall⟩
        cases hhandle : s.handle t <;> simp_all
  | deliver d =>
    apply iff_of_true _ (by cases d <;> trivial)
    cases hstep with
    | answered e a c k r hnext hown haction => simp at haction
    | interrupted d c k r hnext hblocking =>
      have hput : Aimed (s.setPending d false) := h.put rfl
      have hsafe := hput.unblocked (ho.setPending d false) (d := d) (c := c) (k := k)
        (by simpa using hnext) hblocking r
      rwa [(answer_of_blocks hblocking).2] at hsafe
    | ignored d hfree => exact h.put rfl

theorem Aimed.start : Aimed sessionStart := ⟨rfl, nofun⟩

/-- Every signal of a run goes to a thread exactly if no step takes one of the two
orders that leave a handle without one. -/
theorem signals_aimed_iff (stack : ProxyDirection → Buffer) (run : List Action)
    (hlegal : (session stack).Legal sessionStart run) :
    (∀ pre, pre <+: run → Aimed ((session stack).after sessionStart pre)) ↔
      (session stack).Meets HandleKept sessionStart run := by
  apply GuardedSystem.along_iff_meets _ _ Orderly.start Aimed.start hlegal
  · intro s a ho h hguard
    exact h.step ho (session_step hguard)
  · intro s a ho h hguard hok
    exact ho.step (session_step hguard)

theorem signals_aimed_hangUp : Aimed ((session zeroStack).after sessionStart
    (hangUp [.enter .usbToTcp, .deliver .usbToTcp])) :=
  (signals_aimed_iff zeroStack _ (by decide +kernel)).mpr (by decide +kernel) _
    (List.prefix_refl _)

/-- The accessory goes away first; the other thread tests the handle, then
`handleClient` joins and clears it, then the signal is sent. -/
theorem signal_misdirected : ∃ stack run, (session stack).Legal sessionStart run ∧
    ((session stack).after sessionStart run).crashed = true :=
  ⟨zeroStack, [.client, .client, .client, .client, .run .usbToTcp, .enter .usbToTcp,
    .returns .usbToTcp ⟨.read .usb 0 maxFrame, .eof⟩, .run .usbToTcp, .run .tcpToUsb,
    .run .tcpToUsb, .run .tcpToUsb, .run .usbToTcp, .run .usbToTcp, .run .usbToTcp,
    .run .usbToTcp, .client, .client, .run .tcpToUsb], by decide +kernel, by decide +kernel⟩

end Aawgd
