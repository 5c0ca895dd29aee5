import Aawgd.SessionInvariant

/-! Teardown of a session: when the signal of `stopForwarding` is lost on the thread
that reads the accessory. -/
namespace Aawgd
open ByteStream CallProgram

theorem reads_checked {code : Code} {d : ProxyDirection} {c : Call} {k : Answer c → Code}
    {r : Answer c} (h : code.Form) (hnext : code.next? d = some ⟨c, k⟩)
    (hr : (k r).reads .usb = true) : (⟨c, r⟩ : Event Call Answer) = ⟨.shouldExit, false⟩ := by
  cases h with
  | notStarted | finished => cases hnext
  | looping p hcalls hchecked =>
    cases p with
    | ret o => cases hnext
    | call c k =>
      cases hnext
      have hc := (hchecked r).1
      cases hp : k r with
      | ret o =>
        simp only [hp] at hr
        cases o <;> cases hr
      | call c' k' =>
        simp only [hp] at hr
        rw [hp] at hc
        cases c' with
        | read fd offset n => exact hc hr
        | _ => cases hr
  | raise =>
    cases hnext
    cases hr
  | test t =>
    cases hnext
    cases r <;> cases t <;> cases hr
  | send t =>
    cases hnext
    cases t <;> cases hr

theorem call?_of_reads {code : Code} {fd : Fd} (h : code.reads fd = true) :
    ∃ c, code.call? = some c := by
  unfold Code.reads at h
  split at h
  next fd' _ _ hc => exact ⟨_, hc⟩
  next => cases h

/-- While both threads run the handle of the reader holds it. -/
theorem Orderly.usb_engaged {s : Session} (h : Orderly s) {c c' : Call}
    (husb : (s.forwarder .usbToTcp).code.call? = some c)
    (htcp : (s.forwarder .tcpToUsb).code.call? = some c') : s.handle .usbToTcp = .engaged := by
  obtain ⟨-, hle⟩ := h.alive husb
  obtain ⟨hlt, -⟩ := h.alive htcp
  have hpast : ¬ s.client.rank ≤ (ClientPc.assign .usbToTcp).rank := by
    change 2 < s.client.rank at hlt
    change ¬ s.client.rank ≤ 1
    omega
  rw [h.handle]
  simp only [ClientPc.handle, if_neg hpast, if_pos hle]

/-! The reader left asleep -/

/-- A forward thread has ended, the flag is set, and the USB_to_TCP thread is blocked
in its read of the accessory with no signal on the way. -/
structure Stranded (s : Session) : Prop where
  stopped : s.shouldExit = true
  ended : ∃ d, (s.forwarder d).code.isFinished = true
  reads : (s.forwarder .usbToTcp).code.reads .usb = true
  blocked : (s.forwarder .usbToTcp).blocked = true
  quiet : (s.forwarder .usbToTcp).pending = false

/-- SIGUSR1 is not handed to the USB_to_TCP thread between its last look at the flag
and its entry into the read. -/
def NotBeforeRead (s : Session) : Action → Prop
  | .deliver .usbToTcp => (s.forwarder .usbToTcp).code.reads .usb = true →
    (s.forwarder .usbToTcp).blocked = true
  | _ => True

instance decidableNotBeforeRead (s : Session) : (a : Action) → Decidable (NotBeforeRead s a)
  | .deliver .usbToTcp => inferInstanceAs (Decidable (_ → _))
  | .deliver .tcpToUsb | .client | .run _ | .enter _ | .returns _ _ => .isTrue trivial

/-- A reader that missed the flag has its signal pending, or the other thread is
about to send it. -/
structure Woken (s : Session) : Prop where
  orderly : Orderly s
  wake : s.shouldExit = true → (s.forwarder .usbToTcp).code.reads .usb = true →
    (s.forwarder .usbToTcp).pending = true ∨
      (s.forwarder .tcpToUsb).code.call? = some (.hasThread .usbToTcp) ∨
      (s.forwarder .tcpToUsb).code.call? = some (.kill .usbToTcp)

theorem Woken.not_stranded {s : Session} (h : Woken s) : ¬ Stranded s := by
  intro hs
  have hwake := h.wake hs.stopped hs.reads
  obtain ⟨c, hc⟩ := call?_of_reads hs.reads
  have htcp : ∃ c, (s.forwarder .tcpToUsb).code.call? = some c := by
    cases hwake with
    | inl hp => simp [hs.quiet] at hp
    | inr hcall =>
      cases hcall with
      | inl hcall => exact ⟨_, hcall⟩
      | inr hcall => exact ⟨_, hcall⟩
  obtain ⟨c', hc'⟩ := htcp
  obtain ⟨d, hd⟩ := hs.ended
  cases d with
  | usbToTcp => cases hcode : (s.forwarder .usbToTcp).code <;> simp_all [Code.isFinished, Code.call?]
  | tcpToUsb => cases hcode : (s.forwarder .tcpToUsb).code <;> simp_all [Code.isFinished, Code.call?]

/-- The reader has just been answered: it reads again only after a look at the flag. -/
theorem Woken.reader_answered {s : Session} (h : Woken s) {c : Call} {k : Answer c → Code}
    {r : Answer c} (hnext : (s.forwarder .usbToTcp).code.next? .usbToTcp = some ⟨c, k⟩)
    (hown : ∀ r', s.answer c = some r' → r' = r) (hreads : (k r).reads .usb = true) :
    c = .shouldExit ∧ s.shouldExit = false := by
  have hevent := reads_checked (h.orderly.form .usbToTcp) hnext hreads
  cases hevent
  exact ⟨rfl, hown s.shouldExit rfl⟩

/-- The other thread has just been answered. -/
theorem Woken.writer_answered {s : Session} (h : Woken s) {c : Call} {k : Answer c → Code}
    {r : Answer c} (hnext : (s.forwarder .tcpToUsb).code.next? .tcpToUsb = some ⟨c, k⟩)
    (hown : ∀ r', s.answer c = some r' → r' = r) (hexit : (s.perform c).shouldExit = true)
    (hreads : (s.forwarder .usbToTcp).code.reads .usb = true) :
    ((s.perform c).forwarder .usbToTcp).pending = true ∨
      (k r).call? = some (.hasThread .usbToTcp) ∨ (k r).call? = some (.kill .usbToTcp) := by
  have hform := h.orderly.form .tcpToUsb
  have hcall := call?_of_next? hnext
  obtain ⟨c', hc'⟩ := call?_of_reads hreads
  have hengaged := h.orderly.usb_engaged hc' hcall
  have hinst := h.orderly.handler_alive hc'
  have hwake := h.wake
  rw [hcall] at hwake
  cases c with
  | raiseExit => exact .inr (.inl (call?_after_raise hform hnext r))
  | hasThread t =>
    cases t with
    | tcpToUsb =>
      have hpending := hwake hexit hreads
      simp only [Option.some.injEq, Call.hasThread.injEq, reduceCtorEq, or_false] at hpending
      exact .inl hpending
    | usbToTcp =>
      have hr := hown _ rfl
      rw [hengaged] at hr
      subst hr
      exact .inr (.inr (call?_after_test hform hnext))
  | kill t =>
    cases t with
    | tcpToUsb =>
      have hpending := hwake (by simpa [Session.perform] using hexit) hreads
      simp only [Option.some.injEq, Call.kill.injEq, reduceCtorEq, or_false] at hpending
      exact .inl (kill_pending hpending .tcpToUsb)
    | usbToTcp =>
      apply Or.inl
      simp [Session.perform, Session.kill, hengaged, hinst, Session.setPending]
  | _ =>
    have hpending := hwake hexit hreads
    simp only [Option.some.injEq, reduceCtorEq, or_false] at hpending
    exact .inl hpending

theorem Woken.step {stack : ProxyDirection → Buffer} {s s' : Session} {a : Action}
    (h : Woken s) (hok : NotBeforeRead s a) (hstep : SessionStep stack s a s') : Woken s' := by
  have hne : ProxyDirection.usbToTcp ≠ .tcpToUsb := by decide
  have hne' : ProxyDirection.tcpToUsb ≠ .usbToTcp := by decide
  refine ⟨h.orderly.step hstep, fun hexit hreads => ?_⟩
  cases hstep with
  | spawn d hpc =>
    cases d with
    | usbToTcp =>
      simp only [Session.resume, put_self] at hreads
      cases hreads
    | tcpToUsb =>
      have hcode := h.orderly.unstarted .tcpToUsb (by rw [hpc])
      have hwake := h.wake
      simp only [hcode, Code.call?, reduceCtorEq, or_false] at hwake
      simp only [Session.resume, put_shouldExit, put_ne _ _ hne] at hexit hreads ⊢
      exact .inl (hwake hexit hreads)
  | assign d hpc => exact h.wake hexit hreads
  | join d hpc hended => exact h.wake hexit hreads
  | reset d hpc => exact h.wake hexit hreads
  | restore hpc => exact h.wake hexit hreads
  | enter d =>
    have hwake := h.wake hexit
    cases d with
    | usbToTcp =>
      simp only [put_self, put_ne _ _ hne'] at hreads ⊢
      exact hwake hreads
    | tcpToUsb =>
      simp only [put_self, put_ne _ _ hne] at hreads ⊢
      exact hwake hreads
  | answered d a c k r hnext hown haction =>
    cases d with
    | usbToTcp =>
      simp only [Session.resume, put_self] at hreads
      obtain ⟨rfl, hflag⟩ := h.reader_answered hnext hown hreads
      change s.shouldExit = true at hexit
      simp [hflag] at hexit
    | tcpToUsb =>
      simp only [Session.resume, put_self, put_ne _ _ hne, perform_code] at hreads ⊢
      exact h.writer_answered hnext hown hexit hreads
  | interrupted d c k r hnext hblocking =>
    obtain ⟨hnone, hsame⟩ := answer_of_blocks (s := s) hblocking
    have hown : ∀ r', s.answer c = some r' → r' = r := by simp [hnone]
    cases d with
    | usbToTcp =>
      simp only [Session.resume, put_self] at hreads
      obtain ⟨rfl, -⟩ := h.reader_answered hnext hown hreads
      cases hblocking
    | tcpToUsb =>
      have hwake := h.writer_answered hnext hown (by rw [hsame]; exact hexit)
      rw [hsame] at hwake
      simp only [Session.resume, Session.setPending, put_self, put_ne _ _ hne] at hreads ⊢
      exact hwake hreads
  | ignored d hfree =>
    cases d with
    | usbToTcp =>
      simp only [Session.setPending, put_self] at hreads
      have hblocked := hok hreads
      simp [hfree] at hblocked
    | tcpToUsb =>
      simp only [Session.setPending, put_self, put_ne _ _ hne] at hreads ⊢
      exact h.wake hexit hreads

theorem Woken.start : Woken sessionStart := ⟨Orderly.start, nofun⟩

/-- In every run in which the signal does not fall between the look at the flag and
the read, the reader is never left asleep. -/
theorem no_reader_stranded (stack : ProxyDirection → Buffer) (run : List Action)
    (hlegal : (session stack).Legal sessionStart run)
    (hdelivered : (session stack).Meets NotBeforeRead sessionStart run) :
    ¬ Stranded ((session stack).after sessionStart run) := by
  have hwoken : Woken ((session stack).after sessionStart run) := by
    apply GuardedSystem.invariant _ Woken.start hlegal hdelivered
    intro s a h hguard hok
    exact h.step hok (session_step hguard)
  exact hwoken.not_stranded

def zeroStack : ProxyDirection → Buffer := fun _ _ => 0

/-- Both threads are started, the phone hangs up, and the TCP_to_USB thread signals
the reader, which has looked at the flag before; `rest` is what happens then. -/
def hangUp (rest : List Action) : List Action :=
  [.client, .client, .client, .client, .run .tcpToUsb, .enter .tcpToUsb, .run .usbToTcp,
    .returns .tcpToUsb ⟨.read .tcp 0 headerLength, .eof⟩, .run .tcpToUsb, .run .tcpToUsb,
    .run .tcpToUsb] ++ rest

theorem no_reader_stranded_woken : ¬ Stranded ((session zeroStack).after sessionStart
    (hangUp [.enter .usbToTcp, .deliver .usbToTcp, .run .tcpToUsb, .run .tcpToUsb])) :=
  no_reader_stranded zeroStack _ (by decide +kernel) (by decide +kernel)

theorem reader_stranded : ∃ stack run, (session stack).Legal sessionStart run ∧
    Stranded ((session stack).after sessionStart run) := by
  refine ⟨zeroStack,
    hangUp [.deliver .usbToTcp, .run .tcpToUsb, .run .tcpToUsb, .enter .usbToTcp], ?_, ?_⟩
  · decide +kernel
  · exact ⟨by decide +kernel, ⟨.tcpToUsb, by decide +kernel⟩, by decide +kernel,
      by decide +kernel, by decide +kernel⟩

end Aawgd
