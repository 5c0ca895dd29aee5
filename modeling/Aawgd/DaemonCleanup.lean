import Aawgd.DaemonGadgets

/-! The gadgets after the end of a session: when a handler of an earlier session can
still write to them. -/
namespace Aawgd

/-- Between the end of a session and the next wait for the accessory the gadgets stay
disabled. -/
def LeftAlone (s : Daemon) : Prop := s.cleaned = true → s.usb.Quiet

/-- No handler is inside `switchToAccessoryGadget` when `disableGadget` completes. -/
def SwitchOver (s : Daemon) : DaemonAction → Prop
  | .main _ => s.main = .disableAccessory → s.usb.monitor.switching = false
  | _ => True

instance decidableSwitchOver (s : Daemon) : (a : DaemonAction) → Decidable (SwitchOver s a)
  | .main _ => inferInstanceAs (Decidable (_ → _))
  | .proxy _ | .retry | .uevent _ | .monitor => .isTrue trivial

structure Tidy (u : Setup) (s : Daemon) : Prop where
  retrying : Retrying u s
  calling : Calling u s
  listed : Listed s.usb

section
variable {u : Setup} {s s' : Daemon} {a : DaemonAction}

theorem Tidy.step (h : Tidy u s) (hstep : DaemonStep u s a s') : Tidy u s' := by
  refine ⟨h.retrying.step hstep, h.calling.step h.retrying.scheduled hstep, ?_⟩
  cases h.calling.usbStep h.retrying.scheduled hstep with
  | inl hsame => exact hsame ▸ h.listed
  | inr husb =>
    obtain ⟨b, hb⟩ := husb
    exact h.listed.step hb

theorem Tidy.start : Tidy u daemonStart := ⟨Retrying.start, Calling.start, Listed.start⟩

theorem LeftAlone.step (ht : Tidy u s) (h : LeftAlone s) (hstep : DaemonStep u s a s') :
    LeftAlone s' ↔ SwitchOver s a := by
  have hcall := ht.calling.cleaned
  cases hstep with
  | disableAccessory ok pc =>
    constructor
    · exact fun hleft _ => (hleft rfl).2
    · exact fun hover _ => Usb.quiet_of_released (ht.calling.released pc) (hover pc)
  | disableDefault ok pc =>
    exact iff_of_true (fun hc => (h hc).disable .default) (by simp [SwitchOver, pc])
  | waitFirst ok pc => exact iff_of_true nofun (by simp [SwitchOver, pc])
  | proxyBegins => exact iff_of_true nofun trivial
  | mainWaits ok usb pc call | mainReturns ok usb started pc call =>
    have hrunning := (Usb.callStep_cases call).running
    exact iff_of_true (fun hc => absurd (hcall hc) hrunning) (by simp [SwitchOver, pc])
  | proxyWaits ok usb pc call | proxyReturns ok usb started pc call =>
    have hrunning := (Usb.callStep_cases call).running
    exact iff_of_true (fun hc => absurd (hcall hc) hrunning) trivial
  | uevent env usb received =>
    obtain ⟨-, rfl⟩ := Usb.receive_eq received
    exact iff_of_true (fun hc => ⟨(h hc).1, rfl⟩) trivial
  | monitor usb step =>
    exact iff_of_true (fun hc => (h hc).monitor (hcall hc) (Usb.monitorStep_cases step)) trivial
  | powered ok bt next pc =>
    apply iff_of_true h
    intro hm
    simp [hm] at pc
  | _ => exact iff_of_true h (by simp_all [SwitchOver])

end

/-- After the end of a session the gadgets are left alone exactly if no handler was
inside the switch when they were disabled. -/
theorem gadgets_left_alone_iff (u : Setup) (run : List DaemonAction)
    (hlegal : (daemon u).Legal daemonStart run) :
    (∀ pre, pre <+: run → LeftAlone ((daemon u).after daemonStart pre)) ↔
      (daemon u).Meets SwitchOver daemonStart run := by
  have hstart : Tidy u daemonStart := Tidy.start
  apply GuardedSystem.along_iff_meets _ _ hstart nofun hlegal
  · intro s a ht h hguard
    exact h.step ht (daemon_step hguard)
  · intro s a ht h hguard hok
    exact ht.step (daemon_step hguard)

/-- In a run that never cleans up under a handler's hands both UDC files are empty in every
state from the end of a session to the next wait, so that no handler has written to them. -/
theorem gadgets_stay_disabled (u : Setup) {run pre : List DaemonAction} (hpre : pre <+: run)
    (hlegal : (daemon u).Legal daemonStart run)
    (hover : (daemon u).Meets SwitchOver daemonStart run)
    (hcleaned : ((daemon u).after daemonStart pre).cleaned = true) (name : Gadget) :
    ((daemon u).after daemonStart pre).usb.udc name = [] := by
  obtain ⟨rest, rfl⟩ := hpre
  have hlegal := ((GuardedSystem.legal_append _ _ _).mp hlegal).1
  have hover := ((GuardedSystem.meets_append _ _ _).mp hover).1
  let Kept (s : Daemon) : Prop := Tidy u s ∧ LeftAlone s
  have hstep : ∀ s a, Kept s → (daemon u).guard s a → SwitchOver s a →
      Kept ((daemon u).effect s a) := by
    rintro s a ⟨ht, hleft⟩ hguard hok
    exact ⟨ht.step (daemon_step hguard), (hleft.step ht (daemon_step hguard)).mpr hok⟩
  have hstart : Kept daemonStart := ⟨Tidy.start, nofun⟩
  have hkept : Kept ((daemon u).after daemonStart pre) :=
    GuardedSystem.invariant hstep hstart hlegal hover
  exact (hkept.2 hcleaned).1 name

/-- Without a Bluetooth adapter. -/
def bareSetup : Setup := ⟨.phoneFirst, false, bytes "dwc3"⟩

/-- A session of the phone up to its wait for the accessory, and a START event. -/
def upToStart : List DaemonAction :=
  [.main true, .main true, .main true, .main true, .main true, .proxy true, .proxy true,
    .proxy true, .proxy true, .proxy true, .uevent startEvent]

/-- The switch is complete before the session ends. -/
theorem gadgets_left_alone_switched : LeftAlone ((daemon bareSetup).after daemonStart
    (upToStart ++ [.monitor, .monitor, .monitor, .monitor, .proxy true, .proxy false,
      .main true, .main true, .main true, .monitor])) :=
  (gadgets_left_alone_iff bareSetup _ (by decide)).mpr (by decide) _ (List.prefix_refl _)

/-- The wait times out while the handler pauses between its two writes; `main` cleans up
and then the handler enables the accessory gadget. -/
theorem gadget_enabled_after_cleanup : ∃ u run, (daemon u).Legal daemonStart run ∧
    ((daemon u).after daemonStart run).cleaned = true ∧
    ((daemon u).after daemonStart run).usb.enabled .accessory = true := by
  refine ⟨bareSetup, upToStart ++ [.monitor, .monitor, .proxy true, .main true, .main true,
    .main true, .monitor], ?_, ?_, ?_⟩ <;> decide

end Aawgd
