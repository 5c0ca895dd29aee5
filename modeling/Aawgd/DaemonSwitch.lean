import Aawgd.DaemonCleanup
import Aawgd.UsbMode

/-! The switch from the default to the accessory gadget in a run of the daemon: in which
orders of its threads' writes both gadgets can be enabled. -/
namespace Aawgd

/-- No wait for the accessory has begun since the gadgets were last disabled. -/
def Fresh (s : Daemon) : Prop := s.cleaned = true ∨ s.usb.calls = 0

/-- A session in which the wait for the accessory is still to come. -/
def Beginning (u : Setup) (s : Daemon) : Prop :=
  s.main = .init ∨ s.main = .top ∨ s.main = .pause ∨ u.strategy ≠ .usbFirst ∧
    (s.main = .server ∨ s.proxy = .accept ∨ s.proxy = .stop ∨ s.proxy = .begin)

/-- `enableDefaultAndWaitForAccessory` has just returned true. -/
def Returned (u : Setup) (s : Daemon) : Prop :=
  if u.strategy = .usbFirst then s.main = .server else s.proxy = .openUsb

/-- The gadgets follow the last call and its handler. -/
structure Tracked (u : Setup) (s : Daemon) : Prop where
  quiet : Fresh s → s.usb.Quiet
  own : s.usb.monitor.switching = true → s.usb.monitor.held? = some s.usb.calls
  settled : ¬ Fresh s → s.main ≠ .disableAccessory → s.usb.Settled u.udcName

/-- A call enables the default gadget before its handler has written anything. -/
def EnabledFirst (s : Daemon) : DaemonAction → Prop
  | .main _ => s.main = .waiting → s.usb.call = .enable → s.usb.Untouched
  | .proxy _ => s.proxy = .waiting → s.usb.call = .enable → s.usb.Untouched
  | _ => True

instance decidableEnabledFirst (s : Daemon) : (a : DaemonAction) → Decidable (EnabledFirst s a)
  | .main _ | .proxy _ => inferInstanceAs (Decidable (_ → _ → _))
  | .retry | .uevent _ | .monitor => .isTrue trivial

section tracked
variable {u : Setup} {s s' : Daemon} {a : DaemonAction}

theorem Tracked.same (h : Tracked u s) (husb : s'.usb = s.usb) (hcleaned : s'.cleaned = s.cleaned)
    (hmain : s'.main = .disableAccessory ∨ s.main ≠ .disableAccessory) : Tracked u s' := by
  have hfresh : Fresh s' ↔ Fresh s := by simp [Fresh, husb, hcleaned]
  refine ⟨fun hf => husb ▸ h.quiet (hfresh.mp hf), husb ▸ h.own, fun hf hm => ?_⟩
  exact husb ▸ h.settled (mt hfresh.mpr hf) (hmain.resolve_left hm)

theorem Tracked.begin (h : Tracked u s) (hh : Handled s.usb) (hfresh : Fresh s)
    (husb : s'.usb = s.usb.beginCall) (hcleaned : s'.cleaned = false) : Tracked u s' := by
  have hquiet := h.quiet hfresh
  refine ⟨fun hf => ?_, fun hs => ?_, fun _ _ => husb ▸ .begin hquiet hh⟩
  · simp [Fresh, husb, hcleaned, Usb.beginCall] at hf
  · rw [husb] at hs
    cases hs.symm.trans hquiet.2

theorem Tracked.call {timeout : Bool} {value : Option Bool} {usb : Usb} (h : Tracked u s)
    (hfresh : ¬ Fresh s) (hmain : s.main ≠ .disableAccessory)
    (hok : s.usb.call = .enable → s.usb.Untouched)
    (hstep : s.usb.CallStep u.udcName timeout usb value) (husb : s'.usb = usb)
    (hcleaned : s'.cleaned = s.cleaned) : Tracked u s' := by
  have hkept : usb.calls = s.usb.calls ∧ usb.monitor = s.usb.monitor := by
    cases hstep <;> exact ⟨rfl, rfl⟩
  refine ⟨fun hf => absurd ?_ hfresh, ?_, fun _ _ => ?_⟩
  · simpa [Fresh, husb, hcleaned, hkept] using hf
  · simpa [husb, hkept] using h.own
  · exact husb ▸ (h.settled hfresh hmain).call hok hstep

theorem Tracked.receive {usb : Usb} {env : UeventEnv} (h : Tracked u s)
    (hreceived : s.usb.receive env = some usb) : Tracked u { s with usb := usb } := by
  obtain ⟨hpc, rfl⟩ := Usb.receive_eq hreceived
  refine ⟨fun hf => ⟨(h.quiet hf).1, rfl⟩, nofun, fun hf hm => ?_⟩
  refine (h.settled hf hm).of_mode rfl ?_
  simp [Usb.mode, hpc, MonitorPc.fulfilling?, MonitorPc.engaging?]

theorem Tracked.monitor {usb : Usb} (h : Tracked u s) (hcall : Fresh s → s.usb.call = .idle)
    (hstep : s.usb.MonitorStep u.udcName usb) : Tracked u { s with usb := usb } := by
  obtain ⟨-, hcalls, -⟩ := hstep.frame
  have hfresh : Fresh { s with usb := usb } ↔ Fresh s := by simp [Fresh, hcalls]
  refine ⟨fun hf => ?_, fun hs => ?_, fun hf hm => ?_⟩
  · exact (h.quiet (hfresh.mp hf)).monitor (hcall (hfresh.mp hf)) hstep
  · cases hstep with
    | accepted env k pc hmem hverdict =>
      obtain ⟨hk, -⟩ := Usb.alive_iff.mp (Usb.alive_of_accepted hverdict)
      exact congrArg some hk
    | release env k pc =>
      have hheld := h.own (by simp [pc, MonitorPc.switching])
      rwa [pc] at hheld
    | _ => cases hs
  · exact (h.settled (mt hfresh.mpr hf) hm).monitor h.own hstep

theorem fresh_idle (ht : Tidy u s) (h : Fresh s) : s.usb.call = .idle := by
  cases h with
  | inl hcleaned => exact ht.calling.cleaned hcleaned
  | inr hcalls =>
    by_contra hrunning
    exact ht.listed.handled.counted hrunning hcalls

theorem Beginning.of_serving (h : Beginning u s) (hserving : s.main.serving) :
    u.strategy ≠ .usbFirst ∧ (s.proxy = .accept ∨ s.proxy = .stop ∨ s.proxy = .begin) := by
  cases hserving with
  | inl hm => simpa [Beginning, hm] using h
  | inr hm => cases hm <;> simp_all [Beginning]

/-- A wait begins only after the gadgets were disabled. -/
theorem Beginning.step (ht : Tidy u s) (h : Beginning u s → Fresh s)
    (hstep : DaemonStep u s a s') : Beginning u s' → Fresh s' := by
  have hserving := ht.retrying.scheduled.serving
  have hfirst := ht.calling.mainFirst
  intro hbegin
  cases hstep with
  | disableAccessory => exact .inl rfl
  | uevent env usb received =>
    obtain ⟨-, rfl⟩ := Usb.receive_eq received
    exact h hbegin
  | monitor usb step =>
    obtain ⟨-, hcalls, -⟩ := (Usb.monitorStep_cases step).frame
    simpa [Fresh, hcalls] using h hbegin
  | powered ok bt next pc =>
    apply h
    cases pc with
    | inl pc => exact .inl pc.1
    | inr pc => simp_all [Beginning]
  | waitFirst ok pc first => simp [Beginning, first] at hbegin
  | mainWaits ok usb pc | mainReturns ok usb started pc => simp [Beginning, hfirst pc, pc] at hbegin
  | proxyStop ok pc =>
    obtain ⟨hlater, -⟩ := hbegin.of_serving (hserving (by simp [pc]))
    exact h (.inr (.inr (.inr ⟨hlater, .inr (.inr (.inl pc))⟩)))
  | proxyBegins ok pc | proxyWaits ok usb pc =>
    have hnot := hbegin.of_serving (hserving (by simp [pc]))
    simp [pc] at hnot
  | proxyReturns ok usb started pc =>
    have hnot := hbegin.of_serving (hserving (by simp [pc]))
    cases started <;> simp at hnot
  | proxyAdvances ok next pc =>
    have hbusy : s.proxy ≠ .idle := by
      intro hidle
      simp [hidle] at pc
    obtain ⟨hlater, hnext⟩ := hbegin.of_serving (hserving hbusy)
    have haccept : s.proxy = .accept := by
      cases hnext with
      | inl hn => simp_all
      | inr hn => cases hn <;> simp_all
    exact h (.inr (.inr (.inr ⟨hlater, .inr (.inl haccept)⟩)))
  | joinProxy ok pc ended => cases hadapter : u.adapter <;> simp [Beginning, hadapter] at hbegin
  | retry => exact h hbegin
  | connect ok pc => exact h (by simpa [Beginning, pc] using hbegin)
  | waitLater ok pc | serve pc | giveUp pc | pause ok pc =>
    simp_all [Beginning, Fresh, MainPc.serving]
  | mainStop ok pc | joinRetry ok pc | disableDefault ok pc =>
    have hidle : s.proxy = .idle := by simpa [pc, MainPc.serving] using hserving
    simp [Beginning, hidle] at hbegin

theorem Returned.step (ht : Tidy u s)
    (h : Returned u s → s.usb.setCalls s.usb.calls ≠ 0 ∧ ¬ Fresh s) (hstep : DaemonStep u s a s') :
    Returned u s' → s'.usb.setCalls s'.usb.calls ≠ 0 ∧ ¬ Fresh s' := by
  have hserving := ht.retrying.scheduled.serving
  have hmainFirst := ht.calling.mainFirst
  have hproxyLater := ht.calling.proxyLater
  intro hreturned
  cases hstep with
  | mainReturns ok usb started pc call =>
    obtain ⟨rfl, hvalue, hlimit⟩ := (Usb.callStep_cases call).returned
    have hold : ¬ Fresh s := mt (fresh_idle ht) (Usb.callStep_cases call).running
    exact ⟨hvalue.mp (hlimit.resolve_right nofun), hold⟩
  | proxyReturns ok usb started pc call =>
    obtain ⟨rfl, hvalue, -⟩ := (Usb.callStep_cases call).returned
    have hold : ¬ Fresh s := mt (fresh_idle ht) (Usb.callStep_cases call).running
    have hstarted : started = true := by simpa [Returned, hproxyLater (.inr pc)] using hreturned
    exact ⟨hvalue.mp hstarted, hold⟩
  | uevent env usb received =>
    obtain ⟨-, rfl⟩ := Usb.receive_eq received
    exact h hreturned
  | monitor usb step =>
    have hstep := Usb.monitorStep_cases step
    obtain ⟨-, hcalls, -⟩ := hstep.frame
    obtain ⟨hset, hfresh⟩ := h hreturned
    simp only [hcalls]
    exact ⟨hstep.keeps hset, by simpa [Fresh, hcalls] using hfresh⟩
  | powered ok bt next pc =>
    by_cases hfirst : u.strategy = .usbFirst
    · cases pc <;> simp_all [Returned]
    · exact h (by simpa [Returned, hfirst] using hreturned)
  | proxyAdvances ok next pc =>
    by_cases hfirst : u.strategy = .usbFirst
    · exact h (by simpa [Returned, hfirst] using hreturned)
    · simp_all [Returned]
  | joinProxy => cases hadapter : u.adapter <;> simp [Returned, hadapter] at hreturned
  | _ =>
    by_cases hfirst : u.strategy = .usbFirst <;> simp_all [Returned, Fresh, MainPc.serving]

theorem Tracked.step (ht : Tidy u s) (hbegin : Beginning u s → Fresh s) (h : Tracked u s)
    (hover : SwitchOver s a) (hfirst : EnabledFirst s a)
    (hstep : DaemonStep u s a s') : Tracked u s' := by
  have hnew := fun hrunning => mt (fresh_idle ht) hrunning
  have hended : s.main = .disableAccessory → s.proxy = .idle := by
    intro hmain
    exact ht.retrying.scheduled.idle (by simp [hmain, MainPc.serving])
  cases hstep with
  | waitFirst ok pc => exact h.begin ht.listed.handled (hbegin (.inr (.inl pc))) rfl rfl
  | proxyBegins ok pc =>
    have hfresh := hbegin (.inr (.inr (.inr ⟨ht.calling.proxyLater (.inl pc), by simp [pc]⟩)))
    exact h.begin ht.listed.handled hfresh rfl rfl
  | mainWaits ok usb pc call | mainReturns ok usb started pc call =>
    have hcall := Usb.callStep_cases call
    exact h.call (hnew hcall.running) (by simp [pc]) (hfirst pc) hcall rfl rfl
  | proxyWaits ok usb pc call | proxyReturns ok usb started pc call =>
    have hcall := Usb.callStep_cases call
    have hmain : s.main ≠ .disableAccessory := fun hm => by simp [hended hm] at pc
    exact h.call (hnew hcall.running) hmain (hfirst pc) hcall rfl rfl
  | disableDefault ok pc =>
    exact ⟨fun hf => (h.quiet hf).disable .default, h.own, fun _ hmain => absurd rfl hmain⟩
  | disableAccessory ok pc =>
    have hquiet := Usb.quiet_of_released (ht.calling.released pc) (hover pc)
    exact ⟨fun _ => hquiet, h.own, fun hf => absurd (.inl rfl) hf⟩
  | uevent env usb received => exact h.receive received
  | monitor usb step => exact h.monitor (fresh_idle ht) (Usb.monitorStep_cases step)
  | powered ok bt next pc =>
    refine h.same rfl rfl (.inr ?_)
    cases pc <;> simp_all
  | proxyStop | proxyAdvances | retry => exact h.same rfl rfl (Decidable.em _)
  | _ => exact h.same rfl rfl (by simp_all)

structure Switching (u : Setup) (s : Daemon) : Prop where
  tidy : Tidy u s
  fresh : Beginning u s → Fresh s
  returned : Returned u s → s.usb.setCalls s.usb.calls ≠ 0 ∧ ¬ Fresh s
  tracked : Tracked u s

theorem Switching.step (h : Switching u s) (hover : SwitchOver s a) (hfirst : EnabledFirst s a)
    (hstep : DaemonStep u s a s') : Switching u s' where
  tidy := h.tidy.step hstep
  fresh := Beginning.step h.tidy h.fresh hstep
  returned := Returned.step h.tidy h.returned hstep
  tracked := h.tracked.step h.tidy h.fresh hover hfirst hstep

theorem Switching.start : Switching u daemonStart where
  tidy := Tidy.start
  fresh _ := .inr rfl
  returned hr := by
    unfold Returned at hr
    split at hr <;> cases hr
  tracked := ⟨fun _ => ⟨fun _ => rfl, rfl⟩, nofun, fun hf => absurd (.inr rfl) hf⟩

end tracked

/-- At most one gadget is enabled, and after a successful wait it is the accessory. -/
structure Exclusive (u : Setup) (s : Daemon) : Prop where
  apart : ¬ (s.usb.enabled .default = true ∧ s.usb.enabled .accessory = true)
  returned : Returned u s → s.usb.enabled .accessory = true ∧ s.usb.enabled .default = false

theorem Switching.exclusive {u : Setup} {s : Daemon} (h : Switching u s) (hname : u.udcName ≠ []) :
    Exclusive u s where
  apart := by
    intro hboth
    obtain ⟨hdefault, haccessory⟩ := hboth
    by_cases hfresh : Fresh s
    · have hempty := (h.tracked.quiet hfresh).1 .default
      simp [Usb.enabled, hempty] at hdefault
    by_cases hmain : s.main = .disableAccessory
    · have hempty := h.tidy.calling.released hmain
      simp [Usb.enabled, hempty] at hdefault
    have hsettled := h.tracked.settled hfresh hmain
    have hmode := (hsettled.mode_of_enabled hdefault).symm.trans
      (hsettled.mode_of_enabled haccessory)
    cases hmode
  returned hr := by
    obtain ⟨hset, hfresh⟩ := h.returned hr
    have hmain : s.main ≠ .disableAccessory := by
      intro hm
      have hidle := h.tidy.retrying.scheduled.idle (by simp [hm, MainPc.serving])
      unfold Returned at hr
      split at hr
      · cases hm.symm.trans hr
      · cases hidle.symm.trans hr
    have hsettled := h.tracked.settled hfresh hmain
    have hmode : s.usb.mode = some .accessory := by simp [Usb.mode, hset]
    simp [Usb.enabled, hsettled .accessory, hsettled .default, hmode, hname]

/-- In a run in which no handler is inside the switch at a cleanup and each call enables
the default gadget before its handler writes, the gadgets exclude each other. -/
theorem gadgets_exclusive (u : Setup) (run : List DaemonAction) (hname : u.udcName ≠ [])
    (hlegal : (daemon u).Legal daemonStart run)
    (horder : (daemon u).Meets (fun s a => SwitchOver s a ∧ EnabledFirst s a) daemonStart run) :
    Exclusive u ((daemon u).after daemonStart run) := by
  have hrun : Switching u ((daemon u).after daemonStart run) := by
    refine GuardedSystem.invariant ?_ Switching.start hlegal horder
    intro s a h hguard hok
    exact h.step hok.1 hok.2 (daemon_step hguard)
  exact hrun.exclusive hname

/-- The accessory starts, and the wait returns. -/
theorem gadgets_exclusive_returned :
    Exclusive bareSetup ((daemon bareSetup).after daemonStart
      (upToStart ++ [.monitor, .monitor, .monitor, .monitor, .proxy true])) :=
  gadgets_exclusive bareSetup _ (by decide) (by decide) (by decide)

/-- The wait times out while the handler pauses between its two writes. It enables the
accessory gadget after the cleanup, and the next session the default gadget. -/
theorem gadgets_both_enabled : ∃ u run, u.udcName ≠ [] ∧ (daemon u).Legal daemonStart run ∧
    ¬ Exclusive u ((daemon u).after daemonStart run) := by
  refine ⟨bareSetup, upToStart ++ [.monitor, .monitor, .proxy true, .main true, .main true,
    .main true, .monitor, .main true, .main true, .main true, .proxy true, .proxy true,
    .proxy true, .proxy true, .proxy true], ?_, ?_, ?_⟩
  · decide
  · decide
  · intro h
    exact h.apart (by decide)

end Aawgd
