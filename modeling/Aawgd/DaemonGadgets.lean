import Aawgd.AccessoryCalls
import Aawgd.DaemonPromises

/-! What holds in every state of the daemon about who calls
`enableDefaultAndWaitForAccessory` when, and about the gadgets between sessions. -/
namespace Aawgd

/-- Who waits for the accessory when, and what is known after a wait and between
sessions. -/
structure Calling (u : Setup) (s : Daemon) : Prop where
  running : s.usb.call ≠ .idle → s.main = .waiting ∨ s.proxy = .waiting
  mainFirst : s.main = .waiting → u.strategy = .usbFirst
  proxyLater : s.proxy = .begin ∨ s.proxy = .waiting → u.strategy ≠ .usbFirst
  cleaned : s.cleaned = true → s.usb.call = .idle
  released : s.main = .disableAccessory → s.usb.udc .default = []

section calling
variable {u : Setup} {s s' : Daemon} {a : DaemonAction}

/-- A step of the call or of the monitor. -/
theorem Calling.usb (h : Calling u s) {usb : Usb}
    (hcall : usb.call ≠ .idle → s.usb.call ≠ .idle)
    (hreleased : s.main = .disableAccessory → usb.udc .default = []) :
    Calling u { s with usb := usb } where
  running hr := h.running (hcall hr)
  mainFirst := h.mainFirst
  proxyLater := h.proxyLater
  cleaned hc := by
    by_contra hr
    exact hcall hr (h.cleaned hc)
  released := hreleased

theorem Calling.step (hs : Scheduled u s.main s.proxy s.stop s.bt.retry) (h : Calling u s)
    (hstep : DaemonStep u s a s') : Calling u s' := by
  have hserving := hs.serving
  cases hstep with
  | mainWaits ok usb pc call =>
    have hcall := (Usb.callStep_cases call).running
    exact h.usb (fun _ => hcall) (by simp [pc])
  | proxyWaits ok usb pc call =>
    have hcall := (Usb.callStep_cases call).running
    have hmain := hserving (by simp [pc])
    apply h.usb (fun _ => hcall)
    intro hreleased
    simp [hreleased, MainPc.serving] at hmain
  | uevent env usb received =>
    obtain ⟨-, rfl⟩ := Usb.receive_eq received
    exact h.usb id h.released
  | monitor usb step =>
    obtain ⟨hcall, -, hkept⟩ := (Usb.monitorStep_cases step).frame
    exact h.usb (fun hr => hcall ▸ hr) fun hm => hkept (h.released hm)
  | mainReturns ok usb started pc call =>
    obtain ⟨rfl, -⟩ := (Usb.callStep_cases call).returned
    refine ⟨?_, ?_, h.proxyLater, fun _ => rfl, ?_⟩ <;> simp
  | proxyReturns ok usb started pc call =>
    obtain ⟨rfl, -⟩ := (Usb.callStep_cases call).returned
    have hlater := h.proxyLater (.inr pc)
    exact ⟨by simp, h.mainFirst, fun _ => hlater, fun _ => rfl, h.released⟩
  | powered ok bt next pc effect =>
    obtain ⟨hrunning, hmain, hproxy, hcleaned, hreleased⟩ := h
    cases pc with
    | inl pc => constructor <;> simp_all
    | inr pc => constructor <;> simp_all
  | proxyStop ok pc =>
    have hmain := hserving (by simp [pc])
    refine ⟨fun hr => ?_, h.mainFirst, fun hp hfirst => ?_, h.cleaned, h.released⟩
    · cases h.running hr with
      | inl hw => exact .inl hw
      | inr hw => simp [pc] at hw
    · simp [hfirst] at hp
  | proxyBegins ok pc =>
    have hmain := hserving (by simp [pc])
    have hlater := h.proxyLater (.inl pc)
    refine ⟨fun _ => .inr rfl, h.mainFirst, fun _ => hlater, by simp [Daemon.beginCall], fun hreleased => ?_⟩
    change s.main = .disableAccessory at hreleased
    simp [hreleased, MainPc.serving] at hmain
  | proxyAdvances ok next pc =>
    have hother : next ≠ .begin ∧ next ≠ .waiting ∧ s.proxy ≠ .waiting := by
      refine ⟨?_, ?_, ?_⟩ <;> intro hn <;> simp [hn] at pc
    refine ⟨fun hr => ?_, h.mainFirst, fun hp => ?_, h.cleaned, h.released⟩
    · exact .inl ((h.running hr).resolve_right hother.2.2)
    · exact absurd hp (not_or.mpr ⟨hother.1, hother.2.1⟩)
  | joinProxy ok pc ended =>
    have hcall : s.usb.call = .idle := by
      by_contra hr
      have hw := h.running hr
      simp [pc, ended] at hw
    refine ⟨fun hr => absurd hcall hr, ?_, by simp, fun _ => hcall, ?_⟩ <;> dsimp only <;>
      split <;> simp
  | disableDefault ok pc =>
    refine ⟨fun hr => ?_, by simp, h.proxyLater, h.cleaned, fun _ => ?_⟩
    · exact .inr ((h.running hr).resolve_left (by simp [pc]))
    · simp [Usb.disableGadget, Usb.writeGadgetFile]
  | disableAccessory ok pc =>
    have hcall : s.usb.call = .idle := by
      by_contra hr
      have hw := (h.running hr).resolve_left (by simp [pc])
      have hmain := hserving (by simp [hw])
      simp [pc, MainPc.serving] at hmain
    exact ⟨fun hr => absurd hcall hr, by simp, h.proxyLater, fun _ => hcall, by simp⟩
  | _ =>
    obtain ⟨hrunning, hmain, hproxy, hcleaned, hreleased⟩ := h
    constructor <;> simp_all [Daemon.beginCall, MainPc.serving]

/-- What the daemon does to its USB manager is a step of it. -/
theorem Calling.usbStep (hs : Scheduled u s.main s.proxy s.stop s.bt.retry) (h : Calling u s)
    (hstep : DaemonStep u s a s') :
    s'.usb = s.usb ∨ ∃ b, s.usb.Step u.udcName b s'.usb := by
  cases hstep with
  | waitFirst ok pc =>
    have hproxy := hs.idle (by simp [pc, MainPc.serving])
    have hidle : s.usb.call = .idle := by
      by_contra hr
      have hw := h.running hr
      simp [pc, hproxy] at hw
    exact .inr ⟨.begin, .begin hidle⟩
  | proxyBegins ok pc =>
    have hidle : s.usb.call = .idle := by
      by_contra hr
      have hw := (h.running hr).resolve_right (by simp [pc])
      exact h.proxyLater (.inl pc) (h.mainFirst hw)
    exact .inr ⟨.begin, .begin hidle⟩
  | mainWaits ok usb pc call | mainReturns ok usb started pc call =>
    exact .inr ⟨_, .call false _ _ (Usb.callStep_cases call)⟩
  | proxyWaits ok usb pc call | proxyReturns ok usb started pc call =>
    exact .inr ⟨_, .call true _ _ (Usb.callStep_cases call)⟩
  | disableDefault => exact .inr ⟨_, .disable .default⟩
  | disableAccessory => exact .inr ⟨_, .disable .accessory⟩
  | uevent env usb received => exact .inr ⟨_, .uevent env usb received⟩
  | monitor usb step => exact .inr ⟨_, .monitor usb step⟩
  | _ => exact .inl rfl

theorem Calling.start : Calling u daemonStart := by
  constructor <;> simp [daemonStart, Usb.start]

end calling

end Aawgd
