import Aawgd.DaemonGadgets

/-! The daemon when the uevent monitor could not be started: `main` goes on without its
thread, so that no accessory ever comes and the handlers of all calls stay. -/
namespace Aawgd
open GuardedSystem

/-- `UeventMonitor::start`, by the outcomes of its three calls: whether there is a thread. -/
def monitorStart (socket bind setsockopt : Bool) : Bool :=
  if socket = false then false
  else if bind = false then false
  else if setsockopt = false then false
  else true

def DaemonAction.ofMonitor : DaemonAction → Bool
  | .uevent _ | .monitor => true
  | .main _ | .proxy _ | .retry => false

/-- The daemon with or without the thread of the monitor. -/
def daemonWith (monitored : Bool) (u : Setup) : GuardedSystem Daemon DaemonAction where
  init := daemonStart
  guard s a := (daemon u).guard s a ∧ (monitored = true ∨ a.ofMonitor = false)
  effect := (daemon u).effect

instance decidableDaemonWithGuard (monitored : Bool) (u : Setup) (s : Daemon) (a : DaemonAction) :
    Decidable ((daemonWith monitored u).guard s a) :=
  inferInstanceAs (Decidable ((daemon u).guard s a ∧ (monitored = true ∨ a.ofMonitor = false)))

def ProxyPc.onAccessory : ProxyPc → Bool
  | .openUsb | .configure | .forwarding => true
  | .idle | .accept | .stop | .begin | .waiting | .finished => false

/-- The handlers of all calls but one that has just begun. -/
def HandlersKept (usb : Usb) : Prop :=
  usb.handlers.toList.length + (if usb.call = .add then 1 else 0) = usb.calls

/-- `main` has not come behind its first wait. -/
def MainPc.beforeServer : MainPc → Bool
  | .init | .top | .waiting => true
  | _ => false

theorem beforeServer_of_serving {main : MainPc} (h : main.serving) : main.beforeServer = false := by
  obtain rfl | rfl | rfl := h <;> rfl

structure Unserved (u : Setup) (s : Daemon) : Prop where
  unset : ∀ k, s.usb.setCalls k = 0
  disabled : s.usb.udc .accessory = []
  kept : HandlersKept s.usb
  first : u.strategy = .usbFirst → s.main.beforeServer = true
  away : s.proxy.onAccessory = false

section unserved
variable {u : Setup} {s s' : Daemon} {a : DaemonAction}

theorem Unserved.start : Unserved u daemonStart where
  unset _ := rfl
  disabled := rfl
  kept := rfl
  first _ := rfl
  away := rfl

/-- A step of the running call, which does not return successfully. -/
theorem Unserved.call (h : Unserved u s) {timeout : Bool} {usb : Usb} {value : Option Bool}
    (hstep : s.usb.CallStep u.udcName timeout usb value) :
    Unserved u { s with usb := usb } ∧ (value = none ∨ value = some false ∧ timeout = true) := by
  have hkept := h.kept
  cases hstep with
  | add pc =>
    refine ⟨⟨h.unset, h.disabled, ?_, h.first, h.away⟩, .inl rfl⟩
    simpa [HandlersKept, pc] using hkept
  | enable pc =>
    refine ⟨⟨h.unset, ?_, ?_, h.first, h.away⟩, .inl rfl⟩
    · simpa [Usb.enableGadget, Usb.writeGadgetFile] using h.disabled
    · simpa [HandlersKept, pc, Usb.enableGadget, Usb.writeGadgetFile] using hkept
  | ready pc set => exact absurd (h.unset _) set
  | timedOut pc unset limited =>
    refine ⟨⟨h.unset, h.disabled, ?_, h.first, h.away⟩, .inr ⟨rfl, limited⟩⟩
    simpa [HandlersKept, pc] using hkept

/-- A call begins when none is running. -/
theorem HandlersKept.beginCall {usb : Usb} (h : HandlersKept usb) (hidle : usb.call = .idle) :
    HandlersKept usb.beginCall := by
  unfold HandlersKept at *
  simpa [hidle, Usb.beginCall] using h

theorem HandlersKept.disableGadget {usb : Usb} (h : HandlersKept usb) (g : Gadget) :
    HandlersKept (usb.disableGadget g) := h

theorem Unserved.step (hs : Scheduled u s.main s.proxy s.stop s.bt.retry) (hc : Calling u s)
    (h : Unserved u s) (hstep : DaemonStep u s a s') (hmonitor : a.ofMonitor = false) :
    Unserved u s' := by
  have hlater : s.main.beforeServer = false → u.strategy ≠ .usbFirst := by
    intro hmain hfirst
    rw [h.first hfirst] at hmain
    cases hmain
  cases hstep with
  | uevent | monitor => cases hmonitor
  | mainWaits ok usb pc call | proxyWaits ok usb pc call =>
    exact (h.call (Usb.callStep_cases call)).1
  | mainReturns ok usb started pc call =>
    obtain hnone | ⟨-, htimeout⟩ := (h.call (Usb.callStep_cases call)).2
    · cases hnone
    · cases htimeout
  | proxyReturns ok usb started pc call =>
    obtain ⟨hnext, hvalue⟩ := h.call (Usb.callStep_cases call)
    obtain rfl : started = false := by simpa using hvalue
    exact ⟨hnext.unset, hnext.disabled, hnext.kept, hnext.first, rfl⟩
  | powered ok bt next pc =>
    refine ⟨h.unset, h.disabled, h.kept, fun hfirst => ?_, h.away⟩
    obtain ⟨-, rfl⟩ | ⟨hmain, -⟩ := pc
    · rfl
    · exact absurd hfirst (hlater (by rw [hmain]; rfl))
  | waitFirst ok pc hfirst =>
    have hidle : s.usb.call = .idle := by
      by_contra hr
      obtain hmain | hproxy := hc.running hr
      · simp [pc] at hmain
      · exact hc.proxyLater (.inr hproxy) hfirst
    exact ⟨h.unset, h.disabled, h.kept.beginCall hidle, fun _ => rfl, h.away⟩
  | waitLater ok pc later =>
    exact ⟨h.unset, h.disabled, h.kept, fun hfirst => absurd hfirst later, h.away⟩
  | serve pc =>
    exact ⟨h.unset, h.disabled, h.kept, fun hfirst => absurd hfirst (hlater (pc ▸ rfl)), rfl⟩
  | giveUp pc | connect ok pc | mainStop ok pc | joinRetry ok pc =>
    exact ⟨h.unset, h.disabled, h.kept, fun hfirst => absurd hfirst (hlater (pc ▸ rfl)), h.away⟩
  | joinProxy ok pc ended =>
    exact ⟨h.unset, h.disabled, h.kept, fun hfirst => absurd hfirst (hlater (pc ▸ rfl)), rfl⟩
  | pause ok pc => exact ⟨h.unset, h.disabled, h.kept, fun _ => rfl, h.away⟩
  | disableDefault ok pc =>
    have hdisabled : (s.usb.disableGadget .default).udc .accessory = [] := by
      simpa [Usb.disableGadget, Usb.writeGadgetFile] using h.disabled
    exact ⟨h.unset, hdisabled, h.kept.disableGadget _,
      fun hfirst => absurd hfirst (hlater (pc ▸ rfl)), h.away⟩
  | disableAccessory ok pc =>
    have hdisabled : (s.usb.disableGadget .accessory).udc .accessory = [] := by
      simp [Usb.disableGadget, Usb.writeGadgetFile]
    exact ⟨h.unset, hdisabled, h.kept.disableGadget _,
      fun hfirst => absurd hfirst (hlater (pc ▸ rfl)), h.away⟩
  | proxyStop ok pc =>
    have hstrategy := hlater (beforeServer_of_serving (hs.serving (by simp [pc])))
    refine ⟨h.unset, h.disabled, h.kept, h.first, ?_⟩
    rw [if_neg hstrategy]
    rfl
  | proxyBegins ok pc =>
    have hmain := beforeServer_of_serving (hs.serving (by simp [pc]))
    have hidle : s.usb.call = .idle := by
      by_contra hr
      obtain hwaiting | hproxy := hc.running hr
      · rw [hwaiting] at hmain
        cases hmain
      · simp [pc] at hproxy
    exact ⟨h.unset, h.disabled, h.kept.beginCall hidle, h.first, rfl⟩
  | proxyAdvances ok next pc =>
    refine ⟨h.unset, h.disabled, h.kept, h.first, ?_⟩
    have haway := h.away
    obtain ⟨-, rfl⟩ | ⟨hproxy, -⟩ | ⟨hproxy, -⟩ | ⟨-, rfl⟩ := pc
    · rfl
    · simp [hproxy, ProxyPc.onAccessory] at haway
    · simp [hproxy, ProxyPc.onAccessory] at haway
    · rfl
  | retry bt attempts step => exact ⟨h.unset, h.disabled, h.kept, h.first, h.away⟩

/-- The statements `main` has left before it waits for good. -/
def untilWait (s : Daemon) : Nat :=
  match s.main, s.usb.call with
  | .init, _ => 4
  | .top, _ => 3
  | .waiting, .add => 2
  | .waiting, .enable => 1
  | _, _ => 0

/-- With the accessory first no other thread comes into being, and `main` comes to its wait. -/
theorem untilWait_step (hs : Scheduled u s.main s.proxy s.stop s.bt.retry) (h : Unserved u s)
    (hfirst : u.strategy = .usbFirst) (hstep : DaemonStep u s a s')
    (hmonitor : a.ofMonitor = false) : untilWait s' < untilWait s := by
  have hbefore := h.first hfirst
  have hserving : ¬ s.main.serving := by
    intro hserving
    rw [beforeServer_of_serving hserving] at hbefore
    cases hbefore
  have hproxy := hs.idle hserving
  cases hstep with
  | uevent | monitor => cases hmonitor
  | powered ok bt next pc =>
    obtain ⟨hmain, rfl⟩ | ⟨hmain, -⟩ := pc
    · simp [untilWait, hmain]
    · simp [hmain, MainPc.beforeServer] at hbefore
  | waitFirst ok pc => simp [untilWait, pc, Daemon.beginCall, Usb.beginCall]
  | waitLater ok pc later => exact absurd hfirst later
  | mainWaits ok usb pc call =>
    cases Usb.callStep_cases call with
    | add hc | enable hc => simp [untilWait, pc, hc]
  | mainReturns ok usb started pc call =>
    obtain hnone | ⟨-, htimeout⟩ := (h.call (Usb.callStep_cases call)).2
    · cases hnone
    · cases htimeout
  | serve pc | giveUp pc | connect ok pc | joinProxy ok pc | mainStop ok pc | joinRetry ok pc
  | disableDefault ok pc | disableAccessory ok pc | pause ok pc =>
    simp [pc, MainPc.beforeServer] at hbefore
  | proxyStop ok pc | proxyBegins ok pc | proxyWaits ok usb pc | proxyReturns ok usb started pc =>
    rw [hproxy] at pc
    cases pc
  | proxyAdvances ok next pc => simp [hproxy] at pc
  | retry bt attempts step =>
    have hretry : s.bt.retry = .idle := by
      by_contra hr
      obtain ⟨-, (hmain | hmain) | hmain⟩ := hs.retrying hr <;>
        simp [hmain, MainPc.beforeServer] at hbefore
    simp [Bluetooth.retryStep, hretry] at step

end unserved

/-- What holds all along a run without the monitor. -/
structure Unmonitored (u : Setup) (s : Daemon) : Prop where
  scheduled : Scheduled u s.main s.proxy s.stop s.bt.retry
  calling : Calling u s
  unserved : Unserved u s

theorem Unmonitored.start {u : Setup} : Unmonitored u daemonStart :=
  ⟨Retrying.start.scheduled, .start, .start⟩

theorem Unmonitored.step {u : Setup} {s : Daemon} {a : DaemonAction} (h : Unmonitored u s)
    (hguard : (daemonWith false u).guard s a) :
    Unmonitored u ((daemonWith false u).effect s a) := by
  have hstep := daemon_step hguard.1
  have hmonitor := hguard.2.resolve_left (by simp)
  exact ⟨h.scheduled.step hstep, h.calling.step h.scheduled hstep,
    h.unserved.step h.scheduled h.calling hstep hmonitor⟩

/-- When any call of `UeventMonitor::start` fails the daemon goes on without the monitor, in
every run: no promise is ever set and the accessory gadget never bound, no session gets as far
as opening the accessory device, the handler of every call stays registered, and with the
accessory first `main` makes four more steps and then waits for good. -/
theorem monitor_missing (u : Setup) (socket bind setsockopt : Bool)
    (hfail : ¬ (socket = true ∧ bind = true ∧ setsockopt = true)) (run : List DaemonAction)
    (hlegal : (daemonWith (monitorStart socket bind setsockopt) u).Legal daemonStart run) :
    let s := (daemonWith (monitorStart socket bind setsockopt) u).after daemonStart run
    (∀ k, s.usb.setCalls k = 0) ∧ s.usb.udc .accessory = [] ∧ s.proxy.onAccessory = false ∧
      HandlersKept s.usb ∧ (u.strategy = .usbFirst → run.length ≤ 4) := by
  have hnone : monitorStart socket bind setsockopt = false := by
    revert hfail
    cases socket <;> cases bind <;> cases setsockopt <;> decide
  rw [hnone] at hlegal ⊢
  intro s
  have h : Unmonitored u s := invariant_all (fun _ _ hs hguard => hs.step hguard) .start hlegal
  refine ⟨h.unserved.unset, h.unserved.disabled, h.unserved.away, h.unserved.kept, fun hfirst => ?_⟩
  let Worth (n : Nat) (s : Daemon) : Prop := Unmonitored u s ∧ untilWait s = n
  have hworth : ∀ n s a, Worth n s → (daemonWith false u).guard s a →
      ∃ m, m < n ∧ Worth m ((daemonWith false u).effect s a) := by
    rintro n s a ⟨hs, rfl⟩ hguard
    have hmonitor := hguard.2.resolve_left (by simp)
    exact ⟨_, untilWait_step hs.scheduled hs.unserved hfirst (daemon_step hguard.1) hmonitor,
      hs.step hguard, rfl⟩
  have hstart : Worth 4 daemonStart := ⟨.start, rfl⟩
  exact length_le hworth hstart hlegal

theorem monitor_missing_unbound :
    (daemonWith (monitorStart true false true) ⟨.usbFirst, true, bytes "dwc3"⟩).Legal daemonStart
        (List.replicate 4 (.main true)) ∧
      ((daemonWith (monitorStart true false true) ⟨.usbFirst, true, bytes "dwc3"⟩).after daemonStart
        (List.replicate 4 (.main true))).proxy.onAccessory = false := by
  have hlegal : (daemonWith (monitorStart true false true) ⟨.usbFirst, true, bytes "dwc3"⟩).Legal
      daemonStart (List.replicate 4 (.main true)) := by decide +kernel
  exact ⟨hlegal, (monitor_missing ⟨.usbFirst, true, bytes "dwc3"⟩ true false true (by decide) _
    hlegal).2.2.1⟩

end Aawgd
