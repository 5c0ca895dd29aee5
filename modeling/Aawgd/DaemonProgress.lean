import Aawgd.DaemonAccessory
import Mathlib.Algebra.Order.Ring.Nat

/-! The daemon goes on: in every state some thread can make a step, and what the threads do is
bounded by the sessions and by the waits of the retry loop that have timed out. -/
namespace Aawgd
open GuardedSystem

/-! Which threads there are -/

/-- The threads and calls that the pcs of `main` and of the proxy speak of exist. -/
structure Attended (u : Setup) (s : Daemon) : Prop where
  served : s.main.serving → s.proxy ≠ .idle
  called : s.main = .waiting ∨ s.proxy = .waiting → s.usb.call ≠ .idle
  adapter : s.main = .stop ∨ s.main = .joinRetry → u.adapter = true
  retried : u.adapter = true → s.main.connected ∨ s.main = .joinRetry → s.bt.retry ≠ .idle

section attended
variable {u : Setup} {s s' : Daemon} {a : DaemonAction}

theorem Attended.start : Attended u daemonStart := by
  constructor <;> simp [daemonStart, MainPc.serving, MainPc.connected]

/-- The retry thread ends as finished, never as absent. -/
theorem retryStep_ne_idle {strategy : ConnectionStrategy} {b b' : Bluetooth}
    (h : b.RetryStep strategy b') : b'.retry ≠ .idle := by
  have hround : ∀ n retried, roundStart strategy n retried ≠ .idle := by
    intro n retried
    obtain hr | hr := roundStart_cases strategy n retried <;> simp [hr]
  have hafter : afterLoop strategy ≠ .idle := by
    unfold afterLoop
    split <;> simp
  cases h with
  | lost pc => simp [pc]
  | start k pc =>
    dsimp only
    split
    · simp
    · exact hround _ _
  | adapter b' next pc =>
    obtain ⟨-, rfl⟩ | ⟨-, rfl⟩ | ⟨-, rfl⟩ := pc
    · simp
    · exact hround _ _
    · simp
  | told next pc =>
    obtain ⟨-, rfl⟩ | ⟨-, rfl⟩ := pc
    · exact hafter
    · simp
  | timedOut n => exact hround _ _
  | connect => simp
  | clear => exact hafter

theorem Attended.step (hc : Calling u s) (h : Attended u s) (hstep : DaemonStep u s a s') :
    Attended u s' := by
  obtain ⟨hserved, hcalled, hadapter, hretried⟩ := h
  cases hstep with
  | uevent env usb received =>
    obtain ⟨-, rfl⟩ := Usb.receive_eq received
    exact ⟨hserved, hcalled, hadapter, hretried⟩
  | monitor usb step =>
    have hcall := (Usb.monitorStep_cases step).frame.1
    exact ⟨hserved, fun hw => hcall ▸ hcalled hw, hadapter, hretried⟩
  | retry bt attempts step =>
    exact ⟨hserved, hcalled, hadapter,
      fun _ _ => retryStep_ne_idle (Bluetooth.retryStep_cases step)⟩
  | mainWaits ok usb pc call | proxyWaits ok usb pc call =>
    refine ⟨hserved, fun _ => ?_, hadapter, hretried⟩
    cases Usb.callStep_cases call with
    | add | enable => simp
  | mainReturns ok usb started pc call =>
    have hproxy : s.proxy ≠ .waiting := fun hp => hc.proxyLater (.inr hp) (hc.mainFirst pc)
    refine ⟨by simp [MainPc.serving], fun hw => ?_, by simp, by simp [MainPc.connected]⟩
    exact absurd hw (by simp [hproxy])
  | proxyReturns ok usb started pc call =>
    have hmain : s.main ≠ .waiting := fun hm => hc.proxyLater (.inr pc) (hc.mainFirst hm)
    refine ⟨fun _ => ?_, fun hw => ?_, hadapter, hretried⟩
    · dsimp only
      split <;> simp
    · exfalso
      obtain hw | hw := hw
      · exact hmain hw
      · dsimp only at hw
        split at hw <;> cases hw
  | powered ok bt next pc effect =>
    obtain ⟨-, rfl⟩ | ⟨hpc, rfl⟩ := pc
    · exact ⟨by simp [MainPc.serving], fun hw => hcalled (.inr (by simpa using hw)), by simp,
        by simp [MainPc.connected]⟩
    · exact ⟨fun _ => hserved (.inl hpc), fun hw => hcalled (.inr (by simpa using hw)), by simp,
        by simp [MainPc.connected]⟩
  | waitFirst | waitLater | serve | giveUp | joinRetry | disableDefault | disableAccessory
  | pause =>
    constructor <;> simp_all [MainPc.serving, MainPc.connected, Daemon.beginCall, Usb.beginCall,
      Usb.disableGadget, Usb.writeGadgetFile]
  | connect ok pc =>
    refine ⟨fun _ => hserved (.inr (.inl pc)), fun hw => hcalled (.inr (by simpa using hw)),
      by simp, fun hadapter _ => ?_⟩
    simp [Bluetooth.connectWithRetry, hadapter]
  | joinProxy ok pc ended =>
    have hretry := fun hadapter => hretried hadapter (.inl (.inl pc))
    cases hadapter : u.adapter with
    | true => exact ⟨by simp [MainPc.serving], by simp, fun _ => hadapter, fun h _ => hretry h⟩
    | false =>
      exact ⟨by simp [MainPc.serving], by simp, by simp, fun h => by simp [hadapter] at h⟩
  | mainStop ok pc =>
    refine ⟨by simp [MainPc.serving], fun hw => hcalled (.inr (by simpa using hw)),
      fun _ => hadapter (.inl pc), fun h _ => ?_⟩
    simpa using hretried h (.inl (.inr pc))
  | proxyStop ok pc =>
    refine ⟨fun _ => ?_, fun hw => ?_, hadapter, by simpa using hretried⟩
    · dsimp only
      split <;> simp
    · refine hcalled (.inl (hw.resolve_right fun hp => ?_))
      dsimp only at hp
      split at hp <;> cases hp
  | proxyBegins ok pc =>
    exact ⟨by simp, fun _ => by simp [Daemon.beginCall, Usb.beginCall], hadapter, hretried⟩
  | proxyAdvances ok next pc =>
    have hnext : next ≠ .idle ∧ next ≠ .waiting := by
      obtain ⟨-, rfl⟩ | ⟨-, rfl⟩ | ⟨-, rfl⟩ | ⟨-, rfl⟩ := pc <;> simp
    exact ⟨fun _ => hnext.1, fun hw => hcalled (.inl (hw.resolve_right hnext.2)), hadapter,
      hretried⟩

end attended

/-- The invariants that say which threads exist and what they wait for, in every state. -/
structure Reached (u : Setup) (s : Daemon) : Prop where
  retrying : Retrying u s
  calling : Calling u s
  attended : Attended u s

theorem reached {u : Setup} {run : List DaemonAction} (hlegal : (daemon u).Legal daemonStart run) :
    Reached u ((daemon u).after daemonStart run) := by
  have hstep : ∀ s a, Reached u s → (daemon u).guard s a → Reached u ((daemon u).effect s a) :=
    fun s a h hguard =>
      have hmove := daemon_step hguard
      ⟨h.retrying.step hmove, h.calling.step h.retrying.scheduled hmove,
        h.attended.step h.calling hmove⟩
  exact invariant_all hstep ⟨.start, .start, .start⟩ hlegal

/-! No deadlock -/

/-- What only the accessory or the phone can end: the wait for a START event with the accessory
first, `accept` where no adapter calls the phone, and a session. -/
inductive AwaitsOutside (u : Setup) (s : Daemon) : Prop
  | accessory (pc : s.main = .waiting) (call : s.usb.call = .wait)
    (unset : s.usb.setCalls s.usb.calls = 0)
  | phone (pc : s.proxy = .accept) (adapter : u.adapter = false)
  | session (pc : s.proxy = .forwarding)

/-- A step of `main`, of the proxy thread or of the retry thread. -/
def DaemonAction.works : DaemonAction → Bool
  | .main _ | .proxy _ | .retry => true
  | .uevent _ | .monitor => false

/-- A step of one of these threads that needs nobody outside. -/
def OwnStep (s : Daemon) : DaemonAction → Prop
  | .main _ | .retry => True
  | .proxy _ => s.proxy ≠ .accept ∧ s.proxy ≠ .forwarding
  | .uevent _ | .monitor => False

theorem guard_of_step {u : Setup} {s : Daemon} (hbt : s.bt.crashed = false)
    (husb : s.usb.crashed = false) :
    (∀ ok, (s.mainStep u ok).isSome = true → (daemon u).guard s (.main ok)) ∧
    (∀ ok, (s.proxyStep u ok).isSome = true → (daemon u).guard s (.proxy ok)) ∧
    ((s.retryStep u).isSome = true → (daemon u).guard s .retry) := by
  simp [daemon, GuardedSystem.ofStep, daemonStep, hbt, husb]

/-- A running call makes a step, unless it waits without a limit for a promise not yet set. -/
theorem callStep_isSome {udcName : Bytes} {timeout : Bool} {usb : Usb} (hcall : usb.call ≠ .idle)
    (hwait : timeout = true ∨ ¬ (usb.call = .wait ∧ usb.setCalls usb.calls = 0)) :
    (usb.callStep udcName timeout).isSome = true := by
  unfold Usb.callStep
  split
  next hidle => exact absurd hidle hcall
  next => rfl
  next => rfl
  next hpc =>
    split
    next => rfl
    next hunset =>
      have hzero : usb.setCalls usb.calls = 0 := not_not.mp hunset
      rw [if_pos (hwait.resolve_right fun h => h ⟨hpc, hzero⟩)]
      rfl

theorem retryStep_isSome {u : Setup} {s : Daemon} (hidle : s.bt.retry ≠ .idle)
    (hfinished : s.bt.retry ≠ .finished) : (s.retryStep u).isSome = true := by
  have hbt : (s.bt.retryStep u.strategy u.adapter).isSome = true := by
    unfold Bluetooth.retryStep
    split
    next h => exact absurd h hidle
    next h => exact absurd h hfinished
    all_goals first | rfl | (split <;> first | rfl | (split <;> rfl))
  obtain ⟨bt, hbt⟩ := Option.isSome_iff_exists.mp hbt
  unfold Daemon.retryStep
  rw [hbt]
  dsimp only
  split <;> rfl

theorem call_isSome {u : Setup} {timeout : Bool} {s : Daemon} {returned : Bool → Daemon → Daemon}
    (hcall : s.usb.call ≠ .idle)
    (hwait : timeout = true ∨ ¬ (s.usb.call = .wait ∧ s.usb.setCalls s.usb.calls = 0)) :
    (s.callStep u timeout returned).isSome = true := by
  obtain ⟨⟨usb, value⟩, hstep⟩ := Option.isSome_iff_exists.mp
    (callStep_isSome hcall hwait)
  unfold Daemon.callStep
  rw [hstep]
  cases value <;> rfl

theorem proxyStep_isSome {u : Setup} {s : Daemon} (hidle : s.proxy ≠ .idle)
    (hfinished : s.proxy ≠ .finished) (hcall : s.proxy = .waiting → s.usb.call ≠ .idle) :
    (s.proxyStep u true).isSome = true := by
  unfold Daemon.proxyStep
  split
  next h => exact absurd h hidle
  next h => exact absurd h hfinished
  all_goals first | rfl | exact call_isSome (hcall ‹_›) (.inl rfl)

/-- While the retry loop has not been told to stop it goes on. -/
theorem Reached.calls_phone {u : Setup} {s : Daemon} (h : Reached u s) (hmain : s.main = .joinProxy)
    (hproxy : s.proxy = .accept) (hadapter : u.adapter = true) :
    s.bt.retry ≠ .idle ∧ s.bt.retry ≠ .finished := by
  have hconnected : s.main.connected := .inl hmain
  refine ⟨h.attended.retried hadapter (.inl hconnected), fun hfinished => ?_⟩
  have hearly : ¬ s.stop.late := by
    rw [h.retrying.scheduled.listening (.inl hproxy)]
    simp [StopSeen.late]
  have hunset := (h.retrying.promises.untold hconnected hadapter hearly).2
  exact h.retrying.promises.leaving (.inr (.inr hfinished)) hunset

/-- Unless the daemon has crashed or ended, or something outside is awaited, one of its threads
can make a step of its own. -/
theorem works_enabled {u : Setup} {s : Daemon} (h : Reached u s) (hbt : s.bt.crashed = false)
    (husb : s.usb.crashed = false) (hexited : s.main ≠ .exited) (hawaits : ¬ AwaitsOutside u s) :
    ∃ a : DaemonAction, OwnStep s a ∧ (daemon u).guard s a := by
  obtain ⟨hmain, hproxy, hretry⟩ := guard_of_step (u := u) hbt husb
  have hcalled := h.attended.called
  cases hpc : s.main with
  | exited => exact absurd hpc hexited
  | joinProxy =>
    have hserved := h.attended.served (.inr (.inr hpc))
    by_cases hfinished : s.proxy = .finished
    · exact ⟨.main true, trivial, hmain true (by simp [Daemon.mainStep, hpc, hfinished])⟩
    by_cases haccept : s.proxy = .accept
    · have hadapter : u.adapter = true := by
        by_contra hnone
        exact hawaits (.phone haccept (by simpa using hnone))
      obtain ⟨hidle, hgoes⟩ := h.calls_phone hpc haccept hadapter
      exact ⟨.retry, trivial, hretry (retryStep_isSome hidle hgoes)⟩
    · have hsession : s.proxy ≠ .forwarding := fun hf => hawaits (.session hf)
      exact ⟨.proxy true, ⟨haccept, hsession⟩,
        hproxy true (proxyStep_isSome hserved hfinished fun hw => hcalled (.inr hw))⟩
  | joinRetry =>
    have hidle := h.attended.retried (h.attended.adapter (.inr hpc)) (.inr hpc)
    by_cases hfinished : s.bt.retry = .finished
    · exact ⟨.main true, trivial, hmain true (by simp [Daemon.mainStep, hpc, hfinished])⟩
    · exact ⟨.retry, trivial, hretry (retryStep_isSome hidle hfinished)⟩
  | waiting =>
    refine ⟨.main true, trivial, hmain true ?_⟩
    simp only [Daemon.mainStep, hpc]
    exact call_isSome (hcalled (.inl hpc)) (.inr fun hw => hawaits (.accessory hpc hw.1 hw.2))
  | init | top | powerOn =>
    refine ⟨.main true, trivial, hmain true ?_⟩
    simp only [Daemon.mainStep, hpc]
    split <;> rfl
  | server | connect | stop | disableDefault | disableAccessory | pause =>
    exact ⟨.main true, trivial, hmain true (by simp [Daemon.mainStep, hpc])⟩

/-! Bounded work -/

def MainPc.left : MainPc → Nat
  | .init => 32
  | .top => 31
  | .waiting => 27
  | .server => 26
  | .powerOn => 15
  | .connect => 14
  | .joinProxy => 5
  | .stop => 4
  | .joinRetry => 3
  | .disableDefault => 2
  | .disableAccessory => 1
  | .pause | .exited => 0

def ProxyPc.left : ProxyPc → Nat
  | .accept => 10
  | .stop => 9
  | .begin => 8
  | .waiting => 4
  | .openUsb => 3
  | .configure => 2
  | .forwarding => 1
  | .idle | .finished => 0

def CallPc.left : CallPc → Nat
  | .add => 3
  | .enable => 2
  | .wait => 1
  | .idle => 0

/-- In a round of the retry loop only a wait that times out begins another. -/
def RetryPc.left : RetryPc → Nat
  | .start => 8
  | .unadvertise => 7
  | .advertise => 6
  | .passive _ => 5
  | .connect _ => 4
  | .wait => 3
  | .clear => 2
  | .powerOff => 1
  | .idle | .finished => 0

/-- A crash ends the run. -/
def crashLeft (b : Bluetooth) : Nat := if b.crashed = true then 0 else 1

/-- What is left to do in this session. -/
def workLeft (s : Daemon) : Nat :=
  s.main.left + s.proxy.left + s.usb.call.left + s.bt.retry.left + crashLeft s.bt

/-- The retry thread is at a wait that times out. -/
def timesOut (b : Bluetooth) : Bool :=
  match b.retry with
  | .passive _ | .wait => !b.ready
  | _ => false

def waitsOf (s : Daemon) : DaemonAction → List Unit
  | .retry => if timesOut s.bt then [()] else []
  | .main _ | .proxy _ | .uevent _ | .monitor => []

/-- The waits of the retry loop that time out in a run. -/
def timeouts (u : Setup) (run : List DaemonAction) : Nat :=
  ((daemon u).outputs waitsOf daemonStart run).length

theorem roundStart_work (strategy : ConnectionStrategy) (n : Nat) (retried : Bool) :
    (roundStart strategy n retried).left ≤ 5 := by
  obtain hr | hr := roundStart_cases strategy n retried <;> simp [hr, RetryPc.left]

theorem afterLoop_work (strategy : ConnectionStrategy) : (afterLoop strategy).left ≤ 1 := by
  unfold afterLoop
  split <;> simp [RetryPc.left]

theorem crashLeft_le (b : Bluetooth) : crashLeft b ≤ 1 := by
  unfold crashLeft
  split <;> simp

/-- A step of the retry thread is work done, or one more wait. -/
theorem retryStep_left {strategy : ConnectionStrategy} {b b' : Bluetooth}
    (h : b.RetryStep strategy b') (hcrashed : b.crashed = false) :
    b'.retry.left + crashLeft b' + 1 ≤
      b.retry.left + crashLeft b + 3 * (if timesOut b then [()] else []).length := by
  have hb : crashLeft b = 1 := by simp [crashLeft, hcrashed]
  have hb' := crashLeft_le b'
  have hafter := afterLoop_work strategy
  have hround := fun n retried => roundStart_work strategy n retried
  cases h with
  | lost pc =>
    have hb' : crashLeft { b with crashed := true } = 0 := rfl
    dsimp only
    omega
  | start k pc =>
    have hnow : b.retry.left = 8 := by rw [pc]; rfl
    have hnext : (if strategy = .dongleMode then RetryPc.unadvertise
        else roundStart strategy 0 false).left ≤ 7 := by
      split
      next => exact Nat.le_refl 7
      next => exact Nat.le_trans (hround 0 false) (by omega)
    dsimp only at *
    omega
  | adapter b' next pc =>
    have hfalls : next.left + 1 ≤ b.retry.left := by
      obtain ⟨hpc, rfl⟩ | ⟨hpc, rfl⟩ | ⟨hpc, rfl⟩ := pc
      · simp [hpc, RetryPc.left]
      · have hnow : b.retry.left = 6 := by rw [hpc]; rfl
        have hnext := hround 0 false
        omega
      · simp [hpc, RetryPc.left]
    dsimp only at *
    omega
  | told next pc =>
    have hfalls : next.left + 1 ≤ b.retry.left := by
      obtain ⟨⟨n, hpc⟩, rfl⟩ | ⟨hpc, rfl⟩ := pc
      · have hnow : b.retry.left = 5 := by rw [hpc]; rfl
        omega
      · simp [hpc, RetryPc.left]
    dsimp only at *
    omega
  | timedOut n pc unready =>
    have hnext := hround n true
    have hnow : 3 ≤ b.retry.left ∧ timesOut b = true := by
      obtain ⟨k, hpc⟩ | hpc := pc <;> simp [hpc, RetryPc.left, timesOut, unready]
    rw [if_pos hnow.2, List.length_singleton]
    dsimp only at *
    omega
  | connect retried pc =>
    have hnow : b.retry.left = 4 := by rw [pc]; rfl
    have hnext : RetryPc.wait.left = 3 := rfl
    dsimp only at *
    omega
  | clear pc =>
    have hnow : b.retry.left = 2 := by rw [pc]; rfl
    dsimp only at *
    omega

section work
variable {u : Setup} {s s' : Daemon} {ok : Bool}

/-- A step of `main` is work done, but for the next session. -/
theorem main_work (h : DaemonStep u s (.main ok) s') (hcrashed : s.bt.crashed = false) :
    workLeft s' + 1 + 32 * s.iteration ≤ workLeft s + 32 * s'.iteration := by
  have hb : crashLeft s.bt = 1 := by simp [crashLeft, hcrashed]
  unfold workLeft
  cases h with
  | mainWaits ok usb pc call =>
    cases Usb.callStep_cases call with
    | add hc | enable hc =>
      simp only [hc, CallPc.left]
      omega
  | mainReturns ok usb started pc call =>
    cases Usb.callStep_cases call with
    | ready hc | timedOut hc =>
      simp only [pc, hc, MainPc.left, CallPc.left]
      omega
  | powered ok bt next pc effect =>
    have hretry := (Bluetooth.powered_frame effect).2.2.1
    have hbt := crashLeft_le bt
    obtain ⟨hpc, rfl⟩ | ⟨hpc, rfl⟩ := pc
    all_goals
      simp only [hpc, hretry, MainPc.left]
      omega
  | waitFirst ok pc =>
    simp only [pc, MainPc.left, CallPc.left, Daemon.beginCall, Usb.beginCall]
    omega
  | serve pc =>
    simp only [pc, MainPc.left, ProxyPc.left]
    omega
  | waitLater ok pc | giveUp pc | disableDefault ok pc | disableAccessory ok pc | pause ok pc =>
    simp only [pc, MainPc.left, Usb.disableGadget, Usb.writeGadgetFile]
    omega
  | connect ok pc =>
    have hbt := crashLeft_le (s.bt.connectWithRetry u.adapter s.iteration)
    have hretry :
        (s.bt.connectWithRetry u.adapter s.iteration).retry.left ≤ s.bt.retry.left + 8 := by
      unfold Bluetooth.connectWithRetry
      split
      next => exact Nat.le_add_right _ _
      next => exact Nat.le_add_left _ _
    simp only [pc, MainPc.left]
    omega
  | joinProxy ok pc ended =>
    have hmain : (if u.adapter = true then MainPc.stop else .disableDefault).left ≤ 4 := by
      split <;> simp [MainPc.left]
    have hnow : s.main.left = 5 := by rw [pc]; rfl
    simp only [ProxyPc.left]
    omega
  | mainStop ok pc =>
    have hbt := crashLeft_le s.bt.stopConnectWithRetry
    simp only [pc, MainPc.left, Bluetooth.stop_retry]
    omega
  | joinRetry ok pc =>
    have hbt : crashLeft { s.bt with retry := .idle } = crashLeft s.bt := rfl
    have hidle : RetryPc.idle.left = 0 := rfl
    simp only [pc, hbt, hidle, MainPc.left]
    omega

/-- A step of the proxy thread is work done. -/
theorem proxy_work (h : DaemonStep u s (.proxy ok) s') (hcrashed : s.bt.crashed = false) :
    workLeft s' + 1 + 32 * s.iteration ≤ workLeft s + 32 * s'.iteration := by
  have hb : crashLeft s.bt = 1 := by simp [crashLeft, hcrashed]
  unfold workLeft
  cases h with
  | proxyWaits ok usb pc call =>
    cases Usb.callStep_cases call with
    | add hc | enable hc =>
      simp only [hc, CallPc.left]
      omega
  | proxyReturns ok usb started pc call =>
    have hnow : s.proxy.left = 4 := by rw [pc]; rfl
    cases Usb.callStep_cases call with
    | ready hc =>
      have hnext : ProxyPc.openUsb.left = 3 := rfl
      simp only [hc, CallPc.left, if_true]
      omega
    | timedOut hc =>
      have hnext : ProxyPc.finished.left = 0 := rfl
      simp only [hc, CallPc.left, Bool.false_eq_true, if_false]
      omega
  | proxyStop ok pc =>
    have hbt := crashLeft_le s.bt.stopConnectWithRetry
    have hproxy : (if u.strategy = .usbFirst then ProxyPc.openUsb else .begin).left ≤ 8 := by
      split <;> simp [ProxyPc.left]
    have hnow : s.proxy.left = 9 := by rw [pc]; rfl
    simp only [Bluetooth.stop_retry]
    omega
  | proxyBegins ok pc =>
    simp only [pc, ProxyPc.left, CallPc.left, Daemon.beginCall, Usb.beginCall]
    omega
  | proxyAdvances ok next pc =>
    have hfalls : next.left + 1 ≤ s.proxy.left := by
      obtain ⟨hpc, rfl⟩ | ⟨hpc, rfl⟩ | ⟨hpc, rfl⟩ | ⟨hpc | hpc | hpc | hpc, rfl⟩ := pc <;>
        simp [hpc, ProxyPc.left]
    dsimp only
    omega

/-- A step of a thread is work done, but for the waits that time out and the next session. -/
theorem workLeft_step {a : DaemonAction} (h : DaemonStep u s a s')
    (hcrashed : s.bt.crashed = false) :
    workLeft s' + (if a.works then 1 else 0) + 32 * s.iteration ≤
      workLeft s + 3 * (waitsOf s a).length + 32 * s'.iteration := by
  cases a with
  | main ok => exact main_work h hcrashed
  | proxy ok => exact proxy_work h hcrashed
  | retry =>
    cases h with
    | retry bt attempts step =>
      have hleft := retryStep_left (Bluetooth.retryStep_cases step) hcrashed
      simp only [workLeft, waitsOf, DaemonAction.works, if_true] at *
      omega
  | uevent env =>
    cases h with
    | uevent env usb received =>
      obtain ⟨-, rfl⟩ := Usb.receive_eq received
      simp [workLeft, DaemonAction.works]
  | monitor =>
    cases h with
    | monitor usb step =>
      have hcall := (Usb.monitorStep_cases step).frame.1
      simp [workLeft, DaemonAction.works, hcall]

end work

theorem workLeft_run {u : Setup} {s : Daemon} {run : List DaemonAction}
    (hlegal : (daemon u).Legal s run) :
    run.countP DaemonAction.works + workLeft ((daemon u).after s run) + 32 * s.iteration ≤
      workLeft s + 32 * ((daemon u).after s run).iteration +
        3 * ((daemon u).outputs waitsOf s run).length := by
  induction run generalizing s with
  | nil => simp [after, outputs]
  | cons a run ih =>
    obtain ⟨hcrashed, -, hstep⟩ := daemonStep_cases (ofStep_effect hlegal.1)
    have hfirst := workLeft_step hstep hcrashed
    have hrest := ih hlegal.2
    rw [List.countP_cons, outputs, List.length_append]
    change _ + workLeft ((daemon u).after ((daemon u).effect s a) run) + _ ≤
      _ + 32 * ((daemon u).after ((daemon u).effect s a) run).iteration + _
    change workLeft ((daemon u).effect s a) + _ + _ ≤ _ + _ + 32 * ((daemon u).effect s a).iteration
      at hfirst
    omega

/-- The daemon never comes to a standstill: unless it has crashed or ended, or waits for the
accessory or the phone, one of `main`, the proxy thread and the retry thread can make a step of
its own; and however these are interleaved with each other, with the monitor and with events, they
make no more than 33 steps for each session and three for each wait of the retry loop that
times out. -/
theorem daemon_progress (u : Setup) (run : List DaemonAction)
    (hlegal : (daemon u).Legal daemonStart run) :
    let s := (daemon u).after daemonStart run
    (s.bt.crashed = false → s.main ≠ .exited → ¬ AwaitsOutside u s →
      ∃ a : DaemonAction, OwnStep s a ∧ (daemon u).guard s a) ∧
    run.countP DaemonAction.works ≤ 33 * (s.iteration + 1) + 3 * timeouts u run := by
  intro s
  have husb := (accessory_promises_once u run hlegal).2
  refine ⟨fun hbt => works_enabled (reached hlegal) hbt husb, ?_⟩
  have hrun := workLeft_run hlegal
  have hstart : workLeft daemonStart = 33 := rfl
  have hzero : daemonStart.iteration = 0 := rfl
  have hend : ((daemon u).after daemonStart run).iteration = s.iteration := rfl
  unfold timeouts
  omega

/-- A session that ends because nobody connects, and the start of the next one. -/
def refusedRun : List DaemonAction :=
  List.replicate 5 (.main true) ++ [.proxy false, .retry, .retry] ++
    List.replicate 2 (.main true) ++ List.replicate 3 .retry ++ List.replicate 4 (.main true)

theorem daemon_progress_refused :
    (daemon ⟨.phoneFirst, true, []⟩).Legal daemonStart refusedRun ∧
      refusedRun.countP DaemonAction.works ≤
        33 * (((daemon ⟨.phoneFirst, true, []⟩).after daemonStart refusedRun).iteration + 1) +
          3 * timeouts ⟨.phoneFirst, true, []⟩ refusedRun := by
  have hlegal : (daemon ⟨.phoneFirst, true, []⟩).Legal daemonStart refusedRun := by decide +kernel
  exact ⟨hlegal, (daemon_progress ⟨.phoneFirst, true, []⟩ refusedRun hlegal).2⟩

end Aawgd
