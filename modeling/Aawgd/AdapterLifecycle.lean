import Aawgd.DaemonPromises
import Aawgd.RetryPolicy

/-! The Bluetooth adapter over all sessions: what the daemon's calls make of it. -/
namespace Aawgd
open Bluetooth

/-- The calls on the adapter that power it and that register the advertisement. -/
inductive AdapterCall where
  | register | unregister
  | power (on : Bool)
  deriving DecidableEq

structure Radio where
  powered : Bool
  advertised : Bool
  deriving DecidableEq

/-- What BlueZ allows: an advertisement is registered once before it is unregistered. -/
def bluez : GuardedSystem Radio AdapterCall where
  init := ⟨false, false⟩
  guard r
    | .register => r.advertised = false
    | .unregister => r.advertised = true
    | .power _ => True
  effect r
    | .register => { r with advertised := true }
    | .unregister => { r with advertised := false }
    | .power on => { r with powered := on }

def Bluetooth.radio (b : Bluetooth) : Radio := ⟨b.powered, b.advertised⟩

def powerOnCalls (strategy : ConnectionStrategy) : List AdapterCall :=
  if strategy = .dongleMode then [.power true, .register] else [.power true]

def powerOffCalls (strategy : ConnectionStrategy) : List AdapterCall :=
  if strategy = .dongleMode then [.unregister, .power false] else [.power false]

/-- The calls of the retry thread's next statement. -/
def Bluetooth.retryCalls (strategy : ConnectionStrategy) (b : Bluetooth) : List AdapterCall :=
  match b.retry with
  | .unadvertise => [.unregister]
  | .advertise => [.register]
  | .powerOff => powerOffCalls strategy
  | _ => []

/-- `main` powers on before its loop in dongle mode, in every session otherwise. -/
def Daemon.mainCalls (u : Setup) (s : Daemon) : List AdapterCall :=
  match s.main with
  | .init => if u.strategy = .dongleMode then powerOnCalls u.strategy else []
  | .powerOn => if u.strategy = .dongleMode then [] else powerOnCalls u.strategy
  | _ => []

/-- The calls of a step, when there is an adapter. -/
def adapterCalls (u : Setup) (s : Daemon) : DaemonAction → List AdapterCall
  | .main _ => s.mainCalls u
  | .retry => s.bt.retryCalls u.strategy
  | _ => []

def adapterLog (u : Setup) (run : List DaemonAction) : List AdapterCall :=
  (daemon u).outputs (adapterCalls u) daemonStart run

/-! The calls are what the statements do to the adapter -/

@[simp] theorem stop_radio (b : Bluetooth) : b.stopConnectWithRetry.radio = b.radio := by
  unfold stopConnectWithRetry
  split <;> rfl

@[simp] theorem connect_radio (adapter : Bool) (k : Nat) (b : Bluetooth) :
    (b.connectWithRetry adapter k).radio = b.radio := by
  cases adapter <;> rfl

theorem powerOn_radio (strategy : ConnectionStrategy) (b : Bluetooth) :
    (b.powerOn strategy true).radio = bluez.after b.radio (powerOnCalls strategy) := by
  cases strategy <;> rfl

theorem powerOff_radio (strategy : ConnectionStrategy) (b : Bluetooth) :
    (b.powerOff strategy true).radio = bluez.after b.radio (powerOffCalls strategy) := by
  cases strategy <;> rfl

theorem retryStep_radio {strategy : ConnectionStrategy} {b b' : Bluetooth}
    (h : b.retryStep strategy true = some b') :
    b'.radio = bluez.after b.radio (b.retryCalls strategy) := by
  unfold Bluetooth.retryStep at h
  unfold retryCalls
  split at h
  next => cases h
  next => cases h
  next hpc =>
    split at h
    next =>
      cases h
      simp only [hpc]
      rfl
    next =>
      split at h <;> cases h <;> simp only [hpc] <;> rfl
  next hpc =>
    cases h
    simp only [hpc]
    rfl
  next hpc =>
    cases h
    simp only [hpc]
    rfl
  next hpc => split at h <;> cases h <;> simp only [hpc] <;> rfl
  next hpc =>
    cases h
    simp only [hpc]
    rfl
  next hpc => split at h <;> cases h <;> simp only [hpc] <;> rfl
  next hpc =>
    cases h
    simp only [hpc]
    rfl
  next hpc =>
    cases h
    simp only [hpc]
    exact powerOff_radio strategy b

variable {u : Setup} {s s' : Daemon} {a : DaemonAction}

/-- Only two statements of `main` power the adapter. -/
theorem powered_radio {ok : Bool} (hadapter : u.adapter = true) (h : s.mainStep u ok = some s')
    (pc : s.main = .init ∨ s.main = .powerOn) :
    s'.bt.radio = bluez.after s.bt.radio (s.mainCalls u) := by
  unfold Daemon.mainCalls
  cases pc with
  | inl pc =>
    simp only [Daemon.mainStep, pc, hadapter] at h ⊢
    split at h
    next hmode =>
      cases h
      rw [if_pos hmode]
      exact powerOn_radio u.strategy s.bt
    next hmode =>
      cases h
      rw [if_neg hmode]
      rfl
  | inr pc =>
    simp only [Daemon.mainStep, pc, hadapter] at h ⊢
    split at h
    next hmode =>
      cases h
      rw [if_pos hmode]
      rfl
    next hmode =>
      cases h
      rw [if_neg hmode]
      exact powerOn_radio u.strategy s.bt

theorem mainStep_radio {ok : Bool} (hadapter : u.adapter = true) (h : s.mainStep u ok = some s') :
    s'.bt.radio = bluez.after s.bt.radio (s.mainCalls u) := by
  by_cases hpower : s.main = .init ∨ s.main = .powerOn
  · exact powered_radio hadapter h hpower
  · have hquiet : s.mainCalls u = [] := by
      unfold Daemon.mainCalls
      split <;> simp_all
    rw [hquiet]
    cases mainStep_cases h with
    | powered ok bt next pc effect => exact absurd (pc.imp And.left And.left) hpower
    | connect => exact connect_radio u.adapter s.iteration s.bt
    | mainStop => exact stop_radio s.bt
    | _ => rfl

/-- The adapter is what the calls of the step make of it. -/
theorem step_radio (hadapter : u.adapter = true) (h : daemonStep u s a = some s') :
    s'.bt.radio = bluez.after s.bt.radio (adapterCalls u s a) := by
  unfold daemonStep at h
  split at h
  next => cases h
  next =>
    cases a with
    | main ok => exact mainStep_radio hadapter h
    | proxy ok =>
      cases proxyStep_cases h with
      | proxyStop => exact stop_radio s.bt
      | _ => rfl
    | retry =>
      cases retryStep_cases h with
      | retry bt attempts step => exact retryStep_radio (hadapter ▸ step)
    | uevent env =>
      obtain ⟨usb, husb, rfl⟩ := Option.map_eq_some_iff.mp h
      rfl
    | monitor =>
      obtain ⟨usb, husb, rfl⟩ := Option.map_eq_some_iff.mp h
      rfl

/-! What one statement of the retry loop leads to -/

theorem retryStep_remains {strategy : ConnectionStrategy} {b b' : Bluetooth}
    (h : b.RetryStep strategy b') : b'.retry ≠ .idle := by
  have hround (n : Nat) (retried : Bool) : roundStart strategy n retried ≠ .idle := by
    cases roundStart_cases strategy n retried <;> simp_all
  have hafter : afterLoop strategy ≠ .idle := by cases strategy <;> decide
  cases h with
  | lost pc | connect _ pc => simp [pc]
  | start =>
    dsimp only
    split
    · simp
    · exact hround 0 false
  | adapter b' next pc => obtain ⟨-, rfl⟩ | ⟨-, rfl⟩ | ⟨-, rfl⟩ := pc <;> simp [hround]
  | told next pc => obtain ⟨-, rfl⟩ | ⟨-, rfl⟩ := pc <;> simp [hafter]
  | timedOut => exact hround _ _
  | clear => exact hafter

/-- In dongle mode the loop never comes to `powerOff`, and registers only behind
`unadvertise`. -/
theorem dongle_retry {b b' : Bluetooth} (h : b.RetryStep .dongleMode b')
    (hoff : b.retry ≠ .powerOff) :
    b'.retry ≠ .powerOff ∧ (b'.retry = .advertise ↔ b.retry = .unadvertise) := by
  have hround (n : Nat) (retried : Bool) : roundStart .dongleMode n retried ≠ .powerOff ∧
      roundStart .dongleMode n retried ≠ .advertise := by
    cases roundStart_cases .dongleMode n retried <;> simp_all
  cases h with
  | lost pc | start _ pc | connect _ pc | clear pc => simp [pc, afterLoop]
  | adapter b' next pc =>
    obtain ⟨pc, rfl⟩ | ⟨pc, rfl⟩ | ⟨pc, -⟩ := pc
    · simp [pc]
    · simp [pc, hround]
    · exact absurd pc hoff
  | told next pc => obtain ⟨⟨n, pc⟩, rfl⟩ | ⟨pc, rfl⟩ := pc <;> simp [pc, afterLoop]
  | timedOut _ pc => obtain ⟨n, pc⟩ | pc := pc <;> simp [pc, hround]

/-- Outside dongle mode the loop advertises nothing, and ends with `powerOff`. -/
theorem undongled_retry {strategy : ConnectionStrategy} {b b' : Bluetooth}
    (hmode : strategy ≠ .dongleMode) (h : b.RetryStep strategy b')
    (hloop : b.retry ≠ .unadvertise ∧ b.retry ≠ .advertise) :
    (b'.retry ≠ .unadvertise ∧ b'.retry ≠ .advertise) ∧
      (b'.retry = .finished ↔ b.retry = .powerOff) := by
  have hround (n : Nat) (retried : Bool) : roundStart strategy n retried = .connect retried :=
    if_neg fun h => hmode h.1
  have hafter : afterLoop strategy = .powerOff := if_neg hmode
  cases h with
  | lost pc | start _ pc | connect _ pc | clear pc => simp [pc, hmode, hround, hafter]
  | adapter b' next pc =>
    obtain ⟨pc, -⟩ | ⟨pc, -⟩ | ⟨pc, rfl⟩ := pc
    · exact absurd pc hloop.1
    · exact absurd pc hloop.2
    · simp [pc]
  | told next pc => obtain ⟨⟨n, pc⟩, rfl⟩ | ⟨pc, rfl⟩ := pc <;> simp [pc, hafter]
  | timedOut _ pc => obtain ⟨n, pc⟩ | pc := pc <;> simp [pc, hround]

/-! Joining the retry thread -/

/-- The retry thread exists while `main` may join it, and is told to stop before. -/
structure Joining (u : Setup) (s : Daemon) : Prop where
  retrying : Retrying u s
  begun : s.main.connected ∨ s.main = .joinRetry → s.bt.retry ≠ .idle
  told : s.main = .joinRetry → s.bt.setCalls s.iteration ≠ 0

/-- `main` stops the loop of this iteration, which the proxy thread may have done before. -/
theorem Retrying.main_stop (hadapter : u.adapter = true) (h : Retrying u s) (pc : s.main = .stop) :
    s.bt.stopConnectWithRetry.setCalls s.iteration ≠ 0 := by
  have hconnected : s.main.connected := .inr pc
  by_cases hlate : s.stop.late
  · exact stop_keeps (h.promises.told hconnected hadapter hlate)
  · exact stop_sets (h.promises.untold hconnected hadapter hlate).1

theorem Joining.step (hadapter : u.adapter = true) (h : Joining u s) (hstep : DaemonStep u s a s') :
    Joining u s' := by
  have hretrying := h.retrying.step hstep
  obtain ⟨hbefore, hbegun, htold⟩ := h
  cases hstep with
  | mainWaits | proxyWaits | uevent | monitor => exact ⟨hretrying, hbegun, htold⟩
  | proxyStop ok pc =>
    refine ⟨hretrying, fun hm => ?_, fun hm => stop_keeps (htold hm)⟩
    rw [stop_retry]
    exact hbegun hm
  | proxyBegins | proxyReturns | proxyAdvances => exact ⟨hretrying, hbegun, htold⟩
  | retry bt attempts step =>
    have hcases := Bluetooth.retryStep_cases step
    refine ⟨hretrying, fun _ => retryStep_remains hcases, fun hm => ?_⟩
    rw [retryStep_setCalls hcases]
    exact htold hm
  | mainStop ok pc =>
    refine ⟨hretrying, fun _ => ?_, fun _ => hbefore.main_stop hadapter pc⟩
    rw [stop_retry]
    exact hbegun (.inl (.inr pc))
  | connect ok pc => exact ⟨hretrying, by simp [Bluetooth.connectWithRetry, hadapter], by simp⟩
  | joinProxy ok pc ended =>
    refine ⟨hretrying, fun _ => hbegun (.inl (.inl pc)), ?_⟩
    simp [hadapter]
  | powered ok bt next pc =>
    refine ⟨hretrying, ?_, ?_⟩ <;> cases pc <;> simp_all [MainPc.connected]
  | _ => exact ⟨hretrying, by simp [MainPc.connected], by simp⟩

theorem Joining.start : Joining u daemonStart where
  retrying := Retrying.start
  begun := by simp [daemonStart, MainPc.connected]
  told := nofun

/-- The thread `main` joins waits for a promise that is satisfied. -/
theorem Joining.joined (h : Joining u s) (pc : s.main = .joinRetry) :
    WaitsFor s.iteration s.bt ∧ s.bt.setCalls s.iteration ≠ 0 := by
  refine ⟨?_, h.told pc⟩
  by_cases hstart : s.bt.retry = .start
  · exact .inl ⟨hstart, h.retrying.promises.starting hstart⟩
  · exact .inr ⟨hstart, h.retrying.promises.looping (h.begun (.inr pc)) hstart⟩

/-- Outside the part of the iteration that has a retry thread there is none. -/
theorem Joining.resting (h : Joining u s) (hconnected : ¬ s.main.connected)
    (hjoin : s.main ≠ .joinRetry) : s.bt.retry = .idle := by
  by_contra halive
  cases (h.retrying.scheduled.retrying halive).2 with
  | inl hc => exact hconnected hc
  | inr hj => exact hjoin hj

/-! Dongle mode -/

/-- Powered and advertising from the start on, but between the two calls of the retry loop. -/
structure Dongled (s : Daemon) (log : List AdapterCall) : Prop where
  silent : s.main = .init → log = []
  radio : s.main ≠ .init → bluez.after bluez.init log = ⟨true, decide (s.bt.retry ≠ .advertise)⟩
  legal : bluez.Legal bluez.init log
  powered : .power false ∉ log
  loop : s.bt.retry ≠ .powerOff

section dongle
variable {log : List AdapterCall}

theorem Dongled.quiet {calls : List AdapterCall} (h : Dongled s log) (hcalls : calls = [])
    (hmain : s'.main = .init ↔ s.main = .init) (hoff : s'.bt.retry ≠ .powerOff)
    (hretry : s'.bt.retry = .advertise ↔ s.bt.retry = .advertise) : Dongled s' (log ++ calls) := by
  rw [hcalls, List.append_nil]
  refine ⟨fun hm => h.silent (hmain.mp hm), fun hm => ?_, h.legal, h.powered, hoff⟩
  have hsame : decide (s'.bt.retry ≠ .advertise) = decide (s.bt.retry ≠ .advertise) :=
    decide_eq_decide.mpr (not_congr hretry)
  rw [hsame]
  exact h.radio (fun hm' => hm (hmain.mpr hm'))

/-- A call that BlueZ allows where the log ends. -/
theorem Dongled.call {c : AdapterCall} (h : Dongled s log) (hbegun : s.main ≠ .init)
    (hallowed : bluez.guard ⟨true, decide (s.bt.retry ≠ .advertise)⟩ c) (hc : c ≠ .power false)
    (hmain : s'.main ≠ .init) (hoff : s'.bt.retry ≠ .powerOff)
    (hradio : bluez.effect ⟨true, decide (s.bt.retry ≠ .advertise)⟩ c =
      ⟨true, decide (s'.bt.retry ≠ .advertise)⟩) : Dongled s' (log ++ [c]) where
  silent hm := absurd hm hmain
  radio _ := by
    rw [GuardedSystem.after_append, h.radio hbegun]
    exact hradio
  legal := by
    rw [GuardedSystem.legal_append, h.radio hbegun]
    exact ⟨h.legal, hallowed, trivial⟩
  powered := by simp [h.powered, hc.symm]
  loop := hoff

theorem Dongled.boot (hmode : u.strategy = .dongleMode) (h : Dongled s log) (pc : s.main = .init)
    (hidle : s'.bt.retry = .idle) (hmain : s'.main ≠ .init) :
    Dongled s' (log ++ s.mainCalls u) := by
  have hcalls : s.mainCalls u = [.power true, .register] := by
    simp [Daemon.mainCalls, powerOnCalls, pc, hmode]
  rw [hcalls, h.silent pc]
  refine ⟨fun hm => absurd hm hmain, fun _ => ?_, ⟨trivial, rfl, trivial⟩, by simp, by simp [hidle]⟩
  rw [hidle]
  rfl

theorem Dongled.retry {b : Bluetooth} (h : Dongled s log) (hbegun : s.main ≠ .init)
    (hstep : s.bt.RetryStep .dongleMode b) (hbt : s'.bt = b) (hmain : s'.main = s.main) :
    Dongled s' (log ++ s.bt.retryCalls .dongleMode) := by
  obtain ⟨hoff, hnext⟩ := dongle_retry hstep h.loop
  have hbegun' : s'.main ≠ .init := hmain ▸ hbegun
  rw [← hbt] at hoff hnext
  by_cases hun : s.bt.retry = .unadvertise
  · have hcalls : s.bt.retryCalls .dongleMode = [.unregister] := by simp [retryCalls, hun]
    have hadv := hnext.mpr hun
    rw [hcalls]
    exact h.call hbegun (by simp [bluez, hun]) (by simp) hbegun' hoff (by simp [bluez, hadv])
  · have hadv : s'.bt.retry ≠ .advertise := fun h => hun (hnext.mp h)
    by_cases hreg : s.bt.retry = .advertise
    · have hcalls : s.bt.retryCalls .dongleMode = [.register] := by simp [retryCalls, hreg]
      rw [hcalls]
      exact h.call hbegun (by simp [bluez, hreg]) (by simp) hbegun' hoff (by simp [bluez, hadv])
    · have hcalls : s.bt.retryCalls .dongleMode = [] := by
        have hoff := h.loop
        unfold retryCalls
        split <;> simp_all
      exact h.quiet hcalls (by rw [hmain]) hoff (iff_of_false hadv hreg)

theorem Dongled.step (hmode : u.strategy = .dongleMode) (hadapter : u.adapter = true)
    (hj : Joining u s) (h : Dongled s log) (hstep : DaemonStep u s a s') :
    Dongled s' (log ++ adapterCalls u s a) := by
  cases hstep with
  | powered ok bt next pc effect =>
    have hretry := (powered_frame effect).2.2.1
    obtain ⟨pc, rfl⟩ | ⟨pc, rfl⟩ := pc
    · have hidle : s.bt.retry = .idle := hj.resting (by simp [pc, MainPc.connected]) (by simp [pc])
      exact h.boot hmode pc (hretry.trans hidle) (by simp)
    · refine h.quiet ?_ (by simp [pc]) (hretry ▸ h.loop) (by rw [hretry])
      simp [adapterCalls, Daemon.mainCalls, pc, hmode]
  | retry bt attempts step =>
    have halive := retryStep_alive step
    have hbegun : s.main ≠ .init := by
      intro hm
      exact halive (hj.resting (by simp [hm, MainPc.connected]) (by simp [hm]))
    have hcases := Bluetooth.retryStep_cases step
    rw [hmode] at hcases
    have hcalls : adapterCalls u s .retry = s.bt.retryCalls .dongleMode := by
      rw [adapterCalls, hmode]
    rw [hcalls]
    exact h.retry hbegun hcases rfl rfl
  | connect ok pc =>
    have hidle : s.bt.retry = .idle := hj.resting (by simp [pc, MainPc.connected]) (by simp [pc])
    refine h.quiet ?_ (by simp [pc]) ?_ ?_
    · simp [adapterCalls, Daemon.mainCalls, pc]
    · simp [Bluetooth.connectWithRetry, hadapter]
    · simp [Bluetooth.connectWithRetry, hadapter, hidle]
  | joinRetry ok pc ended =>
    refine h.quiet ?_ (by simp [pc]) (by simp) (by simp [ended])
    simp [adapterCalls, Daemon.mainCalls, pc]
  | mainStop ok pc | proxyStop ok pc =>
    refine h.quiet ?_ (by simp [pc]) (by simpa using h.loop) (by simp)
    simp [adapterCalls, Daemon.mainCalls, pc]
  | _ =>
    refine h.quiet ?_ ?_ h.loop Iff.rfl
    · simp_all [adapterCalls, Daemon.mainCalls]
    · simp_all [Daemon.beginCall]

end dongle

/-! Outside dongle mode -/

/-- The power calls of an iteration so far. -/
def sessionCalls (main : MainPc) (retry : RetryPc) : List AdapterCall :=
  match main with
  | .connect => [.power true]
  | .joinProxy | .stop | .joinRetry =>
    if retry = .finished then [.power true, .power false] else [.power true]
  | .disableDefault | .disableAccessory | .pause => [.power true, .power false]
  | _ => []

/-- The power calls of n whole iterations. -/
def sessions (n : Nat) : List AdapterCall :=
  (List.replicate n [AdapterCall.power true, .power false]).flatten

theorem sessions_succ (n : Nat) :
    sessions (n+1) = sessions n ++ [.power true, .power false] := by
  simp [sessions, List.replicate_succ']

/-- Powered once on and once off in every iteration. -/
structure Undongled (s : Daemon) (log : List AdapterCall) : Prop where
  word : log = sessions s.iteration ++ sessionCalls s.main s.bt.retry
  loop : s.bt.retry ≠ .unadvertise ∧ s.bt.retry ≠ .advertise

section undongled
variable {log : List AdapterCall}

/-- A step of the iteration that makes the calls its new place accounts for. -/
theorem Undongled.move {calls : List AdapterCall} (h : Undongled s log)
    (hiteration : s'.iteration = s.iteration)
    (hcalls : sessionCalls s.main s.bt.retry ++ calls = sessionCalls s'.main s'.bt.retry)
    (hloop : s'.bt.retry ≠ .unadvertise ∧ s'.bt.retry ≠ .advertise) :
    Undongled s' (log ++ calls) := by
  refine ⟨?_, hloop⟩
  rw [h.word, List.append_assoc, hcalls, hiteration]

theorem Undongled.retry {strategy : ConnectionStrategy} {b : Bluetooth} {attempts : Nat}
    (hmode : strategy ≠ .dongleMode) (hj : Joining u s) (h : Undongled s log)
    (hstep : s.bt.RetryStep strategy b) (halive : s.bt.retry ≠ .idle)
    (hunfinished : s.bt.retry ≠ .finished) :
    Undongled { s with bt := b, attempts := attempts } (log ++ s.bt.retryCalls strategy) := by
  obtain ⟨hloop, hfinished⟩ := undongled_retry hmode hstep h.loop
  refine h.move rfl ?_ hloop
  have hmain : s.main.connected ∨ s.main = .joinRetry := (hj.retrying.scheduled.retrying halive).2
  have hbefore : sessionCalls s.main s.bt.retry = [.power true] := by
    obtain (hm | hm) | hm := hmain <;> simp [sessionCalls, hm, hunfinished]
  rw [hbefore]
  by_cases hoff : s.bt.retry = .powerOff
  · have hcalls : s.bt.retryCalls strategy = [.power false] := by
      simp [retryCalls, hoff, powerOffCalls, hmode]
    have hnext := hfinished.mpr hoff
    rw [hcalls]
    obtain (hm | hm) | hm := hmain <;> simp [sessionCalls, hm, hnext]
  · have hcalls : s.bt.retryCalls strategy = [] := by
      have hloop := h.loop
      unfold retryCalls
      split <;> simp_all
    have hnext : b.retry ≠ .finished := fun hf => hoff (hfinished.mp hf)
    rw [hcalls]
    obtain (hm | hm) | hm := hmain <;> simp [sessionCalls, hm, hnext]

theorem Undongled.step (hmode : u.strategy ≠ .dongleMode) (hadapter : u.adapter = true)
    (hj : Joining u s) (h : Undongled s log) (hstep : DaemonStep u s a s') :
    Undongled s' (log ++ adapterCalls u s a) := by
  cases hstep with
  | powered ok bt next pc effect =>
    have hretry := (powered_frame effect).2.2.1
    refine h.move rfl ?_ (hretry ▸ h.loop)
    obtain ⟨pc, rfl⟩ | ⟨pc, rfl⟩ := pc <;>
      simp [sessionCalls, adapterCalls, Daemon.mainCalls, powerOnCalls, pc, hmode]
  | retry bt attempts step =>
    have hunfinished : s.bt.retry ≠ .finished := by
      intro hf
      simp [Bluetooth.retryStep, hf] at step
    exact h.retry hmode hj (Bluetooth.retryStep_cases step) (retryStep_alive step) hunfinished
  | connect ok pc =>
    refine h.move rfl ?_ ?_
    · simp [sessionCalls, adapterCalls, Daemon.mainCalls, pc, Bluetooth.connectWithRetry, hadapter]
    · simp [Bluetooth.connectWithRetry, hadapter]
  | joinRetry ok pc ended =>
    refine h.move rfl ?_ (by simp)
    simp [sessionCalls, adapterCalls, Daemon.mainCalls, pc, ended]
  | mainStop ok pc =>
    refine h.move rfl ?_ (by simpa using h.loop)
    simp [sessionCalls, adapterCalls, Daemon.mainCalls, pc]
  | proxyStop ok pc =>
    refine h.move rfl ?_ (by simpa using h.loop)
    simp [adapterCalls]
  | joinProxy ok pc ended =>
    refine h.move rfl ?_ h.loop
    simp [sessionCalls, adapterCalls, Daemon.mainCalls, pc, hadapter]
  | pause ok pc =>
    refine ⟨?_, h.loop⟩
    rw [h.word, sessions_succ]
    simp [sessionCalls, adapterCalls, Daemon.mainCalls, pc]
  | _ =>
    refine h.move rfl ?_ h.loop
    simp_all [sessionCalls, adapterCalls, Daemon.mainCalls, Daemon.beginCall]

end undongled

/-- At the top of the main loop every iteration so far is whole. -/
theorem Undongled.top {log : List AdapterCall} (h : Undongled s log) (pc : s.main = .top) :
    log = sessions s.iteration := by
  have hword := h.word
  rw [pc] at hword
  exact hword.trans (List.append_nil _)

theorem Undongled.power_only {log : List AdapterCall} (h : Undongled s log) :
    ∀ c ∈ log, ∃ on, c = .power on := by
  have hsession (main : MainPc) (retry : RetryPc) : ∀ c ∈ sessionCalls main retry, ∃ on, c = .power on := by
    unfold sessionCalls
    split <;> (try split) <;> simp
  intro c hc
  rw [h.word, List.mem_append] at hc
  cases hc with
  | inl hc =>
    obtain ⟨l, hl, hc⟩ := List.mem_flatten.mp hc
    rw [(List.mem_replicate.mp hl).2] at hc
    simp only [List.mem_cons, List.not_mem_nil, or_false] at hc
    obtain rfl | rfl := hc
    · exact ⟨true, rfl⟩
    · exact ⟨false, rfl⟩
  | inr hc => exact hsession _ _ c hc

/-- Power calls are always allowed. -/
theorem power_legal {log : List AdapterCall} (h : ∀ c ∈ log, ∃ on, c = .power on) (r : Radio) :
    bluez.Legal r log := by
  induction log generalizing r with
  | nil => trivial
  | cons c log ih =>
    obtain ⟨on, rfl⟩ := h c (by simp)
    exact ⟨trivial, ih (fun c hc => h c (by simp [hc])) _⟩

theorem after_sessions (n : Nat) : bluez.after bluez.init (sessions n) = bluez.init := by
  induction n with
  | zero => rfl
  | succ n ih =>
    rw [sessions_succ, GuardedSystem.after_append, ih]
    rfl

/-! Whole runs -/

structure AdapterKept (u : Setup) (log : List AdapterCall) (s : Daemon) : Prop where
  joining : Joining u s
  radio : s.bt.radio = bluez.after bluez.init log
  dongled : u.strategy = .dongleMode → Dongled s log
  undongled : u.strategy ≠ .dongleMode → Undongled s log

theorem AdapterKept.step {log : List AdapterCall} (hadapter : u.adapter = true)
    (h : AdapterKept u log s) (hg : (daemon u).guard s a) :
    AdapterKept u (log ++ adapterCalls u s a) ((daemon u).effect s a) where
  joining := h.joining.step hadapter (daemon_step hg)
  radio := by
    rw [GuardedSystem.after_append, ← h.radio]
    exact step_radio hadapter (GuardedSystem.ofStep_effect hg)
  dongled hmode := (h.dongled hmode).step hmode hadapter h.joining (daemon_step hg)
  undongled hmode := (h.undongled hmode).step hmode hadapter h.joining (daemon_step hg)

theorem AdapterKept.start : AdapterKept u [] daemonStart where
  joining := Joining.start
  radio := rfl
  dongled _ := ⟨fun _ => rfl, fun h => absurd rfl h, trivial, by simp, nofun⟩
  undongled _ := ⟨rfl, nofun, nofun⟩

theorem adapterLog_kept {run : List DaemonAction} (hadapter : u.adapter = true)
    (hl : (daemon u).Legal daemonStart run) :
    AdapterKept u (adapterLog u run) ((daemon u).after daemonStart run) := by
  have hstep : ∀ log (s : Daemon) a, AdapterKept u log s → (daemon u).guard s a →
      AdapterKept u (log ++ adapterCalls u s a) ((daemon u).effect s a) :=
    fun _ _ _ h hg => h.step hadapter hg
  exact GuardedSystem.invariant_outputs hstep AdapterKept.start hl

/-- The adapter after a run, and all calls on it: BlueZ allows each one; in dongle mode it is
never powered off, otherwise never advertised, and powered once on and once off in every
iteration; `main` joins a retry thread only when its promise is satisfied. -/
structure AdapterLifecycle (u : Setup) (run : List DaemonAction) (s : Daemon) : Prop where
  allowed : bluez.Legal bluez.init (adapterLog u run)
  radio : s.bt.radio = bluez.after bluez.init (adapterLog u run)
  dongle : u.strategy = .dongleMode →
    .power false ∉ adapterLog u run ∧ (s.main ≠ .init → s.bt.powered = true)
  unadvertised : u.strategy ≠ .dongleMode →
    .register ∉ adapterLog u run ∧ .unregister ∉ adapterLog u run
  joining : s.main = .joinRetry → WaitsFor s.iteration s.bt ∧ s.bt.setCalls s.iteration ≠ 0
  off : u.strategy ≠ .dongleMode → s.main = .top → s.bt.powered = false
  iterations : u.strategy ≠ .dongleMode → s.main = .top → ∀ pre rest, run = pre ++ rest →
    ((daemon u).after daemonStart pre).main = .top →
    s.iteration = ((daemon u).after daemonStart pre).iteration + 1 →
    (daemon u).outputs (adapterCalls u) ((daemon u).after daemonStart pre) rest =
      [.power true, .power false]

theorem AdapterKept.legal {log : List AdapterCall} (h : AdapterKept u log s) :
    bluez.Legal bluez.init log := by
  by_cases hmode : u.strategy = .dongleMode
  · exact (h.dongled hmode).legal
  · exact power_legal (h.undongled hmode).power_only bluez.init

/-- Between two tops of the main loop. -/
theorem adapterLog_iteration {pre rest : List DaemonAction} (hadapter : u.adapter = true)
    (hmode : u.strategy ≠ .dongleMode) (hl : (daemon u).Legal daemonStart (pre ++ rest))
    (hpre : ((daemon u).after daemonStart pre).main = .top)
    (htop : ((daemon u).after daemonStart (pre ++ rest)).main = .top)
    (hnext : ((daemon u).after daemonStart (pre ++ rest)).iteration =
      ((daemon u).after daemonStart pre).iteration + 1) :
    (daemon u).outputs (adapterCalls u) ((daemon u).after daemonStart pre) rest =
      [.power true, .power false] := by
  have hl' := ((GuardedSystem.legal_append _ _ _).mp hl).1
  have hbefore := ((adapterLog_kept hadapter hl').undongled hmode).top hpre
  have hafter := ((adapterLog_kept hadapter hl).undongled hmode).top htop
  rw [hnext, sessions_succ, ← hbefore, adapterLog, GuardedSystem.outputs_append] at hafter
  exact List.append_cancel_left hafter

/-- The adapter's lifecycle over every run. -/
theorem adapter_lifecycle (u : Setup) (hadapter : u.adapter = true) (run : List DaemonAction)
    (hl : (daemon u).Legal daemonStart run) :
    AdapterLifecycle u run ((daemon u).after daemonStart run) := by
  have h := adapterLog_kept hadapter hl
  constructor
  case allowed => exact h.legal
  case radio => exact h.radio
  case dongle =>
    intro hmode
    have hd := h.dongled hmode
    refine ⟨hd.powered, fun hbegun => ?_⟩
    exact congrArg Radio.powered (h.radio.trans (hd.radio hbegun))
  case unadvertised =>
    intro hmode
    have honly := (h.undongled hmode).power_only
    constructor
    · intro hc
      obtain ⟨on, hon⟩ := honly _ hc
      cases hon
    · intro hc
      obtain ⟨on, hon⟩ := honly _ hc
      cases hon
  case joining => exact h.joining.joined
  case off =>
    intro hmode htop
    have hradio := h.radio
    rw [(h.undongled hmode).top htop, after_sessions] at hradio
    exact congrArg Radio.powered hradio
  case iterations =>
    intro hmode htop pre rest hsplit hpre hnext
    subst hsplit
    exact adapterLog_iteration hadapter hmode hl hpre htop hnext

/-- A session whose phone never comes. -/
def missedSession : List DaemonAction :=
  [.main true, .main true, .main true, .main true, .main true, .proxy false, .main true, .main true,
    .retry, .retry, .retry, .retry, .retry, .main true, .main true, .main true, .main true]

theorem adapter_lifecycle_missed : AdapterLifecycle ⟨.phoneFirst, true, bytes "dwc3"⟩ missedSession
    ((daemon ⟨.phoneFirst, true, bytes "dwc3"⟩).after daemonStart missedSession) :=
  adapter_lifecycle _ rfl missedSession (by decide)

end Aawgd
