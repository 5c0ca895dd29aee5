import Aawgd.Bluetooth
import Aawgd.GuardedSystem
import Aawgd.Usb

/-! The daemon over all its sessions: `main`, the proxy thread running `handleClient`,
the Bluetooth retry thread and the uevent monitor, interleaved statement by statement. -/
namespace Aawgd

structure Setup where
  strategy : ConnectionStrategy
  /-- A Bluetooth adapter was found. -/
  adapter : Bool
  udcName : Bytes

/-- The next statement of `main`. -/
inductive MainPc where
  | init | top | waiting | server | powerOn | connect | joinProxy | stop | joinRetry
  | disableDefault | disableAccessory | pause | exited
  deriving DecidableEq

/-- The next statement of `handleClient`; `idle` when there is no proxy thread. -/
inductive ProxyPc where
  | idle | accept | stop | begin | waiting | openUsb | configure | forwarding | finished
  deriving DecidableEq

/-- When the proxy thread of this iteration told the retry loop to stop: before or after
`connectWithRetry`, and whether the retry thread then stood between a wait that had
timed out and its `connectDevice`. -/
inductive StopSeen where
  | notYet
  | beforeRetry
  | afterRetry (connecting : Bool)
  deriving DecidableEq

structure Daemon where
  iteration : Nat
  main : MainPc
  proxy : ProxyPc
  bt : Bluetooth
  usb : Usb
  stop : StopSeen
  /-- The `connectDevice` attempts started in this iteration after that stop. -/
  attempts : Nat
  /-- `disableGadget` at the end of a session has completed and no call of
  `enableDefaultAndWaitForAccessory` has begun since. -/
  cleaned : Bool

namespace Daemon

/-- A step of the running call; the caller goes on at one of two places. -/
def callStep (u : Setup) (timeout : Bool) (s : Daemon) (returned : Bool → Daemon → Daemon) :
    Option Daemon :=
  match s.usb.callStep u.udcName timeout with
  | none => none
  | some (usb, none) => some { s with usb := usb }
  | some (usb, some value) => some (returned value { s with usb := usb })

def beginCall (s : Daemon) : Daemon := { s with usb := s.usb.beginCall, cleaned := false }

/-- One statement of `main`; ok is the outcome of `startServer`. -/
def mainStep (u : Setup) (ok : Bool) (s : Daemon) : Option Daemon :=
  match s.main with
  | .init =>
    if u.strategy = .dongleMode then
      some { s with bt := s.bt.powerOn u.strategy u.adapter, main := .top }
    else some { s with main := .top }
  | .top =>
    if u.strategy = .usbFirst then some { s.beginCall with main := .waiting }
    else some { s with main := .server }
  | .waiting => s.callStep u false fun _ s => { s with main := .server }
  | .server =>
    if ok = true then some { s with proxy := .accept, main := .powerOn }
    else some { s with main := .exited }
  | .powerOn =>
    if u.strategy = .dongleMode then some { s with main := .connect }
    else some { s with bt := s.bt.powerOn u.strategy u.adapter, main := .connect }
  | .connect =>
    some { s with bt := s.bt.connectWithRetry u.adapter s.iteration, main := .joinProxy }
  | .joinProxy =>
    if s.proxy = .finished then
      some { s with proxy := .idle, main := if u.adapter = true then .stop else .disableDefault }
    else none
  | .stop => some { s with bt := s.bt.stopConnectWithRetry, main := .joinRetry }
  | .joinRetry =>
    if s.bt.retry = .finished then
      some { s with bt := { s.bt with retry := .idle }, main := .disableDefault }
    else none
  | .disableDefault =>
    some { s with usb := s.usb.disableGadget .default, main := .disableAccessory }
  | .disableAccessory =>
    some { s with usb := s.usb.disableGadget .accessory, cleaned := true, main := .pause }
  | .pause =>
    some { s with iteration := s.iteration + 1, stop := .notYet, attempts := 0, main := .top }
  | .exited => none

def seeStop (s : Daemon) : StopSeen :=
  if s.main = .joinProxy then .afterRetry (s.bt.retry = .connect true) else .beforeRetry

/-- One statement of `handleClient`; ok is the outcome of `accept`, `open` or
`setsockopt`. -/
def proxyStep (u : Setup) (ok : Bool) (s : Daemon) : Option Daemon :=
  match s.proxy with
  | .idle | .finished => none
  | .accept => some { s with proxy := if ok = true then .stop else .finished }
  | .stop =>
    some { s with bt := s.bt.stopConnectWithRetry, stop := s.seeStop,
                  proxy := if u.strategy = .usbFirst then .openUsb else .begin }
  | .begin => some { s.beginCall with proxy := .waiting }
  | .waiting =>
    s.callStep u true fun started s => { s with proxy := if started = true then .openUsb else .finished }
  | .openUsb => some { s with proxy := if ok = true then .configure else .finished }
  | .configure => some { s with proxy := if ok = true then .forwarding else .finished }
  | .forwarding => some { s with proxy := .finished }

def retryStep (u : Setup) (s : Daemon) : Option Daemon :=
  match s.bt.retryStep u.strategy u.adapter with
  | none => none
  | some bt =>
    match s.bt.retry with
    | .connect _ =>
      some { s with bt := bt, attempts := if s.stop = .notYet then s.attempts else s.attempts + 1 }
    | _ => some { s with bt := bt }

end Daemon

inductive DaemonAction where
  | main (ok : Bool)
  | proxy (ok : Bool)
  | retry
  | uevent (env : UeventEnv)
  | monitor
  deriving DecidableEq

/-- Nothing happens after an uncaught exception. -/
def daemonStep (u : Setup) (s : Daemon) (a : DaemonAction) : Option Daemon :=
  if s.bt.crashed = true ∨ s.usb.crashed = true then none
  else
    match a with
    | .main ok => s.mainStep u ok
    | .proxy ok => s.proxyStep u ok
    | .retry => s.retryStep u
    | .uevent env => (s.usb.receive env).map fun usb => { s with usb := usb }
    | .monitor => (s.usb.monitorStep u.udcName).map fun usb => { s with usb := usb }

def daemonStart : Daemon where
  iteration := 0
  main := .init
  proxy := .idle
  bt := Bluetooth.initial
  usb := Usb.start
  stop := .notYet
  attempts := 0
  cleaned := false

def daemon (u : Setup) : GuardedSystem Daemon DaemonAction := .ofStep daemonStart (daemonStep u)

instance decidableDaemonGuard (u : Setup) (s : Daemon) (a : DaemonAction) :
    Decidable ((daemon u).guard s a) := GuardedSystem.decidableGuardOfStep _ _ s a

/-! What a step can do -/

inductive DaemonStep (u : Setup) (s : Daemon) : DaemonAction → Daemon → Prop
  | powered (ok : Bool) (bt : Bluetooth) (next : MainPc)
    (pc : s.main = .init ∧ next = .top ∨ s.main = .powerOn ∧ next = .connect)
    (effect : bt = s.bt ∨ bt = s.bt.powerOn u.strategy u.adapter) :
    DaemonStep u s (.main ok) { s with bt := bt, main := next }
  | waitFirst (ok : Bool) (pc : s.main = .top) (first : u.strategy = .usbFirst) :
    DaemonStep u s (.main ok) { s.beginCall with main := .waiting }
  | waitLater (ok : Bool) (pc : s.main = .top) (later : u.strategy ≠ .usbFirst) :
    DaemonStep u s (.main ok) { s with main := .server }
  | mainWaits (ok : Bool) (usb : Usb) (pc : s.main = .waiting)
    (call : s.usb.callStep u.udcName false = some (usb, none)) :
    DaemonStep u s (.main ok) { s with usb := usb }
  | mainReturns (ok : Bool) (usb : Usb) (started : Bool) (pc : s.main = .waiting)
    (call : s.usb.callStep u.udcName false = some (usb, some started)) :
    DaemonStep u s (.main ok) { s with usb := usb, main := .server }
  | serve (pc : s.main = .server) :
    DaemonStep u s (.main true) { s with proxy := .accept, main := .powerOn }
  | giveUp (pc : s.main = .server) : DaemonStep u s (.main false) { s with main := .exited }
  | connect (ok : Bool) (pc : s.main = .connect) :
    DaemonStep u s (.main ok)
      { s with bt := s.bt.connectWithRetry u.adapter s.iteration, main := .joinProxy }
  | joinProxy (ok : Bool) (pc : s.main = .joinProxy) (ended : s.proxy = .finished) :
    DaemonStep u s (.main ok)
      { s with proxy := .idle, main := if u.adapter = true then .stop else .disableDefault }
  | mainStop (ok : Bool) (pc : s.main = .stop) :
    DaemonStep u s (.main ok) { s with bt := s.bt.stopConnectWithRetry, main := .joinRetry }
  | joinRetry (ok : Bool) (pc : s.main = .joinRetry) (ended : s.bt.retry = .finished) :
    DaemonStep u s (.main ok) { s with bt := { s.bt with retry := .idle }, main := .disableDefault }
  | disableDefault (ok : Bool) (pc : s.main = .disableDefault) :
    DaemonStep u s (.main ok)
      { s with usb := s.usb.disableGadget .default, main := .disableAccessory }
  | disableAccessory (ok : Bool) (pc : s.main = .disableAccessory) :
    DaemonStep u s (.main ok)
      { s with usb := s.usb.disableGadget .accessory, cleaned := true, main := .pause }
  | pause (ok : Bool) (pc : s.main = .pause) :
    DaemonStep u s (.main ok)
      { s with iteration := s.iteration + 1, stop := .notYet, attempts := 0, main := .top }
  | proxyStop (ok : Bool) (pc : s.proxy = .stop) :
    DaemonStep u s (.proxy ok)
      { s with bt := s.bt.stopConnectWithRetry, stop := s.seeStop,
               proxy := if u.strategy = .usbFirst then .openUsb else .begin }
  | proxyBegins (ok : Bool) (pc : s.proxy = .begin) :
    DaemonStep u s (.proxy ok) { s.beginCall with proxy := .waiting }
  | proxyWaits (ok : Bool) (usb : Usb) (pc : s.proxy = .waiting)
    (call : s.usb.callStep u.udcName true = some (usb, none)) :
    DaemonStep u s (.proxy ok) { s with usb := usb }
  | proxyReturns (ok : Bool) (usb : Usb) (started : Bool) (pc : s.proxy = .waiting)
    (call : s.usb.callStep u.udcName true = some (usb, some started)) :
    DaemonStep u s (.proxy ok)
      { s with usb := usb, proxy := if started = true then .openUsb else .finished }
  | proxyAdvances (ok : Bool) (next : ProxyPc)
    (pc : s.proxy = .accept ∧ next = .stop ∨ s.proxy = .openUsb ∧ next = .configure ∨
      s.proxy = .configure ∧ next = .forwarding ∨
      (s.proxy = .accept ∨ s.proxy = .openUsb ∨ s.proxy = .configure ∨ s.proxy = .forwarding) ∧
        next = .finished) :
    DaemonStep u s (.proxy ok) { s with proxy := next }
  | retry (bt : Bluetooth) (attempts : Nat)
    (step : s.bt.retryStep u.strategy u.adapter = some bt)
    (counted : attempts = s.attempts ∨
      attempts = s.attempts + 1 ∧ s.stop ≠ .notYet ∧ ∃ retried, s.bt.retry = .connect retried) :
    DaemonStep u s .retry { s with bt := bt, attempts := attempts }
  | uevent (env : UeventEnv) (usb : Usb) (received : s.usb.receive env = some usb) :
    DaemonStep u s (.uevent env) { s with usb := usb }
  | monitor (usb : Usb) (step : s.usb.monitorStep u.udcName = some usb) :
    DaemonStep u s .monitor { s with usb := usb }

theorem mainStep_cases {u : Setup} {s s' : Daemon} {ok : Bool} (h : s.mainStep u ok = some s') :
    DaemonStep u s (.main ok) s' := by
  unfold Daemon.mainStep at h
  split at h
  next hpc =>
    split at h
    · cases h
      exact .powered ok _ _ (.inl ⟨hpc, rfl⟩) (.inr rfl)
    · cases h
      exact .powered ok s.bt _ (.inl ⟨hpc, rfl⟩) (.inl rfl)
  next hpc =>
    split at h
    next hfirst =>
      cases h
      exact .waitFirst ok hpc hfirst
    next hlater =>
      cases h
      exact .waitLater ok hpc hlater
  next hpc =>
    unfold Daemon.callStep at h
    split at h
    next => cases h
    next usb hcall =>
      cases h
      exact .mainWaits ok usb hpc hcall
    next usb started hcall =>
      cases h
      exact .mainReturns ok usb started hpc hcall
  next hpc =>
    cases ok with
    | true =>
      cases h
      exact .serve hpc
    | false =>
      cases h
      exact .giveUp hpc
  next hpc =>
    split at h
    · cases h
      exact .powered ok s.bt _ (.inr ⟨hpc, rfl⟩) (.inl rfl)
    · cases h
      exact .powered ok _ _ (.inr ⟨hpc, rfl⟩) (.inr rfl)
  next hpc =>
    cases h
    exact .connect ok hpc
  next hpc =>
    split at h
    next hended =>
      cases h
      exact .joinProxy ok hpc hended
    next => cases h
  next hpc =>
    cases h
    exact .mainStop ok hpc
  next hpc =>
    split at h
    next hended =>
      cases h
      exact .joinRetry ok hpc hended
    next => cases h
  next hpc =>
    cases h
    exact .disableDefault ok hpc
  next hpc =>
    cases h
    exact .disableAccessory ok hpc
  next hpc =>
    cases h
    exact .pause ok hpc
  next => cases h

theorem proxyStep_cases {u : Setup} {s s' : Daemon} {ok : Bool} (h : s.proxyStep u ok = some s') :
    DaemonStep u s (.proxy ok) s' := by
  unfold Daemon.proxyStep at h
  split at h
  next => cases h
  next => cases h
  next hpc =>
    cases h
    exact .proxyAdvances ok _ (by cases ok <;> simp [hpc])
  next hpc =>
    cases h
    exact .proxyStop ok hpc
  next hpc =>
    cases h
    exact .proxyBegins ok hpc
  next hpc =>
    unfold Daemon.callStep at h
    split at h
    next => cases h
    next usb hcall =>
      cases h
      exact .proxyWaits ok usb hpc hcall
    next usb started hcall =>
      cases h
      exact .proxyReturns ok usb started hpc hcall
  next hpc =>
    cases h
    exact .proxyAdvances ok _ (by cases ok <;> simp [hpc])
  next hpc =>
    cases h
    exact .proxyAdvances ok _ (by cases ok <;> simp [hpc])
  next hpc =>
    cases h
    exact .proxyAdvances ok _ (by simp [hpc])

theorem retryStep_cases {u : Setup} {s s' : Daemon} (h : s.retryStep u = some s') :
    DaemonStep u s .retry s' := by
  unfold Daemon.retryStep at h
  split at h
  next => cases h
  next bt hbt =>
    split at h
    next retried hpc =>
      cases h
      apply DaemonStep.retry bt _ hbt
      by_cases hstop : s.stop = .notYet
      · exact .inl (by simp [hstop])
      · exact .inr ⟨by simp [hstop], hstop, retried, hpc⟩
    next =>
      cases h
      exact .retry bt s.attempts hbt (.inl rfl)

theorem daemonStep_cases {u : Setup} {s s' : Daemon} {a : DaemonAction}
    (h : daemonStep u s a = some s') :
    s.bt.crashed = false ∧ s.usb.crashed = false ∧ DaemonStep u s a s' := by
  unfold daemonStep at h
  split at h
  next => cases h
  next halive =>
    simp only [not_or, Bool.not_eq_true] at halive
    refine ⟨halive.1, halive.2, ?_⟩
    cases a with
    | main ok => exact mainStep_cases h
    | proxy ok => exact proxyStep_cases h
    | retry => exact retryStep_cases h
    | uevent env =>
      obtain ⟨usb, husb, rfl⟩ := Option.map_eq_some_iff.mp h
      exact .uevent env usb husb
    | monitor =>
      obtain ⟨usb, husb, rfl⟩ := Option.map_eq_some_iff.mp h
      exact .monitor usb husb

theorem daemon_step {u : Setup} {s : Daemon} {a : DaemonAction} (h : (daemon u).guard s a) :
    DaemonStep u s a ((daemon u).effect s a) :=
  (daemonStep_cases (GuardedSystem.ofStep_effect h)).2.2

end Aawgd
