import Mathlib.Logic.Function.Basic

/-! The Bluetooth handler: the adapter, the promise that ends the retry loop, and the
retry loop statement by statement. -/
namespace Aawgd

inductive ConnectionStrategy where
  | dongleMode | phoneFirst | usbFirst
  deriving DecidableEq

/-- Where the retry thread is. In `passive` and `wait` it waits for the promise;
`retried` tells whether a wait has timed out before this attempt. -/
inductive RetryPc where
  | idle | start | unadvertise | advertise
  | passive (waitCycles : Nat)
  | connect (retried : Bool)
  | wait | clear | powerOff | finished
  deriving DecidableEq

structure Bluetooth where
  /-- `connectWithRetryPromise`; a promise is known by the iteration that made it. -/
  promise : Option Nat
  setCalls : Nat → Nat
  retry : RetryPc
  /-- The promise the retry thread took its future from. -/
  future : Nat
  powered : Bool
  advertised : Bool
  crashed : Bool

/-- The top of the loop body: three passive waits come first in dongle mode. -/
def roundStart (strategy : ConnectionStrategy) (waitCycles : Nat) (retried : Bool) : RetryPc :=
  if strategy = .dongleMode ∧ waitCycles < 3 then .passive waitCycles else .connect retried

/-- After the loop the adapter is powered off outside dongle mode. -/
def afterLoop (strategy : ConnectionStrategy) : RetryPc :=
  if strategy = .dongleMode then .finished else .powerOff

namespace Bluetooth

/-- `RegisterAdvertisement`, an error when it is registered already. -/
def startAdvertising (adapter : Bool) (b : Bluetooth) : Bluetooth :=
  if adapter = false then b
  else { b with advertised := true, crashed := b.crashed || b.advertised }

/-- `UnregisterAdvertisement`, an error when it is not registered. -/
def stopAdvertising (adapter : Bool) (b : Bluetooth) : Bluetooth :=
  if adapter = false then b
  else { b with advertised := false, crashed := b.crashed || !b.advertised }

def setPower (adapter on : Bool) (b : Bluetooth) : Bluetooth :=
  if adapter = false then b else { b with powered := on }

def powerOn (strategy : ConnectionStrategy) (adapter : Bool) (b : Bluetooth) : Bluetooth :=
  if adapter = false then b
  else if strategy = .dongleMode then (b.setPower adapter true).startAdvertising adapter
  else b.setPower adapter true

def powerOff (strategy : ConnectionStrategy) (adapter : Bool) (b : Bluetooth) : Bluetooth :=
  if adapter = false then b
  else if strategy = .dongleMode then (b.stopAdvertising adapter).setPower adapter false
  else b.setPower adapter false

/-- Makes promise k and starts the retry thread. -/
def connectWithRetry (adapter : Bool) (k : Nat) (b : Bluetooth) : Bluetooth :=
  if adapter = false then b else { b with promise := some k, retry := .start }

/-- `set_value` on the current promise, which throws when it is already satisfied. -/
def stopConnectWithRetry (b : Bluetooth) : Bluetooth :=
  match b.promise with
  | none => b
  | some k =>
    { b with setCalls := Function.update b.setCalls k (b.setCalls k + 1),
             crashed := b.crashed || b.setCalls k != 0 }

/-- `wait_for` finds the future ready. -/
def ready (b : Bluetooth) : Bool := b.setCalls b.future != 0

/-- One statement of `retryConnectLoop`. -/
def retryStep (strategy : ConnectionStrategy) (adapter : Bool) (b : Bluetooth) :
    Option Bluetooth :=
  match b.retry with
  | .idle | .finished => none
  | .start =>
    match b.promise with
    | none => some { b with crashed := true }
    | some k =>
      if strategy = .dongleMode then some { b with future := k, retry := .unadvertise }
      else some { b with future := k, retry := roundStart strategy 0 false }
  | .unadvertise => some { b.stopAdvertising adapter with retry := .advertise }
  | .advertise => some { b.startAdvertising adapter with retry := roundStart strategy 0 false }
  | .passive waitCycles =>
    if b.ready = true then some { b with retry := afterLoop strategy }
    else some { b with retry := roundStart strategy (waitCycles + 1) true }
  | .connect _ => some { b with retry := .wait }
  | .wait =>
    if b.ready = true then some { b with retry := .clear }
    else some { b with retry := roundStart strategy 0 true }
  | .clear => some { b with promise := none, retry := afterLoop strategy }
  | .powerOff => some { b.powerOff strategy adapter with retry := .finished }

section frame
variable (strategy : ConnectionStrategy) (adapter : Bool) (b : Bluetooth)

@[simp] theorem powerOn_promise : (b.powerOn strategy adapter).promise = b.promise := by
  cases adapter <;> cases strategy <;> rfl

@[simp] theorem powerOn_setCalls : (b.powerOn strategy adapter).setCalls = b.setCalls := by
  cases adapter <;> cases strategy <;> rfl

@[simp] theorem powerOn_retry : (b.powerOn strategy adapter).retry = b.retry := by
  cases adapter <;> cases strategy <;> rfl

@[simp] theorem powerOn_future : (b.powerOn strategy adapter).future = b.future := by
  cases adapter <;> cases strategy <;> rfl

@[simp] theorem connect_setCalls (k : Nat) :
    (b.connectWithRetry adapter k).setCalls = b.setCalls := by
  cases adapter <;> rfl

@[simp] theorem stop_promise : b.stopConnectWithRetry.promise = b.promise := by
  unfold stopConnectWithRetry
  split <;> rfl

@[simp] theorem stop_retry : b.stopConnectWithRetry.retry = b.retry := by
  unfold stopConnectWithRetry
  split <;> rfl

@[simp] theorem stop_future : b.stopConnectWithRetry.future = b.future := by
  unfold stopConnectWithRetry
  split <;> rfl

/-- Only the current promise is set, and once more than before. -/
theorem stop_setCalls (k : Nat) : b.stopConnectWithRetry.setCalls k =
    if b.promise = some k then b.setCalls k + 1 else b.setCalls k := by
  unfold stopConnectWithRetry
  split
  next hnone => simp [hnone]
  next j hj =>
    by_cases hk : k = j
    · simp [hj, hk]
    · simp [hj, hk, Ne.symm hk]

variable {b}

/-- Powered on or left alone, the handler keeps its promise and its thread. -/
theorem powered_frame {strategy : ConnectionStrategy} {adapter : Bool} {b' : Bluetooth}
    (h : b' = b ∨ b' = b.powerOn strategy adapter) :
    b'.promise = b.promise ∧ b'.setCalls = b.setCalls ∧ b'.retry = b.retry ∧ b'.future = b.future := by
  cases h with
  | inl h => simp [h]
  | inr h => simp [h]

variable {k : Nat}

theorem stop_sets (h : b.promise = some k) : b.stopConnectWithRetry.setCalls k ≠ 0 := by
  simp [stop_setCalls, h]

theorem stop_keeps (h : b.setCalls k ≠ 0) : b.stopConnectWithRetry.setCalls k ≠ 0 := by
  rw [stop_setCalls]
  split <;> omega

end frame

/-- After `init`, before anything is powered. -/
def initial : Bluetooth where
  promise := none
  setCalls _ := 0
  retry := .idle
  future := 0
  powered := false
  advertised := false
  crashed := false

/-- What one statement of the retry loop can do. -/
inductive RetryStep (strategy : ConnectionStrategy) (b : Bluetooth) : Bluetooth → Prop
  | lost (pc : b.retry = .start) (missing : b.promise = none) :
    RetryStep strategy b { b with crashed := true }
  | start (k : Nat) (pc : b.retry = .start) (current : b.promise = some k) :
    RetryStep strategy b { b with future := k,
                                  retry := if strategy = .dongleMode then .unadvertise
                                    else roundStart strategy 0 false }
  | adapter (b' : Bluetooth) (next : RetryPc)
    (pc : b.retry = .unadvertise ∧ next = .advertise ∨
      b.retry = .advertise ∧ next = roundStart strategy 0 false ∨
      b.retry = .powerOff ∧ next = .finished)
    (promise : b'.promise = b.promise) (setCalls : b'.setCalls = b.setCalls)
    (future : b'.future = b.future) : RetryStep strategy b { b' with retry := next }
  | told (next : RetryPc)
    (pc : (∃ n, b.retry = .passive n) ∧ next = afterLoop strategy ∨
      b.retry = .wait ∧ next = .clear)
    (ready : b.ready = true) : RetryStep strategy b { b with retry := next }
  | timedOut (waitCycles : Nat) (pc : (∃ n, b.retry = .passive n) ∨ b.retry = .wait)
    (unready : b.ready = false) :
    RetryStep strategy b { b with retry := roundStart strategy waitCycles true }
  | connect (retried : Bool) (pc : b.retry = .connect retried) :
    RetryStep strategy b { b with retry := .wait }
  | clear (pc : b.retry = .clear) :
    RetryStep strategy b { b with promise := none, retry := afterLoop strategy }

section adapter
variable (strategy : ConnectionStrategy) (adapter : Bool) (b : Bluetooth)

theorem startAdvertising_frame : (b.startAdvertising adapter).promise = b.promise ∧
    (b.startAdvertising adapter).setCalls = b.setCalls ∧
    (b.startAdvertising adapter).future = b.future := by
  cases adapter <;> exact ⟨rfl, rfl, rfl⟩

theorem stopAdvertising_frame : (b.stopAdvertising adapter).promise = b.promise ∧
    (b.stopAdvertising adapter).setCalls = b.setCalls ∧
    (b.stopAdvertising adapter).future = b.future := by
  cases adapter <;> exact ⟨rfl, rfl, rfl⟩

theorem powerOff_frame : (b.powerOff strategy adapter).promise = b.promise ∧
    (b.powerOff strategy adapter).setCalls = b.setCalls ∧
    (b.powerOff strategy adapter).future = b.future := by
  cases adapter <;> cases strategy <;> exact ⟨rfl, rfl, rfl⟩

end adapter

theorem retryStep_cases {strategy : ConnectionStrategy} {adapter : Bool} {b b' : Bluetooth}
    (h : b.retryStep strategy adapter = some b') : RetryStep strategy b b' := by
  unfold retryStep at h
  split at h
  next => cases h
  next => cases h
  next hpc =>
    split at h
    next hnone =>
      cases h
      exact .lost hpc hnone
    next k hk =>
      have hstart : RetryStep strategy b _ := .start k hpc hk
      split at h
      next hdongle =>
        cases h
        rwa [if_pos hdongle] at hstart
      next hdongle =>
        cases h
        rwa [if_neg hdongle] at hstart
  next hpc =>
    cases h
    obtain ⟨h₁, h₂, h₃⟩ := stopAdvertising_frame adapter b
    exact .adapter _ _ (.inl ⟨hpc, rfl⟩) h₁ h₂ h₃
  next hpc =>
    cases h
    obtain ⟨h₁, h₂, h₃⟩ := startAdvertising_frame adapter b
    exact .adapter _ _ (.inr (.inl ⟨hpc, rfl⟩)) h₁ h₂ h₃
  next n hpc =>
    split at h
    next hready =>
      cases h
      exact .told _ (.inl ⟨⟨n, hpc⟩, rfl⟩) hready
    next hready =>
      cases h
      exact .timedOut _ (.inl ⟨n, hpc⟩) (by simpa using hready)
  next retried hpc =>
    cases h
    exact .connect retried hpc
  next hpc =>
    split at h
    next hready =>
      cases h
      exact .told _ (.inr ⟨hpc, rfl⟩) hready
    next hready =>
      cases h
      exact .timedOut 0 (.inr hpc) (by simpa using hready)
  next hpc =>
    cases h
    exact .clear hpc
  next hpc =>
    cases h
    obtain ⟨h₁, h₂, h₃⟩ := powerOff_frame strategy adapter b
    exact .adapter _ _ (.inr (.inr ⟨hpc, rfl⟩)) h₁ h₂ h₃

end Bluetooth

theorem afterLoop_ne_start (strategy : ConnectionStrategy) : afterLoop strategy ≠ .start := by
  unfold afterLoop
  split <;> simp

theorem roundStart_cases (strategy : ConnectionStrategy) (n : Nat) (retried : Bool) :
    roundStart strategy n retried = .passive n ∨
      roundStart strategy n retried = .connect retried := by
  unfold roundStart
  split
  · exact .inl rfl
  · exact .inr rfl

theorem retryStep_start {strategy : ConnectionStrategy} {b b' : Bluetooth}
    (h : b.RetryStep strategy b') (hpc : b'.retry = .start) : b.retry = .start := by
  cases h with
  | lost pc | start k pc => exact pc
  | adapter b' next pc =>
    have hround := roundStart_cases strategy 0 false
    cases hround <;> simp_all
  | told next pc =>
    have hafter := afterLoop_ne_start strategy
    simp_all
  | timedOut waitCycles =>
    have hround := roundStart_cases strategy waitCycles true
    cases hround <;> simp_all
  | connect => cases hpc
  | clear => exact absurd hpc (afterLoop_ne_start strategy)

theorem retryStep_future {strategy : ConnectionStrategy} {b b' : Bluetooth}
    (h : b.RetryStep strategy b') (hpc : b.retry ≠ .start) : b'.future = b.future := by
  cases h with
  | start k pc => exact absurd pc hpc
  | adapter b' next pc promise setCalls future => exact future
  | _ => rfl

theorem retryStep_setCalls {strategy : ConnectionStrategy} {b b' : Bluetooth}
    (h : b.RetryStep strategy b') : b'.setCalls = b.setCalls := by
  cases h with
  | adapter b' next pc promise setCalls future => exact setCalls
  | _ => rfl

end Aawgd
