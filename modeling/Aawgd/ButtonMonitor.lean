import Aawgd.GuardedSystem
import Mathlib.Algebra.BigOperators.Group.List.Basic
import Mathlib.Logic.Function.Basic

/-! The button monitor statement by statement: the loop of `main`, and the `Timer` threads
that run `evaluate_clicks`, both on the global variables `click_count` and `timer`. -/
namespace Aawgd.ButtonMonitor
open GuardedSystem

/-- A `Timer` and the next statement of its thread: `copying` is at `count = click_count`,
`resetting` at `click_count = 0`, `clearing` at `timer = None`, `deciding` at the `if`. -/
inductive TimerPc where
  | absent | created | pending | cancelled
  | copying
  | resetting (count : Nat)
  | clearing (count : Nat)
  | deciding (count : Nat)
  | done
  deriving DecidableEq

/-- The next statement of `main`: `testing` is at `if timer is not None`. An exception
ends the loop. -/
inductive MainPc where
  | waiting | testing | cancelling | creating | starting | ended
  deriving DecidableEq

structure Monitor where
  clickCount : Nat
  timer : Option Nat
  main : MainPc
  /-- The number of `Timer` objects so far. -/
  created : Nat
  timers : Nat → TimerPc

/-- The thread that executes its next statement; `main` waits for a press. -/
inductive Thread where
  | main
  | timer (i : Nat)
  deriving DecidableEq

namespace Monitor

def setTimer (s : Monitor) (i : Nat) (pc : TimerPc) : Monitor :=
  { s with timers := Function.update s.timers i pc }

/-- `Timer.cancel` keeps a timer from firing that has not begun to. -/
def cancel (s : Monitor) (i : Nat) : Monitor :=
  if s.timers i = .created ∨ s.timers i = .pending then s.setTimer i .cancelled else s

end Monitor

@[simp] theorem setTimer_self (s : Monitor) (i : Nat) (pc : TimerPc) :
    (s.setTimer i pc).timers i = pc := by
  simp [Monitor.setTimer]

@[simp] theorem setTimer_ne (s : Monitor) {i j : Nat} (pc : TimerPc) (h : j ≠ i) :
    (s.setTimer i pc).timers j = s.timers j := by
  simp [Monitor.setTimer, h]

@[simp] theorem setTimer_clickCount (s : Monitor) (i : Nat) (pc : TimerPc) :
    (s.setTimer i pc).clickCount = s.clickCount := rfl

@[simp] theorem cancel_clickCount (s : Monitor) (i : Nat) :
    (s.cancel i).clickCount = s.clickCount := by
  unfold Monitor.cancel
  split <;> rfl

/-- What the monitor does about the clicks of one burst. -/
inductive Command where
  | resetBluetooth | activateDebugMode
  deriving DecidableEq

/-- The end of `evaluate_clicks`. -/
def command? (count : Nat) : Option Command :=
  if count = 3 ∨ count = 4 then some .resetBluetooth
  else if 5 ≤ count then some .activateDebugMode
  else none

/-- The loop of `main`. A method called on `None`, or a second start, raises. -/
def mainStep (s : Monitor) : Option Monitor :=
  match s.main with
  | .waiting => some { s with clickCount := s.clickCount + 1, main := .testing }
  | .testing => some { s with main := if s.timer = none then .creating else .cancelling }
  | .cancelling =>
    match s.timer with
    | none => some { s with main := .ended }
    | some i => some { s.cancel i with main := .creating }
  | .creating =>
    some { s.setTimer s.created .created with
      timer := some s.created, created := s.created + 1, main := .starting }
  | .starting =>
    match s.timer with
    | none => some { s with main := .ended }
    | some i =>
      if s.timers i = .created then some { s.setTimer i .pending with main := .waiting }
      else some { s with main := .ended }
  | .ended => none

/-- The wait of a timer, then `evaluate_clicks`. -/
def timerStep (s : Monitor) (i : Nat) : Option Monitor :=
  match s.timers i with
  | .pending => some (s.setTimer i .copying)
  | .copying => some (s.setTimer i (.resetting s.clickCount))
  | .resetting count => some { s.setTimer i (.clearing count) with clickCount := 0 }
  | .clearing count => some { s.setTimer i (.deciding count) with timer := none }
  | .deciding _ => some (s.setTimer i .done)
  | .absent | .created | .cancelled | .done => none

def step (s : Monitor) : Thread → Option Monitor
  | .main => mainStep s
  | .timer i => timerStep s i

def start : Monitor where
  clickCount := 0
  timer := none
  main := .waiting
  created := 0
  timers _ := .absent

def monitor : GuardedSystem Monitor Thread := .ofStep start step

instance decidableMonitorGuard (s : Monitor) (a : Thread) : Decidable (monitor.guard s a) :=
  GuardedSystem.decidableGuardOfStep _ _ s a

/-! What a step can do -/

inductive Step (s : Monitor) : Thread → Monitor → Prop
  | press (at_main : s.main = .waiting) :
    Step s .main { s with clickCount := s.clickCount + 1, main := .testing }
  | test (at_main : s.main = .testing) :
    Step s .main { s with main := if s.timer = none then .creating else .cancelling }
  | cancelNone (at_main : s.main = .cancelling) (none : s.timer = none) :
    Step s .main { s with main := .ended }
  | cancel (i : Nat) (at_main : s.main = .cancelling) (current : s.timer = some i) :
    Step s .main { s.cancel i with main := .creating }
  | create (at_main : s.main = .creating) :
    Step s .main { s.setTimer s.created .created with
      timer := some s.created, created := s.created + 1, main := .starting }
  | startFails (at_main : s.main = .starting)
    (not_created : ∀ i, s.timer = some i → s.timers i ≠ .created) :
    Step s .main { s with main := .ended }
  | start (i : Nat) (at_main : s.main = .starting) (current : s.timer = some i)
    (new : s.timers i = .created) : Step s .main { s.setTimer i .pending with main := .waiting }
  | fire (i : Nat) (at_timer : s.timers i = .pending) : Step s (.timer i) (s.setTimer i .copying)
  | copy (i : Nat) (at_timer : s.timers i = .copying) :
    Step s (.timer i) (s.setTimer i (.resetting s.clickCount))
  | reset (i count : Nat) (at_timer : s.timers i = .resetting count) :
    Step s (.timer i) { s.setTimer i (.clearing count) with clickCount := 0 }
  | clear (i count : Nat) (at_timer : s.timers i = .clearing count) :
    Step s (.timer i) { s.setTimer i (.deciding count) with timer := none }
  | act (i count : Nat) (at_timer : s.timers i = .deciding count) :
    Step s (.timer i) (s.setTimer i .done)

theorem step_cases {s s' : Monitor} {a : Thread} (h : step s a = some s') : Step s a s' := by
  cases a with
  | main =>
    simp only [step, mainStep] at h
    split at h
    next hpc =>
      cases h
      exact .press hpc
    next hpc =>
      cases h
      exact .test hpc
    next hpc =>
      split at h
      next hnone =>
        cases h
        exact .cancelNone hpc hnone
      next i hi =>
        cases h
        exact .cancel i hpc hi
    next hpc =>
      cases h
      exact .create hpc
    next hpc =>
      split at h
      next hnone =>
        cases h
        exact .startFails hpc (by simp [hnone])
      next i hi =>
        split at h
        next hnew =>
          cases h
          exact .start i hpc hi hnew
        next hold =>
          cases h
          exact .startFails hpc (by simp [hi, hold])
    next => cases h
  | timer i =>
    simp only [step, timerStep] at h
    split at h
    next hpc =>
      cases h
      exact .fire i hpc
    next hpc =>
      cases h
      exact .copy i hpc
    next count hpc =>
      cases h
      exact .reset i count hpc
    next count hpc =>
      cases h
      exact .clear i count hpc
    next count hpc =>
      cases h
      exact .act i count hpc
    all_goals cases h

theorem monitor_step {s : Monitor} {a : Thread} (h : monitor.guard s a) :
    Step s a (monitor.effect s a) := step_cases (GuardedSystem.ofStep_effect h)

end Aawgd.ButtonMonitor
