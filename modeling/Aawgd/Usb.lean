import Aawgd.Uevent
import Mathlib.Logic.Function.Basic

/-! The USB manager and the uevent monitor: the UDC files of the two gadgets, a call of
`enableDefaultAndWaitForAccessory`, the handler it registers, and the monitor thread
that runs the handlers step by step. -/
namespace Aawgd

inductive Gadget where
  | default | accessory
  deriving DecidableEq

/-- Where a call of `enableDefaultAndWaitForAccessory` is; `add` is its first statement
after the promise exists. -/
inductive CallPc where
  | idle | add | enable | wait
  deriving DecidableEq

/-- Where the monitor thread is. In the last three the handler of call k holds its
promise and is inside `switchToAccessoryGadget` or about to set the promise. -/
inductive MonitorPc where
  | idle
  | check (env : UeventEnv)
  | advance (env : UeventEnv)
  | release (env : UeventEnv) (k : Nat)
  | engage (env : UeventEnv) (k : Nat)
  | fulfil (env : UeventEnv) (k : Nat)
  deriving DecidableEq

structure Usb where
  /-- The last content written to the gadget's UDC file. -/
  udc : Gadget → Bytes
  call : CallPc
  /-- The calls made so far; call k's promise and handler are numbered k. -/
  calls : Nat
  handlers : ListCursor Nat
  monitor : MonitorPc
  setCalls : Nat → Nat
  crashed : Bool

/-- What a handler makes of an event. -/
inductive Verdict where
  | expired | ignored | accepted
  deriving DecidableEq

/-- The handler of a call up to `switchToAccessoryGadget`; `locked` tells whether the
weak pointer to the promise could be locked. -/
def accessoryHandler (locked : Bool) (env : UeventEnv) : Verdict :=
  if locked = false then .expired
  else if env.lookup (bytes "DEVNAME") ≠ some (bytes "usb_accessory") then .ignored
  else if env.lookup (bytes "ACCESSORY") ≠ some (bytes "START") then .ignored
  else .accepted

/-- DEVNAME is usb_accessory and ACCESSORY is START. -/
def starts (env : UeventEnv) : Prop := accessoryHandler true env = .accepted

instance decidableStarts (env : UeventEnv) : Decidable (starts env) :=
  inferInstanceAs (Decidable (_ = _))

def startEvent : UeventEnv :=
  [(bytes "DEVNAME", bytes "usb_accessory"), (bytes "ACCESSORY", bytes "START")]

namespace Usb

def writeGadgetFile (u : Usb) (name : Gadget) (content : Bytes) : Usb :=
  { u with udc := Function.update u.udc name content }

def enableGadget (udcName : Bytes) (u : Usb) (name : Gadget) : Usb := u.writeGadgetFile name udcName

def disableGadget (u : Usb) (name : Gadget) : Usb := u.writeGadgetFile name []

def enabled (u : Usb) (name : Gadget) : Bool := u.udc name != []

/-- The promise of call k lives as long as the call; a handler that has locked it
keeps it itself. -/
def alive (u : Usb) (k : Nat) : Bool := k = u.calls ∧ u.call ≠ .idle

/-- `promise->set_value()`, which throws when the promise is already satisfied. -/
def setValue (u : Usb) (k : Nat) : Usb :=
  { u with setCalls := Function.update u.setCalls k (u.setCalls k + 1),
           crashed := u.crashed || u.setCalls k != 0 }

def beginCall (u : Usb) : Usb := { u with call := .add, calls := u.calls + 1 }

/-- One statement of the running call, with its result when it returns. `timeout`
tells whether the call was given one. -/
def callStep (udcName : Bytes) (timeout : Bool) (u : Usb) : Option (Usb × Option Bool) :=
  match u.call with
  | .idle => none
  | .add => some ({ u with handlers := u.handlers.pushBack u.calls, call := .enable }, none)
  | .enable => some ({ u.enableGadget udcName .default with call := .wait }, none)
  | .wait =>
    if u.setCalls u.calls ≠ 0 then some ({ u with call := .idle }, some true)
    else if timeout = true then some ({ u with call := .idle }, some false)
    else none

/-- The monitor thread reads an event. -/
def receive (u : Usb) (env : UeventEnv) : Option Usb :=
  match u.monitor with
  | .idle => some { u with handlers := ListCursor.start u.handlers.toList, monitor := .check env }
  | _ => none

/-- One statement of the monitor's loop over the handlers, or of the handler it runs. -/
def monitorStep (udcName : Bytes) (u : Usb) : Option Usb :=
  match u.monitor with
  | .idle => none
  | .check env =>
    match u.handlers.after with
    | [] => some { u with monitor := .idle }
    | k :: _ =>
      match accessoryHandler (u.alive k) env with
      | .expired => some { u with handlers := u.handlers.erase, monitor := .advance env }
      | .ignored => some { u with monitor := .advance env }
      | .accepted => some { u with monitor := .release env k }
  | .advance env => some { u with handlers := u.handlers.next, monitor := .check env }
  | .release env k => some { u.disableGadget .default with monitor := .engage env k }
  | .engage env k => some { u.enableGadget udcName .accessory with monitor := .fulfil env k }
  | .fulfil env k =>
    some { u.setValue k with handlers := u.handlers.erase, monitor := .advance env }

/-- Before the first session: the constructor has disabled both gadgets. -/
def start : Usb where
  udc _ := []
  call := .idle
  calls := 0
  handlers := ListCursor.start []
  monitor := .idle
  setCalls _ := 0
  crashed := false

/-! What a step can do -/

inductive CallStep (udcName : Bytes) (timeout : Bool) (u : Usb) : Usb → Option Bool → Prop
  | add (pc : u.call = .add) :
    CallStep udcName timeout u { u with handlers := u.handlers.pushBack u.calls, call := .enable }
      none
  | enable (pc : u.call = .enable) :
    CallStep udcName timeout u { u.enableGadget udcName .default with call := .wait } none
  | ready (pc : u.call = .wait) (set : u.setCalls u.calls ≠ 0) :
    CallStep udcName timeout u { u with call := .idle } (some true)
  | timedOut (pc : u.call = .wait) (unset : u.setCalls u.calls = 0) (limited : timeout = true) :
    CallStep udcName timeout u { u with call := .idle } (some false)

theorem callStep_cases {udcName : Bytes} {timeout : Bool} {u u' : Usb} {value : Option Bool}
    (h : u.callStep udcName timeout = some (u', value)) :
    CallStep udcName timeout u u' value := by
  unfold callStep at h
  split at h
  next => cases h
  next hpc =>
    cases h
    exact .add hpc
  next hpc =>
    cases h
    exact .enable hpc
  next hpc =>
    split at h
    next hset =>
      cases h
      exact .ready hpc hset
    next hset =>
      split at h
      next hlimited =>
        cases h
        exact .timedOut hpc (by omega) hlimited
      next => cases h

theorem CallStep.enabled {udcName : Bytes} {timeout : Bool} {u u' : Usb} {value : Option Bool}
    (h : CallStep udcName timeout u u' value) : u.callStep udcName timeout = some (u', value) := by
  cases h with
  | add pc | enable pc => simp [callStep, pc]
  | ready pc set => simp [callStep, pc, set]
  | timedOut pc unset limited => simp [callStep, pc, unset, limited]

theorem CallStep.running {udcName : Bytes} {timeout : Bool} {u u' : Usb} {value : Option Bool}
    (h : CallStep udcName timeout u u' value) : u.call ≠ .idle := by
  cases h with
  | add pc | enable pc | ready pc | timedOut pc => simp [pc]

theorem CallStep.returned {udcName : Bytes} {timeout value : Bool} {u u' : Usb}
    (h : CallStep udcName timeout u u' (some value)) : u' = { u with call := .idle } ∧
      (value = true ↔ u.setCalls u.calls ≠ 0) ∧ (value = true ∨ timeout = true) := by
  cases h with
  | ready pc set => simp [set]
  | timedOut pc unset limited => simp [unset, limited]

inductive MonitorStep (udcName : Bytes) (u : Usb) : Usb → Prop
  | done (env : UeventEnv) (pc : u.monitor = .check env) (none : u.handlers.after = []) :
    MonitorStep udcName u { u with monitor := .idle }
  | expired (env : UeventEnv) (k : Nat) (pc : u.monitor = .check env)
    (at_handler : u.handlers.after.head? = some k)
    (verdict : accessoryHandler (u.alive k) env = .expired) :
    MonitorStep udcName u { u with handlers := u.handlers.erase, monitor := .advance env }
  | ignored (env : UeventEnv) (k : Nat) (pc : u.monitor = .check env)
    (at_handler : u.handlers.after.head? = some k)
    (verdict : accessoryHandler (u.alive k) env = .ignored) :
    MonitorStep udcName u { u with monitor := .advance env }
  | accepted (env : UeventEnv) (k : Nat) (pc : u.monitor = .check env)
    (at_handler : u.handlers.after.head? = some k)
    (verdict : accessoryHandler (u.alive k) env = .accepted) :
    MonitorStep udcName u { u with monitor := .release env k }
  | advance (env : UeventEnv) (pc : u.monitor = .advance env) :
    MonitorStep udcName u { u with handlers := u.handlers.next, monitor := .check env }
  | release (env : UeventEnv) (k : Nat) (pc : u.monitor = .release env k) :
    MonitorStep udcName u { u.disableGadget .default with monitor := .engage env k }
  | engage (env : UeventEnv) (k : Nat) (pc : u.monitor = .engage env k) :
    MonitorStep udcName u { u.enableGadget udcName .accessory with monitor := .fulfil env k }
  | fulfil (env : UeventEnv) (k : Nat) (pc : u.monitor = .fulfil env k) :
    MonitorStep udcName u
      { u.setValue k with handlers := u.handlers.erase, monitor := .advance env }

theorem monitorStep_cases {udcName : Bytes} {u u' : Usb} (h : u.monitorStep udcName = some u') :
    MonitorStep udcName u u' := by
  unfold monitorStep at h
  split at h
  next => cases h
  next env hpc =>
    split at h
    next hnone =>
      cases h
      exact .done env hpc hnone
    next k rest hafter =>
      have hk : u.handlers.after.head? = some k := by simp [hafter]
      split at h
      next hverdict =>
        cases h
        exact .expired env k hpc hk hverdict
      next hverdict =>
        cases h
        exact .ignored env k hpc hk hverdict
      next hverdict =>
        cases h
        exact .accepted env k hpc hk hverdict
  next env hpc =>
    cases h
    exact .advance env hpc
  next env k hpc =>
    cases h
    exact .release env k hpc
  next env k hpc =>
    cases h
    exact .engage env k hpc
  next env k hpc =>
    cases h
    exact .fulfil env k hpc

/-- The monitor thread neither runs the call nor enables the default gadget. -/
theorem MonitorStep.frame {udcName : Bytes} {u u' : Usb} (h : MonitorStep udcName u u') :
    u'.call = u.call ∧ u'.calls = u.calls ∧ (u.udc .default = [] → u'.udc .default = []) := by
  cases h with
  | release | engage =>
    simp [disableGadget, enableGadget, writeGadgetFile]
  | _ => exact ⟨rfl, rfl, id⟩

/-- A promise stays satisfied. -/
theorem MonitorStep.keeps {udcName : Bytes} {u u' : Usb} (h : MonitorStep udcName u u') {k : Nat}
    (hk : u.setCalls k ≠ 0) : u'.setCalls k ≠ 0 := by
  cases h with
  | fulfil env j pc =>
    by_cases hj : k = j
    · simp [setValue, hj]
    · simpa [setValue, hj] using hk
  | _ => exact hk

theorem receive_eq {u u' : Usb} {env : UeventEnv} (h : u.receive env = some u') :
    u.monitor = .idle ∧
      u' = { u with handlers := ListCursor.start u.handlers.toList, monitor := .check env } := by
  unfold receive at h
  split at h
  next hpc =>
    cases h
    exact ⟨hpc, rfl⟩
  next => cases h

/-- Only a handler whose call is still running gets past its lock. -/
theorem alive_of_accepted {locked : Bool} {env : UeventEnv}
    (h : accessoryHandler locked env = .accepted) : locked = true := by
  cases locked with
  | true => rfl
  | false => simp [accessoryHandler] at h

theorem expired_iff {locked : Bool} {env : UeventEnv} :
    accessoryHandler locked env = .expired ↔ locked = false := by
  unfold accessoryHandler
  split
  next hlocked => exact iff_of_true rfl hlocked
  next hlocked =>
    apply iff_of_false _ hlocked
    split
    · simp
    · split <;> simp

theorem alive_iff {u : Usb} {k : Nat} : u.alive k = true ↔ k = u.calls ∧ u.call ≠ .idle := by
  simp [alive]

end Usb

end Aawgd
