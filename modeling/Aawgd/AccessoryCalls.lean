import Aawgd.GuardedSystem
import Aawgd.UsbHandlers

/-! The USB manager under any calls of `enableDefaultAndWaitForAccessory`, one after
another, any uevents and any cleanups, interleaved with the monitor thread. -/
namespace Aawgd

inductive UsbAction where
  | begin
  | call (timeout : Bool)
  | disable (name : Gadget)
  | uevent (env : UeventEnv)
  | monitor
  deriving DecidableEq

namespace Usb

/-- Nothing happens after an uncaught exception. -/
def step (udcName : Bytes) (u : Usb) (a : UsbAction) : Option Usb :=
  if u.crashed = true then none
  else
    match a with
    | .begin => if u.call = .idle then some u.beginCall else none
    | .call timeout => (u.callStep udcName timeout).map Prod.fst
    | .disable name => some (u.disableGadget name)
    | .uevent env => u.receive env
    | .monitor => u.monitorStep udcName

inductive Step (udcName : Bytes) (u : Usb) : UsbAction → Usb → Prop
  | begin (idle : u.call = .idle) : Step udcName u .begin u.beginCall
  | call (timeout : Bool) (u' : Usb) (value : Option Bool)
    (call : CallStep udcName timeout u u' value) : Step udcName u (.call timeout) u'
  | disable (name : Gadget) : Step udcName u (.disable name) (u.disableGadget name)
  | uevent (env : UeventEnv) (u' : Usb) (received : u.receive env = some u') :
    Step udcName u (.uevent env) u'
  | monitor (u' : Usb) (step : u.monitorStep udcName = some u') : Step udcName u .monitor u'

section
variable {udcName : Bytes} {u u' : Usb} {a : UsbAction}

theorem step_cases (h : u.step udcName a = some u') : Step udcName u a u' := by
  unfold step at h
  split at h
  next => cases h
  next =>
    cases a with
    | begin =>
      simp only [Option.ite_none_right_eq_some, Option.some.injEq] at h
      obtain ⟨hidle, rfl⟩ := h
      exact .begin hidle
    | call timeout =>
      obtain ⟨result, hcall, rfl⟩ := Option.map_eq_some_iff.mp h
      exact .call timeout result.1 result.2 (callStep_cases hcall)
    | disable name =>
      cases h
      exact .disable name
    | uevent env => exact .uevent env u' h
    | monitor => exact .monitor u' h

theorem Step.enabled (hrunning : u.crashed = false) (h : Step udcName u a u') :
    u.step udcName a = some u' := by
  cases h with
  | begin idle => simp [step, hrunning, idle]
  | call timeout u' value call => simp [step, hrunning, call.enabled]
  | disable name => simp [step, hrunning]
  | uevent env u' received => simp [step, hrunning, received]
  | monitor u' step => simp [Usb.step, hrunning, step]

end

end Usb

/-- The call has registered its handler and still waits for its promise. -/
def Usb.Waiting (u : Usb) : Prop := (u.call = .enable ∨ u.call = .wait) ∧ u.setCalls u.calls = 0

instance decidableWaiting (u : Usb) : Decidable u.Waiting := inferInstanceAs (Decidable (_ ∧ _))

theorem Usb.Waiting.alive {u : Usb} (h : u.Waiting) : u.alive u.calls = true := by
  obtain ⟨hcall, -⟩ := h
  cases hcall <;> simp_all [Usb.alive]

/-- The promise of a handler in the list is unsatisfied, and the handler of a call that
waits is the last one. -/
structure Listed (u : Usb) : Prop where
  handled : Handled u
  nodup : u.handlers.toList.Nodup
  unsatisfied : ∀ k ∈ u.handlers.toList, u.setCalls k = 0
  once : ∀ k, u.setCalls k ≤ 1
  last : u.Waiting → u.handlers.toList.getLast? = some u.calls
  head : ∀ k, u.monitor.held? = some k → u.handlers.after.head? = some k
  running : u.crashed = false

section listed
variable {udcName : Bytes} {u u' : Usb} {a : UsbAction}

theorem Listed.head_mem (h : Listed u) {k : Nat} (hk : u.monitor.held? = some k) :
    k ∈ u.handlers.toList :=
  List.mem_append_right _ (List.mem_of_mem_head? (h.head k hk))

theorem Listed.begin (h : Listed u) : Listed u.beginCall :=
  { h with handled := h.handled.begin, last := by simp [Usb.beginCall, Usb.Waiting] }

theorem Listed.write (h : Listed u) (name : Gadget) (content : Bytes) :
    Listed (u.writeGadgetFile name content) :=
  { h with handled := h.handled.write name content }

theorem Listed.call {timeout : Bool} {value : Option Bool} (h : Listed u)
    (hstep : u.CallStep udcName timeout u' value) : Listed u' := by
  have hhandled := h.handled.call hstep
  cases hstep with
  | add pc =>
    refine { h with handled := hhandled, nodup := ?_, unsatisfied := ?_, last := ?_, head := ?_ }
    · have hnew := h.handled.unregistered pc
      rw [ListCursor.toList_pushBack]
      exact h.nodup.append (List.nodup_singleton _) (List.disjoint_singleton.mpr hnew)
    · intro k hk
      simp only [ListCursor.toList_pushBack, List.mem_append, List.mem_singleton] at hk
      cases hk with
      | inl hk => exact h.unsatisfied k hk
      | inr hk => exact hk ▸ (h.handled.fresh pc).1
    · simp
    · exact fun k hk => ListCursor.head?_pushBack (h.head k hk)
  | enable pc => exact { h with handled := hhandled, last := fun hw => h.last ⟨.inl pc, hw.2⟩ }
  | ready pc | timedOut pc => exact { h with handled := hhandled, last := by simp [Usb.Waiting] }

theorem Listed.receive {env : UeventEnv} (h : Listed u) (hstep : u.receive env = some u') :
    Listed u' := by
  have hhandled := h.handled.receive hstep
  obtain ⟨-, rfl⟩ := Usb.receive_eq hstep
  exact { h with handled := hhandled, head := nofun }

theorem Listed.monitor (h : Listed u) (hstep : u.MonitorStep udcName u') : Listed u' := by
  have hhandled := h.handled.monitor hstep
  cases hstep with
  | done | ignored => exact { h with handled := hhandled, head := by simp [MonitorPc.held?] }
  | expired env k pc hhead hverdict =>
    refine { h with handled := hhandled, nodup := ?_, unsatisfied := ?_, last := ?_, head := by simp [MonitorPc.held?] }
    · exact h.nodup.sublist u.handlers.erase_sublist
    · exact fun j hj => h.unsatisfied j (ListCursor.mem_of_mem_erase hj)
    · intro hwaiting
      refine ListCursor.getLast?_erase hhead ?_ (h.last hwaiting)
      intro (hk : u.calls = k)
      have halive : u.alive u.calls = true := Usb.Waiting.alive hwaiting
      rw [hk, Usb.expired_iff.mp hverdict] at halive
      cases halive
  | accepted env k pc hhead hverdict =>
    refine { h with handled := hhandled, head := fun j hj => ?_ }
    cases hj
    exact hhead
  | advance env pc =>
    have hsame := ListCursor.toList_next u.handlers
    exact { h with
      handled := hhandled
      nodup := hsame ▸ h.nodup
      unsatisfied := hsame ▸ h.unsatisfied
      last := hsame ▸ h.last
      head := by simp [MonitorPc.held?] }
  | release env k pc | engage env k pc =>
    refine { h with handled := hhandled, head := fun j hj => h.head j ?_ }
    rwa [pc]
  | fulfil env k pc =>
    have hhead := h.head k (by rw [pc]; rfl)
    have hzero := h.unsatisfied k (h.head_mem (by rw [pc]; rfl))
    have hother : ∀ j, j ≠ k → (u.setValue k).setCalls j = u.setCalls j := by
      intro j hj
      simp [Usb.setValue, hj]
    refine ⟨hhandled, ?_, fun j hj => ?_, fun j => ?_, fun hwaiting => ?_, by simp [MonitorPc.held?], ?_⟩
    · exact h.nodup.sublist u.handlers.erase_sublist
    · have hne : j ≠ k := fun he => ListCursor.not_mem_erase hhead h.nodup (he ▸ hj)
      exact (hother j hne).trans (h.unsatisfied j (ListCursor.mem_of_mem_erase hj))
    · by_cases hj : j = k
      · simp [Usb.setValue, hj, hzero]
      · exact (hother j hj).trans_le (h.once j)
    · obtain ⟨hcall, hset⟩ := hwaiting
      have hne : u.calls ≠ k := by
        intro he
        simp [Usb.setValue, he] at hset
      exact ListCursor.getLast?_erase hhead hne (h.last ⟨hcall, (hother _ hne).symm.trans hset⟩)
    · simp [Usb.setValue, h.running, hzero]

theorem Listed.step (h : Listed u) (hstep : u.Step udcName a u') : Listed u' := by
  cases hstep with
  | begin => exact h.begin
  | call timeout u' value call => exact h.call call
  | disable name => exact h.write name []
  | uevent env u' received => exact h.receive received
  | monitor u' step => exact h.monitor (Usb.monitorStep_cases step)

theorem Listed.start : Listed Usb.start where
  handled := Handled.start
  nodup := List.nodup_nil
  unsatisfied := nofun
  once _ := Nat.zero_le 1
  last hwait := by simp [Usb.start, Usb.Waiting] at hwait
  head := nofun
  running := rfl

end listed

end Aawgd
