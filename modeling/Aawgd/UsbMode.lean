import Aawgd.UsbHandlers

/-! What the UDC files hold at each point of a call and of its handler. -/
namespace Aawgd

namespace Usb

/-- The gadget that should be enabled, from where the last call and its handler are. -/
def mode (u : Usb) : Option Gadget :=
  if u.setCalls u.calls ≠ 0 ∨ u.monitor.fulfilling? = some u.calls then some .accessory
  else if u.monitor.engaging? = some u.calls then none
  else if u.call = .add ∨ u.call = .enable then none
  else some .default

/-- The handler of the current call has written nothing yet. -/
def Untouched (u : Usb) : Prop :=
  u.setCalls u.calls = 0 ∧ u.monitor.fulfilling? ≠ some u.calls ∧
    u.monitor.engaging? ≠ some u.calls

instance decidableUntouched (u : Usb) : Decidable u.Untouched :=
  inferInstanceAs (Decidable (_ ∧ _ ∧ _))

/-- The UDC files hold what the mode says. -/
def Settled (udcName : Bytes) (u : Usb) : Prop :=
  ∀ name, u.udc name = if u.mode = some name then udcName else []

section settled
variable {udcName : Bytes} {u u' : Usb}

theorem Settled.of_mode (h : Settled udcName u) (hudc : u'.udc = u.udc) (hmode : u'.mode = u.mode) :
    Settled udcName u' := by
  intro name
  rw [hudc, hmode, h name]

theorem Settled.call {timeout : Bool} {value : Option Bool} (h : Settled udcName u)
    (hok : u.call = .enable → u.Untouched) (hstep : u.CallStep udcName timeout u' value) :
    Settled udcName u' := by
  cases hstep with
  | add pc => exact h.of_mode rfl (by simp [mode, pc])
  | enable pc =>
    obtain ⟨hset, hfulfil, hengage⟩ := hok pc
    have hbefore : u.mode = none := by simp [mode, hset, hfulfil, hengage, pc]
    have hafter : Usb.mode { u.enableGadget udcName .default with call := .wait } =
        some .default := by
      simp [mode, enableGadget, writeGadgetFile, hset, hfulfil, hengage]
    intro name
    have hempty : u.udc name = [] := by rw [h name, hbefore, if_neg (by simp)]
    rw [hafter]
    cases name <;> simp [enableGadget, writeGadgetFile, hempty]
  | ready pc | timedOut pc => exact h.of_mode rfl (by simp [mode, pc])

theorem Settled.monitor (h : Settled udcName u)
    (hown : u.monitor.switching = true → u.monitor.held? = some u.calls)
    (hstep : u.MonitorStep udcName u') : Settled udcName u' := by
  cases hstep with
  | done env pc | expired env k pc | ignored env k pc | accepted env k pc | advance env pc =>
    exact h.of_mode rfl (by simp [mode, pc, MonitorPc.fulfilling?, MonitorPc.engaging?])
  | release env k pc =>
    have hk : k = u.calls := by simpa [pc, MonitorPc.held?, MonitorPc.switching] using hown
    have hafter : Usb.mode { u.disableGadget .default with monitor := .engage env k } =
        if u.setCalls u.calls ≠ 0 then some .accessory else none := by
      simp [mode, disableGadget, writeGadgetFile, MonitorPc.fulfilling?, MonitorPc.engaging?, hk]
    intro name
    rw [hafter]
    cases name with
    | default => split <;> simp [disableGadget, writeGadgetFile]
    | accessory =>
      by_cases hset : u.setCalls u.calls = 0
      · have hmode : u.mode ≠ some .accessory := by
          simp only [mode, pc, hset, MonitorPc.fulfilling?, MonitorPc.engaging?, ne_eq,
            not_true_eq_false, reduceCtorEq, or_self, if_false]
          split <;> simp
        simp [disableGadget, writeGadgetFile, h .accessory, hmode, hset]
      · have hmode : u.mode = some .accessory := by simp [mode, hset]
        simp [disableGadget, writeGadgetFile, h .accessory, hmode, hset]
  | engage env k pc =>
    have hk : k = u.calls := by simpa [pc, MonitorPc.held?, MonitorPc.switching] using hown
    have hafter : Usb.mode { u.enableGadget udcName .accessory with monitor := .fulfil env k } =
        some .accessory := by
      simp [mode, enableGadget, writeGadgetFile, MonitorPc.fulfilling?, hk]
    intro name
    rw [hafter]
    cases name with
    | default =>
      have hmode : u.mode ≠ some .default := by
        simp only [mode, pc, hk, MonitorPc.fulfilling?, MonitorPc.engaging?]
        split <;> simp
      simp [enableGadget, writeGadgetFile, h .default, hmode]
    | accessory => simp [enableGadget, writeGadgetFile]
  | fulfil env k pc =>
    refine h.of_mode rfl ?_
    by_cases hk : k = u.calls
    · simp [mode, pc, hk, setValue, MonitorPc.fulfilling?]
    · simp [mode, pc, hk, Ne.symm hk, setValue, MonitorPc.fulfilling?, MonitorPc.engaging?]

theorem Settled.mode_of_enabled (h : Settled udcName u) {name : Gadget}
    (henabled : u.enabled name = true) : u.mode = some name := by
  by_contra hmode
  simp [enabled, h name, hmode] at henabled

end settled

theorem Settled.begin {udcName : Bytes} {u : Usb} (h : u.Quiet) (hh : Handled u) :
    Settled udcName u.beginCall := by
  have hzero := hh.unset _ (Nat.lt_succ_self _)
  have hfulfil : u.monitor.fulfilling? ≠ some (u.calls + 1) := by
    intro hk
    have hheld : u.monitor.held? = some (u.calls + 1) := by
      cases hm : u.monitor <;> simp_all [MonitorPc.fulfilling?, MonitorPc.held?]
    have hle := hh.held _ hheld
    omega
  have hmode : u.beginCall.mode = none := by
    simp [mode, beginCall, hzero, hfulfil]
  intro name
  rw [hmode]
  exact h.1 name

end Usb

end Aawgd
