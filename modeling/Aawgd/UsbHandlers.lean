import Aawgd.Usb

/-! What holds in every state of the USB manager about its calls, the handlers they have
registered and the one the monitor runs. -/
namespace Aawgd

/-- The call whose promise the running handler has locked. -/
def MonitorPc.held? : MonitorPc → Option Nat
  | .release _ k | .engage _ k | .fulfil _ k => some k
  | _ => none

/-- Inside `switchToAccessoryGadget`, with a write still to come. -/
def MonitorPc.switching : MonitorPc → Bool
  | .release _ _ | .engage _ _ => true
  | _ => false

/-- The call whose handler has disabled the default gadget and goes on. -/
def MonitorPc.engaging? : MonitorPc → Option Nat
  | .engage _ k => some k
  | _ => none

/-- The call whose handler has enabled the accessory gadget and goes on. -/
def MonitorPc.fulfilling? : MonitorPc → Option Nat
  | .fulfil _ k => some k
  | _ => none

/-- Handlers, promises and locks belong to calls that have begun. -/
structure Handled (u : Usb) : Prop where
  registered : ∀ k ∈ u.handlers.toList, k ≤ u.calls
  unregistered : u.call = .add → u.calls ∉ u.handlers.toList
  unset : ∀ k, u.calls < k → u.setCalls k = 0
  held : ∀ k, u.monitor.held? = some k → k ≤ u.calls
  fresh : u.call = .add → u.setCalls u.calls = 0 ∧ u.monitor.held? ≠ some u.calls
  counted : u.call ≠ .idle → u.calls ≠ 0

section handled
variable {udcName : Bytes} {u u' : Usb}

theorem Handled.begin (h : Handled u) : Handled u.beginCall where
  registered k hk := Nat.le_succ_of_le (h.registered k hk)
  unregistered _ hk := by
    have hle := h.registered _ hk
    change u.calls + 1 ≤ u.calls at hle
    omega
  unset k hk := h.unset k (Nat.lt_of_succ_lt hk)
  held k hk := Nat.le_succ_of_le (h.held k hk)
  fresh _ := by
    refine ⟨h.unset _ (Nat.lt_succ_self _), fun hk => ?_⟩
    have hle := h.held _ hk
    change u.calls + 1 ≤ u.calls at hle
    omega
  counted _ := Nat.succ_ne_zero _

theorem Handled.write (h : Handled u) (name : Gadget) (content : Bytes) :
    Handled (u.writeGadgetFile name content) :=
  ⟨h.registered, h.unregistered, h.unset, h.held, h.fresh, h.counted⟩

theorem Handled.call {timeout : Bool} {value : Option Bool} (h : Handled u)
    (hstep : u.CallStep udcName timeout u' value) : Handled u' := by
  cases hstep with
  | add pc =>
    have hcounted := h.counted (by simp [pc])
    refine ⟨fun k hk => ?_, nofun, h.unset, h.held, nofun, fun _ => hcounted⟩
    simp only [ListCursor.toList_pushBack, List.mem_append, List.mem_singleton] at hk
    cases hk with
    | inl hk => exact h.registered k hk
    | inr hk => exact Nat.le_of_eq hk
  | enable pc =>
    have hcounted := h.counted (by simp [pc])
    exact ⟨h.registered, nofun, h.unset, h.held, nofun, fun _ => hcounted⟩
  | ready | timedOut => exact ⟨h.registered, nofun, h.unset, h.held, nofun, nofun⟩

/-- The iterator moves over handlers that were there. -/
theorem Handled.move (h : Handled u) {handlers : ListCursor Nat} {monitor : MonitorPc}
    (hsub : ∀ k ∈ handlers.toList, k ∈ u.handlers.toList)
    (hheld : ∀ k, monitor.held? = some k → u.monitor.held? = some k) :
    Handled { u with handlers := handlers, monitor := monitor } where
  registered k hk := h.registered k (hsub k hk)
  unregistered hpc hk := h.unregistered hpc (hsub _ hk)
  unset := h.unset
  held k hk := h.held k (hheld k hk)
  fresh hpc := ⟨(h.fresh hpc).1, fun hk => (h.fresh hpc).2 (hheld _ hk)⟩
  counted := h.counted

theorem Handled.monitor (h : Handled u) (hstep : u.MonitorStep udcName u') : Handled u' := by
  cases hstep with
  | done | ignored => exact h.move (fun _ hk => hk) nofun
  | expired => exact h.move (fun _ hk => ListCursor.mem_of_mem_erase hk) nofun
  | advance => exact h.move (fun _ hk => by simpa using hk) nofun
  | accepted env k pc hmem hverdict =>
    obtain ⟨hk, hcall⟩ := Usb.alive_iff.mp (Usb.alive_of_accepted hverdict)
    have hadd : u.call ≠ .add := by
      intro hadd
      exact h.unregistered hadd (List.mem_append_right _ (hk ▸ List.mem_of_mem_head? hmem))
    refine ⟨h.registered, h.unregistered, h.unset, ?_, fun hpc => absurd hpc hadd, h.counted⟩
    intro j hj
    cases hj
    exact Nat.le_of_eq hk
  | release env k pc =>
    apply (h.write .default []).move (fun _ hk => hk)
    intro j hj
    change u.monitor.held? = some j
    rwa [pc]
  | engage env k pc =>
    apply (h.write .accessory udcName).move (fun _ hk => hk)
    intro j hj
    change u.monitor.held? = some j
    rwa [pc]
  | fulfil env k pc =>
    have hheld : u.monitor.held? = some k := by rw [pc]; rfl
    have hle := h.held k hheld
    refine ⟨fun j hj => h.registered j (ListCursor.mem_of_mem_erase hj),
      fun hpc hj => h.unregistered hpc (ListCursor.mem_of_mem_erase hj), fun j hj => ?_, nofun,
      fun hpc => ⟨?_, nofun⟩, h.counted⟩
    · change u.calls < j at hj
      have hne : j ≠ k := by omega
      simpa [Usb.setValue, hne] using h.unset j hj
    · obtain ⟨hzero, hother⟩ := h.fresh hpc
      have hne : u.calls ≠ k := fun he => hother (he ▸ hheld)
      simpa [Usb.setValue, hne] using hzero

theorem Handled.receive {env : UeventEnv} (h : Handled u) (hstep : u.receive env = some u') :
    Handled u' := by
  obtain ⟨-, rfl⟩ := Usb.receive_eq hstep
  exact h.move (fun _ hk => hk) nofun

theorem Handled.start : Handled Usb.start := by
  constructor <;> simp [Usb.start, MonitorPc.held?]

end handled

/-- Both gadgets are disabled, and no handler stands before one of its writes. -/
def Usb.Quiet (u : Usb) : Prop := (∀ name, u.udc name = []) ∧ u.monitor.switching = false

theorem Usb.Quiet.disable {u : Usb} (h : u.Quiet) (name : Gadget) :
    (u.disableGadget name).Quiet := by
  refine ⟨fun other => ?_, h.2⟩
  by_cases hother : other = name
  · simp [disableGadget, writeGadgetFile, hother]
  · simpa [disableGadget, writeGadgetFile, hother] using h.1 other

theorem Usb.quiet_of_released {u : Usb} (hudc : u.udc .default = [])
    (hswitching : u.monitor.switching = false) : (u.disableGadget .accessory).Quiet := by
  refine ⟨fun name => ?_, hswitching⟩
  cases name with
  | default => simpa [disableGadget, writeGadgetFile] using hudc
  | accessory => simp [disableGadget, writeGadgetFile]

/-- With no call running no handler gets past its lock. -/
theorem Usb.Quiet.monitor {udcName : Bytes} {u u' : Usb} (h : u.Quiet) (hcall : u.call = .idle)
    (hstep : u.MonitorStep udcName u') : u'.Quiet := by
  obtain ⟨hudc, hswitching⟩ := h
  cases hstep with
  | accepted env k pc hmem hverdict =>
    have halive := Usb.alive_iff.mp (Usb.alive_of_accepted hverdict)
    exact absurd hcall halive.2
  | release env k pc | engage env k pc => simp [pc, MonitorPc.switching] at hswitching
  | _ => exact ⟨hudc, rfl⟩

end Aawgd
