import Aawgd.AccessoryCalls
import Mathlib.Algebra.Group.Nat.Even

/-! One pass of the monitor over the handlers for the start event of a waiting call: which
handlers it erases, skips and runs. -/
namespace Aawgd

/-- The pass for a start event is at handlers of ended calls, and the one of the waiting
call comes last. -/
structure Usb.Passing (u : Usb) (env : UeventEnv) (olds : List Nat) : Prop where
  waiting : u.Waiting
  start : starts env
  ahead : u.handlers.after = olds ++ [u.calls]

section passing
variable {udcName : Bytes} {u : Usb} {env : UeventEnv} {o : Nat} {olds : List Nat}

theorem Usb.Passing.accept (h : u.Passing env []) (hpc : u.monitor = .check env) :
    u.monitorStep udcName = some { u with monitor := .release env u.calls } := by
  have hverdict : accessoryHandler (u.alive u.calls) env = .accepted := by
    rw [h.waiting.alive]
    exact h.start
  simp [Usb.monitorStep, hpc, h.ahead, hverdict]

theorem Usb.Passing.dead (hl : Listed u) (h : u.Passing env (o :: olds)) : u.alive o = false := by
  have hne : o ≠ u.calls := by
    intro he
    have hnodup := (List.nodup_append.mp hl.nodup).2.1
    simp [h.ahead, he] at hnodup
  simp [Usb.alive, hne]

theorem Usb.Passing.expire (hl : Listed u) (h : u.Passing env (o :: olds))
    (hpc : u.monitor = .check env) :
    u.monitorStep udcName = some { u with handlers := u.handlers.erase, monitor := .advance env } ∧
      Usb.Passing { u with handlers := u.handlers.erase, monitor := .advance env } env olds := by
  have hverdict : accessoryHandler (u.alive o) env = .expired := Usb.expired_iff.mpr (h.dead hl)
  refine ⟨?_, h.waiting, h.start, ?_⟩
  · simp [Usb.monitorStep, hpc, h.ahead, hverdict]
  · simp [ListCursor.erase, h.ahead]

theorem Usb.Passing.skip (h : u.Passing env (o :: olds)) :
    Usb.Passing { u with handlers := u.handlers.next, monitor := .check env } env olds :=
  ⟨h.waiting, h.start, ListCursor.after_next h.ahead⟩

end passing

/-- The handler of call k has been run, is running, or the pass will run it. -/
def Usb.Reaching (u : Usb) (k : Nat) : Prop :=
  u.setCalls k ≠ 0 ∨ u.monitor.held? = some k ∨ k = u.calls ∧ ∃ env olds, u.Passing env olds ∧
    (u.monitor = .check env ∧ Even olds.length ∨ u.monitor = .advance env ∧ ¬ Even olds.length)

/-- The pass for a start event will end without running the handler of the waiting call,
or has ended so. -/
def Usb.Losing (u : Usb) : Prop :=
  u.Waiting ∧ (u.monitor = .idle ∨ ∃ env,
    u.monitor = .check env ∧
      (u.handlers.after = [] ∨ ∃ olds, u.Passing env olds ∧ ¬ Even olds.length) ∨
    u.monitor = .advance env ∧ ∃ olds, u.Passing env olds ∧ Even olds.length)

section reaching
variable {udcName : Bytes} {u u' : Usb} {k : Nat}

theorem Usb.Reaching.keep (h : u.Reaching k) (hset : u'.setCalls = u.setCalls)
    (hmonitor : u'.monitor = u.monitor)
    (hpassing : ∀ env olds, u.Passing env olds → k = u.calls →
      k = u'.calls ∧ u'.Passing env olds) : u'.Reaching k := by
  cases h with
  | inl hdone => exact .inl (hset ▸ hdone)
  | inr h =>
    cases h with
    | inl hheld => exact .inr (.inl (hmonitor ▸ hheld))
    | inr h =>
      obtain ⟨hk, env, olds, hpass, hpc⟩ := h
      obtain ⟨hk', hpass'⟩ := hpassing env olds hpass hk
      exact .inr (.inr ⟨hk', env, olds, hpass', hmonitor ▸ hpc⟩)

theorem Usb.Reaching.call {timeout : Bool} {value : Option Bool} (h : u.Reaching k)
    (hstep : u.CallStep udcName timeout u' value)
    (hlimit : ¬ (u'.call = .idle ∧ u.Waiting ∧ u.monitor.held? ≠ some k)) : u'.Reaching k := by
  cases hstep with
  | add pc =>
    refine h.keep rfl rfl fun env olds hpass => ?_
    simpa [Usb.Waiting, pc] using hpass.waiting
  | enable pc =>
    refine h.keep rfl rfl fun env olds hpass hk => ?_
    exact ⟨hk, ⟨.inr rfl, hpass.waiting.2⟩, hpass.start, hpass.ahead⟩
  | ready pc set =>
    refine h.keep rfl rfl fun env olds hpass => ?_
    exact absurd hpass.waiting.2 set
  | timedOut pc unset =>
    by_contra hnot
    have hheld : u.monitor.held? ≠ some k := fun hheld => hnot (.inr (.inl hheld))
    exact hlimit ⟨rfl, ⟨.inr pc, unset⟩, hheld⟩

theorem Usb.Reaching.monitor (hl : Listed u) (h : u.Reaching k)
    (hstep : u.monitorStep udcName = some u') : u'.Reaching k := by
  cases h with
  | inl hdone => exact .inl ((Usb.monitorStep_cases hstep).keeps hdone)
  | inr h =>
    cases h with
    | inl hheld =>
      cases Usb.monitorStep_cases hstep with
      | release env j pc | engage env j pc =>
        rw [pc] at hheld
        exact .inr (.inl hheld)
      | fulfil env j pc =>
        rw [pc] at hheld
        cases hheld
        exact .inl (by simp [Usb.setValue])
      | _ => simp_all [MonitorPc.held?]
    | inr h =>
      obtain ⟨rfl, env, olds, hpass, hpc⟩ := h
      cases hpc with
      | inl hpc =>
        cases olds with
        | nil =>
          rw [hpass.accept hpc.1] at hstep
          cases hstep
          exact .inr (.inl rfl)
        | cons o olds =>
          obtain ⟨heq, hpass'⟩ := hpass.expire hl hpc.1
          rw [heq] at hstep
          cases hstep
          have hodd : ¬ Even olds.length := by simpa [Nat.even_add_one] using hpc.2
          exact .inr (.inr ⟨rfl, env, olds, hpass', .inr ⟨rfl, hodd⟩⟩)
      | inr hpc =>
        cases olds with
        | nil => simp at hpc
        | cons o olds =>
          simp only [Usb.monitorStep, hpc.1, Option.some.injEq] at hstep
          subst hstep
          have heven : Even olds.length := by simpa [Nat.even_add_one] using hpc.2
          exact .inr (.inr ⟨rfl, env, olds, hpass.skip, .inl ⟨rfl, heven⟩⟩)

end reaching

section losing
variable {u : Usb}

/-- What is left of a pass that loses its event. -/
def Usb.passSize (u : Usb) : ℕ :=
  match u.monitor with
  | .check _ => 2 * u.handlers.after.length + 1
  | .advance _ => 2 * u.handlers.after.length
  | _ => 0

theorem Usb.Losing.step (udcName : Bytes) (hl : Listed u) (h : u.Losing)
    (hbusy : u.monitor ≠ .idle) :
    ∃ u', u.monitorStep udcName = some u' ∧ u'.Losing ∧ u'.calls = u.calls ∧
      u'.passSize < u.passSize := by
  obtain ⟨hwaiting, hpc⟩ := h
  obtain ⟨env, hpc⟩ := hpc.resolve_left hbusy
  cases hpc with
  | inl hpc =>
    obtain ⟨hpc, hahead⟩ := hpc
    cases hahead with
    | inl hnone =>
      refine ⟨{ u with monitor := .idle }, ?_, ⟨hwaiting, .inl rfl⟩, rfl, ?_⟩
      · simp [Usb.monitorStep, hpc, hnone]
      · simp [Usb.passSize, hpc]
    | inr hpass =>
      obtain ⟨olds, hpass, hodd⟩ := hpass
      cases olds with
      | nil => simp at hodd
      | cons o olds =>
        obtain ⟨heq, hpass'⟩ := hpass.expire hl hpc
        have heven : Even olds.length := by simpa [Nat.even_add_one] using hodd
        refine ⟨_, heq, ⟨hwaiting, .inr ⟨env, .inr ⟨rfl, olds, hpass', heven⟩⟩⟩, rfl, ?_⟩
        have hafter : u.handlers.erase.after = olds ++ [u.calls] := hpass'.ahead
        simp only [Usb.passSize, hpc, hpass.ahead, hafter, List.length_append, List.length_cons]
        omega
  | inr hpc =>
    obtain ⟨hpc, olds, hpass, heven⟩ := hpc
    have heq : u.monitorStep udcName =
        some { u with handlers := u.handlers.next, monitor := .check env } := by
      simp [Usb.monitorStep, hpc]
    cases olds with
    | nil =>
      have hnone := ListCursor.after_next hpass.ahead
      refine ⟨_, heq, ⟨hwaiting, .inr ⟨env, .inl ⟨rfl, .inl hnone⟩⟩⟩, rfl, ?_⟩
      simp [Usb.passSize, hpc, hpass.ahead, hnone]
    | cons o olds =>
      have hodd : ¬ Even olds.length := by simpa [Nat.even_add_one] using heven
      refine ⟨_, heq, ⟨hwaiting, .inr ⟨env, .inl ⟨rfl, .inr ⟨olds, hpass.skip, hodd⟩⟩⟩⟩, rfl, ?_⟩
      have hafter : u.handlers.next.after = olds ++ [u.calls] := hpass.skip.ahead
      simp only [Usb.passSize, hpc, hpass.ahead, hafter, List.length_append, List.length_cons]
      omega

end losing

end Aawgd
