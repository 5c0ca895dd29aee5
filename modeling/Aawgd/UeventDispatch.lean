import Aawgd.GuardedSystem
import Aawgd.Uevent

/-! The monitor's loop over its handlers, watched: which handlers a pass calls, which
it keeps, and whether its iterator leaves the end of the list. -/
namespace Aawgd

/-- A pass that was watched. A called handler is listed as it was when it was called. -/
structure PassLog (η σ : Type*) where
  handlers : List η
  world : σ
  calls : List η
  beyond : Bool

namespace PassLog
variable {η σ : Type*}

def called (w : PassLog η σ) (h : η) : PassLog η σ := { w with calls := h :: w.calls }

/-- `++it` while the iterator stands before these elements. -/
def advanced (w : PassLog η σ) (after : List η) : PassLog η σ :=
  { w with beyond := w.beyond || after.isEmpty }

section fields
variable (w : PassLog η σ) (h : η) (after : List η)

@[simp] theorem called_calls : (w.called h).calls = h :: w.calls := rfl
@[simp] theorem called_handlers : (w.called h).handlers = w.handlers := rfl
@[simp] theorem called_world : (w.called h).world = w.world := rfl
@[simp] theorem called_beyond : (w.called h).beyond = w.beyond := rfl
@[simp] theorem advanced_calls : (w.advanced after).calls = w.calls := rfl
@[simp] theorem advanced_beyond : (w.advanced after).beyond = (w.beyond || after.isEmpty) := rfl

end fields

end PassLog

section pass
variable {η σ : Type*} (handler : η → σ → Bool × η × σ)

/-- The loop of `dispatchFrom` with what it does on the way. -/
def watchFrom (c : ListCursor η) (s : σ) : PassLog η σ :=
  match c with
  | ⟨before, []⟩ => ⟨before, s, [], false⟩
  | ⟨before, h :: after⟩ =>
    match handler h s with
    | (true, _, s') => ((watchFrom (ListCursor.next ⟨before, after⟩) s').advanced after).called h
    | (false, h', s') => (watchFrom (ListCursor.next ⟨before, h' :: after⟩) s').called h
  termination_by (c.before.length + c.after.length, c.after.length)
  decreasing_by
    · cases after <;> simp [ListCursor.next, Prod.lex_def]; omega
    · simp [ListCursor.next, Prod.lex_def]; omega

def watch (l : List η) (s : σ) : PassLog η σ := watchFrom handler (ListCursor.start l) s

theorem watchFrom_nil (before : List η) (s : σ) :
    watchFrom handler ⟨before, []⟩ s = ⟨before, s, [], false⟩ := by
  rw [watchFrom]

variable {handler}

theorem watchFrom_done {before after : List η} {h h' : η} {s s' : σ}
    (hr : handler h s = (true, h', s')) : watchFrom handler ⟨before, h :: after⟩ s =
      ((watchFrom handler (ListCursor.next ⟨before, after⟩) s').advanced after).called h := by
  rw [watchFrom, hr]

theorem watchFrom_kept {before after : List η} {h h' : η} {s s' : σ}
    (hr : handler h s = (false, h', s')) : watchFrom handler ⟨before, h :: after⟩ s =
      (watchFrom handler ⟨before ++ [h'], after⟩ s').called h := by
  rw [watchFrom, hr]
  rfl

theorem dispatchFrom_done {before after : List η} {h h' : η} {s s' : σ}
    (hr : handler h s = (true, h', s')) : dispatchFrom handler ⟨before, h :: after⟩ s =
      dispatchFrom handler (ListCursor.next ⟨before, after⟩) s' := by
  rw [dispatchFrom, hr]

theorem dispatchFrom_kept {before after : List η} {h h' : η} {s s' : σ}
    (hr : handler h s = (false, h', s')) : dispatchFrom handler ⟨before, h :: after⟩ s =
      dispatchFrom handler ⟨before ++ [h'], after⟩ s' := by
  rw [dispatchFrom, hr]
  rfl

/-- Watching changes nothing. -/
theorem watchFrom_dispatch (c : ListCursor η) (s : σ) :
    ((watchFrom handler c s).handlers, (watchFrom handler c s).world) = dispatchFrom handler c s := by
  induction c, s using dispatchFrom.induct handler with
  | case1 s before => rw [watchFrom_nil, dispatchFrom]
  | case2 s before h after h' s' hr ih =>
    rw [watchFrom_done hr, dispatchFrom_done hr, ← ih]
    rfl
  | case3 s before h after h' s' hr ih =>
    rw [watchFrom_kept hr, dispatchFrom_kept hr]
    exact ih

/-! The contract of a pass -/

variable (handler) in
/-- Each handler called once, in order: what it returned and what became of it. -/
def callAll : List η → σ → List (Bool × η) × σ
  | [], s => ([], s)
  | h :: hs, s =>
    (((handler h s).1, (handler h s).2.1) :: (callAll hs (handler h s).2.2).1,
      (callAll hs (handler h s).2.2).2)

/-- The handlers that returned false. -/
def unfinished (rs : List (Bool × η)) : List η := (rs.filter fun r => !r.1).map Prod.snd

variable (handler) in
/-- The pass calls each handler once, in order, keeps those that returned false, and
does not advance the iterator at the end. -/
structure DispatchContract (l : List η) (s : σ) : Prop where
  calls : (watch handler l s).calls = l
  handlers : (watch handler l s).handlers = unfinished (callAll handler l s).1
  within : (watch handler l s).beyond = false

variable (handler) in
/-- No handler returns true. -/
def NoneDone (l : List η) (s : σ) : Prop := ∀ r ∈ (callAll handler l s).1, r.1 = false

theorem noneDone_cons {h h' : η} {hs : List η} {s s' : σ} {done : Bool}
    (hr : handler h s = (done, h', s')) :
    NoneDone handler (h :: hs) s ↔ done = false ∧ NoneDone handler hs s' := by
  simp [NoneDone, callAll, hr]

theorem watchFrom_noneDone (before : List η) {after : List η} {s : σ} (h : NoneDone handler after s) :
    (watchFrom handler ⟨before, after⟩ s).calls = after ∧
      (watchFrom handler ⟨before, after⟩ s).handlers =
        before ++ unfinished (callAll handler after s).1 ∧
      (watchFrom handler ⟨before, after⟩ s).world = (callAll handler after s).2 ∧
      (watchFrom handler ⟨before, after⟩ s).beyond = false := by
  induction after generalizing before s with
  | nil => simp [watchFrom_nil, callAll, unfinished]
  | cons a after ih =>
    obtain ⟨done, a', s', hr⟩ : ∃ done a' s', handler a s = (done, a', s') := ⟨_, _, _, rfl⟩
    obtain ⟨rfl, hrest⟩ := (noneDone_cons hr).mp h
    obtain ⟨hcalls, hhandlers, hworld, hwithin⟩ := ih (before ++ [a']) hrest
    rw [watchFrom_kept hr]
    refine ⟨congrArg (a :: ·) hcalls, ?_, ?_, hwithin⟩
    · simpa [callAll, unfinished, hr] using hhandlers
    · simpa [callAll, hr] using hworld

/-- Without wrapping around, a pass makes no more calls than there are handlers ahead. -/
theorem watchFrom_calls_le (c : ListCursor η) (s : σ)
    (h : (watchFrom handler c s).beyond = false) :
    (watchFrom handler c s).calls.length ≤ c.after.length := by
  induction c, s using dispatchFrom.induct handler with
  | case1 s before => simp [watchFrom_nil]
  | case2 s before a after a' s' hr ih =>
    rw [watchFrom_done hr] at h ⊢
    cases after with
    | nil => simp at h
    | cons b rest =>
      have hle := ih (by simpa using h)
      simp only [PassLog.called_calls, PassLog.advanced_calls, ListCursor.next, List.length_cons] at hle ⊢
      omega
  | case3 s before a after a' s' hr ih =>
    rw [watchFrom_kept hr] at h ⊢
    exact Nat.succ_le_succ (ih h)

/-- A handler that returns true makes the loop skip its successor, or leave the end of
the list when there is none. -/
theorem watchFrom_skips (before : List η) {after : List η} {s : σ} (h : ¬ NoneDone handler after s) :
    (watchFrom handler ⟨before, after⟩ s).beyond = true ∨
      (watchFrom handler ⟨before, after⟩ s).calls.length < after.length := by
  induction after generalizing before s with
  | nil => exact absurd (by simp [NoneDone, callAll]) h
  | cons a after ih =>
    obtain ⟨done, a', s', hr⟩ : ∃ done a' s', handler a s = (done, a', s') := ⟨_, _, _, rfl⟩
    cases done with
    | false =>
      have hrest : ¬ NoneDone handler after s' := fun hn => h ((noneDone_cons hr).mpr ⟨rfl, hn⟩)
      rw [watchFrom_kept hr]
      cases ih (before ++ [a']) hrest with
      | inl hbeyond => exact .inl hbeyond
      | inr hlt => exact .inr (Nat.succ_lt_succ hlt)
    | true =>
      rw [watchFrom_done hr]
      cases after with
      | nil => exact .inl (by simp)
      | cons b rest =>
        have hle : (watchFrom handler ⟨before ++ [b], rest⟩ s').beyond = false →
            (watchFrom handler ⟨before ++ [b], rest⟩ s').calls.length ≤ rest.length :=
          watchFrom_calls_le _ _
        simp only [ListCursor.next, PassLog.called_beyond, PassLog.advanced_beyond,
          PassLog.called_calls, PassLog.advanced_calls, List.length_cons, List.isEmpty_cons,
          Bool.or_false]
        cases hbeyond : (watchFrom handler ⟨before ++ [b], rest⟩ s').beyond with
        | true => exact .inl rfl
        | false =>
          have hle := hle hbeyond
          exact .inr (by omega)

theorem dispatchContract_iff (l : List η) (s : σ) :
    DispatchContract handler l s ↔ NoneDone handler l s := by
  constructor
  · intro h
    by_cases hn : NoneDone handler l s
    · exact hn
    cases watchFrom_skips [] hn with
    | inl hbeyond => exact absurd (hbeyond.symm.trans h.within) (by simp)
    | inr hlt =>
      have hlen := congrArg List.length h.calls
      exact absurd hlen (Nat.ne_of_lt hlt)
  · intro h
    obtain ⟨hcalls, hhandlers, -, hwithin⟩ := watchFrom_noneDone [] h
    exact ⟨hcalls, hhandlers, hwithin⟩

end pass

/-! Sequences of events -/

inductive MonitorAction (η ε σ : Type*) where
  | addHandler (h : η)
  | uevent (e : ε)
  /-- Something else changes what the handlers look at. -/
  | other (s : σ)

structure Monitor (η σ : Type*) where
  handlers : List η
  world : σ

section runs
variable {η ε σ : Type*} (handler : ε → η → σ → Bool × η × σ) (start : Monitor η σ)

/-- The monitor as the code runs it. -/
def monitor : GuardedSystem (Monitor η σ) (MonitorAction η ε σ) where
  init := start
  guard _ _ := True
  effect m
    | .addHandler h => { m with handlers := m.handlers ++ [h] }
    | .uevent e => ⟨(dispatch (handler e) m.handlers m.world).1,
        (dispatch (handler e) m.handlers m.world).2⟩
    | .other s => { m with world := s }

/-- The monitor as `addHandler` documents it: a handler stands until it returns true. -/
def documented : GuardedSystem (Monitor η σ) (MonitorAction η ε σ) where
  init := start
  guard _ _ := True
  effect m
    | .addHandler h => { m with handlers := m.handlers ++ [h] }
    | .uevent e => ⟨unfinished (callAll (handler e) m.handlers m.world).1,
        (callAll (handler e) m.handlers m.world).2⟩
    | .other s => { m with world := s }

/-- In this step no handler returns true. -/
def NoneDoneAt (m : Monitor η σ) : MonitorAction η ε σ → Prop
  | .uevent e => NoneDone (handler e) m.handlers m.world
  | _ => True

/-- Every event of the run is dispatched under the contract, to the handlers that were
registered before it and have not returned true. -/
def Documented (as : List (MonitorAction η ε σ)) : Prop :=
  ∀ pre e, pre ++ [.uevent e] <+: as →
    DispatchContract (handler e) ((monitor handler start).after start pre).handlers
      ((monitor handler start).after start pre).world ∧
    (watch (handler e) ((monitor handler start).after start pre).handlers
      ((monitor handler start).after start pre).world).calls =
      ((documented handler start).after start pre).handlers

variable {handler} {start}

theorem monitor_effect {m : Monitor η σ} {a : MonitorAction η ε σ} (h : NoneDoneAt handler m a) :
    (monitor handler start).effect m a = (documented handler start).effect m a := by
  cases a with
  | addHandler | other => rfl
  | uevent e =>
    obtain ⟨-, hhandlers, hworld, -⟩ := watchFrom_noneDone [] h
    have hsame : _ = dispatch (handler e) m.handlers m.world := watchFrom_dispatch _ m.world
    simp only [monitor, documented, ← hsame]
    exact congrArg₂ Monitor.mk hhandlers hworld

/-- As long as no handler returns true, the list is the documented one. -/
theorem monitor_after {m : Monitor η σ} {as : List (MonitorAction η ε σ)}
    (h : (monitor handler start).Meets (NoneDoneAt handler) m as) :
    (monitor handler start).after m as = (documented handler start).after m as := by
  induction as generalizing m with
  | nil => rfl
  | cons a as ih =>
    have hrest := ih h.2
    rw [monitor_effect h.1] at hrest
    rw [GuardedSystem.after, monitor_effect h.1, hrest]
    rfl

theorem documented_iff (as : List (MonitorAction η ε σ)) :
    Documented handler start as ↔ (monitor handler start).Meets (NoneDoneAt handler) start as := by
  constructor
  · intro h
    apply (GuardedSystem.meets_iff_prefix start as).mpr
    intro pre a hpre
    cases a with
    | addHandler | other => trivial
    | uevent e => exact (dispatchContract_iff _ _).mp (h pre e hpre).1
  · intro h pre e hpre
    have hnone := (GuardedSystem.meets_iff_prefix start as).mp h pre _ hpre
    have hcontract := (dispatchContract_iff _ _).mpr hnone
    obtain ⟨rest, rfl⟩ := hpre
    rw [List.append_assoc, GuardedSystem.meets_append] at h
    refine ⟨hcontract, ?_⟩
    rw [hcontract.calls, monitor_after h.1]

/-- A pass keeps the contract exactly when no handler returns true, and so does a whole
sequence of events and registrations. -/
theorem dispatch_documented :
    (∀ (f : η → σ → Bool × η × σ) l s, DispatchContract f l s ↔ NoneDone f l s) ∧
    ∀ (f : ε → η → σ → Bool × η × σ) m as,
      Documented f m as ↔ (monitor f m).Meets (NoneDoneAt f) m as :=
  ⟨fun _ => dispatchContract_iff, fun _ _ => documented_iff⟩

end runs

/-- Handlers that count down the events left to them. -/
def countdown (left : Nat) (s : Unit) : Bool × Nat × Unit := (left == 0, left - 1, s)

/-- The first of three handlers is done, and the second misses the event. -/
theorem countdown_skips : (watch countdown [0, 5, 7] ()).calls = [0, 7] ∧
    ¬ DispatchContract countdown [0, 5, 7] () := by
  have hfirst : countdown 0 () = (true, 0, ()) := rfl
  have hthird : countdown 7 () = (false, 6, ()) := rfl
  have hcalls : (watch countdown [0, 5, 7] ()).calls = [0, 7] := by
    rw [watch, ListCursor.start, watchFrom_done hfirst, ListCursor.next, watchFrom_kept hthird,
      watchFrom_nil]
    rfl
  refine ⟨hcalls, fun h => ?_⟩
  have hall := hcalls.symm.trans h.calls
  revert hall
  decide

end Aawgd
