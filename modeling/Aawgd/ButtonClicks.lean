import Aawgd.ButtonMonitor
import Mathlib.Algebra.Order.Ring.Nat

/-! Presses counted and presses taken. No press is lost as long as every evaluation clears
the count it has copied, and the counted presses keep their one pending timer as long as,
besides, no evaluation clears the reference to a later timer. -/
namespace Aawgd.ButtonMonitor
open GuardedSystem

/-! The ledger of a run -/

inductive Tally where
  | pressed
  | taken (count : Nat)
  deriving DecidableEq

/-- An increment that was executed, and the count that an evaluation took with its reset. -/
def tally (s : Monitor) : Thread → List Tally
  | .main => if s.main = .waiting then [.pressed] else []
  | .timer i =>
    match s.timers i with
    | .resetting count => [.taken count]
    | _ => []

def Tally.presses : Tally → Nat
  | .pressed => 1
  | .taken _ => 0

def Tally.takes : Tally → Nat
  | .pressed => 0
  | .taken count => count

def presses (l : List Tally) : Nat := (l.map Tally.presses).sum

def taken (l : List Tally) : Nat := (l.map Tally.takes).sum

/-- Every press is in one count that was taken, or in the current one. -/
def Accounted (l : List Tally) (s : Monitor) : Prop := presses l = taken l + s.clickCount

instance decidableAccounted (l : List Tally) (s : Monitor) : Decidable (Accounted l s) :=
  inferInstanceAs (Decidable (_ = _))

/-! One timer for the presses that count -/

/-- Behind the increment, before the new timer is started. -/
def MainPc.inBookkeeping : MainPc → Bool
  | .testing | .cancelling | .creating | .starting => true
  | .waiting | .ended => false

/-- Begun to fire, and before the reference is cleared. -/
def TimerPc.inBookkeeping : TimerPc → Bool
  | .copying | .resetting _ | .clearing _ => true
  | _ => false

def AtRest (s : Monitor) : Prop :=
  s.main.inBookkeeping = false ∧ ∀ i, (s.timers i).inBookkeeping = false

/-- Exactly one timer is pending, and the variable refers to it. -/
def OnePending (s : Monitor) : Prop := ∃ i, s.timer = some i ∧ ∀ j, s.timers j = .pending ↔ j = i

def Watched (s : Monitor) : Prop := 0 < s.clickCount → AtRest s → OnePending s

/-! When the threads do not get in each other's way -/

def TimerPc.ResetsCopied (clickCount : Nat) : TimerPc → Prop
  | .resetting count => clickCount = count
  | _ => True

def TimerPc.ClearsOwn (timer : Option Nat) (i : Nat) : TimerPc → Prop
  | .clearing _ => timer = none ∨ timer = some i
  | _ => True

/-- An evaluation resets the count that it has copied, with no press in between. -/
def ResetsCopied (s : Monitor) : Thread → Prop
  | .main => True
  | .timer i => (s.timers i).ResetsCopied s.clickCount

/-- An evaluation clears the reference to no other timer. -/
def ClearsOwn (s : Monitor) : Thread → Prop
  | .main => True
  | .timer i => (s.timers i).ClearsOwn s.timer i

/-- The reference is not cleared between its test and the cancellation, unless the
evaluation has taken the press as well. -/
def CancelsTimer (s : Monitor) : Thread → Prop
  | .main => s.main = .cancelling → s.timer ≠ none ∨ s.clickCount = 0
  | .timer _ => True

structure Undisturbed (s : Monitor) (a : Thread) : Prop where
  resets : ResetsCopied s a
  clears : ClearsOwn s a
  cancels : CancelsTimer s a

section decide

instance decidableTimerResets (n : Nat) : (pc : TimerPc) → Decidable (pc.ResetsCopied n)
  | .resetting count => inferInstanceAs (Decidable (n = count))
  | .absent | .created | .pending | .cancelled | .copying | .clearing _ | .deciding _ | .done =>
    .isTrue trivial

instance decidableTimerClears (timer : Option Nat) (i : Nat) :
    (pc : TimerPc) → Decidable (pc.ClearsOwn timer i)
  | .clearing _ => inferInstanceAs (Decidable (timer = none ∨ timer = some i))
  | .absent | .created | .pending | .cancelled | .copying | .resetting _ | .deciding _ | .done =>
    .isTrue trivial

instance decidableResetsCopied (s : Monitor) : (a : Thread) → Decidable (ResetsCopied s a)
  | .main => .isTrue trivial
  | .timer i => decidableTimerResets s.clickCount (s.timers i)

instance decidableClearsOwn (s : Monitor) : (a : Thread) → Decidable (ClearsOwn s a)
  | .main => .isTrue trivial
  | .timer i => decidableTimerClears s.timer i (s.timers i)

instance decidableCancelsTimer (s : Monitor) : (a : Thread) → Decidable (CancelsTimer s a)
  | .main => inferInstanceAs (Decidable (s.main = .cancelling → s.timer ≠ none ∨ s.clickCount = 0))
  | .timer _ => .isTrue trivial

instance decidableUndisturbed (s : Monitor) (a : Thread) : Decidable (Undisturbed s a) :=
  decidable_of_iff (ResetsCopied s a ∧ ClearsOwn s a ∧ CancelsTimer s a)
    ⟨fun h => ⟨h.1, h.2.1, h.2.2⟩, fun h => ⟨h.resets, h.clears, h.cancels⟩⟩

end decide

@[simp] theorem presses_append (l₁ l₂ : List Tally) :
    presses (l₁ ++ l₂) = presses l₁ + presses l₂ := by
  simp [presses]

@[simp] theorem taken_append (l₁ l₂ : List Tally) : taken (l₁ ++ l₂) = taken l₁ + taken l₂ := by
  simp [taken]

@[simp] theorem presses_nil : presses [] = 0 := rfl
@[simp] theorem taken_nil : taken [] = 0 := rfl
@[simp] theorem presses_pressed : presses [.pressed] = 1 := rfl
@[simp] theorem taken_pressed : taken [.pressed] = 0 := rfl
@[simp] theorem presses_taken (count : Nat) : presses [.taken count] = 0 := rfl
@[simp] theorem taken_taken (count : Nat) : taken [.taken count] = count := rfl

/-- A step keeps the account exactly if a reset finds the count that was copied. -/
theorem accounted_step {l : List Tally} {s s' : Monitor} {a : Thread} (h : Accounted l s)
    (hstep : Step s a s') : Accounted (l ++ tally s a) s' ↔ ResetsCopied s a := by
  unfold Accounted at *
  rw [presses_append, taken_append]
  cases hstep with
  | press hpc =>
    simp only [tally, hpc, if_true, presses_pressed, taken_pressed, ResetsCopied, iff_true]
    omega
  | test hpc | cancelNone hpc _ | cancel _ hpc _ | create hpc | startFails hpc _ | start _ hpc _ _ =>
    simpa [tally, hpc, ResetsCopied] using h
  | fire i hpc | copy i hpc | clear i _ hpc | act i _ hpc =>
    simpa [tally, hpc, ResetsCopied, TimerPc.ResetsCopied] using h
  | reset i count hpc =>
    simp only [tally, hpc, presses_taken, taken_taken, ResetsCopied, TimerPc.ResetsCopied]
    omega

/-! Coverage -/

def MainPc.beforeCancel : MainPc → Bool
  | .waiting | .testing | .cancelling | .ended => true
  | .creating | .starting => false

/-- A thread that will see to the presses counted so far. -/
def TimerPc.willTake : TimerPc → Bool
  | .pending | .copying | .resetting _ => true
  | _ => false

/-- A pending timer is the current one, until the next press has cancelled it; the timer to
be started is the current one; and presses that count have a thread that sees to them. -/
structure Covered (s : Monitor) : Prop where
  pending : ∀ i, s.timers i = .pending → s.timer = some i ∧ s.main.beforeCancel = true
  starting : s.main = .starting → ∃ i, s.timer = some i ∧ s.timers i = .created
  covered : 0 < s.clickCount → s.main.inBookkeeping = true ∨ ∃ i, (s.timers i).willTake = true

theorem Covered.start : Covered start where
  pending i h := by cases h
  starting h := by cases h
  covered h := by cases h

theorem Covered.watched {s : Monitor} (h : Covered s) : Watched s := by
  intro hcount hrest
  obtain hmain | ⟨i, hi⟩ := h.covered hcount
  · rw [hrest.1] at hmain
    cases hmain
  have hpending : s.timers i = .pending := by
    have hfree := hrest.2 i
    cases hpc : s.timers i <;> simp_all [TimerPc.willTake, TimerPc.inBookkeeping]
  have hcurrent := (h.pending i hpending).1
  refine ⟨i, hcurrent, fun j => ⟨fun hj => ?_, fun hj => hj ▸ hpending⟩⟩
  have hj' := (h.pending j hj).1
  rw [hcurrent] at hj'
  exact (Option.some.inj hj').symm

/-- A step that moves one timer on and leaves the rest. -/
theorem Covered.timer {s s' : Monitor} (h : Covered s) {i : Nat} {pc : TimerPc}
    (htimers : s'.timers = (s.setTimer i pc).timers) (hpc : pc ≠ .pending)
    (hold : s.timers i ≠ .created) (hmain : s'.main = s.main)
    (htimer : ∀ j, j ≠ i → s.timer = some j → s'.timer = some j)
    (hcount : 0 < s'.clickCount → 0 < s.clickCount)
    (htakes : (s.timers i).willTake = true → pc.willTake = true ∨ s'.clickCount = 0) :
    Covered s' where
  pending j hj := by
    rw [htimers] at hj
    by_cases hji : j = i
    · subst hji
      rw [setTimer_self] at hj
      exact absurd hj hpc
    · rw [setTimer_ne s pc hji] at hj
      obtain ⟨hcurrent, hbefore⟩ := h.pending j hj
      exact ⟨htimer j hji hcurrent, hmain ▸ hbefore⟩
  starting hstart := by
    obtain ⟨j, hcurrent, hcreated⟩ := h.starting (hmain ▸ hstart)
    have hji : j ≠ i := by
      intro hji
      subst hji
      exact hold hcreated
    exact ⟨j, htimer j hji hcurrent, by rw [htimers, setTimer_ne s pc hji, hcreated]⟩
  covered hpos := by
    obtain hbusy | ⟨j, hj⟩ := h.covered (hcount hpos)
    · exact .inl (hmain ▸ hbusy)
    · refine .inr ?_
      rw [htimers]
      by_cases hji : j = i
      · subst hji
        refine ⟨j, ?_⟩
        rw [setTimer_self]
        exact (htakes hj).resolve_right (by omega)
      · exact ⟨j, by rw [setTimer_ne s pc hji, hj]⟩

theorem cancel_pending {s : Monitor} {i j : Nat} (h : (s.cancel i).timers j = .pending) :
    j ≠ i ∧ s.timers j = .pending := by
  unfold Monitor.cancel at h
  split at h
  next =>
    by_cases hji : j = i
    · subst hji
      rw [setTimer_self] at h
      cases h
    · rw [setTimer_ne s _ hji] at h
      exact ⟨hji, h⟩
  next hfree =>
    refine ⟨fun hji => ?_, h⟩
    subst hji
    exact hfree (.inr h)

theorem Covered.step {s s' : Monitor} {a : Thread} (h : Covered s) (hok : Undisturbed s a)
    (hstep : Step s a s') : Covered s' := by
  cases hstep with
  | press hpc =>
    exact ⟨fun i hi => ⟨(h.pending i hi).1, rfl⟩, by simp, fun _ => .inl rfl⟩
  | test hpc =>
    refine ⟨fun i hi => ?_, fun hstart => ?_, fun _ => .inl ?_⟩
    · have hcurrent := (h.pending i hi).1
      simp [hcurrent, MainPc.beforeCancel]
    · dsimp only at hstart
      split at hstart <;> cases hstart
    · dsimp only
      split <;> rfl
  | cancelNone hpc hnone =>
    refine ⟨fun i hi => ?_, by simp, fun hpos => ?_⟩
    · rw [(h.pending i hi).1] at hnone
      cases hnone
    · cases hok.cancels hpc with
      | inl hsome => exact absurd hnone hsome
      | inr hzero => exact absurd hzero (Nat.ne_of_gt hpos)
  | cancel i hpc hcurrent =>
    refine ⟨fun j hj => ?_, by simp, fun _ => .inl rfl⟩
    obtain ⟨hji, hj⟩ := cancel_pending hj
    have hj' := (h.pending j hj).1
    rw [hcurrent] at hj'
    exact absurd (Option.some.inj hj').symm hji
  | create hpc =>
    refine ⟨fun j hj => ?_, fun _ => ⟨s.created, rfl, ?_⟩, fun _ => .inl rfl⟩
    · by_cases hjc : j = s.created
      · subst hjc
        simp [Monitor.setTimer] at hj
      · have hj' : (s.setTimer s.created .created).timers j = .pending := hj
        rw [setTimer_ne s _ hjc] at hj'
        have hbefore := (h.pending j hj').2
        simp [hpc, MainPc.beforeCancel] at hbefore
    · exact setTimer_self s s.created .created
  | startFails hpc hold =>
    obtain ⟨i, hcurrent, hcreated⟩ := h.starting hpc
    exact absurd hcreated (hold i hcurrent)
  | start i hpc hcurrent hcreated =>
    refine ⟨fun j hj => ?_, by simp, fun _ => .inr ⟨i, ?_⟩⟩
    · by_cases hji : j = i
      · subst hji
        exact ⟨hcurrent, rfl⟩
      · have hj' : (s.setTimer i .pending).timers j = .pending := hj
        rw [setTimer_ne s _ hji] at hj'
        have hbefore := (h.pending j hj').2
        simp [hpc, MainPc.beforeCancel] at hbefore
    · change ((s.setTimer i .pending).timers i).willTake = true
      rw [setTimer_self]
      rfl
  | fire i hpc =>
    exact h.timer rfl (by simp) (by simp [hpc]) rfl (fun _ _ hj => hj) (fun hpos => hpos)
      fun _ => .inl rfl
  | copy i hpc =>
    exact h.timer rfl (by simp) (by simp [hpc]) rfl (fun _ _ hj => hj) (fun hpos => hpos)
      fun _ => .inl rfl
  | reset i count hpc =>
    exact h.timer rfl (by simp) (by simp [hpc]) rfl (fun _ _ hj => hj) (fun hpos => by simp at hpos)
      fun _ => .inr rfl
  | clear i count hpc =>
    refine h.timer rfl (by simp) (by simp [hpc]) rfl (fun j hji hj => ?_) (fun hpos => hpos)
      fun htakes => by simp [hpc, TimerPc.willTake] at htakes
    have hclears := hok.clears
    simp only [ClearsOwn, TimerPc.ClearsOwn, hpc] at hclears
    obtain hnone | hown := hclears
    · rw [hnone] at hj
      cases hj
    · rw [hown] at hj
      exact absurd (Option.some.inj hj).symm hji
  | act i count hpc =>
    exact h.timer rfl (by simp) (by simp [hpc]) rfl (fun _ _ hj => hj) (fun hpos => hpos)
      fun htakes => by simp [hpc, TimerPc.willTake] at htakes

/-! Runs -/

def ledger (run : List Thread) : List Tally := monitor.outputs tally start run

/-- No press is lost or counted twice, and no counted press is left without its timer. -/
def Kept (run : List Thread) : Prop :=
  Accounted (ledger run) (monitor.after start run) ∧ Watched (monitor.after start run)

/-- The account is right all along a run exactly when every reset finds the count that its
evaluation has copied. -/
theorem accounted_iff {run : List Thread} (hlegal : monitor.Legal start run) :
    (∀ pre, pre <+: run → Accounted (ledger pre) (monitor.after start pre)) ↔
      monitor.Meets ResetsCopied start run := by
  let Right (p : List Tally × Monitor) : Prop := Accounted p.1 p.2
  have hexact : ∀ p a, True → Right p → (monitor.logged tally).guard p a →
      (Right ((monitor.logged tally).effect p a) ↔ ResetsCopied p.2 a) :=
    fun p a _ hp hguard => accounted_step hp (monitor_step hguard)
  have hright : Right ([], start) := rfl
  have hall := along_iff_meets hexact (fun _ _ _ _ _ _ => trivial) trivial hright
    ((legal_logged [] start run).mpr hlegal)
  rw [meets_logged] at hall
  simpa only [after_logged, Right, List.nil_append, ledger] using hall

/-- A run in which no step disturbs another keeps both all along. -/
theorem kept_of_undisturbed {run : List Thread} (hlegal : monitor.Legal start run)
    (hmeets : monitor.Meets Undisturbed start run) : Kept run := by
  let Inv (p : List Tally × Monitor) : Prop := Accounted p.1 p.2 ∧ Covered p.2
  have hstep : ∀ p a, Inv p → (monitor.logged tally).guard p a → Undisturbed p.2 a →
      Inv ((monitor.logged tally).effect p a) := by
    intro p a hp hguard hok
    have hmove := monitor_step hguard
    exact ⟨(accounted_step hp.1 hmove).mpr hok.resets, hp.2.step hok hmove⟩
  have hend : Inv ((monitor.logged tally).after ([], start) run) :=
    invariant hstep ⟨rfl, Covered.start⟩ ((legal_logged [] start run).mpr hlegal)
      ((meets_logged [] start run).mpr hmeets)
  rw [after_logged] at hend
  exact ⟨hend.1, hend.2.watched⟩

/-- In every run, the presses are accounted for all along exactly if every reset finds the
copied count; and in every run whose steps do not disturb each other, in every state the
presses are accounted for and the counted ones have their one pending timer. -/
theorem clicks_kept (run : List Thread) (hlegal : monitor.Legal start run) :
    ((∀ pre, pre <+: run → Accounted (ledger pre) (monitor.after start pre)) ↔
      monitor.Meets ResetsCopied start run) ∧
    (monitor.Meets Undisturbed start run → ∀ pre, pre <+: run → Kept pre) := by
  refine ⟨accounted_iff hlegal, fun hmeets pre hpre => ?_⟩
  obtain ⟨rest, rfl⟩ := hpre
  exact kept_of_undisturbed ((legal_append _ _ _).mp hlegal).1 ((meets_append _ _ _).mp hmeets).1

/-- Three presses and the evaluation of the burst. -/
def threePresses : List Thread :=
  List.replicate 4 .main ++ List.replicate 10 .main ++ List.replicate 5 (.timer 2)

theorem clicks_kept_three : Kept threePresses :=
  (clicks_kept threePresses (by decide)).2 (by decide) threePresses (List.prefix_refl _)

/-- The second press comes between the copy and the reset of the first one's evaluation. -/
def pressAtReset : List Thread :=
  List.replicate 4 .main ++ [.timer 0, .timer 0, .main, .timer 0]

/-- The second press finds the timer that the evaluation then takes away from it. -/
def pressAtClear : List Thread :=
  List.replicate 4 .main ++ [.timer 0, .timer 0, .timer 0, .main, .main, .timer 0, .main]

theorem press_lost :
    (monitor.Legal start pressAtReset ∧
      ¬ Accounted (ledger pressAtReset) (monitor.after start pressAtReset)) ∧
    (monitor.Legal start pressAtClear ∧ ¬ Watched (monitor.after start pressAtClear)) := by
  refine ⟨⟨by decide, by decide⟩, by decide, fun hwatched => ?_⟩
  have hrest : AtRest (monitor.after start pressAtClear) := by
    refine ⟨rfl, fun i => ?_⟩
    cases i <;> rfl
  obtain ⟨i, hi, -⟩ := hwatched (by decide) hrest
  cases hi

end Aawgd.ButtonMonitor
