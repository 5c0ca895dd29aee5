import Aawgd.ButtonMonitor
import Mathlib.Algebra.Order.Field.Rat
import Mathlib.Data.List.SplitBy
import Mathlib.Tactic.Linarith

/-! Bursts of clicks on a clock: each key event and each evaluation is handled in one go,
and a timer fires when it is due. The evaluations are those of the bursts, the maximal runs
of presses that follow each other in less than the timeout. -/
namespace Aawgd.ButtonMonitor
open GuardedSystem

/-- `CLICK_TIMEOUT`, in seconds. -/
def clickTimeout : ℚ := 4 / 5

/-! Key events -/

inductive KeyCode where
  | keyPower
  | other (code : Nat)
  deriving DecidableEq

/-- What `read_loop` gives: an event of type EV_KEY, or another one. -/
inductive InputEvent where
  | key (keycode : KeyCode) (keystate : Nat)
  | other
  deriving DecidableEq

def InputEvent.isPress : InputEvent → Bool
  | .key keycode keystate => keycode == .keyPower && keystate == 1
  | .other => false

/-- The statements of `main` for a press, from the increment to the start of the timer. -/
def pressStatements (s : Monitor) : List Thread :=
  List.replicate (if s.timer = none then 4 else 5) .main

/-- The body of the loop, uninterrupted. -/
def keyEvent (s : Monitor) (e : InputEvent) : Monitor :=
  if e.isPress then monitor.after s (pressStatements s) else s

/-- A timer fires and executes `evaluate_clicks` up to the `if`, uninterrupted. -/
def evaluateClicks (s : Monitor) (i : Nat) : Monitor :=
  monitor.after s (List.replicate 4 (.timer i))

/-! The clock -/

structure Clock where
  monitor : Monitor
  /-- When each timer is due. -/
  due : Nat → ℚ
  now : Option ℚ

inductive TimedAction where
  | event (time : ℚ) (e : InputEvent)
  | fire (i : Nat)

def clockStart : Clock := ⟨start, fun _ => 0, none⟩

/-- Time does not go back, nothing happens while a timer is overdue, and timers fire in the
order in which they are due. -/
def Clock.guard (s : Clock) : TimedAction → Prop
  | .event time _ => (∀ n ∈ s.now, n ≤ time) ∧ ∀ i, s.monitor.timers i = .pending → time ≤ s.due i
  | .fire i => s.monitor.timers i = .pending ∧
    ∀ j, s.monitor.timers j = .pending → s.due i ≤ s.due j

def Clock.effect (s : Clock) : TimedAction → Clock
  | .event time e => ⟨keyEvent s.monitor e,
      if e.isPress then Function.update s.due s.monitor.created (time + clickTimeout) else s.due,
      some time⟩
  | .fire i => ⟨evaluateClicks s.monitor i, s.due, some (s.due i)⟩

def clock : GuardedSystem Clock TimedAction := ⟨clockStart, Clock.guard, Clock.effect⟩

/-- When an evaluation was made, the count it found, and what it then did. -/
structure Evaluation where
  time : ℚ
  count : Nat
  command : Option Command
  deriving DecidableEq

inductive Note where
  | pressed (time : ℚ)
  | evaluated (evaluation : Evaluation)

def notes (s : Clock) : TimedAction → List Note
  | .event time e => if e.isPress then [.pressed time] else []
  | .fire i =>
    match (evaluateClicks s.monitor i).timers i with
    | .deciding count => [.evaluated ⟨s.due i, count, command? count⟩]
    | _ => []

def Note.pressed? : Note → Option ℚ
  | .pressed time => some time
  | .evaluated _ => none

def Note.evaluated? : Note → Option Evaluation
  | .evaluated evaluation => some evaluation
  | .pressed _ => none

/-! Bursts -/

/-- The second press comes before the timer of the first one is due. -/
def follows (a b : ℚ) : Bool := b - a < clickTimeout

/-- The maximal runs of presses that follow each other. -/
def bursts (times : List ℚ) : List (List ℚ) := times.splitBy follows

/-- The evaluation of a burst: a timeout after its last press, with its length. -/
def evaluation (burst : List ℚ) : Evaluation :=
  ⟨burst.getLastD 0 + clickTimeout, burst.length, command? burst.length⟩

/-! Between two actions -/

/-- `main` waits, and the pending timer is the one that the variable refers to. -/
structure Settled (s : Monitor) : Prop where
  main : s.main = .waiting
  pending : ∀ i, s.timers i = .pending ↔ s.timer = some i
  fresh : ∀ i, s.created ≤ i → s.timers i = .absent

theorem Settled.start : Settled start := ⟨rfl, by simp [ButtonMonitor.start], fun _ _ => rfl⟩

/-- A press counts, and its new timer is the only one pending. -/
theorem Settled.press {s : Monitor} (h : Settled s) :
    monitor.after s (pressStatements s) =
      { (match s.timer with
          | none => s
          | some i => s.setTimer i .cancelled).setTimer s.created .pending with
        clickCount := s.clickCount + 1, timer := some s.created, created := s.created + 1 } := by
  obtain ⟨count, timer, main, created, timers⟩ := s
  have hmain : main = .waiting := h.main
  subst hmain
  cases timer with
  | none =>
    simp [pressStatements, after, monitor, ofStep, step, mainStep, Monitor.setTimer]
  | some i =>
    have hpending : timers i = .pending := (h.pending i).mpr rfl
    simp [pressStatements, after, monitor, ofStep, step, mainStep, Monitor.setTimer,
      Monitor.cancel, hpending]

/-- An evaluation takes the whole count and leaves no timer. -/
theorem Settled.evaluate {s : Monitor} {i : Nat} (hi : s.timers i = .pending) :
    evaluateClicks s i =
      { s.setTimer i (.deciding s.clickCount) with clickCount := 0, timer := none } := by
  simp [evaluateClicks, after, monitor, ofStep, step, timerStep, Monitor.setTimer, hi]

/-- The current timer leaves the wait. -/
theorem Settled.retire {s : Monitor} (h : Settled s) {i : Nat} (hi : s.timer = some i)
    {pc : TimerPc} (hpc : pc ≠ .pending) (count : Nat) :
    Settled { s.setTimer i pc with clickCount := count, timer := none } where
  main := h.main
  pending j := by
    change (s.setTimer i pc).timers j = .pending ↔ none = some j
    by_cases hji : j = i
    · subst hji
      simp [hpc]
    · rw [setTimer_ne s pc hji, h.pending, hi]
      simp [Ne.symm hji]
  fresh j hj := by
    have habsent := h.fresh j hj
    have hji : j ≠ i := by
      intro hji
      subst hji
      rw [(h.pending j).mpr hi] at habsent
      cases habsent
    exact (setTimer_ne s pc hji).trans habsent

/-- A new timer waits. -/
theorem Settled.arm {s : Monitor} (h : Settled s) (hnone : s.timer = none) (count : Nat) :
    Settled { s.setTimer s.created .pending with
      clickCount := count, timer := some s.created, created := s.created + 1 } where
  main := h.main
  pending j := by
    change (s.setTimer s.created .pending).timers j = .pending ↔ some s.created = some j
    by_cases hj : j = s.created
    · subst hj
      simp
    · rw [setTimer_ne s _ hj, h.pending, hnone]
      simp [Ne.symm hj]
  fresh j hj := by
    have hlt : s.created < j := hj
    exact (setTimer_ne s _ (Nat.ne_of_gt hlt)).trans (h.fresh j (Nat.le_of_lt hlt))

theorem Settled.after_press {s : Monitor} (h : Settled s) :
    Settled (monitor.after s (pressStatements s)) := by
  rw [h.press]
  cases htimer : s.timer with
  | none => exact h.arm htimer _
  | some i => exact (h.retire htimer (by simp) s.clickCount).arm rfl _

theorem Settled.after_evaluate {s : Monitor} (h : Settled s) {i : Nat}
    (hi : s.timers i = .pending) : Settled (evaluateClicks s i) := by
  rw [Settled.evaluate hi]
  exact h.retire ((h.pending i).mp hi) (by simp) 0

theorem Settled.keyEvent {s : Monitor} (h : Settled s) (e : InputEvent) :
    Settled (keyEvent s e) := by
  unfold ButtonMonitor.keyEvent
  split
  · exact h.after_press
  · exact h

/-! The invariant of the clock -/

theorem bursts_append_burst {earlier burst : List ℚ} (hne : burst ≠ [])
    (hchain : burst.IsChain fun a b => follows a b = true)
    (hapart : ∀ a ∈ earlier.getLast?, ∀ b ∈ burst.head?, follows a b = false) :
    bursts (earlier ++ burst) = bursts earlier ++ [burst] := by
  rw [bursts, List.splitBy_append hapart, List.splitBy_of_isChain hne hchain]
  rfl

def pressesOf (l : List Note) : List ℚ := l.filterMap Note.pressed?

def evaluationsOf (l : List Note) : List Evaluation := l.filterMap Note.evaluated?

@[simp] theorem pressesOf_pressed (l : List Note) (time : ℚ) :
    pressesOf (l ++ [.pressed time]) = pressesOf l ++ [time] :=
  List.filterMap_append

@[simp] theorem pressesOf_evaluated (l : List Note) (e : Evaluation) :
    pressesOf (l ++ [.evaluated e]) = pressesOf l :=
  List.filterMap_append.trans (List.append_nil _)

@[simp] theorem evaluationsOf_pressed (l : List Note) (time : ℚ) :
    evaluationsOf (l ++ [.pressed time]) = evaluationsOf l :=
  List.filterMap_append.trans (List.append_nil _)

@[simp] theorem evaluationsOf_evaluated (l : List Note) (e : Evaluation) :
    evaluationsOf (l ++ [.evaluated e]) = evaluationsOf l ++ [e] :=
  List.filterMap_append

/-- The presses so far: the bursts that were evaluated, and the one that is open, whose
timer is due a timeout after its last press. -/
structure Tracked (l : List Note) (s : Clock) (earlier burst : List ℚ) : Prop where
  presses : pressesOf l = earlier ++ burst
  evaluated : evaluationsOf l = (bursts earlier).map evaluation
  count : s.monitor.clickCount = burst.length
  chain : burst.IsChain fun a b => follows a b = true
  apart : ∀ a ∈ earlier.getLast?, ∀ b ∈ burst.head?, follows a b = false
  pending : ∀ i, s.monitor.timer = some i → ∃ p ∈ burst.getLast?, s.due i = p + clickTimeout
  idle : s.monitor.timer = none → burst = [] ∧
    ∀ t, (∀ n ∈ s.now, n ≤ t) → ∀ p ∈ earlier.getLast?, p + clickTimeout ≤ t

theorem clock_press {s : Clock} {time : ℚ} {e : InputEvent} (he : e.isPress = true) :
    clock.effect s (.event time e) = ⟨monitor.after s.monitor (pressStatements s.monitor),
      Function.update s.due s.monitor.created (time + clickTimeout), some time⟩ := by
  simp [clock, Clock.effect, keyEvent, he]

theorem clock_other {s : Clock} {time : ℚ} {e : InputEvent} (he : e.isPress = false) :
    clock.effect s (.event time e) = { s with now := some time } := by
  simp [clock, Clock.effect, keyEvent, he]

theorem Tracked.start : Tracked [] clockStart [] [] where
  presses := rfl
  evaluated := rfl
  count := rfl
  chain := .nil
  apart a ha := by simp at ha
  pending i hi := by cases hi
  idle _ := ⟨rfl, by simp⟩

/-- Time passes. -/
theorem Tracked.other {l : List Note} {s : Clock} {earlier burst : List ℚ} {time : ℚ}
    (h : Tracked l s earlier burst) (hnow : ∀ n ∈ s.now, n ≤ time) :
    Tracked l { s with now := some time } earlier burst :=
  { h with
    idle := fun htimer => by
      obtain ⟨hempty, hover⟩ := h.idle htimer
      refine ⟨hempty, fun t ht => hover t fun n hn => ?_⟩
      exact le_trans (hnow n hn) (ht time rfl) }

/-- A press with no timer pending opens a burst. -/
theorem Tracked.opens {l : List Note} {s : Clock} {earlier burst : List ℚ} {time : ℚ}
    (h : Tracked l s earlier burst) (hsettled : Settled s.monitor)
    (hnow : ∀ n ∈ s.now, n ≤ time) (htimer : s.monitor.timer = none) :
    Tracked (l ++ [.pressed time]) ⟨monitor.after s.monitor (pressStatements s.monitor),
      Function.update s.due s.monitor.created (time + clickTimeout), some time⟩
      earlier [time] := by
  obtain ⟨hempty, hover⟩ := h.idle htimer
  subst hempty
  have hzero : s.monitor.clickCount = 0 := h.count
  have hpresses := h.presses
  rw [List.append_nil] at hpresses
  rw [hsettled.press]
  refine ⟨?_, ?_, ?_, .singleton _, fun a ha b hb => ?_, fun i hi => ?_, fun hi => by cases hi⟩
  · rw [pressesOf_pressed, hpresses]
  · rw [evaluationsOf_pressed, h.evaluated]
  · simp [hzero]
  · have hb' : time = b := by simpa using hb
    subst hb'
    have hlate := hover time hnow a ha
    simp only [follows, decide_eq_false_iff_not, not_lt]
    linarith
  · have hi' : s.monitor.created = i := Option.some.inj hi
    subst hi'
    exact ⟨time, rfl, by simp⟩

/-- A press with the timer pending comes in time for the open burst. -/
theorem Tracked.joins {l : List Note} {s : Clock} {earlier burst : List ℚ} {time : ℚ} {i : Nat}
    (h : Tracked l s earlier burst) (hsettled : Settled s.monitor)
    (htimer : s.monitor.timer = some i) (hdue : time ≤ s.due i)
    (hgap : ∀ p ∈ burst.getLast?, time - p ≠ clickTimeout) :
    Tracked (l ++ [.pressed time]) ⟨monitor.after s.monitor (pressStatements s.monitor),
      Function.update s.due s.monitor.created (time + clickTimeout), some time⟩
      earlier (burst ++ [time]) := by
  obtain ⟨p, hp, hdue_eq⟩ := h.pending i htimer
  have hfollows : follows p time = true := by
    rw [follows, decide_eq_true_iff]
    refine lt_of_le_of_ne ?_ (hgap p hp)
    linarith
  rw [hsettled.press]
  refine ⟨?_, ?_, ?_, ?_, fun a ha b hb => ?_, fun j hj => ?_, fun hj => by cases hj⟩
  · rw [pressesOf_pressed, h.presses, List.append_assoc]
  · rw [evaluationsOf_pressed, h.evaluated]
  · simp [h.count]
  · refine List.isChain_append.mpr ⟨h.chain, .singleton _, fun a ha b hb => ?_⟩
    have ha' : p = a := Option.some.inj (hp.symm.trans ha)
    have hb' : time = b := by simpa using hb
    subst ha' hb'
    exact hfollows
  · refine h.apart a ha b ?_
    cases burst with
    | nil => cases hp
    | cons c rest => exact hb
  · have hj' : s.monitor.created = j := Option.some.inj hj
    subst hj'
    exact ⟨time, by simp, by simp⟩

/-- The timer of the open burst evaluates it. -/
theorem Tracked.evaluates {l : List Note} {s : Clock} {earlier burst : List ℚ} {i : Nat}
    (h : Tracked l s earlier burst) (htimer : s.monitor.timer = some i)
    (hi : s.monitor.timers i = .pending) :
    Tracked (l ++ notes s (.fire i)) (clock.effect s (.fire i)) (earlier ++ burst) [] := by
  obtain ⟨p, hp, hdue⟩ := h.pending i htimer
  have hne : burst ≠ [] := by
    intro hnil
    subst hnil
    cases hp
  have hlast : (earlier ++ burst).getLast? = some p := by
    rw [List.getLast?_append, hp]
    rfl
  have hnotes : notes s (.fire i) =
      [.evaluated ⟨s.due i, s.monitor.clickCount, command? s.monitor.clickCount⟩] := by
    simp [notes, Settled.evaluate hi]
  have heffect : clock.effect s (.fire i) =
      ⟨{ s.monitor.setTimer i (.deciding s.monitor.clickCount) with
          clickCount := 0, timer := none }, s.due, some (s.due i)⟩ := by
    simp only [clock, Clock.effect, Settled.evaluate hi]
  rw [hnotes, heffect]
  refine ⟨?_, ?_, rfl, .nil, fun a _ b hb => ?_, fun j hj => ?_, fun _ => ⟨rfl, ?_⟩⟩
  · rw [pressesOf_evaluated, h.presses, List.append_nil]
  · have hevaluation : (⟨s.due i, s.monitor.clickCount, command? s.monitor.clickCount⟩ : Evaluation)
        = evaluation burst := by
      rw [evaluation, List.getLastD_eq_getLast?, hp, hdue, h.count]
      rfl
    rw [bursts_append_burst hne h.chain h.apart, List.map_append, ← h.evaluated,
      evaluationsOf_evaluated, hevaluation]
    rfl
  · cases hb
  · cases hj
  · intro t ht q hq
    have hq' : p = q := Option.some.inj (hlast.symm.trans hq)
    subst hq'
    rw [← hdue]
    exact ht (s.due i) rfl

/-- The presses of the log come apart into bursts, unless two are exactly a timeout apart. -/
def Followed (l : List Note) (s : Clock) : Prop :=
  Settled s.monitor ∧
    ((pressesOf l).IsChain (fun a b => b - a ≠ clickTimeout) →
      ∃ earlier burst, Tracked l s earlier burst)

theorem Followed.step (l : List Note) (s : Clock) (a : TimedAction) (h : Followed l s)
    (hguard : clock.guard s a) : Followed (l ++ notes s a) (clock.effect s a) := by
  obtain ⟨hsettled, htracked⟩ := h
  cases a with
  | event time e =>
    obtain ⟨hnow, hdue⟩ := hguard
    cases he : e.isPress with
    | false =>
      rw [clock_other he]
      have hnone : notes s (.event time e) = [] := by simp [notes, he]
      rw [hnone, List.append_nil]
      refine ⟨hsettled, fun hgaps => ?_⟩
      obtain ⟨earlier, burst, hbursts⟩ := htracked hgaps
      exact ⟨earlier, burst, hbursts.other hnow⟩
    | true =>
      rw [clock_press he]
      have hpressed : notes s (.event time e) = [.pressed time] := by simp [notes, he]
      rw [hpressed]
      refine ⟨hsettled.after_press, fun hgaps => ?_⟩
      rw [pressesOf_pressed] at hgaps
      obtain ⟨hbefore, -, hlast⟩ := List.isChain_append.mp hgaps
      obtain ⟨earlier, burst, hbursts⟩ := htracked hbefore
      cases htimer : s.monitor.timer with
      | none => exact ⟨earlier, [time], hbursts.opens hsettled hnow htimer⟩
      | some i =>
        have htime : time ≤ s.due i := hdue i ((hsettled.pending i).mpr htimer)
        refine ⟨earlier, burst ++ [time], hbursts.joins hsettled htimer htime fun p hp => ?_⟩
        refine hlast p ?_ time rfl
        rw [hbursts.presses, List.getLast?_append, hp]
        rfl
  | fire i =>
    have hpending : s.monitor.timers i = .pending := hguard.1
    refine ⟨hsettled.after_evaluate hpending, fun hgaps => ?_⟩
    have hsame : pressesOf (l ++ notes s (.fire i)) = pressesOf l := by
      simp [notes, Settled.evaluate hpending]
    rw [hsame] at hgaps
    obtain ⟨earlier, burst, hbursts⟩ := htracked hgaps
    exact ⟨_, _, hbursts.evaluates ((hsettled.pending i).mp hpending) hpending⟩

/-! Complete runs -/

/-- The maximal runs of times whose gaps are below the timeout. -/
structure MaximalRuns (times : List ℚ) (runs : List (List ℚ)) : Prop where
  partition : times = runs.flatten
  nonempty : [] ∉ runs
  close : ∀ r ∈ runs, r.IsChain fun a b => b - a < clickTimeout
  apart : runs.IsChain fun r r' => ∃ hr hr', clickTimeout ≤ r'.head hr' - r.getLast hr

theorem maximalRuns_iff {times : List ℚ} {runs : List (List ℚ)} :
    MaximalRuns times runs ↔ bursts times = runs := by
  rw [bursts, List.splitBy_eq_iff]
  simp only [follows, decide_eq_true_eq, decide_eq_false_iff_not, not_lt]
  exact ⟨fun h => ⟨h.1, h.2, h.3, h.4⟩, fun h => ⟨h.1, h.2.1, h.2.2.1, h.2.2.2⟩⟩

/-- What the evaluation of a run of presses should be. -/
structure Classified (r : List ℚ) (e : Evaluation) : Prop where
  time : ∃ p ∈ r.getLast?, e.time = p + clickTimeout
  count : e.count = r.length
  resets : e.command = some .resetBluetooth ↔ r.length = 3 ∨ r.length = 4
  debugs : e.command = some .activateDebugMode ↔ 5 ≤ r.length

theorem evaluation_classified {r : List ℚ} (hne : r ≠ []) : Classified r (evaluation r) where
  time := by
    obtain ⟨p, hp⟩ := Option.ne_none_iff_exists'.mp (mt List.getLast?_eq_none_iff.mp hne)
    exact ⟨p, hp, by simp [evaluation, List.getLastD_eq_getLast?, hp]⟩
  count := rfl
  resets := by
    simp only [evaluation, command?]
    split <;> simp_all
  debugs := by
    simp only [evaluation, command?]
    split <;> simp_all
    omega

def TimedAction.input? : TimedAction → Option (ℚ × InputEvent)
  | .event time e => some (time, e)
  | .fire _ => none

def inputs (run : List TimedAction) : List (ℚ × InputEvent) := run.filterMap TimedAction.input?

def pressTimes (events : List (ℚ × InputEvent)) : List ℚ :=
  (events.filter fun e => e.2.isPress).map Prod.fst

def clockLog (run : List TimedAction) : List Note := clock.outputs notes clockStart run

/-- A run with these input events that leaves no timer pending. -/
structure Complete (events : List (ℚ × InputEvent)) (run : List TimedAction) : Prop where
  legal : clock.Legal clockStart run
  inputs : inputs run = events
  fired : ∀ i, (clock.after clockStart run).monitor.timers i ≠ .pending

theorem inputs_append (run run' : List TimedAction) :
    inputs (run ++ run') = inputs run ++ inputs run' := List.filterMap_append

theorem pressTimes_append (events events' : List (ℚ × InputEvent)) :
    pressTimes (events ++ events') = pressTimes events ++ pressTimes events' := by
  simp [pressTimes]

theorem pressesOf_notes (s : Clock) (a : TimedAction) :
    pressesOf (notes s a) = pressTimes (inputs [a]) := by
  cases a with
  | event time e =>
    have hinput : inputs [.event time e] = [(time, e)] := rfl
    cases he : e.isPress with
    | false => simp [hinput, notes, pressTimes, pressesOf, he]
    | true =>
      simp only [hinput, notes, pressTimes, he, if_true, List.filter_singleton]
      rfl
  | fire i =>
    simp only [notes]
    split <;> rfl

theorem pressesOf_outputs (s : Clock) (run : List TimedAction) :
    pressesOf (clock.outputs notes s run) = pressTimes (inputs run) := by
  induction run generalizing s with
  | nil => rfl
  | cons a run ih =>
    calc
      pressesOf (notes s a ++ clock.outputs notes (clock.effect s a) run)
          = pressesOf (notes s a) ++ pressesOf (clock.outputs notes (clock.effect s a) run) :=
            List.filterMap_append
      _ = pressTimes (inputs [a]) ++ pressTimes (inputs run) := by rw [pressesOf_notes, ih]
      _ = pressTimes (inputs (a :: run)) := by
            rw [← pressTimes_append, ← inputs_append, List.singleton_append]

theorem isPress_iff (e : InputEvent) : e.isPress = true ↔ e = .key .keyPower 1 := by
  cases e with
  | key keycode keystate => simp [InputEvent.isPress]
  | other => simp [InputEvent.isPress]

/-- A complete run has made the evaluations of the bursts. -/
theorem evaluations_of_complete {events : List (ℚ × InputEvent)} {run : List TimedAction}
    (hgap : (pressTimes events).IsChain fun a b => b - a ≠ clickTimeout) (h : Complete events run) :
    evaluationsOf (clockLog run) = (bursts (pressTimes events)).map evaluation := by
  have hfollowed : Followed ([] ++ clockLog run) (clock.after clockStart run) :=
    invariant_outputs Followed.step
      ⟨Settled.start, fun _ => ⟨[], [], Tracked.start⟩⟩ h.legal
  rw [List.nil_append] at hfollowed
  have hpresses : pressesOf (clockLog run) = pressTimes events := by
    rw [clockLog, pressesOf_outputs, h.inputs]
  obtain ⟨hsettled, htracked⟩ := hfollowed
  obtain ⟨earlier, burst, hbursts⟩ := htracked (hpresses ▸ hgap)
  have hidle : (clock.after clockStart run).monitor.timer = none := by
    cases htimer : (clock.after clockStart run).monitor.timer with
    | none => rfl
    | some i => exact absurd ((hsettled.pending i).mpr htimer) (h.fired i)
  have hempty := (hbursts.idle hidle).1
  subst hempty
  rw [hbursts.evaluated, ← hpresses, hbursts.presses, List.append_nil]

/-- The current timer may fire, and then none is left. -/
theorem fire_current {s : Clock} (h : Settled s.monitor) {i : Nat} (hi : s.monitor.timer = some i) :
    clock.guard s (.fire i) ∧ Settled (clock.effect s (.fire i)).monitor ∧
      (clock.effect s (.fire i)).monitor.timer = none := by
  have hpending := (h.pending i).mpr hi
  refine ⟨⟨hpending, fun j hj => ?_⟩, h.after_evaluate hpending, ?_⟩
  · have hj' := (h.pending j).mp hj
    rw [hi] at hj'
    rw [Option.some.inj hj']
  · simp only [clock, Clock.effect, Settled.evaluate hpending]

/-- Before the next event, the timer fires if it is due. -/
theorem catch_up {s : Clock} (h : Settled s.monitor) {time : ℚ} (hnow : ∀ n ∈ s.now, n ≤ time) :
    ∃ pre, clock.Legal s pre ∧ inputs pre = [] ∧ Settled (clock.after s pre).monitor ∧
      ∀ e, clock.guard (clock.after s pre) (.event time e) := by
  cases htimer : s.monitor.timer with
  | none =>
    refine ⟨[], trivial, rfl, h, fun e => ⟨hnow, fun i hi => ?_⟩⟩
    have hi' := (h.pending i).mp hi
    simp [htimer] at hi'
  | some i =>
    by_cases hdue : time ≤ s.due i
    · refine ⟨[], trivial, rfl, h, fun e => ⟨hnow, fun j hj => ?_⟩⟩
      have hj' := (h.pending j).mp hj
      rw [htimer] at hj'
      rw [← Option.some.inj hj']
      exact hdue
    · obtain ⟨hguard, hsettled, hnone⟩ := fire_current h htimer
      refine ⟨[.fire i], ⟨hguard, trivial⟩, rfl, hsettled,
        fun e => ⟨fun n hn => ?_, fun j hj => ?_⟩⟩
      · have hn' : s.due i = n := Option.some.inj hn
        rw [← hn']
        exact le_of_not_ge hdue
      · have hj' := (hsettled.pending j).mp hj
        rw [hnone] at hj'
        cases hj'

/-- Input events in the order of time can always be handled, and their last timer fires. -/
theorem exists_complete {s : Clock} (h : Settled s.monitor) (events : List (ℚ × InputEvent))
    (hsorted : (events.map Prod.fst).IsChain (· ≤ ·))
    (hnow : ∀ n ∈ s.now, ∀ e ∈ events.head?, n ≤ e.1) :
    ∃ run, clock.Legal s run ∧ inputs run = events ∧ (clock.after s run).monitor.timer = none ∧
      Settled (clock.after s run).monitor := by
  induction events generalizing s with
  | nil =>
    cases htimer : s.monitor.timer with
    | none => exact ⟨[], trivial, rfl, htimer, h⟩
    | some i =>
      obtain ⟨hguard, hsettled, hnone⟩ := fire_current h htimer
      exact ⟨[.fire i], ⟨hguard, trivial⟩, rfl, hnone, hsettled⟩
  | cons event events ih =>
    obtain ⟨time, e⟩ := event
    obtain ⟨pre, hlegal, hinputs, hsettled, hguard⟩ :=
      catch_up h (fun n hn => hnow n hn (time, e) rfl)
    have hnext : Settled (clock.effect (clock.after s pre) (.event time e)).monitor :=
      hsettled.keyEvent e
    obtain ⟨hfirst, hrest⟩ := List.isChain_cons.mp hsorted
    have hlater : ∀ n ∈ (clock.effect (clock.after s pre) (.event time e)).now,
        ∀ e' ∈ events.head?, n ≤ e'.1 := by
      intro n hn e' he'
      have hn' : time = n := Option.some.inj hn
      subst hn'
      exact hfirst e'.1 (by simp [List.head?_map, Option.mem_def.mp he'])
    obtain ⟨run, hrun, hrunInputs, hend⟩ := ih hnext hrest hlater
    refine ⟨pre ++ .event time e :: run, ?_, ?_, ?_⟩
    · exact (legal_append s pre _).mpr ⟨hlegal, hguard e, hrun⟩
    · rw [inputs_append, hinputs, List.nil_append, ← hrunInputs]
      rfl
    · rw [after_append]
      exact hend

/-- Whatever the input events, in the order of time and with no two presses exactly a timeout
apart: they can be handled to the end, each maximal run of presses then has been evaluated
once, a timeout after its last press and with its length, and no other event changes anything. -/
theorem bursts_classified (events : List (ℚ × InputEvent))
    (hsorted : (events.map Prod.fst).IsChain (· ≤ ·))
    (hgap : (pressTimes events).IsChain fun a b => b - a ≠ clickTimeout) :
    MaximalRuns (pressTimes events) (bursts (pressTimes events)) ∧
    (∃ run, Complete events run) ∧
    (∀ run, Complete events run →
      List.Forall₂ Classified (bursts (pressTimes events)) (evaluationsOf (clockLog run))) ∧
    ∀ s time e, e ≠ .key .keyPower 1 →
      clock.effect s (.event time e) = { s with now := some time } := by
  have hruns := maximalRuns_iff.mpr (rfl : bursts (pressTimes events) = _)
  refine ⟨hruns, ?_, fun run hrun => ?_, fun s time e he => ?_⟩
  · obtain ⟨run, hlegal, hinputs, hidle, hsettled⟩ :=
      exists_complete (s := clockStart) Settled.start events hsorted (by simp [clockStart])
    refine ⟨run, hlegal, hinputs, fun i hi => ?_⟩
    rw [hsettled.pending, hidle] at hi
    cases hi
  · rw [evaluations_of_complete hgap hrun, List.forall₂_map_right_iff, List.forall₂_same]
    exact fun r hr => evaluation_classified fun hempty => hruns.nonempty (hempty ▸ hr)
  · exact clock_other (Bool.eq_false_iff.mpr (mt (isPress_iff e).mp he))

/-- Three quick presses, the last one held for long. -/
def threeClicks : List (ℚ × InputEvent) :=
  [(0, .key .keyPower 1), (1 / 10, .key .keyPower 0), (1 / 5, .other),
    (3 / 10, .key .keyPower 1), (2 / 5, .key .keyPower 0),
    (3 / 5, .key .keyPower 1), (2, .key .keyPower 2), (3, .key .keyPower 0)]

theorem bursts_classified_three :
    bursts (pressTimes threeClicks) = [[0, 3 / 10, 3 / 5]] ∧
    ∃ run, Complete threeClicks run ∧
      ∃ e, evaluationsOf (clockLog run) = [e] ∧ Classified [0, 3 / 10, 3 / 5] e := by
  have hbursts : bursts (pressTimes threeClicks) = [[0, 3 / 10, 3 / 5]] := by decide +kernel
  obtain ⟨-, ⟨run, hrun⟩, hall, -⟩ :=
    bursts_classified threeClicks (by decide +kernel) (by decide +kernel)
  have hevaluated := hall run hrun
  rw [hbursts] at hevaluated
  obtain ⟨e, rest, he, hrest, hlist⟩ := List.forall₂_cons_left_iff.mp hevaluated
  rw [List.forall₂_nil_left_iff.mp hrest] at hlist
  exact ⟨hbursts, run, hrun, e, hlist, he⟩

end Aawgd.ButtonMonitor
