import Aawgd.ButtonActions
import Mathlib.Algebra.Order.Ring.Nat

/-! The button script as a whole: `main` and the timers on the click counter, and the calls
that each of them makes, in any order. Whatever bursts there are, in the end the light is out
and the service runs. -/
namespace Aawgd.ButtonScript
open CallProgram GuardedSystem
open ButtonMonitor (Monitor Thread mainStep timerStep)

structure ScriptState where
  monitor : Monitor
  /-- What is left of the calls of a thread. -/
  threads : Thread → Program (Except Unit Unit)
  leds : Led → Bool
  dongle : Bool

/-- A statement on the global variables, or a call with its answer. -/
inductive Move where
  | statement (a : Thread)
  | call (a : Thread) (ev : Event Call Answer)

def Move.event? : Move → Option (Event Call Answer)
  | .statement _ => none
  | .call _ ev => some ev

def events (run : List Move) : List (Event Call Answer) := run.filterMap Move.event?

def succeeded : Program (Except Unit Unit) → Bool
  | .ret r => r.isOk
  | .call _ _ => false

/-- The loop of `main` is entered when its first calls have succeeded; a timer that comes to
the end of `evaluate_clicks` goes on with the calls for its count. -/
def statement? (s : ScriptState) : Thread → Option ScriptState
  | .main =>
    if succeeded (s.threads .main) then (mainStep s.monitor).map fun m => { s with monitor := m }
    else none
  | .timer i => (timerStep s.monitor i).map fun m =>
    match s.monitor.timers i with
    | .deciding count =>
      { s with monitor := m, threads := Function.update s.threads (.timer i) (act count).run }
    | _ => { s with monitor := m }

def stepScript (s : ScriptState) : Move → Option ScriptState
  | .statement a => statement? s a
  | .call a ev => ((s.threads a).answered? ev).map fun p => { s with
      threads := Function.update s.threads a p
      leds := fun led => (ledWrites led ev).getD (s.leds led)
      dongle := (dongleWrites ev).getD s.dongle }

/-- The service runs, and the LEDs are as they are. -/
def boot (leds : Led → Bool) : ScriptState where
  monitor := ButtonMonitor.start
  threads
    | .main => startup.run
    | .timer _ => .ret (.ok ())
  leds := leds
  dongle := true

def script (leds : Led → Bool) : GuardedSystem ScriptState Move := .ofStep (boot leds) stepScript

instance decidableScriptGuard (leds : Led → Bool) (s : ScriptState) (a : Move) :
    Decidable ((script leds).guard s a) :=
  GuardedSystem.decidableGuardOfStep _ _ s a

/-! What a step can do -/

inductive ScriptStep (s : ScriptState) : Move → ScriptState → Prop
  | moves (a : Thread) (m : Monitor) (step : ButtonMonitor.Step s.monitor a m)
    (early : ∀ i count, a = .timer i → s.monitor.timers i ≠ .deciding count) :
    ScriptStep s (.statement a) { s with monitor := m }
  | acts (i count : Nat) (at_timer : s.monitor.timers i = .deciding count) :
    ScriptStep s (.statement (.timer i)) { s with
      monitor := s.monitor.setTimer i .done
      threads := Function.update s.threads (.timer i) (act count).run }
  | calls (a : Thread) (ev : Event Call Answer) (k : Answer ev.1 → Program (Except Unit Unit))
    (next : s.threads a = .call ev.1 k) : ScriptStep s (.call a ev) { s with
      threads := Function.update s.threads a (k ev.2)
      leds := fun led => (ledWrites led ev).getD (s.leds led)
      dongle := (dongleWrites ev).getD s.dongle }

theorem stepScript_cases {s s' : ScriptState} {a : Move} (h : stepScript s a = some s') :
    ScriptStep s a s' := by
  cases a with
  | call a ev =>
    obtain ⟨p, hp, rfl⟩ := Option.map_eq_some_iff.mp h
    obtain ⟨k, hk, rfl⟩ := answered?_some.mp hp
    exact .calls a ev k hk
  | statement a =>
    cases a with
    | main =>
      simp only [stepScript, statement?] at h
      split at h
      next =>
        obtain ⟨m, hm, rfl⟩ := Option.map_eq_some_iff.mp h
        exact .moves .main m (ButtonMonitor.step_cases hm) fun _ _ h => nomatch h
      next => cases h
    | timer i =>
      obtain ⟨m, hm, hs⟩ := Option.map_eq_some_iff.mp h
      have hstep : ButtonMonitor.step s.monitor (.timer i) = some m := hm
      split at hs
      next count hcount =>
        subst hs
        obtain rfl : s.monitor.setTimer i .done = m := by
          simpa [timerStep, hcount] using hm
        exact .acts i count hcount
      next hearly =>
        subst hs
        exact .moves _ m (ButtonMonitor.step_cases hstep) fun j count hj => by
          cases hj
          exact hearly count

theorem script_step {leds : Led → Bool} {s : ScriptState} {a : Move}
    (h : (script leds).guard s a) : ScriptStep s a ((script leds).effect s a) :=
  stepScript_cases (GuardedSystem.ofStep_effect h)

/-! Timers that have not come to their calls -/

/-- No thread of a timer has calls to make before `evaluate_clicks` has come to its end, and
the timers not created yet are absent. -/
structure Idle (s : ScriptState) : Prop where
  fresh : ∀ i, s.monitor.created ≤ i → s.monitor.timers i = .absent
  idle : ∀ i, s.monitor.timers i ≠ .done → ∃ r, s.threads (.timer i) = .ret r

theorem Idle.boot (leds : Led → Bool) : Idle (boot leds) :=
  ⟨fun _ _ => rfl, fun _ _ => ⟨.ok (), rfl⟩⟩

/-- A statement moves one timer at most, one that is there and not done or the next new one. -/
theorem step_timers {s m : Monitor} {a : Thread} (h : ButtonMonitor.Step s a m) :
    (m.timers = s.timers ∧ m.created = s.created) ∨ ∃ j pc, m.timers = (s.setTimer j pc).timers ∧
      ((m.created = s.created ∧ s.timers j ≠ .absent ∧ s.timers j ≠ .done) ∨
        (m.created = s.created + 1 ∧ j = s.created)) := by
  cases h with
  | press | test | cancelNone | startFails => exact .inl ⟨rfl, rfl⟩
  | cancel j =>
    unfold ButtonMonitor.Monitor.cancel
    split
    next hj => exact .inr ⟨j, .cancelled, rfl, .inl ⟨rfl, by obtain hj | hj := hj <;> simp [hj]⟩⟩
    next => exact .inl ⟨rfl, rfl⟩
  | create => exact .inr ⟨_, .created, rfl, .inr ⟨rfl, rfl⟩⟩
  | start j _ _ hj => exact .inr ⟨j, .pending, rfl, .inl ⟨rfl, by simp [hj]⟩⟩
  | fire j hj => exact .inr ⟨j, .copying, rfl, .inl ⟨rfl, by simp [hj]⟩⟩
  | copy j hj => exact .inr ⟨j, .resetting _, rfl, .inl ⟨rfl, by simp [hj]⟩⟩
  | reset j count hj => exact .inr ⟨j, .clearing count, rfl, .inl ⟨rfl, by simp [hj]⟩⟩
  | clear j count hj => exact .inr ⟨j, .deciding count, rfl, .inl ⟨rfl, by simp [hj]⟩⟩
  | act j count hj => exact .inr ⟨j, .done, rfl, .inl ⟨rfl, by simp [hj]⟩⟩

theorem step_fresh {s m : Monitor} {a : Thread} (h : ButtonMonitor.Step s a m)
    (hfresh : ∀ i, s.created ≤ i → s.timers i = .absent) (i : Nat) (hi : m.created ≤ i) :
    m.timers i = .absent := by
  obtain ⟨htimers, hcreated⟩ | ⟨j, pc, htimers, hj⟩ := step_timers h
  · rw [htimers]
    exact hfresh i (hcreated ▸ hi)
  · have hold : s.timers i = .absent := hfresh i (by omega)
    have hij : i ≠ j := by
      rintro rfl
      obtain ⟨-, habsent, -⟩ | ⟨hcreated, hnew⟩ := hj
      · exact habsent hold
      · omega
    rw [htimers, ButtonMonitor.setTimer_ne s pc hij, hold]

theorem step_done {s m : Monitor} {a : Thread} (h : ButtonMonitor.Step s a m)
    (hfresh : ∀ i, s.created ≤ i → s.timers i = .absent) {i : Nat} (hi : s.timers i = .done) :
    m.timers i = .done := by
  obtain ⟨htimers, -⟩ | ⟨j, pc, htimers, hj⟩ := step_timers h
  · rw [htimers, hi]
  · have hij : i ≠ j := by
      rintro rfl
      obtain ⟨-, -, hdone⟩ | ⟨-, rfl⟩ := hj
      · exact hdone hi
      · rw [hfresh _ (Nat.le_refl _)] at hi
        cases hi
    rw [htimers, ButtonMonitor.setTimer_ne s pc hij, hi]

theorem Idle.step {s s' : ScriptState} {a : Move} (h : Idle s) (hstep : ScriptStep s a s') :
    Idle s' := by
  cases hstep with
  | moves a m hm hearly =>
    exact ⟨step_fresh hm h.fresh, fun i hi => h.idle i fun hdone => hi (step_done hm h.fresh hdone)⟩
  | acts i count hi =>
    have hm : ButtonMonitor.Step s.monitor (.timer i) (s.monitor.setTimer i .done) :=
      .act i count hi
    refine ⟨step_fresh hm h.fresh, fun j hj => ?_⟩
    have hji : j ≠ i := by
      rintro rfl
      exact hj (ButtonMonitor.setTimer_self _ _ _)
    have hold := h.idle j fun hdone => hj (step_done hm h.fresh hdone)
    simpa [hji] using hold
  | calls a ev k hk =>
    refine ⟨h.fresh, fun j hj => ?_⟩
    have hja : .timer j ≠ a := by
      rintro rfl
      obtain ⟨r, hr⟩ := h.idle j hj
      rw [hr] at hk
      cases hk
    simpa [hja] using h.idle j hj

/-! A cell that calls write -/

/-- Statements leave the cell alone, and a call stores in it what it writes. -/
structure CellOf {V : Type} (cell : ScriptState → V) (writes : Event Call Answer → Option V) :
    Prop where
  statement : ∀ {s a s'}, ScriptStep s (.statement a) s' → cell s' = cell s
  call : ∀ {s a ev s'}, ScriptStep s (.call a ev) s' → cell s' = (writes ev).getD (cell s)

theorem cellOf_led (led : Led) : CellOf (fun s => s.leds led) (ledWrites led) :=
  ⟨fun h => by cases h <;> rfl, fun h => by cases h; rfl⟩

theorem cellOf_dongle : CellOf ScriptState.dongle dongleWrites :=
  ⟨fun h => by cases h <;> rfl, fun h => by cases h; rfl⟩

section cell
variable {V : Type} [Nontrivial V] {cell : ScriptState → V} {writes : Event Call Answer → Option V}
  {legal : Event Call Answer → Prop} {rest : V}

theorem tended_step (hcell : CellOf cell writes)
    (hact : ∀ count, Leaves writes legal rest (act count).run) {s s' : ScriptState} {a : Move}
    (hidle : Idle s) (h : Tended writes legal rest s.threads (cell s)) (hstep : ScriptStep s a s')
    (hlegal : ∀ ev, a.event? = some ev → legal ev) :
    Tended writes legal rest s'.threads (cell s') := by
  cases a with
  | statement a =>
    rw [hcell.statement hstep]
    cases hstep with
    | moves => exact h
    | acts i count hi =>
      obtain ⟨r, hr⟩ := hidle.idle i (by simp [hi])
      exact h.spawn hr (hact count)
  | call a ev =>
    rw [hcell.call hstep]
    cases hstep with
    | calls a ev k hk => exact h.answered hk (hlegal ev rfl)

/-- The cell rests in every state in which no thread has calls to make. -/
theorem tended_run (hcell : CellOf cell writes)
    (hact : ∀ count, Leaves writes legal rest (act count).run) {leds : Led → Bool}
    (hboot : Tended writes legal rest (boot leds).threads (cell (boot leds))) {run : List Move}
    (hlegal : (script leds).Legal (boot leds) run) (hevents : ∀ ev ∈ events run, legal ev) :
    Tended writes legal rest ((script leds).after (boot leds) run).threads
      (cell ((script leds).after (boot leds) run)) := by
  let Inv (s : ScriptState) : Prop := Idle s ∧ Tended writes legal rest s.threads (cell s)
  let ok (_ : ScriptState) (a : Move) : Prop := ∀ ev, a.event? = some ev → legal ev
  have hstep : ∀ s a, Inv s → (script leds).guard s a → ok s a → Inv ((script leds).effect s a) :=
    fun s a hs hguard hok => ⟨hs.1.step (script_step hguard),
      tended_step hcell hact hs.1 hs.2 (script_step hguard) hok⟩
  have hmeets : ∀ (run : List Move) (s : ScriptState), (∀ ev ∈ events run, legal ev) →
      (script leds).Meets ok s run := by
    intro run
    induction run with
    | nil => exact fun _ _ => trivial
    | cons a run ih =>
      intro s hall
      refine ⟨fun ev hev => hall ev ?_, ih _ fun ev hev => hall ev ?_⟩
      · exact List.mem_filterMap.mpr ⟨a, List.mem_cons_self, hev⟩
      · obtain ⟨b, hb, hb'⟩ := List.mem_filterMap.mp hev
        exact List.mem_filterMap.mpr ⟨b, List.mem_cons_of_mem a hb, hb'⟩
  exact (invariant hstep ⟨.boot leds, hboot⟩ hlegal (hmeets run _ hevents)).2

end cell

/-! All threads done -/

def isDone : Program (Except Unit Unit) → Bool
  | .ret _ => true
  | .call _ _ => false

/-- No thread has calls to make. -/
def Quiet (s : ScriptState) : Prop := ∀ a, isDone (s.threads a) = true

theorem isDone_iff {p : Program (Except Unit Unit)} : isDone p = true ↔ ∃ r, p = .ret r := by
  cases p <;> simp [isDone]

/-- What an LED comes to rest at. -/
def restOf (broken leds : Led → Bool) (led : Led) : Bool :=
  if reached broken led then false else leds led

theorem restOf_reached {broken leds : Led → Bool} {led : Led} (h : reached broken led = true) :
    restOf broken leds led = false := by
  rw [restOf, if_pos h]

/-- The first calls of `main` put out the LEDs that are reached. -/
theorem tended_boot (broken leds : Led → Bool) (led : Led) :
    Tended (ledWrites led) (LedEvent broken led) (restOf broken leds led) (boot leds).threads
      (leds led) := by
  have hgrab : ∀ rest, Leaves (ledWrites led) (LedEvent broken led) rest (ExceptT.run (ExceptT.mk
      (.call .grabButton fun (grabbed : Bool) => .ret (if grabbed then .ok () else .error ())) :
      Script Unit)) := fun rest => leaves_dark ⟨rfl, fun _ => trivial⟩
  have hstartup : (boot leds).threads .main = startup.run := rfl
  constructor
  · intro a
    cases a with
    | timer i => exact leaves_ret _
    | main =>
      rw [hstartup, startup, ExceptT.run_bind_lift]
      exact (turnOff_leaves restOf_reached).bind fun _ => hgrab _
  · cases h : reached broken led with
    | false => exact .inl (by simp [restOf, h])
    | true =>
      refine .inr ⟨.main, ?_⟩
      rw [hstartup, startup, ExceptT.run_bind_lift, restOf_reached h]
      exact (turnOff_restores h).bind fun _ => hgrab _

theorem tended_service (leds : Led → Bool) :
    Tended dongleWrites ServiceEvent true (boot leds).threads true := by
  refine ⟨fun a => ?_, .inl rfl⟩
  cases a with
  | timer i => exact leaves_ret _
  | main =>
    have hlight : Leaves dongleWrites ServiceEvent true turnOff :=
      leaves_of_only turnOff_only fun _ hev _ => dongleWrites_light hev
    have hstartup : (boot leds).threads .main = startup.run := rfl
    rw [hstartup, startup, ExceptT.run_bind_lift]
    exact hlight.bind fun _ => ensures_call.mpr fun (grabbed : Bool) _ => leaves_ret _

/-- The script starts with the service of the dongle running, and each LED works throughout or
is broken throughout. However the button is pressed then and whatever the threads get in each
other's way: when no thread has calls to make any more, the LEDs that the script reaches are
dark and the others as they were, all of them unless the debug mode was started and the red one
even then; and the service runs if the debug mode was not started and no command failed. -/
theorem script_rests (broken leds : Led → Bool) (run : List Move)
    (hlegal : (script leds).Legal (boot leds) run) (hboard : ∀ ev ∈ events run, OnBoard broken ev)
    (hquiet : Quiet ((script leds).after (boot leds) run)) :
    (∀ led, (led = .red ∨ ∀ ev ∈ events run, ¬ DebugStarted ev) →
      ((script leds).after (boot leds) run).leds led = restOf broken leds led) ∧
    ((∀ ev ∈ events run, ServiceEvent ev) →
      ((script leds).after (boot leds) run).dongle = true) := by
  have hdone : ∀ a, ∃ r, ((script leds).after (boot leds) run).threads a = .ret r :=
    fun a => isDone_iff.mp (hquiet a)
  refine ⟨fun led hled => ?_, fun hservice => ?_⟩
  · have hevents : ∀ ev ∈ events run, LedEvent broken led ev :=
      fun ev hev => ⟨hboard ev hev, hled.imp_right fun h => h ev hev⟩
    have hact : ∀ count, Leaves (ledWrites led) (LedEvent broken led) (restOf broken leds led)
        (act count).run := act_leaves restOf_reached
    exact (tended_run (cellOf_led led) hact (tended_boot broken leds led) hlegal hevents).done hdone
  · exact (tended_run cellOf_dongle act_service (tended_service leds) hlegal hservice).done hdone

/-- The start of the script, a burst of three presses, and the reset. -/
def resetRun : List Move :=
  (CallProgram.run oneKnown startup.run ()).trace.map (Move.call .main) ++
    (List.replicate 14 Thread.main ++ List.replicate 5 (Thread.timer 2)).map Move.statement ++
    (CallProgram.run oneKnown (act 3).run ()).trace.map (Move.call (.timer 2))

theorem reachable_idle {leds : Led → Bool} {run : List Move}
    (hlegal : (script leds).Legal (boot leds) run) : Idle ((script leds).after (boot leds) run) :=
  invariant_all (fun _ _ h hguard => h.step (script_step hguard)) (.boot leds) hlegal

theorem script_rests_reset :
    ((script fun _ => true).after (boot fun _ => true) resetRun).leds .blue = false ∧
      ((script fun _ => true).after (boot fun _ => true) resetRun).dongle = true := by
  have hlegal : (script fun _ => true).Legal (boot fun _ => true) resetRun := by decide +kernel
  have hquiet : Quiet ((script fun _ => true).after (boot fun _ => true) resetRun) := by
    intro a
    cases a with
    | main => decide +kernel
    | timer i =>
      by_cases hi : i < 3
      · have hall : ∀ i < 3, isDone (((script fun _ => true).after (boot fun _ => true)
            resetRun).threads (.timer i)) = true := by decide +kernel
        exact hall i hi
      · have hcreated : ((script fun _ => true).after (boot fun _ => true)
            resetRun).monitor.created = 3 := by decide +kernel
        have hidle := reachable_idle hlegal
        have habsent := hidle.fresh i (by omega)
        exact isDone_iff.mpr (hidle.idle i (by simp [habsent]))
  obtain ⟨hdark, hservice⟩ := script_rests (fun _ => false) (fun _ => true) resetRun hlegal
    (by decide +kernel) hquiet
  exact ⟨hdark .blue (.inr (by decide +kernel)), hservice (by decide +kernel)⟩

end Aawgd.ButtonScript
