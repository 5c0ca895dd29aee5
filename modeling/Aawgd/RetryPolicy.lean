import Aawgd.Bluetooth
import Aawgd.GuardedSystem

/-! The retry loop as a word of waits and connection attempts, whenever the promise is
satisfied. -/
namespace Aawgd
open Bluetooth

/-- What the retry thread is seen to do. -/
inductive RetryEvent where
  | wait (ready : Bool)
  | connectDevice
  | powerOff
  deriving DecidableEq

inductive Letter where
  | W | C
  deriving DecidableEq

def RetryEvent.letter? : RetryEvent → Option Letter
  | .wait _ => some .W
  | .connectDevice => some .C
  | .powerOff => none

def letters (tr : List RetryEvent) : List Letter := tr.filterMap RetryEvent.letter?

/-- The event of the retry thread's next statement. -/
def Bluetooth.retryEvents (b : Bluetooth) : List RetryEvent :=
  match b.retry with
  | .passive _ | .wait => [.wait b.ready]
  | .connect _ => [.connectDevice]
  | .powerOff => [.powerOff]
  | _ => []

/-- A statement of the loop, or a call of `stopConnectWithRetry` by another thread. -/
inductive RetryAction where
  | loop | satisfy
  deriving DecidableEq

def retryActionStep (strategy : ConnectionStrategy) (adapter : Bool) (b : Bluetooth) :
    RetryAction → Option Bluetooth
  | .loop => b.retryStep strategy adapter
  | .satisfy => some b.stopConnectWithRetry

/-- The retry thread on its own. -/
def retryThread (strategy : ConnectionStrategy) (adapter : Bool) :
    GuardedSystem Bluetooth RetryAction :=
  .ofStep Bluetooth.initial (retryActionStep strategy adapter)

instance decidableRetryGuard (strategy : ConnectionStrategy) (adapter : Bool) (b : Bluetooth)
    (a : RetryAction) : Decidable ((retryThread strategy adapter).guard b a) :=
  GuardedSystem.decidableGuardOfStep _ _ b a

def actionEvents (b : Bluetooth) : RetryAction → List RetryEvent
  | .loop => b.retryEvents
  | .satisfy => []

/-- The trace of a run. -/
def retryTrace (strategy : ConnectionStrategy) (adapter : Bool) (b : Bluetooth)
    (as : List RetryAction) : List RetryEvent :=
  (retryThread strategy adapter).outputs actionEvents b as

/-- One turn of the loop: in dongle mode three passive waits come first. -/
def turn (strategy : ConnectionStrategy) : List Letter :=
  if strategy = .dongleMode then [.W, .W, .W, .C, .W] else [.C, .W]

/-- Some whole turns. -/
def turns (strategy : ConnectionStrategy) (m : Nat) : List Letter :=
  (List.replicate m (turn strategy)).flatten

theorem turns_succ (strategy : ConnectionStrategy) (m : Nat) :
    turns strategy (m+1) = turns strategy m ++ turn strategy := by
  simp [turns, List.replicate_succ']

/-- The thread stands before letter j of a turn. -/
inductive StandsAt (strategy : ConnectionStrategy) : Nat → RetryPc → Prop
  | passive (n : Nat) (mode : strategy = .dongleMode) (few : n < 3) :
    StandsAt strategy n (.passive n)
  | connect (retried : Bool) :
    StandsAt strategy (if strategy = .dongleMode then 3 else 0) (.connect retried)
  | wait : StandsAt strategy (if strategy = .dongleMode then 4 else 1) .wait

theorem roundStart_stands (strategy : ConnectionStrategy) {w : Nat} (hw : w ≤ 3) (retried : Bool) :
    StandsAt strategy (if strategy = .dongleMode then w else 0) (roundStart strategy w retried) := by
  have hconnect : StandsAt strategy _ (.connect retried) := .connect retried
  by_cases hmode : strategy = .dongleMode
  · rw [if_pos hmode] at hconnect ⊢
    by_cases hfew : w < 3
    · have hstart : roundStart strategy w retried = .passive w := if_pos ⟨hmode, hfew⟩
      rw [hstart]
      exact .passive w hmode hfew
    · have hstart : roundStart strategy w retried = .connect retried :=
        if_neg fun h => hfew h.2
      have hthree : w = 3 := by omega
      rwa [hstart, hthree]
  · have hstart : roundStart strategy w retried = .connect retried :=
      if_neg fun h => hmode h.1
    rw [if_neg hmode] at hconnect ⊢
    rwa [hstart]

/-- Where the loop is and what it has done. -/
inductive Lap (strategy : ConnectionStrategy) (b : Bluetooth) : List RetryEvent → Prop
  | before (promise : b.promise ≠ none)
    (pc : b.retry = .start ∨ (b.retry = .unadvertise ∨ b.retry = .advertise) ∧
      strategy = .dongleMode) : Lap strategy b []
  | looping (tr : List RetryEvent) (m j : Nat) (pc : StandsAt strategy j b.retry)
    (unready : .wait true ∉ tr) (powered : .powerOff ∉ tr)
    (word : letters tr = turns strategy m ++ (turn strategy).take j) : Lap strategy b tr
  | ending (tr : List RetryEvent) (m j : Nat) (unready : .wait true ∉ tr) (powered : .powerOff ∉ tr)
    (word : letters tr ++ [.W] = turns strategy m ++ (turn strategy).take j)
    (pc : b.retry = .clear ∨ b.retry = afterLoop strategy) : Lap strategy b (tr ++ [.wait true])
  | off (tr : List RetryEvent) (m j : Nat) (unready : .wait true ∉ tr) (powered : .powerOff ∉ tr)
    (word : letters tr ++ [.W] = turns strategy m ++ (turn strategy).take j)
    (pc : b.retry = .finished) (mode : strategy ≠ .dongleMode) :
    Lap strategy b (tr ++ [.wait true] ++ [.powerOff])

/-! Letters of a turn -/

theorem turn_passive {strategy : ConnectionStrategy} {n : Nat} (mode : strategy = .dongleMode)
    (few : n < 3) : (turn strategy).take (n+1) = (turn strategy).take n ++ [.W] := by
  subst mode
  match n, few with
  | 0, _ | 1, _ | 2, _ => rfl

theorem turn_connect (strategy : ConnectionStrategy) :
    (turn strategy).take (if strategy = .dongleMode then 4 else 1) =
      (turn strategy).take (if strategy = .dongleMode then 3 else 0) ++ [.C] := by
  cases strategy <;> rfl

theorem turn_wait (strategy : ConnectionStrategy) :
    turn strategy = (turn strategy).take (if strategy = .dongleMode then 4 else 1) ++ [.W] := by
  cases strategy <;> rfl

theorem letters_concat (tr : List RetryEvent) (e : RetryEvent) :
    letters (tr ++ [e]) = letters tr ++ (e.letter?).toList := by
  rw [letters, List.filterMap_append]
  cases e <;> rfl

/-- A wait that times out or an attempt brings the loop to the next letter. -/
theorem Lap.advance {strategy : ConnectionStrategy} {b : Bluetooth} {tr : List RetryEvent}
    {m j : Nat} {e : RetryEvent} (pc : StandsAt strategy j b.retry) (unready : .wait true ∉ tr)
    (powered : .powerOff ∉ tr) (he : e = .wait false ∨ e = .connectDevice)
    (word : letters tr ++ (e.letter?).toList = turns strategy m ++ (turn strategy).take j) :
    Lap strategy b (tr ++ [e]) := by
  refine .looping _ m j pc ?_ ?_ ?_
  · cases he with
    | inl h => simp [h, unready]
    | inr h => simp [h, unready]
  · cases he with
    | inl h => simp [h, powered]
    | inr h => simp [h, powered]
  · rw [letters_concat, word]

section step
variable {strategy : ConnectionStrategy} {adapter : Bool} {b b' : Bluetooth}

theorem Lap.passive {tr : List RetryEvent} {m n : Nat} (hretry : b.retry = .passive n)
    (mode : strategy = .dongleMode) (few : n < 3) (unready : .wait true ∉ tr)
    (powered : .powerOff ∉ tr) (word : letters tr = turns strategy m ++ (turn strategy).take n)
    (hstep : b.retryStep strategy adapter = some b') : Lap strategy b' (tr ++ b.retryEvents) := by
  have hword : letters tr ++ [.W] = turns strategy m ++ (turn strategy).take (n+1) := by
    rw [word, turn_passive mode few, List.append_assoc]
  have hevents : b.retryEvents = [.wait b.ready] := by rw [retryEvents, hretry]
  simp only [retryStep, hretry] at hstep
  rw [hevents]
  cases hready : b.ready with
  | true =>
    simp only [hready, if_true, Option.some.injEq] at hstep
    subst hstep
    exact .ending tr m (n+1) unready powered hword (.inr rfl)
  | false =>
    simp only [hready, Bool.false_eq_true, if_false, Option.some.injEq] at hstep
    subst hstep
    have hnext := roundStart_stands strategy (show n + 1 ≤ 3 by omega) true
    rw [if_pos mode] at hnext
    exact Lap.advance hnext unready powered (.inl rfl) hword

theorem Lap.connect {tr : List RetryEvent} {m : Nat} {retried : Bool}
    (hretry : b.retry = .connect retried) (unready : .wait true ∉ tr) (powered : .powerOff ∉ tr)
    (word : letters tr = turns strategy m ++
      (turn strategy).take (if strategy = .dongleMode then 3 else 0))
    (hstep : b.retryStep strategy adapter = some b') : Lap strategy b' (tr ++ b.retryEvents) := by
  have hevents : b.retryEvents = [.connectDevice] := by rw [retryEvents, hretry]
  simp only [retryStep, hretry, Option.some.injEq] at hstep
  subst hstep
  rw [hevents]
  refine Lap.advance (m := m) .wait unready powered (.inr rfl) ?_
  rw [word, turn_connect, List.append_assoc]
  rfl

theorem Lap.wait {tr : List RetryEvent} {m : Nat} (hretry : b.retry = .wait)
    (unready : .wait true ∉ tr) (powered : .powerOff ∉ tr)
    (word : letters tr = turns strategy m ++
      (turn strategy).take (if strategy = .dongleMode then 4 else 1))
    (hstep : b.retryStep strategy adapter = some b') : Lap strategy b' (tr ++ b.retryEvents) := by
  have hword : letters tr ++ [.W] = turns strategy (m+1) ++ (turn strategy).take 0 := by
    rw [word, turns_succ, List.append_assoc, ← turn_wait, List.take_zero, List.append_nil]
  have hevents : b.retryEvents = [.wait b.ready] := by rw [retryEvents, hretry]
  simp only [retryStep, hretry] at hstep
  rw [hevents]
  cases hready : b.ready with
  | true =>
    simp only [hready, if_true, Option.some.injEq] at hstep
    subst hstep
    exact .ending tr (m+1) 0 unready powered hword (.inl rfl)
  | false =>
    simp only [hready, Bool.false_eq_true, if_false, Option.some.injEq] at hstep
    subst hstep
    have hnext := roundStart_stands strategy (Nat.zero_le 3) true
    rw [ite_self] at hnext
    exact Lap.advance hnext unready powered (.inl rfl) hword

/-- Before the loop the thread takes its future and, in dongle mode, advertises anew. -/
theorem Lap.enter (promise : b.promise ≠ none)
    (pc : b.retry = .start ∨ (b.retry = .unadvertise ∨ b.retry = .advertise) ∧
      strategy = .dongleMode) (hstep : b.retryStep strategy adapter = some b') :
    Lap strategy b' b.retryEvents := by
  have hnext := roundStart_stands strategy (Nat.zero_le 3) false
  rw [ite_self] at hnext
  have hlooping (b₁ : Bluetooth) : Lap strategy { b₁ with retry := roundStart strategy 0 false } [] :=
    .looping [] 0 0 hnext (by simp) (by simp) rfl
  cases pc with
  | inl hretry =>
    obtain ⟨k, hk⟩ := Option.ne_none_iff_exists'.mp promise
    simp only [retryEvents, retryStep, hretry, hk] at hstep ⊢
    by_cases hmode : strategy = .dongleMode
    · simp only [hmode, if_true, Option.some.injEq] at hstep
      subst hstep
      exact .before (Option.some_ne_none k) (.inr ⟨.inl rfl, hmode⟩)
    · simp only [hmode, if_false, Option.some.injEq] at hstep
      subst hstep
      exact hlooping { b with promise := some k, future := k }
  | inr hmode =>
    cases hmode.1 with
    | inl hretry =>
      simp only [retryEvents, retryStep, hretry, Option.some.injEq] at hstep ⊢
      subst hstep
      have hkeeps := (stopAdvertising_frame adapter b).1
      exact .before (hkeeps ▸ promise) (.inr ⟨.inr rfl, hmode.2⟩)
    | inr hretry =>
      simp only [retryEvents, retryStep, hretry, Option.some.injEq] at hstep ⊢
      subst hstep
      exact hlooping (b.startAdvertising adapter)

/-- Behind the loop the promise is dropped and the adapter powered off, if at all. -/
theorem Lap.leave {tr : List RetryEvent} {m j : Nat} (unready : .wait true ∉ tr)
    (powered : .powerOff ∉ tr)
    (word : letters tr ++ [.W] = turns strategy m ++ (turn strategy).take j)
    (pc : b.retry = .clear ∨ b.retry = afterLoop strategy)
    (hstep : b.retryStep strategy adapter = some b') :
    Lap strategy b' (tr ++ [.wait true] ++ b.retryEvents) := by
  cases pc with
  | inl hretry =>
    have hevents : b.retryEvents = [] := by rw [retryEvents, hretry]
    simp only [retryStep, hretry, Option.some.injEq] at hstep
    subst hstep
    rw [hevents, List.append_nil]
    exact .ending tr m j unready powered word (.inr rfl)
  | inr hretry =>
    by_cases hmode : strategy = .dongleMode
    · rw [afterLoop, if_pos hmode] at hretry
      simp [retryStep, hretry] at hstep
    · rw [afterLoop, if_neg hmode] at hretry
      have hevents : b.retryEvents = [.powerOff] := by rw [retryEvents, hretry]
      simp only [retryStep, hretry, Option.some.injEq] at hstep
      subst hstep
      rw [hevents]
      exact .off tr m j unready powered word rfl hmode

/-- What one statement of the loop does to the word. -/
theorem Lap.loop {tr : List RetryEvent} (h : Lap strategy b tr)
    (hstep : b.retryStep strategy adapter = some b') : Lap strategy b' (tr ++ b.retryEvents) := by
  cases h with
  | before promise pc => exact Lap.enter promise pc hstep
  | looping tr m j pc unready powered word =>
    generalize hretry : b.retry = pc' at pc
    cases pc with
    | passive _ mode few => exact Lap.passive hretry mode few unready powered word hstep
    | connect retried => exact Lap.connect hretry unready powered word hstep
    | wait => exact Lap.wait hretry unready powered word hstep
  | ending tr m j unready powered word pc => exact Lap.leave unready powered word pc hstep
  | off tr m j unready powered word pc mode => simp [retryStep, pc] at hstep

/-- Satisfying the promise changes neither the place nor the word. -/
theorem Lap.satisfy {tr : List RetryEvent} (h : Lap strategy b tr) :
    Lap strategy b.stopConnectWithRetry tr := by
  cases h with
  | before promise pc => exact .before (by simpa using promise) (by simpa using pc)
  | looping tr m j pc unready powered word =>
    exact .looping tr m j (by simpa using pc) unready powered word
  | ending tr m j unready powered word pc =>
    exact .ending tr m j unready powered word (by simpa using pc)
  | off tr m j unready powered word pc mode =>
    exact .off tr m j unready powered word (by simpa using pc) mode

theorem Lap.step {tr : List RetryEvent} {a : RetryAction} (h : Lap strategy b tr)
    (hg : (retryThread strategy adapter).guard b a) :
    Lap strategy ((retryThread strategy adapter).effect b a) (tr ++ actionEvents b a) := by
  have hstep := GuardedSystem.ofStep_effect hg
  cases a with
  | loop => exact h.loop hstep
  | satisfy =>
    cases hstep
    rw [actionEvents, List.append_nil]
    exact h.satisfy

end step

theorem retryTrace_lap {strategy : ConnectionStrategy} {adapter : Bool} {b : Bluetooth}
    {as : List RetryAction} (hstart : b.retry = .start) (promise : b.promise ≠ none)
    (hl : (retryThread strategy adapter).Legal b as) :
    Lap strategy ((retryThread strategy adapter).after b as) (retryTrace strategy adapter b as) := by
  have hstep : ∀ tr (s : Bluetooth) a, Lap strategy s tr → (retryThread strategy adapter).guard s a →
      Lap strategy ((retryThread strategy adapter).effect s a) (tr ++ actionEvents s a) :=
    fun _ _ _ h hg => h.step hg
  exact GuardedSystem.invariant_outputs hstep (.before promise (.inl hstart)) hl

/-! The law of the loop -/

/-- The thread is behind the loop. -/
def RetryPc.leftLoop : RetryPc → Bool
  | .clear | .powerOff | .finished => true
  | _ => false

theorem StandsAt.inside {strategy : ConnectionStrategy} {pc : RetryPc} {j : Nat}
    (h : StandsAt strategy j pc) : pc.leftLoop = false := by
  cases h <;> rfl

theorem afterLoop_left (strategy : ConnectionStrategy) : (afterLoop strategy).leftLoop = true := by
  cases strategy <;> rfl

theorem turns_take_prefix (strategy : ConnectionStrategy) (m j : Nat) :
    turns strategy m ++ (turn strategy).take j <+: turns strategy (m+1) := by
  rw [turns_succ, List.prefix_append_right_inj]
  exact List.take_prefix j (turn strategy)

/-- The trace up to here is that of whole turns cut somewhere; the first ready wait is the
last letter and ends the loop; behind the loop the adapter is powered off outside dongle mode. -/
structure RetryPolicy (strategy : ConnectionStrategy) (b : Bluetooth) (tr : List RetryEvent) :
    Prop where
  word : ∃ m, letters tr <+: turns strategy m
  running : b.retry.leftLoop = false → .wait true ∉ tr ∧ .powerOff ∉ tr
  left : b.retry.leftLoop = true → ∃ pre post, tr = pre ++ .wait true :: post ∧ .wait true ∉ pre ∧
    .powerOff ∉ pre ∧
    post = if strategy ≠ .dongleMode ∧ b.retry = .finished then [.powerOff] else []

theorem Lap.policy {strategy : ConnectionStrategy} {b : Bluetooth} {tr : List RetryEvent}
    (h : Lap strategy b tr) : RetryPolicy strategy b tr := by
  cases h with
  | before promise pc =>
    have hinside : b.retry.leftLoop = false := by
      obtain h | ⟨h | h, -⟩ := pc <;> rw [h] <;> rfl
    exact ⟨⟨0, List.nil_prefix⟩, by simp, by simp [hinside]⟩
  | looping tr m j pc unready powered word =>
    have hinside := pc.inside
    refine ⟨⟨m+1, ?_⟩, fun _ => ⟨unready, powered⟩, by simp [hinside]⟩
    rw [word]
    exact turns_take_prefix strategy m j
  | ending tr m j unready powered word pc =>
    have hleft : b.retry.leftLoop = true := by
      cases pc with
      | inl h => rw [h, RetryPc.leftLoop]
      | inr h => rw [h, afterLoop_left]
    have hpost : ¬ (strategy ≠ .dongleMode ∧ b.retry = .finished) := by
      cases pc with
      | inl h => simp [h]
      | inr h => cases strategy <;> simp [h, afterLoop]
    refine ⟨⟨m+1, ?_⟩, by simp [hleft], fun _ => ⟨tr, [], rfl, unready, powered, ?_⟩⟩
    · rw [letters_concat]
      exact word ▸ turns_take_prefix strategy m j
    · rw [if_neg hpost]
  | off tr m j unready powered word pc mode =>
    have hleft : b.retry.leftLoop = true := by rw [pc, RetryPc.leftLoop]
    refine ⟨⟨m+1, ?_⟩, by simp [hleft], fun _ => ⟨tr, [.powerOff], ?_, unready, powered, ?_⟩⟩
    · rw [letters_concat, letters_concat]
      exact (List.append_nil _).symm ▸ word ▸ turns_take_prefix strategy m j
    · rw [List.append_assoc]
      rfl
    · rw [if_pos ⟨mode, pc⟩]

/-! Attempts once the promise is satisfied -/

/-- How many attempts the thread can still begin when its promise is satisfied. -/
def attemptsLeft : RetryPc → Nat
  | .start | .unadvertise | .advertise | .connect _ => 1
  | _ => 0

theorem attemptsLeft_le (pc : RetryPc) : attemptsLeft pc ≤ 1 := by
  unfold attemptsLeft
  split <;> omega

/-- The thread waits for promise k, or is about to. -/
def WaitsFor (k : Nat) (b : Bluetooth) : Prop :=
  b.retry = .start ∧ b.promise = some k ∨ b.retry ≠ .start ∧ b.future = k

theorem WaitsFor.loop {strategy : ConnectionStrategy} {k : Nat} {b b' : Bluetooth}
    (h : WaitsFor k b) (hstep : b.RetryStep strategy b') : WaitsFor k b' := by
  cases h with
  | inl h =>
    cases hstep with
    | start j pc current =>
      have hj : j = k := Option.some.inj (current.symm.trans h.2)
      refine .inr ⟨?_, hj⟩
      by_cases hmode : strategy = .dongleMode
      · simp [hmode]
      · simp [roundStart, hmode]
    | _ => simp_all
  | inr h =>
    exact .inr ⟨fun hpc => h.1 (retryStep_start hstep hpc), (retryStep_future hstep h.1).trans h.2⟩

theorem WaitsFor.satisfy {k : Nat} {b : Bluetooth} (h : WaitsFor k b) :
    WaitsFor k b.stopConnectWithRetry := by
  simpa [WaitsFor] using h

/-- With the promise satisfied every attempt is paid for. -/
theorem WaitsFor.attempts {strategy : ConnectionStrategy} {k : Nat} {b b' : Bluetooth}
    (h : WaitsFor k b) (hset : b.setCalls k ≠ 0) (hstep : b.RetryStep strategy b') :
    b.retryEvents.count .connectDevice + attemptsLeft b'.retry ≤ attemptsLeft b.retry := by
  have hle := attemptsLeft_le b'.retry
  have hafter : attemptsLeft (afterLoop strategy) = 0 := by cases strategy <;> rfl
  cases hstep with
  | lost pc => simp [retryEvents, pc]
  | start k pc => simpa [retryEvents, pc, attemptsLeft] using hle
  | adapter b' next pc =>
    obtain ⟨pc, rfl⟩ | ⟨pc, rfl⟩ | ⟨pc, rfl⟩ := pc
    · simp [retryEvents, pc, attemptsLeft]
    · simpa [retryEvents, pc, attemptsLeft] using hle
    · simp [retryEvents, pc, attemptsLeft]
  | told next pc =>
    obtain ⟨⟨n, pc⟩, rfl⟩ | ⟨pc, rfl⟩ := pc
    · simp [retryEvents, pc, hafter]
    · simp [retryEvents, pc, attemptsLeft]
  | timedOut n pc unready =>
    have hfuture : b.future = k := by
      obtain ⟨n, pc⟩ | pc := pc <;> simpa [WaitsFor, pc] using h
    simp [ready, hfuture, hset] at unready
  | connect retried pc => simp [retryEvents, pc, attemptsLeft]
  | clear pc => simp [retryEvents, pc, hafter]

theorem Lap.alive {strategy : ConnectionStrategy} {b : Bluetooth} {tr : List RetryEvent}
    (h : Lap strategy b tr) : b.retry ≠ .idle := by
  intro hidle
  cases h with
  | before promise pc => simp [hidle] at pc
  | looping tr m j pc =>
    rw [hidle] at pc
    cases pc
  | ending tr m j unready powered word pc =>
    rw [hidle] at pc
    cases strategy <;> simp [afterLoop] at pc
  | off tr m j unready powered word pc => simp [hidle] at pc

end Aawgd
