import Aawgd.DaemonRetry

/-! The proxy thread's stop request: when it is lost, or comes too late for the first
attempt of the retry thread. -/
namespace Aawgd

/-- What a stop request still allows: the attempt that was already on its way. -/
def StopSeen.allowed : StopSeen → Nat
  | .afterRetry true => 1
  | _ => 0

/-- Once the proxy thread has asked, the promise of this iteration is set and no attempt
is made but one that follows a wait which had timed out. -/
def RetryTold (s : Daemon) : Prop :=
  s.stop ≠ .notYet → s.bt.setCalls s.iteration ≠ 0 ∧ s.attempts ≤ s.stop.allowed

/-- The proxy thread asks after `connectWithRetry` and, outside dongle mode, when the
retry thread has begun its first attempt. -/
def ToldInTime (u : Setup) (s : Daemon) : DaemonAction → Prop
  | .proxy _ => s.proxy = .stop → s.main = .joinProxy ∧
    (u.strategy = .dongleMode ∨ s.bt.retry ≠ .start ∧ s.bt.retry ≠ .connect false)
  | _ => True

instance decidableToldInTime (u : Setup) (s : Daemon) :
    (a : DaemonAction) → Decidable (ToldInTime u s a)
  | .proxy _ => inferInstanceAs (Decidable (_ → _))
  | .main _ | .retry | .uevent _ | .monitor => .isTrue trivial

variable {u : Setup} {s s' : Daemon} {a : DaemonAction}

/-- What the retry thread does only in dongle mode, and only outside it. -/
structure Policy (u : Setup) (retry : RetryPc) : Prop where
  dongle : retry = .unadvertise ∨ retry = .advertise ∨ (∃ n, retry = .passive n) →
    u.strategy = .dongleMode
  first : retry = .connect false → u.strategy ≠ .dongleMode

theorem Policy.of_roundStart {n : Nat} {retried : Bool} (h : retried = true ∨ n < 3) :
    Policy u (roundStart u.strategy n retried) := by
  unfold roundStart
  split
  next hpassive =>
    constructor
    · exact fun _ => hpassive.1
    · simp
  next hactive =>
    constructor
    · simp
    · intro hfirst hdongle
      cases h with
      | inl h => simp [h] at hfirst
      | inr h => exact hactive ⟨hdongle, h⟩

theorem Policy.of_afterLoop : Policy u (afterLoop u.strategy) := by
  unfold afterLoop
  split <;> constructor <;> simp

theorem Policy.retry {b b' : Bluetooth} (h : Policy u b.retry)
    (hstep : b.RetryStep u.strategy b') : Policy u b'.retry := by
  cases hstep with
  | lost pc missing => exact h
  | start k pc current =>
    dsimp only
    split
    next hdongle => constructor <;> simp [hdongle]
    next => exact Policy.of_roundStart (.inr (by omega))
  | adapter b' next pc =>
    cases pc with
    | inl pc =>
      have hdongle := h.dongle (.inl pc.1)
      constructor <;> simp [pc.2, hdongle]
    | inr pc =>
      cases pc with
      | inl pc => exact pc.2 ▸ Policy.of_roundStart (.inr (by omega))
      | inr pc => constructor <;> simp [pc.2]
  | told next pc =>
    cases pc with
    | inl pc => exact pc.2 ▸ Policy.of_afterLoop
    | inr pc => constructor <;> simp [pc.2]
  | timedOut waitCycles => exact Policy.of_roundStart (.inl rfl)
  | connect retried pc => constructor <;> simp
  | clear pc => exact Policy.of_afterLoop

/-- Once the proxy thread has asked in time, the retry thread is on its way out. -/
structure Silenced (u : Setup) (s : Daemon) : Prop where
  retrying : Retrying u s
  policy : Policy u s.bt.retry
  uncounted : s.stop = .notYet → s.attempts = 0
  told : s.stop ≠ .notYet → s.stop.late ∧ s.bt.setCalls s.iteration ≠ 0 ∧
    s.attempts ≤ s.stop.allowed
  connecting : s.stop ≠ .notYet → ∀ retried, s.bt.retry = .connect retried →
    s.stop = .afterRetry true ∧ s.attempts = 0
  starting : s.stop ≠ .notYet → s.bt.retry = .start → u.strategy = .dongleMode

theorem roundStart_dongle (hdongle : u.strategy = .dongleMode) :
    roundStart u.strategy 0 false = .passive 0 := if_pos ⟨hdongle, by omega⟩

/-- After the stop request every wait finds the promise set. -/
theorem Silenced.ready (h : Silenced u s) (hstop : s.stop ≠ .notYet)
    (hpc : (∃ n, s.bt.retry = .passive n) ∨ s.bt.retry = .wait) : s.bt.ready = true := by
  have hfuture : s.bt.future = s.iteration := by
    apply h.retrying.promises.looping <;> intro hr <;> simp [hr] at hpc
  simpa [Bluetooth.ready, hfuture] using (h.told hstop).2.1

/-- After the stop request the retry thread comes to no further attempt. -/
theorem Silenced.no_attempt {bt : Bluetooth} (h : Silenced u s) (hstop : s.stop ≠ .notYet)
    (hstep : s.bt.RetryStep u.strategy bt) (retried : Bool) : bt.retry ≠ .connect retried := by
  cases hstep with
  | lost pc missing => simp [pc]
  | start k pc current => simp [h.starting hstop pc]
  | adapter b' next pc =>
    cases pc with
    | inl pc => simp [pc.2]
    | inr pc =>
      cases pc with
      | inl pc => simp [pc.2, roundStart_dongle (h.policy.dongle (.inr (.inl pc.1)))]
      | inr pc => simp [pc.2]
  | told next pc =>
    cases pc with
    | inl pc =>
      rw [pc.2, afterLoop]
      split <;> simp
    | inr pc => simp [pc.2]
  | timedOut waitCycles pc unready => simp [h.ready hstop pc] at unready
  | connect => simp
  | clear pc =>
    dsimp only [afterLoop]
    split <;> simp

theorem Silenced.retry {bt : Bluetooth} {attempts : Nat} (h : Silenced u s)
    (hretrying : Retrying u { s with bt := bt, attempts := attempts })
    (hstep : s.bt.RetryStep u.strategy bt)
    (hcounted : attempts = s.attempts ∨ attempts = s.attempts + 1 ∧ s.stop ≠ .notYet ∧
      ∃ retried, s.bt.retry = .connect retried) :
    Silenced u { s with bt := bt, attempts := attempts } where
  retrying := hretrying
  policy := h.policy.retry hstep
  uncounted hstop := by
    cases hcounted with
    | inl hsame => exact hsame.trans (h.uncounted hstop)
    | inr hmore => exact absurd hstop hmore.2.1
  told hstop := by
    obtain ⟨hlate, hset, hle⟩ := h.told hstop
    refine ⟨hlate, retryStep_setCalls hstep ▸ hset, ?_⟩
    cases hcounted with
    | inl hsame => exact hsame ▸ hle
    | inr hmore =>
      obtain ⟨hmore, -, retried, hpc⟩ := hmore
      obtain ⟨hallowed, hzero⟩ := h.connecting hstop retried hpc
      simp [hmore, hallowed, hzero, StopSeen.allowed]
  connecting hstop retried hpc := absurd hpc (h.no_attempt hstop hstep retried)
  starting hstop hpc := h.starting hstop (retryStep_start hstep hpc)

theorem Silenced.step (hadapter : u.adapter = true) (h : Silenced u s)
    (hok : ToldInTime u s a) (hstep : DaemonStep u s a s') : Silenced u s' := by
  have hretrying := h.retrying.step hstep
  cases hstep with
  | retry bt attempts step counted =>
    exact h.retry hretrying (Bluetooth.retryStep_cases step) counted
  | proxyStop ok pc =>
    obtain ⟨hmain, hpolicy⟩ := hok pc
    have hnotYet := h.retrying.scheduled.listening (.inr pc)
    obtain ⟨hcurrent, -⟩ := h.retrying.promises.untold (.inl hmain) hadapter
      (by simp [hnotYet, StopSeen.late])
    have hseen : s.seeStop = .afterRetry (s.bt.retry = .connect true) := if_pos hmain
    have hzero := h.uncounted hnotYet
    refine ⟨hretrying, by simpa using h.policy, by simp [hseen],
      fun _ => ⟨⟨_, hseen⟩, Bluetooth.stop_sets hcurrent, by simp [hzero]⟩, ?_, ?_⟩
    · intro _ retried hpc
      rw [Bluetooth.stop_retry] at hpc
      have hretried : retried = true := by
        by_contra hfirst
        rw [Bool.not_eq_true] at hfirst
        subst hfirst
        cases hpolicy with
        | inl hdongle => exact h.policy.first hpc hdongle
        | inr hbegun => exact hbegun.2 hpc
      simp [hseen, hpc, hretried, hzero]
    · intro _ hpc
      rw [Bluetooth.stop_retry] at hpc
      exact hpolicy.resolve_right fun hbegun => hbegun.1 hpc
  | powered ok bt next pc effect =>
    obtain ⟨-, hset, hretry, -⟩ := Bluetooth.powered_frame effect
    exact ⟨hretrying, hretry ▸ h.policy, h.uncounted, hset ▸ h.told, hretry ▸ h.connecting,
      hretry ▸ h.starting⟩
  | connect ok pc =>
    have hnotYet : s.stop = .notYet := by
      by_contra hstop
      exact h.retrying.scheduled.early (by simp [pc, MainPc.unconnected]) (h.told hstop).1
    refine ⟨hretrying, ?_, h.uncounted, fun hstop => absurd hnotYet hstop,
      fun hstop => absurd hnotYet hstop, fun hstop => absurd hnotYet hstop⟩
    simp only [Bluetooth.connectWithRetry, hadapter]
    constructor <;> simp
  | mainStop ok pc =>
    refine ⟨hretrying, ?_, h.uncounted, fun hstop => ?_, ?_, ?_⟩
    · simpa using h.policy
    · obtain ⟨hlate, hset, hle⟩ := h.told hstop
      exact ⟨hlate, Bluetooth.stop_keeps hset, hle⟩
    · simpa using h.connecting
    · simpa using h.starting
  | joinRetry ok pc ended =>
    refine ⟨hretrying, ?_, h.uncounted, h.told, ?_, ?_⟩
    · constructor <;> simp
    · simp
    · simp
  | pause ok pc =>
    refine ⟨hretrying, h.policy, fun _ => rfl, ?_, ?_, ?_⟩ <;> exact fun hstop => absurd rfl hstop
  | _ => exact ⟨hretrying, h.policy, h.uncounted, h.told, h.connecting, h.starting⟩

theorem Silenced.start : Silenced u daemonStart where
  retrying := Retrying.start
  policy := by constructor <;> simp [daemonStart, Bluetooth.initial]
  uncounted _ := rfl
  told hstop := absurd rfl hstop
  connecting hstop := absurd rfl hstop
  starting hstop := absurd rfl hstop

/-- In every run in which the proxy thread asks in time, no stop request is lost. -/
theorem retry_told (u : Setup) (hadapter : u.adapter = true) (run : List DaemonAction)
    (hlegal : (daemon u).Legal daemonStart run)
    (htime : (daemon u).Meets (ToldInTime u) daemonStart run) :
    RetryTold ((daemon u).after daemonStart run) := by
  have hsilenced : Silenced u ((daemon u).after daemonStart run) := by
    apply GuardedSystem.invariant _ Silenced.start hlegal htime
    intro s a h hguard hok
    exact h.step hadapter hok (daemon_step hguard)
  exact fun hstop => (hsilenced.told hstop).2

def phoneSetup : Setup := ⟨.phoneFirst, true, udcExample⟩

/-- The phone connects while the retry thread waits after its first attempt. -/
theorem retry_told_waiting : RetryTold ((daemon phoneSetup).after daemonStart
    (upToJoin ++ [.retry, .retry, .proxy true, .proxy true, .retry, .retry, .retry])) :=
  retry_told phoneSetup rfl _ (by decide) (by decide)

/-- The phone connects before `main` has called `connectWithRetry`. -/
theorem retry_untold : ∃ u run, u.adapter = true ∧ (daemon u).Legal daemonStart run ∧
    ¬ RetryTold ((daemon u).after daemonStart run) := by
  refine ⟨phoneSetup,
    [.main true, .main true, .main true, .proxy true, .proxy true, .main true, .main true],
    rfl, ?_, ?_⟩
  · decide
  · intro h
    exact absurd (h (by decide)).1 (by decide)

end Aawgd
