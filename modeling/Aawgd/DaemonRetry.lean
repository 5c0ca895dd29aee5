import Aawgd.DaemonPromises

/-! Telling the Bluetooth retry loop to stop: when a promise is set twice. -/
namespace Aawgd

def SetOnce (s : Daemon) : Prop := ∀ k, s.bt.setCalls k ≤ 1

instance decidableLate : (stop : StopSeen) → Decidable stop.late
  | .afterRetry connecting => .isTrue ⟨connecting, rfl⟩
  | .notYet | .beforeRetry => .isFalse (by simp [StopSeen.late])

/-- The proxy thread asks after `connectWithRetry`, or there is no promise; `main` asks
only when the proxy thread has not done so for this promise, or there is none. -/
def ToldOnce (s : Daemon) : DaemonAction → Prop
  | .proxy _ => s.proxy = .stop → s.main = .joinProxy ∨ s.bt.promise = none
  | .main _ => s.main = .stop → ¬ s.stop.late ∨ s.bt.promise = none
  | _ => True

instance decidableToldOnce (s : Daemon) : (a : DaemonAction) → Decidable (ToldOnce s a)
  | .proxy _ => inferInstanceAs (Decidable (_ → _))
  | .main _ => inferInstanceAs (Decidable (_ → _))
  | .retry | .uevent _ | .monitor => .isTrue trivial

variable {u : Setup} {s s' : Daemon} {a : DaemonAction}

theorem SetOnce.stop_iff (h : SetOnce s) :
    (∀ k, s.bt.stopConnectWithRetry.setCalls k ≤ 1) ↔
      ∀ k, s.bt.promise = some k → s.bt.setCalls k = 0 := by
  simp only [Bluetooth.stop_setCalls]
  constructor
  · intro hall k hk
    have hle := hall k
    rw [if_pos hk] at hle
    omega
  · intro hzero k
    split
    next hk => rw [hzero k hk]
    next => exact h k

section current
variable {i k : Nat} {main : MainPc} {stop : StopSeen} {b : Bluetooth}

theorem Promises.adapter (h : Promises u i main stop b) (hk : b.promise = some k) :
    u.adapter = true := by
  by_contra hnone
  rw [h.adapterless (by simpa using hnone)] at hk
  cases hk

/-- Before `connectWithRetry` a promise left over from an earlier iteration is set. -/
theorem Promises.left_over (h : Promises u i main stop b) (hk : b.promise = some k)
    (hmain : main.unconnected) : b.setCalls k ≠ 0 := by
  have hle := h.known k hk
  have hne : k ≠ i := fun he => (h.before hmain).2 (he ▸ hk)
  exact h.stale k hk (by omega)

/-- Afterwards it is set exactly if the proxy thread has asked. -/
theorem Promises.current_set (h : Promises u i main stop b) (hk : b.promise = some k)
    (hmain : main.connected) : b.setCalls k = 0 ↔ ¬ stop.late := by
  constructor
  · intro hzero hlate
    by_cases hki : k = i
    · subst hki
      exact h.told hmain (h.adapter hk) hlate hzero
    · have hle := h.known k hk
      exact h.stale k hk (by omega) hzero
  · intro hlate
    obtain ⟨hi, hzero⟩ := h.untold hmain (h.adapter hk) hlate
    rw [hi] at hk
    cases hk
    exact hzero

end current

theorem SetOnce.proxy_stop (hr : Retrying u s) (h : SetOnce s) (pc : s.proxy = .stop) :
    (∀ k, s.bt.stopConnectWithRetry.setCalls k ≤ 1) ↔
      (s.main = .joinProxy ∨ s.bt.promise = none) := by
  rw [h.stop_iff]
  have hserving := hr.scheduled.serving (by simp [pc])
  have hnotYet := hr.scheduled.listening (.inr pc)
  cases hpromise : s.bt.promise with
  | none => simp
  | some k =>
    have hzero : s.bt.setCalls k = 0 ↔ s.main = .joinProxy := by
      by_cases hmain : s.main = .joinProxy
      · have hcurrent := hr.promises.current_set hpromise (.inl hmain)
        simp [hcurrent, hmain, hnotYet, StopSeen.late]
      · have hunconnected : s.main.unconnected := by
          cases hserving with
          | inl hc => simp [hc, MainPc.unconnected]
          | inr hc => simp [hc.resolve_right hmain, MainPc.unconnected]
        simp [hr.promises.left_over hpromise hunconnected, hmain]
    simp [hzero]

theorem SetOnce.main_stop (hr : Retrying u s) (h : SetOnce s) (pc : s.main = .stop) :
    (∀ k, s.bt.stopConnectWithRetry.setCalls k ≤ 1) ↔ (¬ s.stop.late ∨ s.bt.promise = none) := by
  rw [h.stop_iff]
  cases hpromise : s.bt.promise with
  | none => simp
  | some k =>
    have hcurrent := hr.promises.current_set hpromise (.inr pc)
    simp [hcurrent]

/-- A step sets no promise twice exactly if it meets the condition. -/
theorem SetOnce.step (hr : Retrying u s) (h : SetOnce s) (hstep : DaemonStep u s a s') :
    SetOnce s' ↔ ToldOnce s a := by
  cases hstep with
  | proxyStop ok pc =>
    apply (h.proxy_stop hr pc).trans
    simp [ToldOnce, pc]
  | mainStop ok pc =>
    apply (h.main_stop hr pc).trans
    simp [ToldOnce, pc]
  | retry bt attempts step =>
    apply iff_of_true _ trivial
    have hset := retryStep_setCalls (Bluetooth.retryStep_cases step)
    intro k
    exact hset ▸ h k
  | powered ok bt next pc effect =>
    apply iff_of_true _ (by cases pc <;> simp_all [ToldOnce])
    intro k
    rw [(Bluetooth.powered_frame effect).2.1]
    exact h k
  | connect ok pc =>
    apply iff_of_true _ (by simp [ToldOnce, pc])
    intro k
    simpa using h k
  | proxyAdvances ok next pc =>
    apply iff_of_true h
    intro hstop
    simp [hstop] at pc
  | uevent | monitor => exact iff_of_true h trivial
  | _ => exact iff_of_true h (by simp_all [ToldOnce])

/-- In a run each promise is set at most once exactly if all stop requests meet the
condition. -/
theorem promises_set_once_iff (u : Setup) (run : List DaemonAction)
    (hlegal : (daemon u).Legal daemonStart run) :
    (∀ pre, pre <+: run → SetOnce ((daemon u).after daemonStart pre)) ↔
      (daemon u).Meets ToldOnce daemonStart run := by
  apply GuardedSystem.along_iff_meets _ _ (Retrying.start (u := u)) (fun _ => Nat.zero_le 1) hlegal
  · intro s a hr h hguard
    exact h.step hr (daemon_step hguard)
  · intro s a hr h hguard hok
    exact hr.step (daemon_step hguard)

def udcExample : Bytes := bytes "dwc3"

def dongleSetup : Setup := ⟨.dongleMode, true, udcExample⟩

/-- `main` up to its join of the proxy thread, in dongle mode. -/
def upToJoin : List DaemonAction := [.main true, .main true, .main true, .main true, .main true]

/-- Accepting fails, so only `main` stops the retry loop. -/
theorem promises_set_once_refused :
    SetOnce ((daemon dongleSetup).after daemonStart
      (upToJoin ++ [.proxy false, .retry, .main true, .main true])) :=
  (promises_set_once_iff dongleSetup _ (by decide)).mpr (by decide) _ (List.prefix_refl _)

/-- The proxy thread stops the retry loop, which leaves a passive wait and keeps the
promise; the wait for the accessory times out and `main` stops it again. -/
theorem promise_set_twice : ∃ u run, (daemon u).Legal daemonStart run ∧
    ¬ SetOnce ((daemon u).after daemonStart run) := by
  refine ⟨dongleSetup, upToJoin ++ [.proxy true, .proxy true, .retry, .retry, .retry, .retry,
    .proxy true, .proxy true, .proxy true, .proxy true, .main true, .main true], ?_, ?_⟩
  · decide
  · intro h
    exact absurd (h 0) (by decide)

end Aawgd
