import Aawgd.Daemon

/-! What holds in every state of the daemon about its threads and about the promises
that end the Bluetooth retry loops. -/
namespace Aawgd

/-- `connectWithRetry` of this iteration is still to come. -/
def MainPc.unconnected (main : MainPc) : Prop :=
  main = .init ∨ main = .top ∨ main = .waiting ∨ main = .server ∨ main = .powerOn ∨
    main = .connect ∨ main = .exited

/-- The retry loop of this iteration was started and `main` has not told it to stop. -/
def MainPc.connected (main : MainPc) : Prop := main = .joinProxy ∨ main = .stop

/-- The proxy thread exists. -/
def MainPc.serving (main : MainPc) : Prop :=
  main = .powerOn ∨ main = .connect ∨ main = .joinProxy

def StopSeen.late (stop : StopSeen) : Prop := ∃ connecting, stop = .afterRetry connecting

/-- Which threads exist, and when the stop request of the proxy can have been made. -/
structure Scheduled (u : Setup) (main : MainPc) (proxy : ProxyPc) (stop : StopSeen)
    (retry : RetryPc) : Prop where
  idle : ¬ main.serving → proxy = .idle
  listening : proxy = .accept ∨ proxy = .stop → stop = .notYet
  early : main.unconnected → ¬ stop.late
  unseen : main.unconnected → ¬ main.serving → stop = .notYet
  retrying : retry ≠ .idle → u.adapter = true ∧ (main.connected ∨ main = .joinRetry)

/-- The promises of all iterations, and what the retry thread knows of them. -/
structure Promises (u : Setup) (i : Nat) (main : MainPc) (stop : StopSeen)
    (b : Bluetooth) : Prop where
  adapterless : u.adapter = false → b.promise = none
  known : ∀ k, b.promise = some k → k ≤ i
  fresh : ∀ k, i < k → b.setCalls k = 0
  stale : ∀ k, b.promise = some k → k < i → b.setCalls k ≠ 0
  before : main.unconnected → b.setCalls i = 0 ∧ b.promise ≠ some i
  untold : main.connected → u.adapter = true → ¬ stop.late →
    b.promise = some i ∧ b.setCalls i = 0
  told : main.connected → u.adapter = true → stop.late → b.setCalls i ≠ 0
  closed : ¬ main.unconnected → ¬ main.connected → b.promise = some i →
    b.setCalls i ≠ 0
  starting : b.retry = .start → b.promise = some i
  looping : b.retry ≠ .idle → b.retry ≠ .start → b.future = i
  leaving : b.retry = .clear ∨ b.retry = .powerOff ∨ b.retry = .finished → b.setCalls i ≠ 0

section
variable {u : Setup} {s s' : Daemon} {a : DaemonAction}

theorem retryStep_alive {strategy : ConnectionStrategy} {adapter : Bool} {b b' : Bluetooth}
    (h : b.retryStep strategy adapter = some b') : b.retry ≠ .idle := by
  intro hpc
  simp [Bluetooth.retryStep, hpc] at h

theorem Scheduled.serving {main : MainPc} {proxy : ProxyPc} {stop : StopSeen} {retry : RetryPc}
    (h : Scheduled u main proxy stop retry) (hp : proxy ≠ .idle) : main.serving := by
  by_contra hnot
  exact hp (h.idle hnot)

theorem Scheduled.step (h : Scheduled u s.main s.proxy s.stop s.bt.retry)
    (hstep : DaemonStep u s a s') : Scheduled u s'.main s'.proxy s'.stop s'.bt.retry := by
  cases hstep with
  | mainWaits | proxyWaits | uevent | monitor => exact h
  | retry bt attempts step counted =>
    have halive := h.retrying (retryStep_alive step)
    exact ⟨h.idle, h.listening, h.early, h.unseen, fun _ => halive⟩
  | powered ok bt next pc effect =>
    have hretry := (Bluetooth.powered_frame effect).2.2.1
    obtain ⟨hidle, hlistening, hearly, hunseen, hretrying⟩ := h
    cases pc with
    | inl pc => constructor <;> simp_all [MainPc.serving, MainPc.unconnected, MainPc.connected]
    | inr pc => constructor <;> simp_all [MainPc.serving, MainPc.unconnected, MainPc.connected]
  | connect ok pc =>
    obtain ⟨hidle, hlistening, hearly, hunseen, hretrying⟩ := h
    cases hadapter : u.adapter <;> constructor <;>
      simp_all [MainPc.serving, MainPc.unconnected, MainPc.connected, Bluetooth.connectWithRetry]
  | joinProxy ok pc ended =>
    obtain ⟨hidle, hlistening, hearly, hunseen, hretrying⟩ := h
    cases hadapter : u.adapter with
    | true => constructor <;> simp_all [MainPc.serving, MainPc.unconnected, MainPc.connected]
    | false => constructor <;> simp_all [MainPc.serving, MainPc.unconnected, MainPc.connected]
  | proxyStop ok pc =>
    have hserving := h.serving (by simp [pc])
    obtain ⟨hidle, hlistening, hearly, hunseen, hretrying⟩ := h
    refine ⟨fun hnot => absurd hserving hnot, ?_, ?_, fun _ hnot => absurd hserving hnot, ?_⟩
    · split <;> simp
    · intro hunconnected
      have hmain : s.main ≠ .joinProxy := by
        intro hmain
        simp [MainPc.unconnected, hmain] at hunconnected
      simp [Daemon.seeStop, hmain, StopSeen.late]
    · rw [Bluetooth.stop_retry]
      exact hretrying
  | proxyReturns ok usb started pc call =>
    obtain ⟨hidle, hlistening, hearly, hunseen, hretrying⟩ := h
    cases started <;> constructor <;> simp_all
  | proxyAdvances ok next pc =>
    refine ⟨fun hnot => ?_, fun hnext => ?_, h.early, h.unseen, h.retrying⟩
    · have hidle := h.idle hnot
      simp [hidle] at pc
    · have haccept : s.proxy = .accept := by
        cases hnext <;> simp_all
      exact h.listening (.inl haccept)
  | _ =>
    obtain ⟨hidle, hlistening, hearly, hunseen, hretrying⟩ := h
    constructor <;>
      simp_all [MainPc.serving, MainPc.unconnected, MainPc.connected, StopSeen.late, Daemon.beginCall]

/-! The promises -/

theorem unconnected_excludes {main : MainPc} (h : main.unconnected) : ¬ main.connected := by
  intro hc
  cases hc with
  | inl hc => simp [hc, MainPc.unconnected] at h
  | inr hc => simp [hc, MainPc.unconnected] at h

variable {i : Nat} {main main' : MainPc} {stop stop' : StopSeen} {b b' : Bluetooth}

/-- Before `connectWithRetry` only the statements that leave the promises alone run. -/
theorem Promises.before_connect (h : Promises u i main stop b) (hmain : main.unconnected)
    (hmain' : main'.unconnected) (hpromise : b'.promise = b.promise)
    (hset : b'.setCalls = b.setCalls) (hretry : b'.retry = b.retry)
    (hfuture : b'.future = b.future) : Promises u i main' stop' b' where
  adapterless := hpromise ▸ h.adapterless
  known := hpromise ▸ h.known
  fresh := hset ▸ h.fresh
  stale := hset ▸ hpromise ▸ h.stale
  before _ := hset ▸ hpromise ▸ h.before hmain
  untold hc := absurd hc (unconnected_excludes hmain')
  told hc := absurd hc (unconnected_excludes hmain')
  closed hu := absurd hmain' hu
  starting := hretry ▸ hpromise ▸ h.starting
  looping := hretry ▸ hfuture ▸ h.looping
  leaving := hretry ▸ hset ▸ h.leaving

/-- The retry thread inside its loop: it knows its promise, may drop it only once it is
set, and leaves only then. -/
theorem Promises.turn (h : Promises u i main stop b) (hset : b'.setCalls = b.setCalls)
    (hpromise : b'.promise = b.promise ∨ b'.promise = none ∧ b.setCalls i ≠ 0)
    (hfuture : b'.future = i) (hstart : b'.retry ≠ .start)
    (hleaving : b'.retry = .clear ∨ b'.retry = .powerOff ∨ b'.retry = .finished →
      b.setCalls i ≠ 0) : Promises u i main stop b' := by
  have hkept : ∀ k, b'.promise = some k → b.promise = some k := by
    intro k hk
    cases hpromise with
    | inl he => rw [← he, hk]
    | inr hn => simp [hn.1] at hk
  constructor
  case adapterless =>
    intro hnone
    cases hpromise with
    | inl he => rw [he, h.adapterless hnone]
    | inr hn => exact hn.1
  case known => exact fun k hk => h.known k (hkept k hk)
  case fresh => exact hset ▸ h.fresh
  case stale => exact fun k hk => hset ▸ h.stale k (hkept k hk)
  case before =>
    intro hmain
    obtain ⟨hzero, hother⟩ := h.before hmain
    exact ⟨hset ▸ hzero, fun hk => hother (hkept i hk)⟩
  case untold =>
    intro hc hadapter hlate
    obtain ⟨hcurrent, hzero⟩ := h.untold hc hadapter hlate
    cases hpromise with
    | inl he => exact ⟨he ▸ hcurrent, hset ▸ hzero⟩
    | inr hn => exact absurd hzero hn.2
  case told => exact hset ▸ h.told
  case closed => exact fun hu hc hk => hset ▸ h.closed hu hc (hkept i hk)
  case starting => exact fun hr => absurd hr hstart
  case looping => exact fun _ _ => hfuture
  case leaving => exact fun hr => hset ▸ hleaving hr

theorem Promises.retry {strategy : ConnectionStrategy} (h : Promises u i main stop b)
    (hstep : b.RetryStep strategy b') : Promises u i main stop b' := by
  cases hstep with
  | lost pc missing =>
    have hstart := h.starting pc
    rw [missing] at hstart
    cases hstart
  | start k pc current =>
    have hk : k = i := Option.some.inj (current.symm.trans (h.starting pc))
    have hround := roundStart_cases strategy 0 false
    refine h.turn rfl (.inl rfl) hk ?_ ?_ <;> split <;> cases hround <;> simp_all
  | adapter b' next pc promise setCalls future =>
    have hround := roundStart_cases strategy 0 false
    have hfuture : b'.future = i := by
      apply future.trans (h.looping _ _) <;> intro hpc <;> simp [hpc] at pc
    refine h.turn setCalls (.inl promise) hfuture ?_ ?_
    · intro hnext
      cases hround <;> simp_all
    · intro hnext
      cases pc with
      | inl pc => simp [pc.2] at hnext
      | inr pc =>
        cases pc with
        | inl pc => cases hround <;> simp_all
        | inr pc => exact h.leaving (.inr (.inl pc.1))
  | told next pc ready =>
    have hfuture : b.future = i := by
      apply h.looping <;> intro hpc <;> simp [hpc] at pc
    have hset : b.setCalls i ≠ 0 := by simpa [Bluetooth.ready, hfuture] using ready
    have hstart := afterLoop_ne_start strategy
    refine h.turn rfl (.inl rfl) hfuture ?_ fun _ => hset
    intro hnext
    simp_all
  | timedOut waitCycles pc unready =>
    have hround := roundStart_cases strategy waitCycles true
    have hfuture : b.future = i := by
      apply h.looping <;> intro hpc <;> simp [hpc] at pc
    refine h.turn rfl (.inl rfl) hfuture ?_ ?_ <;> cases hround <;> simp_all
  | connect retried pc =>
    refine h.turn rfl (.inl rfl) (h.looping ?_ ?_) ?_ ?_ <;> simp [pc]
  | clear pc =>
    have hset := h.leaving (.inl pc)
    refine h.turn rfl (.inr ⟨rfl, hset⟩) (h.looping ?_ ?_) (afterLoop_ne_start strategy)
      fun _ => hset
    · simp [pc]
    · simp [pc]

/-- What a stop request does to the promises, whoever makes it. -/
theorem Promises.set (h : Promises u i main stop b)
    (hbefore : main'.unconnected → main.unconnected)
    (huntold : main'.connected → u.adapter = true → stop'.late ∧ b.promise = some i) :
    Promises u i main' stop' b.stopConnectWithRetry where
  adapterless hnone := by rw [Bluetooth.stop_promise, h.adapterless hnone]
  known := by
    rw [Bluetooth.stop_promise]
    exact h.known
  fresh k hk := by
    have hother : b.promise ≠ some k := by
      intro hcurrent
      have hle := h.known k hcurrent
      omega
    rw [Bluetooth.stop_setCalls, if_neg hother, h.fresh k hk]
  stale k hk _ := Bluetooth.stop_sets (by rwa [Bluetooth.stop_promise] at hk)
  before hmain := by
    obtain ⟨hzero, hother⟩ := h.before (hbefore hmain)
    rw [Bluetooth.stop_setCalls, if_neg hother, Bluetooth.stop_promise]
    exact ⟨hzero, hother⟩
  untold hc hadapter hlate := absurd (huntold hc hadapter).1 hlate
  told hc hadapter _ := Bluetooth.stop_sets (huntold hc hadapter).2
  closed _ _ hk := Bluetooth.stop_sets (by rwa [Bluetooth.stop_promise] at hk)
  starting := by
    rw [Bluetooth.stop_retry, Bluetooth.stop_promise]
    exact h.starting
  looping := by
    rw [Bluetooth.stop_retry, Bluetooth.stop_future]
    exact h.looping
  leaving := by
    rw [Bluetooth.stop_retry]
    exact fun hr => Bluetooth.stop_keeps (h.leaving hr)

theorem Promises.proxyStop (h : Promises u s.iteration s.main s.stop s.bt)
    (hearly : s.stop = .notYet) (hserving : s.main.serving) :
    Promises u s.iteration s.main s.seeStop s.bt.stopConnectWithRetry := by
  apply h.set id
  intro hconnected hadapter
  have hmain : s.main = .joinProxy := by
    cases hconnected with
    | inl hmain => exact hmain
    | inr hmain => simp [hmain, MainPc.serving] at hserving
  refine ⟨⟨_, if_pos hmain⟩, ?_⟩
  exact (h.untold hconnected hadapter (by simp [hearly, StopSeen.late])).1

/-- The promises of this iteration are those of an earlier one in the next. -/
theorem Promises.pause (h : Promises u i .pause stop b) (hidle : b.retry = .idle) :
    Promises u (i + 1) .top .notYet b where
  adapterless := h.adapterless
  known k hk := by
    have hle := h.known k hk
    omega
  fresh k hk := h.fresh k (by omega)
  stale k hk hlt := by
    by_cases he : k = i
    · subst he
      exact h.closed (by simp [MainPc.unconnected]) (by simp [MainPc.connected]) hk
    · exact h.stale k hk (by omega)
  before _ := by
    refine ⟨h.fresh (i + 1) (by omega), fun hk => ?_⟩
    have hle := h.known (i + 1) hk
    omega
  untold hc := by simp [MainPc.connected] at hc
  told hc := by simp [MainPc.connected] at hc
  closed hu := by simp [MainPc.unconnected] at hu
  starting hr := by simp [hidle] at hr
  looping hr := absurd hidle hr
  leaving hr := by simp [hidle] at hr

theorem Promises.connect (h : Promises u i .connect stop b) (hearly : ¬ stop.late) :
    Promises u i .joinProxy stop (b.connectWithRetry u.adapter i) := by
  obtain ⟨hzero, -⟩ := h.before (by simp [MainPc.unconnected])
  cases hadapter : u.adapter with
  | false =>
    refine { h with before := ?_, untold := ?_, told := ?_, closed := ?_ }
    · simp [MainPc.unconnected]
    · simp [hadapter]
    · simp [hadapter]
    · simp [MainPc.connected]
  | true =>
    refine { h with adapterless := ?_, known := ?_, stale := ?_, before := ?_, untold := ?_,
                    told := ?_, closed := ?_, starting := ?_, looping := ?_, leaving := ?_ }
    · simp [hadapter]
    · intro k hk
      cases hk
      exact Nat.le_refl i
    · intro k hk hlt
      cases hk
      omega
    · simp [MainPc.unconnected]
    · exact fun _ _ _ => ⟨rfl, hzero⟩
    · exact fun _ _ hlate => absurd hlate hearly
    · simp [MainPc.connected]
    · exact fun _ => rfl
    · exact fun _ hr => absurd rfl hr
    · simp [Bluetooth.connectWithRetry]

/-- The end of an iteration, where the current promise is set if there is one. -/
theorem Promises.finish (h : Promises u i main stop b)
    (hset : b.promise = some i → b.setCalls i ≠ 0) (hunconnected : ¬ main'.unconnected)
    (hconnected : ¬ main'.connected) : Promises u i main' stop b :=
  { h with
    before := fun hc => absurd hc hunconnected
    untold := fun hc => absurd hc hconnected
    told := fun hc => absurd hc hconnected
    closed := fun _ _ => hset }

theorem Promises.joined (h : Promises u i main stop b) :
    Promises u i main stop { b with retry := .idle } :=
  { h with
    starting := nofun
    looping := fun hr => absurd rfl hr
    leaving := by simp }

theorem Promises.step (hs : Scheduled u s.main s.proxy s.stop s.bt.retry)
    (h : Promises u s.iteration s.main s.stop s.bt) (hstep : DaemonStep u s a s') :
    Promises u s'.iteration s'.main s'.stop s'.bt := by
  cases hstep with
  | mainWaits | proxyBegins | proxyWaits | proxyReturns | proxyAdvances | uevent | monitor =>
    exact h
  | powered ok bt next pc effect =>
    have hmain : s.main.unconnected ∧ next.unconnected := by
      cases pc with
      | inl pc => simp [pc, MainPc.unconnected]
      | inr pc => simp [pc, MainPc.unconnected]
    obtain ⟨hpromise, hset, hretry, hfuture⟩ := Bluetooth.powered_frame effect
    exact h.before_connect hmain.1 hmain.2 hpromise hset hretry hfuture
  | waitFirst ok pc | waitLater ok pc | mainReturns ok usb started pc | serve pc | giveUp pc =>
    apply h.before_connect _ _ rfl rfl rfl rfl <;> simp [pc, MainPc.unconnected]
  | connect ok pc =>
    rw [pc] at h hs
    exact h.connect (hs.early (by simp [MainPc.unconnected]))
  | joinProxy ok pc ended =>
    rw [pc] at h
    cases hadapter : u.adapter with
    | true =>
      refine { h with before := ?_, untold := ?_, told := ?_, closed := ?_ }
      · simp [MainPc.unconnected]
      · exact fun _ => h.untold (.inl rfl)
      · exact fun _ => h.told (.inl rfl)
      · simp [MainPc.connected]
    | false =>
      apply h.finish
      · simp [h.adapterless hadapter]
      · simp [MainPc.unconnected]
      · simp [MainPc.connected]
  | mainStop ok pc =>
    apply h.set
    · simp [MainPc.unconnected]
    · simp [MainPc.connected]
  | joinRetry ok pc ended =>
    rw [pc] at h
    have hset := h.closed (by simp [MainPc.unconnected]) (by simp [MainPc.connected])
    apply h.joined.finish hset
    · simp [MainPc.unconnected]
    · simp [MainPc.connected]
  | disableDefault ok pc | disableAccessory ok pc =>
    rw [pc] at h
    have hset := h.closed (by simp [MainPc.unconnected]) (by simp [MainPc.connected])
    apply h.finish hset
    · simp [MainPc.unconnected]
    · simp [MainPc.connected]
  | pause ok pc =>
    rw [pc] at h hs
    have hidle : s.bt.retry = .idle := by
      by_contra hr
      have hbusy := (hs.retrying hr).2
      simp [MainPc.connected] at hbusy
    exact h.pause hidle
  | proxyStop ok pc =>
    exact h.proxyStop (hs.listening (.inr pc)) (hs.serving (by simp [pc]))
  | retry bt attempts step counted =>
    exact h.retry (Bluetooth.retryStep_cases step)

/-- Both invariants, which no step breaks. -/
structure Retrying (u : Setup) (s : Daemon) : Prop where
  scheduled : Scheduled u s.main s.proxy s.stop s.bt.retry
  promises : Promises u s.iteration s.main s.stop s.bt

theorem Retrying.step (h : Retrying u s) (hstep : DaemonStep u s a s') : Retrying u s' :=
  ⟨h.scheduled.step hstep, h.promises.step h.scheduled hstep⟩

theorem Retrying.start : Retrying u daemonStart where
  scheduled := by
    constructor <;> simp [daemonStart, StopSeen.late, Bluetooth.initial]
  promises := by
    constructor <;> simp [daemonStart, MainPc.unconnected, MainPc.connected, Bluetooth.initial]

end

end Aawgd
