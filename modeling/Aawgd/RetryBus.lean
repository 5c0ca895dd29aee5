import Aawgd.BluetoothMethods

/-! The retry loop with its bus calls: it does what the retry thread of the daemon's model
does, statement by statement, until a call fails. -/
namespace Aawgd.BluetoothBus
open CallProgram ThrowingProgram

/-- The loop of `retryConnectLoop`, for some rounds. The result tells whether it was left. -/
def retryRounds (strategy : ConnectionStrategy) : Nat → Nat → Bus Bool
  | 0, _ => return false
  | n+1, waitCycles => do
    if strategy = .dongleMode ∧ waitCycles < 3 then
      if ← ask .wait then return true
      retryRounds strategy n (waitCycles + 1)
    else
      connectDevice
      if ← ask .wait then return true
      retryRounds strategy n (if strategy = .dongleMode then 0 else waitCycles)

/-- `BluetoothHandler::retryConnectLoop`. -/
def retryConnectLoop (h : BluetoothHandler) (strategy : ConnectionStrategy) (n : Nat) :
    Bus Bool := do
  if strategy = .dongleMode then
    h.stopAdvertising
    let _ ← ask .sleep
    h.startAdvertising
  let ended ← retryRounds strategy n 0
  if ended = true ∧ strategy ≠ .dongleMode then h.powerOff strategy
  return ended

/-- What the retry thread of the daemon's model shows of a call. -/
def retryEvent? : Event BusCall BusAnswer → Option RetryEvent
  | ⟨.getManagedObjects, _⟩ => some .connectDevice
  | ⟨.wait, ready⟩ => some (.wait ready)
  | ⟨.command (.setPowered _ false), _⟩ => some .powerOff
  | _ => none

/-! Steps of the thread -/

section thread
variable {strategy : ConnectionStrategy} {b b' : Bluetooth}

abbrev Performs (strategy : ConnectionStrategy) (b : Bluetooth) (es : List RetryEvent)
    (b' : Bluetooth) : Prop :=
  (retryThread strategy true).Performs actionEvents b es b'

theorem performs_loop (h : b.retryStep strategy true = some b') :
    Performs strategy b b.retryEvents b' := by
  have hstep : retryActionStep strategy true b .loop = some b' := h
  have hloop : (retryThread strategy true).guard b .loop ∧
      (retryThread strategy true).effect b .loop = b' := GuardedSystem.ofStep_some hstep
  exact ⟨[.loop], ⟨hloop.1, trivial⟩, List.append_nil _, hloop.2⟩

theorem performs_satisfy : Performs strategy b [] b.stopConnectWithRetry :=
  ⟨[.satisfy], ⟨rfl, trivial⟩, rfl, rfl⟩

/-- The thread is in its loop and nobody has satisfied its promise. -/
structure Looping (k : Nat) (b : Bluetooth) : Prop where
  promise : b.promise = some k
  future : b.future = k
  unset : b.setCalls k = 0

variable {k : Nat}

theorem Looping.unready (h : Looping k b) : b.ready = false := by
  simp [Bluetooth.ready, h.future, h.unset]

theorem Looping.satisfied (h : Looping k b) : b.stopConnectWithRetry.ready = true := by
  have hset := Bluetooth.stop_sets h.promise
  simpa [Bluetooth.ready, h.future] using hset

theorem Looping.passive (h : Looping k b) {w : Nat} (hretry : b.retry = .passive w) (ready : Bool) :
    ∃ b', Performs strategy b [.wait ready] b' ∧
      (if ready then b'.retry = afterLoop strategy
        else Looping k b' ∧ b'.retry = roundStart strategy (w + 1) true) := by
  cases ready with
  | false =>
    have hstep : b.retryStep strategy true =
        some { b with retry := roundStart strategy (w + 1) true } := by
      simp [Bluetooth.retryStep, hretry, h.unready]
    have hperforms := performs_loop hstep
    simp only [Bluetooth.retryEvents, hretry, h.unready] at hperforms
    exact ⟨_, hperforms, ⟨h.promise, h.future, h.unset⟩, rfl⟩
  | true =>
    have hsatisfied := h.satisfied
    have hretry' : b.stopConnectWithRetry.retry = .passive w := by simp [hretry]
    have hstep : b.stopConnectWithRetry.retryStep strategy true =
        some { b.stopConnectWithRetry with retry := afterLoop strategy } := by
      simp only [Bluetooth.retryStep, hretry', hsatisfied, if_true]
    have hperforms := performs_loop hstep
    simp only [Bluetooth.retryEvents, hretry', hsatisfied] at hperforms
    exact ⟨_, performs_satisfy.trans hperforms, rfl⟩

theorem Looping.connect (h : Looping k b) {retried : Bool} (hretry : b.retry = .connect retried) :
    ∃ b', Performs strategy b [.connectDevice] b' ∧ Looping k b' ∧ b'.retry = .wait := by
  have hstep : b.retryStep strategy true = some { b with retry := .wait } := by
    simp [Bluetooth.retryStep, hretry]
  have hperforms := performs_loop hstep
  simp only [Bluetooth.retryEvents, hretry] at hperforms
  exact ⟨_, hperforms, ⟨h.promise, h.future, h.unset⟩, rfl⟩

theorem Looping.wait (h : Looping k b) (hretry : b.retry = .wait) (ready : Bool) :
    ∃ b', Performs strategy b [.wait ready] b' ∧
      (if ready then b'.retry = afterLoop strategy
        else Looping k b' ∧ b'.retry = roundStart strategy 0 true) := by
  cases ready with
  | false =>
    have hstep : b.retryStep strategy true =
        some { b with retry := roundStart strategy 0 true } := by
      simp [Bluetooth.retryStep, hretry, h.unready]
    have hperforms := performs_loop hstep
    simp only [Bluetooth.retryEvents, hretry, h.unready] at hperforms
    exact ⟨_, hperforms, ⟨h.promise, h.future, h.unset⟩, rfl⟩
  | true =>
    have hsatisfied := h.satisfied
    have hretry' : b.stopConnectWithRetry.retry = .wait := by simp [hretry]
    have hstep : b.stopConnectWithRetry.retryStep strategy true =
        some { b.stopConnectWithRetry with retry := .clear } := by
      simp only [Bluetooth.retryStep, hretry', hsatisfied, if_true]
    have hperforms := performs_loop hstep
    simp only [Bluetooth.retryEvents, hretry', hsatisfied] at hperforms
    -- the promise is dropped before the loop is left
    have hclear : ({ b.stopConnectWithRetry with retry := .clear } : Bluetooth).retryStep strategy
        true = some { b.stopConnectWithRetry with
          promise := none, retry := afterLoop strategy } := rfl
    exact ⟨_, (performs_satisfy.trans hperforms).trans (performs_loop hclear), rfl⟩

end thread

/-! Rounds -/

/-- A call that the retry thread does not show. -/
def Quiet (c : BusCall) : Prop := ∀ r, retryEvent? ⟨c, r⟩ = none

theorem Quiet.events {α : Type} {p : CallProgram BusCall BusAnswer α} (hp : p.Only Quiet)
    {tr : BusTrace} {o : Option α} (h : Traces p tr o) : tr.filterMap retryEvent? = [] :=
  List.filterMap_eq_nil_iff.mpr fun ev hev => (hp.traces h ev hev) ev.2

theorem connectAll_quiet (devices : List Path) : (devices.forM connectOne).run.Only Quiet := by
  refine only_forM fun device _ => ?_
  rw [connectOne_run]
  refine ⟨fun _ => rfl, fun r => ?_⟩
  obtain e | _ | _ := r
  · trivial
  · exact ⟨fun _ => rfl, fun _ => trivial⟩
  · trivial

theorem connectDevice_events {tr : BusTrace} {o : Option (Except BusError Unit)}
    (h : Traces connectDevice.run tr o) :
    tr.filterMap retryEvent? = [] ∧ o = none ∨ tr.filterMap retryEvent? = [.connectDevice] := by
  rw [connectDevice_run] at h
  obtain ⟨rfl, rfl⟩ | ⟨r, tr', rfl, h'⟩ := traces_call.mp h
  · exact .inl ⟨rfl, rfl⟩
  · right
    have hquiet : tr'.filterMap retryEvent? = [] := by
      cases r with
      | error e =>
        obtain ⟨rfl, -⟩ := traces_ret.mp h'
        rfl
      | ok objects => exact Quiet.events (connectAll_quiet _) h'
    simp [retryEvent?, hquiet]

theorem retryRounds_succ (strategy : ConnectionStrategy) (n w : Nat) :
    retryRounds strategy (n + 1) w =
      if strategy = .dongleMode ∧ w < 3 then
        ask .wait >>= fun ready =>
          if ready = true then pure true else retryRounds strategy n (w + 1)
      else
        connectDevice >>= fun _ => ask .wait >>= fun ready =>
          if ready = true then pure true
          else retryRounds strategy n (if strategy = .dongleMode then 0 else w) := by
  rw [retryRounds]

/-- The wait of a round. -/
theorem ask_wait_traces {f : Bool → Bus Bool} {tr : BusTrace} {o : Option (Except BusError Bool)}
    (h : Traces (ask .wait >>= f).run tr o) :
    tr = [] ∧ o = none ∨ ∃ (ready : Bool) (tr' : BusTrace), tr = ⟨.wait, ready⟩ :: tr' ∧
      Traces (f ready).run tr' o := by
  obtain h₀ | ⟨ready, tr', rfl, h'⟩ := traces_call.mp h
  · exact .inl h₀
  · exact .inr ⟨ready, tr', rfl, h'⟩

theorem roundStart_connect {strategy : ConnectionStrategy} {w : Nat} {retried : Bool}
    (h : ¬ (strategy = .dongleMode ∧ w < 3)) : roundStart strategy w retried = .connect retried :=
  if_neg h

/-- Outside dongle mode the cycles do not matter. -/
theorem roundStart_reset (strategy : ConnectionStrategy) (w : Nat) (retried : Bool) :
    roundStart strategy (if strategy = .dongleMode then 0 else w) retried =
      roundStart strategy 0 retried := by
  cases strategy <;> rfl

theorem retryRounds_simulated {strategy : ConnectionStrategy} {k n w : Nat} {retried : Bool}
    {b : Bluetooth} (hb : Looping k b) (hretry : b.retry = roundStart strategy w retried)
    {tr : BusTrace} {o : Option (Except BusError Bool)}
    (h : Traces (retryRounds strategy n w).run tr o) :
    ∃ b', Performs strategy b (tr.filterMap retryEvent?) b' ∧
      (o = some (.ok true) → b'.retry = afterLoop strategy) := by
  induction n generalizing b w retried tr with
  | zero =>
    obtain ⟨rfl, rfl | rfl⟩ := traces_ret.mp h
    · exact ⟨b, .refl b, by simp⟩
    · exact ⟨b, .refl b, by simp⟩
  | succ n ih =>
    -- the wait at the end of a round, and what comes after it
    have hwait {tr : BusTrace} {w' : Nat} {b : Bluetooth}
        (hround : ∀ ready, ∃ b', Performs strategy b [.wait ready] b' ∧
          (if ready then b'.retry = afterLoop strategy
            else Looping k b' ∧ b'.retry = roundStart strategy w' true))
        (h : Traces (ask .wait >>= fun ready =>
          if ready = true then pure true else retryRounds strategy n w').run tr o) :
        ∃ b', Performs strategy b (tr.filterMap retryEvent?) b' ∧
          (o = some (.ok true) → b'.retry = afterLoop strategy) := by
      obtain ⟨rfl, rfl⟩ | ⟨ready, tr', rfl, h'⟩ := ask_wait_traces h
      · exact ⟨b, .refl b, by simp⟩
      obtain ⟨b₁, hperforms, hnext⟩ := hround ready
      cases ready with
      | true =>
        obtain ⟨rfl, -⟩ := traces_ret.mp h'
        exact ⟨b₁, hperforms, fun _ => hnext⟩
      | false =>
        obtain ⟨b₂, hrest, hend⟩ := ih hnext.1 hnext.2 h'
        exact ⟨b₂, hperforms.trans hrest, hend⟩
    rw [retryRounds_succ] at h
    split at h
    next hpassive =>
      have hpc : b.retry = .passive w := by rw [hretry, roundStart, if_pos hpassive]
      exact hwait (fun ready => hb.passive hpc ready) h
    next hactive =>
      have hpc : b.retry = .connect retried := by rw [hretry, roundStart_connect hactive]
      obtain ⟨b₁, hconnect, hlooping, hpc₁⟩ : ∃ b', Performs strategy b [.connectDevice] b' ∧
        Looping k b' ∧ b'.retry = .wait := hb.connect hpc
      obtain ⟨rfl, h₁⟩ | ⟨e, ho, h₁⟩ | ⟨u, tr₁, tr₂, rfl, h₁, h₂⟩ := throwing_bind h
      · obtain ⟨hevents, -⟩ | hevents := connectDevice_events h₁
        · exact ⟨b, hevents ▸ .refl b, by simp⟩
        · exact ⟨b₁, hevents ▸ hconnect, by simp⟩
      · obtain ⟨-, hnone⟩ | hevents := connectDevice_events h₁
        · cases hnone
        · refine ⟨b₁, hevents ▸ hconnect, ?_⟩
          obtain rfl | rfl := ho <;> simp
      · obtain ⟨-, hnone⟩ | hevents := connectDevice_events h₁
        · cases hnone
        have hround (ready : Bool) : ∃ b', Performs strategy b₁ [.wait ready] b' ∧
            (if ready then b'.retry = afterLoop strategy
              else Looping k b' ∧ b'.retry =
                roundStart strategy (if strategy = .dongleMode then 0 else w) true) := by
          rw [roundStart_reset]
          exact hlooping.wait hpc₁ ready
        obtain ⟨b₂, hrest, hend⟩ := hwait hround h₂
        rw [List.filterMap_append, hevents]
        exact ⟨b₂, hconnect.trans hrest, hend⟩

/-! The whole loop -/

/-- What the loop does before its first round. -/
def readvertise (h : BluetoothHandler) (strategy : ConnectionStrategy) : Bus Unit :=
  if strategy = .dongleMode then
    h.stopAdvertising >>= fun _ => ask .sleep >>= fun _ => h.startAdvertising
  else pure ()

theorem retryConnectLoop_eq (h : BluetoothHandler) (strategy : ConnectionStrategy) (n : Nat) :
    retryConnectLoop h strategy n = readvertise h strategy >>= fun _ =>
      retryRounds strategy n 0 >>= fun ended =>
        (if ended = true ∧ strategy ≠ .dongleMode then h.powerOff strategy else pure ()) >>=
          fun _ => pure ended := by
  have hend (ended : Bool) :
      ((if ended = true ∧ strategy ≠ .dongleMode then h.powerOff strategy else pure ()) >>=
          fun _ => pure ended : Bus Bool) =
        if ended = true ∧ strategy ≠ .dongleMode then h.powerOff strategy >>= fun _ => pure ended
        else pure ended := by
    split <;> simp
  unfold retryConnectLoop readvertise
  simp only [hend]
  split <;> simp only [bind_assoc, pure_bind]

theorem readvertise_quiet (h : BluetoothHandler) (strategy : ConnectionStrategy) :
    (readvertise h strategy).run.Only Quiet := by
  unfold readvertise
  split
  next =>
    obtain ⟨adapter, adapterAlias⟩ := h
    refine only_bind ?_ fun _ => only_bind (ask_only fun _ => rfl) fun _ => ?_
    · cases adapter with
      | none => trivial
      | some path => exact command_only fun _ => rfl
    · cases adapter with
      | none => trivial
      | some path =>
        exact only_bind (ask_only fun _ => rfl) fun _ => command_only fun _ => rfl
  next => trivial

section whole
variable {b : Bluetooth} {k : Nat}

theorem performs_start (strategy : ConnectionStrategy) (hstart : b.retry = .start)
    (hpromise : b.promise = some k) (hfresh : b.setCalls k = 0) :
    ∃ b', Performs strategy b [] b' ∧ Looping k b' ∧ b'.retry = roundStart strategy 0 false := by
  by_cases hmode : strategy = .dongleMode
  · have hfirst : b.retryStep strategy true =
        some { b with future := k, retry := .unadvertise } := by
      simp [Bluetooth.retryStep, hstart, hpromise, hmode]
    have hsecond : ({ b with future := k, retry := .unadvertise } : Bluetooth).retryStep strategy
        true = some { ({ b with future := k, retry := .unadvertise } :
          Bluetooth).stopAdvertising true with retry := .advertise } := rfl
    have hthird : Performs strategy ({ ({ b with future := k, retry := .unadvertise } :
        Bluetooth).stopAdvertising true with retry := .advertise } : Bluetooth) _ _ :=
      performs_loop rfl
    have hperforms := performs_loop hfirst
    simp only [Bluetooth.retryEvents, hstart] at hperforms
    exact ⟨_, (hperforms.trans (performs_loop hsecond)).trans hthird, ⟨hpromise, rfl, hfresh⟩, rfl⟩
  · have hstep : b.retryStep strategy true =
        some { b with future := k, retry := roundStart strategy 0 false } := by
      simp [Bluetooth.retryStep, hstart, hpromise, hmode]
    have hperforms := performs_loop hstep
    simp only [Bluetooth.retryEvents, hstart] at hperforms
    exact ⟨_, hperforms, ⟨hpromise, rfl, hfresh⟩, rfl⟩

/-- The end outside dongle mode: the adapter is powered off and the thread is finished. -/
theorem powerOff_simulated {strategy : ConnectionStrategy} {h : BluetoothHandler} {path : Path}
    (hadapter : h.adapter = some path) (hmode : strategy ≠ .dongleMode)
    (hretry : b.retry = .powerOff) {tr : BusTrace} {o : Option (Except BusError Bool)}
    (ht : Traces (h.powerOff strategy >>= fun _ => pure true).run tr o) :
    ∃ b', Performs strategy b (tr.filterMap retryEvent?) b' ∧
      (o = some (.ok true) → b'.retry = .finished) := by
  obtain ⟨adapter, adapterAlias⟩ := h
  cases hadapter
  have hoff : (⟨some path, adapterAlias⟩ : BluetoothHandler).powerOff strategy =
      command (.setPowered path false) := by
    unfold BluetoothHandler.powerOff
    dsimp only
    rw [if_neg hmode]
    rfl
  rw [hoff] at ht
  have hstep : b.retryStep strategy true =
      some { b.powerOff strategy true with retry := .finished } := by
    simp only [Bluetooth.retryStep, hretry]
  have hperforms := performs_loop hstep
  simp only [Bluetooth.retryEvents, hretry] at hperforms
  obtain ⟨rfl, rfl⟩ | ⟨r, tr', rfl, h'⟩ := traces_call.mp ht
  · exact ⟨b, .refl b, by simp⟩
  · have hnil : tr' = [] := by
      cases r <;> exact (traces_ret.mp h').1
    subst hnil
    exact ⟨_, hperforms, fun _ => rfl⟩

theorem retryConnectLoop_simulated (strategy : ConnectionStrategy) {h : BluetoothHandler}
    {path : Path} {n : Nat} (hadapter : h.adapter = some path) (hstart : b.retry = .start)
    (hpromise : b.promise = some k) (hfresh : b.setCalls k = 0) {tr : BusTrace}
    {o : Option (Except BusError Bool)}
    (ht : Traces (retryConnectLoop h strategy n).run tr o) :
    ∃ b', Performs strategy b (tr.filterMap retryEvent?) b' ∧
      (o = some (.ok true) → b'.retry = .finished) := by
  rw [retryConnectLoop_eq] at ht
  obtain ⟨rfl, h₁⟩ | ⟨e, ho, h₁⟩ | ⟨u, tr₁, tr₂, rfl, h₁, h₂⟩ := throwing_bind ht
  · have hquiet := Quiet.events (readvertise_quiet h strategy) h₁
    exact ⟨b, hquiet ▸ .refl b, by simp⟩
  · have hquiet := Quiet.events (readvertise_quiet h strategy) h₁
    refine ⟨b, hquiet ▸ .refl b, ?_⟩
    obtain rfl | rfl := ho <;> simp
  have hquiet := Quiet.events (readvertise_quiet h strategy) h₁
  obtain ⟨b₁, hfirst, hlooping, hpc⟩ := performs_start strategy hstart hpromise hfresh
  rw [List.filterMap_append, hquiet]
  obtain ⟨rfl, h₃⟩ | ⟨e, ho, h₃⟩ | ⟨ended, tr₃, tr₄, rfl, h₃, h₄⟩ := throwing_bind h₂
  · obtain ⟨b₂, hrounds, -⟩ := retryRounds_simulated hlooping hpc h₃
    exact ⟨b₂, hfirst.trans hrounds, by simp⟩
  · obtain ⟨b₂, hrounds, -⟩ := retryRounds_simulated hlooping hpc h₃
    refine ⟨b₂, hfirst.trans hrounds, ?_⟩
    obtain rfl | rfl := ho <;> simp
  obtain ⟨b₂, hrounds, hended⟩ := retryRounds_simulated hlooping hpc h₃
  rw [List.filterMap_append]
  cases ended with
  | false =>
    rw [if_neg (by simp)] at h₄
    obtain ⟨rfl, ho⟩ := traces_ret.mp h₄
    refine ⟨b₂, hfirst.trans (hrounds.trans (.refl b₂)), ?_⟩
    obtain rfl | rfl := ho <;> simp
  | true =>
    have hpc₂ := hended rfl
    by_cases hmode : strategy = .dongleMode
    · rw [if_neg (by simp [hmode])] at h₄
      obtain ⟨rfl, -⟩ := traces_ret.mp h₄
      refine ⟨b₂, hfirst.trans (hrounds.trans (.refl b₂)), fun _ => ?_⟩
      rw [hpc₂, afterLoop, if_pos hmode]
    · rw [if_pos ⟨rfl, hmode⟩] at h₄
      rw [afterLoop, if_neg hmode] at hpc₂
      obtain ⟨b₃, hoff, hfinished⟩ := powerOff_simulated hadapter hmode hpc₂ h₄
      exact ⟨b₃, hfirst.trans (hrounds.trans hoff), hfinished⟩

end whole

/-! Attempts at devices -/

/-- Every attempt at a device comes directly after its answer that it is not connected. -/
def Asked (tr : BusTrace) : Prop :=
  ∀ before after device uuid r,
    tr = before ++ ⟨.command (.connectProfile device uuid), r⟩ :: after →
      ∃ before', before = before' ++ [⟨.connected device, .ok false⟩]

theorem Asked.append (tr tr' : BusTrace) (h : Asked tr) (h' : Asked tr') : Asked (tr ++ tr') := by
  intro before after device uuid r heq
  obtain ⟨middle, rfl, hrest⟩ | ⟨middle, rfl, hrest⟩ := List.append_eq_append_iff.mp heq
  · obtain ⟨before', rfl⟩ := h' middle after device uuid r hrest
    exact ⟨tr ++ before', by simp⟩
  · cases middle with
    | nil =>
      obtain ⟨before', hnil⟩ := h' [] after device uuid r hrest.symm
      simp at hnil
    | cons ev middle =>
      obtain ⟨rfl, -⟩ := List.cons_eq_cons.mp hrest
      exact h before middle device uuid r rfl

/-- A call that is no attempt. -/
def NoAttempt (c : BusCall) : Prop := ∀ device uuid, c ≠ .command (.connectProfile device uuid)

theorem asked_of_noAttempt {tr : BusTrace} (h : ∀ ev ∈ tr, NoAttempt ev.1) : Asked tr := by
  rintro before after device uuid r rfl
  have hmem : (⟨.command (.connectProfile device uuid), r⟩ : Event BusCall BusAnswer) ∈
      before ++ ⟨.command (.connectProfile device uuid), r⟩ :: after := by simp
  exact absurd rfl (h _ hmem device uuid)

theorem always_asked {α : Type} {p : Bus α} (hp : p.run.Only NoAttempt) : Always Asked p :=
  fun _ _ h => asked_of_noAttempt (hp.traces h)

theorem connectOne_asked (device : Path) : Always Asked (connectOne device) := by
  intro tr o h
  rw [connectOne_run] at h
  obtain ⟨rfl, -⟩ | ⟨r, tr', rfl, h'⟩ := traces_call.mp h
  · exact asked_of_noAttempt (by simp)
  obtain e | _ | _ := r
  · obtain ⟨rfl, -⟩ := traces_ret.mp h'
    exact asked_of_noAttempt (by simp [NoAttempt])
  · obtain ⟨rfl, -⟩ | ⟨r, tr'', rfl, h''⟩ := traces_call.mp h'
    · exact asked_of_noAttempt (by simp [NoAttempt])
    · obtain ⟨rfl, -⟩ := traces_ret.mp h''
      intro before after device' uuid r' heq
      match before, heq with
      | [], heq => simp at heq
      | [ev], heq =>
        simp only [List.cons_append, List.nil_append, List.cons.injEq, Sigma.mk.injEq,
          BusCall.command.injEq, BusCommand.connectProfile.injEq] at heq
        obtain ⟨rfl, ⟨⟨rfl, -⟩, -⟩, -⟩ := heq
        exact ⟨[], rfl⟩
      | ev :: ev' :: before, heq => simp at heq
  · obtain ⟨rfl, -⟩ := traces_ret.mp h'
    exact asked_of_noAttempt (by simp [NoAttempt])

theorem connectDevice_asked : Always Asked connectDevice := by
  refine Always.bind Asked.append (always_asked ?_) fun objects => ?_
  · exact ⟨by simp [NoAttempt], fun _ => trivial⟩
  · induction devicePaths objects.objects with
    | nil => exact always_asked trivial
    | cons device devices ih => exact Always.bind Asked.append (connectOne_asked device) fun _ => ih

theorem retryRounds_asked (strategy : ConnectionStrategy) (n w : Nat) :
    Always Asked (retryRounds strategy n w) := by
  induction n generalizing w with
  | zero => exact always_asked trivial
  | succ n ih =>
    have hwait (w' : Nat) : Always Asked (ask .wait >>= fun ready =>
        if ready = true then pure true else retryRounds strategy n w') := by
      refine Always.bind Asked.append (always_asked (ask_only (by simp [NoAttempt])))
        fun ready => ?_
      cases ready with
      | true => exact always_asked trivial
      | false => exact ih w'
    rw [retryRounds_succ]
    split
    next => exact hwait (w + 1)
    next => exact Always.bind Asked.append connectDevice_asked fun _ => hwait _

theorem retryRounds_failsLast (strategy : ConnectionStrategy) (n w : Nat) :
    FailsLast fatal? (retryRounds strategy n w) := by
  induction n generalizing w with
  | zero => exact .pure false
  | succ n ih =>
    have hwait (w' : Nat) : FailsLast fatal? (ask .wait >>= fun ready =>
        if ready = true then pure true else retryRounds strategy n w') := by
      refine (ask_failsLast fun _ => rfl).bind fun ready => ?_
      cases ready with
      | true => exact .pure true
      | false => exact ih w'
    rw [retryRounds_succ]
    split
    next => exact hwait (w + 1)
    next => exact connectDevice_failsLast.bind fun _ => hwait _

theorem readvertise_failsLast (h : BluetoothHandler) (strategy : ConnectionStrategy) :
    FailsLast fatal? (readvertise h strategy) := by
  unfold readvertise
  split
  next =>
    exact (stopAdvertising_failsLast h).bind fun _ => (ask_failsLast fun _ => rfl).bind fun _ =>
      startAdvertising_failsLast h
  next => exact .pure ()

theorem retryConnectLoop_failsLast (h : BluetoothHandler) (strategy : ConnectionStrategy)
    (n : Nat) : FailsLast fatal? (retryConnectLoop h strategy n) := by
  rw [retryConnectLoop_eq]
  refine (readvertise_failsLast h strategy).bind fun _ =>
    (retryRounds_failsLast strategy n 0).bind fun ended => ?_
  split
  next => exact (powerOff_failsLast h).bind fun _ => .pure ended
  next => exact .pure ended

theorem retryConnectLoop_asked (h : BluetoothHandler) (strategy : ConnectionStrategy) (n : Nat) :
    Always Asked (retryConnectLoop h strategy n) := by
  obtain ⟨adapter, adapterAlias⟩ := h
  have hcommand {c : BusCommand} (hc : NoAttempt (.command c)) :
      Always Asked (command c) := always_asked (command_only hc)
  have hstop : Always Asked (⟨adapter, adapterAlias⟩ : BluetoothHandler).stopAdvertising := by
    cases adapter with
    | none => exact always_asked trivial
    | some path => exact hcommand (by simp [NoAttempt])
  have hstart : Always Asked (⟨adapter, adapterAlias⟩ : BluetoothHandler).startAdvertising := by
    cases adapter with
    | none => exact always_asked trivial
    | some path =>
      exact Always.bind Asked.append (always_asked (ask_only (by simp [NoAttempt])))
        fun _ => hcommand (by simp [NoAttempt])
  have hpower : Always Asked ((⟨adapter, adapterAlias⟩ : BluetoothHandler).setPower false) := by
    cases adapter with
    | none => exact always_asked trivial
    | some path => exact hcommand (by simp [NoAttempt])
  have hoff : Always Asked ((⟨adapter, adapterAlias⟩ : BluetoothHandler).powerOff strategy) := by
    unfold BluetoothHandler.powerOff
    split
    next =>
      dsimp only
      split
      next => exact Always.bind Asked.append hstop fun _ => hpower
      next => exact hpower
    next => exact always_asked trivial
  rw [retryConnectLoop_eq]
  refine Always.bind Asked.append ?_ fun _ =>
    Always.bind Asked.append (retryRounds_asked strategy n 0) fun ended => ?_
  · unfold readvertise
    split
    next =>
      exact Always.bind Asked.append hstop fun _ => Always.bind Asked.append
        (always_asked (ask_only (by simp [NoAttempt]))) fun _ => hstart
    next => exact always_asked trivial
  · split
    next => exact Always.bind Asked.append hoff fun _ => always_asked trivial
    next => exact always_asked trivial

/-- The retry loop with its bus calls, for any number of rounds and whatever the bus answers:
it does what a run of the daemon's retry thread does, and keeps its policy; a device is told to
connect only directly after it has answered that it is not connected; and a call that fails
outside an attempt at a device ends the loop at once, nothing else does before the promise. -/
theorem retryConnectLoop_policy {h : BluetoothHandler} {path : Path}
    (hadapter : h.adapter = some path) {strategy : ConnectionStrategy} {n : Nat} {tr : BusTrace}
    {o : Option (Except BusError Bool)} (ht : Traces (retryConnectLoop h strategy n).run tr o) :
    (∃ b,
      Performs strategy (Bluetooth.initial.connectWithRetry true 0) (tr.filterMap retryEvent?) b ∧
      RetryPolicy strategy b (tr.filterMap retryEvent?) ∧
      (o = some (.ok true) → b.retry = .finished)) ∧
    Asked tr ∧ Ends fatal? tr o := by
  refine ⟨?_, retryConnectLoop_asked h strategy n tr o ht,
    retryConnectLoop_failsLast h strategy n tr o ht⟩
  have hstart : (Bluetooth.initial.connectWithRetry true 0).retry = .start := rfl
  have hpromise : (Bluetooth.initial.connectWithRetry true 0).promise = some 0 := rfl
  obtain ⟨b, hperforms, hfinished⟩ :=
    retryConnectLoop_simulated strategy hadapter hstart hpromise rfl ht
  refine ⟨b, hperforms, ?_, hfinished⟩
  obtain ⟨as, hlegal, htrace, rfl⟩ := hperforms
  have hlap := retryTrace_lap hstart (hpromise ▸ Option.some_ne_none 0) hlegal
  rw [← htrace]
  exact hlap.policy

/-- Two waits in phone first mode, the second one ready. -/
def readySecond (objects : ManagedObjects) : Bool → (c : BusCall) → BusAnswer c × Bool
  | s, .getManagedObjects => (.ok objects, s)
  | s, .connected _ => (.ok false, s)
  | s, .command _ => (.ok (), s)
  | s, .registerObject _ => (true, s)
  | s, .sleep => ((), s)
  | s, .wait => (s, true)

theorem retryConnectLoop_policy_second :
    Asked (run (readySecond oneAdapter)
      (retryConnectLoop ⟨some (bytes "/org/bluez/hci0"), []⟩ .phoneFirst 2).run false).trace :=
  (retryConnectLoop_policy rfl (run_traces (readySecond oneAdapter)
    (retryConnectLoop ⟨some (bytes "/org/bluez/hci0"), []⟩ .phoneFirst 2).run false)).2.1

end Aawgd.BluetoothBus
