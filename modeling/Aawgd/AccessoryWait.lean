import Aawgd.AccessoryPass

/-! Which accessory start requests reach the call that waits for them, over any history of
calls that timed out. -/
namespace Aawgd

/-- The USB manager, watched: which call the current event is due to, and the UDC writes
that the handler of each call has made. -/
structure Watch where
  usb : Usb
  due : Option Nat
  writes : Nat → List (Gadget × Bytes)

namespace Watch

/-- A dispatched event is due to the call that waits, unless its wait times out before its
handler has locked the promise. -/
def dueAfter (w : Watch) (usb : Usb) : UsbAction → Option Nat
  | .uevent env => if starts env ∧ w.usb.Waiting then some w.usb.calls else none
  | .call _ =>
    if usb.call = .idle ∧ w.usb.Waiting ∧ w.usb.monitor.held? ≠ w.due then none else w.due
  | _ => w.due

def write (w : Watch) (k : Nat) (name : Gadget) (content : Bytes) : Nat → List (Gadget × Bytes) :=
  Function.update w.writes k (w.writes k ++ [(name, content)])

def writesAfter (udcName : Bytes) (w : Watch) : UsbAction → Nat → List (Gadget × Bytes)
  | .monitor =>
    match w.usb.monitor with
    | .release _ k => w.write k .default []
    | .engage _ k => w.write k .accessory udcName
    | _ => w.writes
  | _ => w.writes

def step (udcName : Bytes) (w : Watch) (a : UsbAction) : Option Watch :=
  (w.usb.step udcName a).map fun usb => ⟨usb, w.dueAfter usb a, w.writesAfter udcName a⟩

end Watch

def watchStart : Watch where
  usb := Usb.start
  due := none
  writes _ := []

def watched (udcName : Bytes) : GuardedSystem Watch UsbAction :=
  .ofStep watchStart (Watch.step udcName)

instance decidableWatchedGuard (udcName : Bytes) (w : Watch) (a : UsbAction) :
    Decidable ((watched udcName).guard w a) := GuardedSystem.decidableGuardOfStep _ _ w a

/-- `switchToAccessoryGadget`. -/
def switchWrites (udcName : Bytes) : List (Gadget × Bytes) :=
  [(.default, []), (.accessory, udcName)]

/-- Once the event is dispatched to all handlers, the call it was due to has its gadget
switched and its promise satisfied. -/
def Served (udcName : Bytes) (w : Watch) : Prop :=
  w.usb.monitor = .idle → ∀ k, w.due = some k →
    w.usb.setCalls k = 1 ∧ w.writes k = switchWrites udcName

/-- The handlers of calls that have ended. -/
def Usb.expired (u : Usb) : List Nat := u.handlers.toList.filter fun k => !u.alive k

/-- A start event for a waiting call meets an even number of expired handlers. -/
def EvenExpired (w : Watch) : UsbAction → Prop
  | .uevent env => starts env → w.usb.Waiting → Even w.usb.expired.length
  | _ => True

instance decidableEvenExpired (w : Watch) : (a : UsbAction) → Decidable (EvenExpired w a)
  | .uevent _ => inferInstanceAs (Decidable (_ → _ → _))
  | .begin | .call _ | .disable _ | .monitor => .isTrue trivial

section watched
variable {udcName : Bytes} {w w' : Watch} {a : UsbAction}

/-- The handlers of ended calls are all but the last. -/
theorem Listed.expired_eq {u : Usb} (hl : Listed u) (hwaiting : u.Waiting) {olds : List Nat}
    (holds : u.handlers.toList = olds ++ [u.calls]) : u.expired = olds := by
  have hnodup := hl.nodup
  rw [holds] at hnodup
  have hdead : ∀ o ∈ olds, (!u.alive o) = true := by
    intro o ho
    have hne : o ≠ u.calls := by
      intro he
      exact (List.disjoint_of_nodup_append hnodup) (he ▸ ho) (List.mem_singleton_self _)
    simp [Usb.alive, hne]
  rw [Usb.expired, holds, List.filter_append, List.filter_eq_self.mpr hdead]
  simp [hwaiting.alive]

theorem Watch.step_of_usb {usb : Usb} (h : w.usb.step udcName a = some usb) :
    w.step udcName a = some ⟨usb, w.dueAfter usb a, w.writesAfter udcName a⟩ := by
  simp [Watch.step, h]

theorem Watch.step_cases (h : w.step udcName a = some w') :
    ∃ usb, w.usb.Step udcName a usb ∧ w' = ⟨usb, w.dueAfter usb a, w.writesAfter udcName a⟩ := by
  obtain ⟨usb, husb, rfl⟩ := Option.map_eq_some_iff.mp h
  exact ⟨usb, Usb.step_cases husb, rfl⟩

/-- The writes of a handler, from where it is. -/
def Usb.writesOf (udcName : Bytes) (u : Usb) (k : Nat) : List (Gadget × Bytes) :=
  if u.setCalls k ≠ 0 ∨ u.monitor.fulfilling? = some k then switchWrites udcName
  else if u.monitor.engaging? = some k then [(.default, [])]
  else []

def Watch.Written (udcName : Bytes) (w : Watch) : Prop :=
  ∀ k, w.writes k = w.usb.writesOf udcName k

theorem Watch.Written.monitor {u' : Usb} (hl : Listed w.usb) (h : w.Written udcName)
    (hstep : w.usb.MonitorStep udcName u') (k : Nat) :
    w.writesAfter udcName .monitor k = u'.writesOf udcName k := by
  have hk := h k
  cases hstep with
  | done env pc | expired env j pc | ignored env j pc | accepted env j pc | advance env pc =>
    simpa [Watch.writesAfter, pc, Usb.writesOf, MonitorPc.fulfilling?, MonitorPc.engaging?] using hk
  | release env j pc =>
    have hzero := hl.unsatisfied j (hl.head_mem (by rw [pc]; rfl))
    by_cases hj : k = j
    · have hbefore : w.writes j = [] := by
        simp [h j, Usb.writesOf, pc, hzero, MonitorPc.fulfilling?, MonitorPc.engaging?]
      simp [Watch.writesAfter, Watch.write, pc, hj, hbefore, Usb.writesOf, Usb.disableGadget,
        Usb.writeGadgetFile, hzero, MonitorPc.fulfilling?, MonitorPc.engaging?]
    · simpa [Watch.writesAfter, Watch.write, pc, hj, Ne.symm hj, Usb.writesOf, Usb.disableGadget,
        Usb.writeGadgetFile, MonitorPc.fulfilling?, MonitorPc.engaging?] using hk
  | engage env j pc =>
    have hzero := hl.unsatisfied j (hl.head_mem (by rw [pc]; rfl))
    by_cases hj : k = j
    · have hbefore : w.writes j = [(.default, [])] := by
        simp [h j, Usb.writesOf, pc, hzero, MonitorPc.fulfilling?, MonitorPc.engaging?]
      simp [Watch.writesAfter, Watch.write, pc, hj, hbefore, Usb.writesOf, Usb.enableGadget,
        Usb.writeGadgetFile, switchWrites, MonitorPc.fulfilling?]
    · simpa [Watch.writesAfter, Watch.write, pc, hj, Ne.symm hj, Usb.writesOf, Usb.enableGadget,
        Usb.writeGadgetFile, MonitorPc.fulfilling?, MonitorPc.engaging?] using hk
  | fulfil env j pc =>
    by_cases hj : k = j
    · have hbefore : w.writes j = switchWrites udcName := by
        simp [h j, Usb.writesOf, pc, MonitorPc.fulfilling?]
      simp [Watch.writesAfter, pc, hj, hbefore, Usb.writesOf, Usb.setValue]
    · simpa [Watch.writesAfter, pc, hj, Ne.symm hj, Usb.writesOf, Usb.setValue,
        MonitorPc.fulfilling?, MonitorPc.engaging?] using hk

theorem Watch.Written.step (hl : Listed w.usb) (h : w.Written udcName)
    (hstep : w.step udcName a = some w') : w'.Written udcName := by
  obtain ⟨usb, husb, rfl⟩ := Watch.step_cases hstep
  intro k
  cases husb with
  | begin => exact h k
  | call timeout u' value call => cases call <;> exact h k
  | disable name => exact h k
  | uevent env u' received =>
    obtain ⟨hpc, rfl⟩ := Usb.receive_eq received
    simpa [Watch.writesAfter, Usb.writesOf, hpc, MonitorPc.fulfilling?, MonitorPc.engaging?]
      using h k
  | monitor u' step => exact h.monitor hl (Usb.monitorStep_cases step) k

theorem reaching_step (hl : Listed w.usb) (hok : EvenExpired w a)
    (h : ∀ k, w.due = some k → w.usb.Reaching k) (hstep : w.step udcName a = some w') :
    ∀ k, w'.due = some k → w'.usb.Reaching k := by
  obtain ⟨usb, husb, rfl⟩ := Watch.step_cases hstep
  intro k hk
  cases husb with
  | begin idle =>
    refine (h k hk).keep rfl rfl fun env olds hpass => ?_
    simpa [Usb.Waiting, idle] using hpass.waiting
  | call timeout u' value call =>
    simp only [Watch.dueAfter, Option.ite_none_left_eq_some] at hk
    exact (h k hk.2).call call (hk.2 ▸ hk.1)
  | disable name =>
    refine (h k hk).keep rfl rfl fun env olds hpass hk => ?_
    exact ⟨hk, hpass.waiting, hpass.start, hpass.ahead⟩
  | uevent env u' received =>
    obtain ⟨-, rfl⟩ := Usb.receive_eq received
    simp only [Watch.dueAfter, Option.ite_none_right_eq_some, Option.some.injEq] at hk
    obtain ⟨⟨hstart, hwaiting⟩, rfl⟩ := hk
    obtain ⟨olds, holds⟩ := List.getLast?_eq_some_iff.mp (hl.last hwaiting)
    have heven : Even olds.length := hl.expired_eq hwaiting holds ▸ hok hstart hwaiting
    exact .inr (.inr ⟨rfl, env, olds, ⟨hwaiting, hstart, holds⟩, .inl ⟨rfl, heven⟩⟩)
  | monitor u' step => exact (h k hk).monitor hl step

structure Watched (udcName : Bytes) (w : Watch) : Prop where
  listed : Listed w.usb
  written : w.Written udcName

theorem Watched.step (h : Watched udcName w) (hstep : w.step udcName a = some w') :
    Watched udcName w' := by
  have hwritten := h.written.step h.listed hstep
  obtain ⟨usb, husb, rfl⟩ := Watch.step_cases hstep
  exact ⟨h.listed.step husb, hwritten⟩

theorem Watched.start : Watched udcName watchStart := ⟨Listed.start, fun _ => rfl⟩

theorem Watched.run {run : List UsbAction} (hlegal : (watched udcName).Legal watchStart run) :
    Watched udcName ((watched udcName).after watchStart run) := by
  apply GuardedSystem.invariant_all _ Watched.start hlegal
  intro w a h hguard
  exact h.step (GuardedSystem.ofStep_effect hguard)

/-- The monitor is on its way to the handler of the call the event is due to, or past it. -/
structure OnCourse (udcName : Bytes) (w : Watch) : Prop where
  known : Watched udcName w
  reaching : ∀ k, w.due = some k → w.usb.Reaching k

theorem OnCourse.step (h : OnCourse udcName w) (hok : EvenExpired w a)
    (hstep : w.step udcName a = some w') : OnCourse udcName w' :=
  ⟨h.known.step hstep, reaching_step h.known.listed hok h.reaching hstep⟩

/-- At the end of a pass nothing is left that could still run the handler. -/
theorem OnCourse.served (h : OnCourse udcName w) : Served udcName w := by
  intro hidle k hk
  have hset : w.usb.setCalls k ≠ 0 := by
    simpa [Usb.Reaching, hidle, MonitorPc.held?] using h.reaching k hk
  have hle := h.known.listed.once k
  refine ⟨by omega, ?_⟩
  rw [h.known.written k]
  simp [Usb.writesOf, hset]

/-- A pass that loses the event of the waiting call. -/
structure Lost (udcName : Bytes) (w : Watch) : Prop where
  known : Watched udcName w
  losing : w.usb.Losing
  due : w.due = some w.usb.calls

theorem Lost.step (h : Lost udcName w) (hbusy : w.usb.monitor ≠ .idle) :
    ∃ w', w.step udcName .monitor = some w' ∧ Lost udcName w' ∧
      w'.usb.passSize < w.usb.passSize := by
  obtain ⟨u', hu', hlosing, hcalls, hlt⟩ := h.losing.step udcName h.known.listed hbusy
  have hmonitor : w.usb.Step udcName .monitor u' := .monitor u' hu'
  have hw' := Watch.step_of_usb (hmonitor.enabled h.known.listed.running)
  exact ⟨_, hw', ⟨h.known.step hw', hlosing, hcalls ▸ h.due⟩, hlt⟩

/-- The monitor, left alone, ends the pass, and the call is not served. -/
theorem Lost.unserved (h : Lost udcName w) :
    ∃ n, (watched udcName).Legal w (List.replicate n .monitor) ∧
      ¬ Served udcName ((watched udcName).after w (List.replicate n .monitor)) := by
  have hstep : ∀ w, Lost udcName w → ¬ w.usb.monitor = .idle →
      (watched udcName).guard w .monitor ∧ Lost udcName ((watched udcName).effect w .monitor) ∧
        ((watched udcName).effect w .monitor).usb.passSize < w.usb.passSize := by
    intro w h hbusy
    obtain ⟨w', hw', hlost, hlt⟩ := h.step hbusy
    have heffect : (watched udcName).guard w .monitor ∧ (watched udcName).effect w .monitor = w' :=
      GuardedSystem.ofStep_some hw'
    exact ⟨heffect.1, heffect.2 ▸ hlost, heffect.2 ▸ hlt⟩
  obtain ⟨n, hlegal, hlost, hidle⟩ := GuardedSystem.repeat_until (Lost udcName)
    (fun w => w.usb.monitor = .idle) UsbAction.monitor (fun w => w.usb.passSize) hstep h
  refine ⟨n, hlegal, fun hserved => ?_⟩
  have hset := (hserved hidle _ hlost.due).1
  rw [hlost.losing.1.2] at hset
  cases hset

theorem Lost.of_odd (h : Watched udcName w) {env : UeventEnv} (hodd : ¬ EvenExpired w (.uevent env))
    (hstep : w.step udcName (.uevent env) = some w') : Lost udcName w' := by
  have hwatched := h.step hstep
  simp only [EvenExpired, Classical.not_imp] at hodd
  obtain ⟨hstart, hwaiting, hodd⟩ := hodd
  obtain ⟨olds, holds⟩ := List.getLast?_eq_some_iff.mp (h.listed.last hwaiting)
  rw [h.listed.expired_eq hwaiting holds] at hodd
  obtain ⟨usb, husb, rfl⟩ := Watch.step_cases hstep
  cases husb with
  | uevent env u' received =>
    obtain ⟨-, rfl⟩ := Usb.receive_eq received
    refine ⟨hwatched, ⟨hwaiting, .inr ⟨env, .inl ⟨rfl, .inr ⟨olds, ?_, hodd⟩⟩⟩⟩, ?_⟩
    · exact ⟨hwaiting, hstart, holds⟩
    · simp [Watch.dueAfter, hstart, hwaiting]

theorem served_of_even {run : List UsbAction} (hlegal : (watched udcName).Legal watchStart run)
    (heven : (watched udcName).Meets EvenExpired watchStart run) :
    Served udcName ((watched udcName).after watchStart run) := by
  have hcourse : OnCourse udcName ((watched udcName).after watchStart run) := by
    refine GuardedSystem.invariant ?_ ⟨Watched.start, nofun⟩ hlegal heven
    intro w a h hguard hok
    exact h.step hok (GuardedSystem.ofStep_effect hguard)
  exact hcourse.served

theorem even_of_served {pre : List UsbAction} {a : UsbAction}
    (hlegal : (watched udcName).Legal watchStart (pre ++ [a]))
    (hserved : ∀ n, (watched udcName).Legal watchStart (pre ++ [a] ++ List.replicate n .monitor) →
      Served udcName
        ((watched udcName).after watchStart (pre ++ [a] ++ List.replicate n .monitor))) :
    EvenExpired ((watched udcName).after watchStart pre) a := by
  obtain ⟨hpre, hguard, -⟩ := (GuardedSystem.legal_append _ _ _).mp hlegal
  by_contra hodd
  cases a with
  | uevent env =>
    have hlost : Lost udcName ((watched udcName).after watchStart (pre ++ [.uevent env])) := by
      rw [GuardedSystem.after_append]
      exact .of_odd (Watched.run hpre) hodd (GuardedSystem.ofStep_effect hguard)
    obtain ⟨n, hmore, hunserved⟩ := hlost.unserved
    have hend := hserved n ((GuardedSystem.legal_append _ _ _).mpr ⟨hlegal, hmore⟩)
    rw [GuardedSystem.after_append] at hend
    exact hunserved hend
  | begin | call | disable | monitor => exact hodd trivial

end watched

/-- Every promise is set at most once, and each event that is due to a waiting call serves
it, once the monitor has dispatched it, exactly if the expired handlers are even in number. -/
theorem start_served_iff (udcName : Bytes) (run : List UsbAction)
    (hlegal : (watched udcName).Legal watchStart run) :
    (∀ k, ((watched udcName).after watchStart run).usb.setCalls k ≤ 1) ∧
      ((∀ pre n, pre <+: run →
        (watched udcName).Legal watchStart (pre ++ List.replicate n .monitor) →
          Served udcName ((watched udcName).after watchStart (pre ++ List.replicate n .monitor))) ↔
        (watched udcName).Meets EvenExpired watchStart run) := by
  refine ⟨(Watched.run hlegal).listed.once, fun hall => ?_, fun heven pre n hpre hext => ?_⟩
  · apply (GuardedSystem.meets_iff_prefix _ _).mpr
    intro pre a hpre
    apply even_of_served _ fun n => hall (pre ++ [a]) n hpre
    obtain ⟨rest, rfl⟩ := hpre
    exact ((GuardedSystem.legal_append _ _ _).mp hlegal).1
  · apply served_of_even hext
    obtain ⟨rest, rfl⟩ := hpre
    apply (GuardedSystem.meets_append _ _ _).mpr
    refine ⟨((GuardedSystem.meets_append _ _ _).mp heven).1, ?_⟩
    apply (GuardedSystem.meets_iff_prefix _ _).mpr
    intro before a hbefore
    have ha : a = .monitor := List.eq_of_mem_replicate (hbefore.subset (by simp))
    subst ha
    trivial

/-- The handlers of two calls that timed out are still in the list. -/
def afterTwoTimeouts : List UsbAction :=
  [.begin, .call true, .call true, .call true, .begin, .call true, .call true, .call true,
    .begin, .call true, .call true, .uevent startEvent] ++ List.replicate 10 .monitor

theorem start_served_after_two :
    ((watched (bytes "dwc3")).after watchStart afterTwoTimeouts).usb.setCalls 3 ≤ 1 ∧
      Served (bytes "dwc3") ((watched (bytes "dwc3")).after watchStart afterTwoTimeouts) := by
  obtain ⟨honce, hserved⟩ := start_served_iff (bytes "dwc3") afterTwoTimeouts (by decide)
  exact ⟨honce 3, hserved.mpr (by decide) afterTwoTimeouts 0 (List.prefix_refl _) (by decide)⟩

/-- The handler of one call that timed out is still in the list, and the loop passes over
the one behind it. -/
theorem start_lost_after_one : ∃ udcName run, (watched udcName).Legal watchStart run ∧
    ¬ Served udcName ((watched udcName).after watchStart run) := by
  refine ⟨bytes "dwc3", [.begin, .call true, .call true, .call true, .begin, .call true,
    .call true, .uevent startEvent, .monitor, .monitor, .monitor], by decide, fun hserved => ?_⟩
  have hset := (hserved (by decide) 2 (by decide)).1
  revert hset
  decide

end Aawgd
