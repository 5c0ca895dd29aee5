import Aawgd.AccessoryWait
import Mathlib.Data.Nat.Bitwise

/-! How a waiting call gets over handlers left by calls that timed out: every event the
monitor dispatches halves their number, so the events that would be lost are told by the
binary digits of that number. -/
namespace Aawgd
open GuardedSystem

def UsbAction.isUevent : UsbAction → Bool
  | .uevent _ => true
  | _ => false

/-- The expired handlers that will be left at the end of a pass, if the call waits until
then: from the iterator on every second one goes. -/
def Usb.leaves (u : Usb) : Nat :=
  match u.monitor with
  | .check _ =>
    if u.handlers.after = [] then u.handlers.before.length - 1
    else u.handlers.before.length + (u.handlers.after.length - 1) / 2
  | .advance _ => u.handlers.before.length + u.handlers.after.length / 2
  | _ => u.handlers.toList.length - 1

/-- A pass while call c waits: its handler is the only one that is run, the iterator does not
get past the end, and m expired handlers will be left. -/
structure Halving (c m : Nat) (u : Usb) : Prop where
  held : ∀ k, u.monitor.held? = some k → k = c
  ahead : ∀ env, u.monitor = .advance env → u.handlers.after ≠ []
  leaves : u.monitor.held? = none → u.leaves = m

/-- As long as call c waits. -/
structure Halved (c m : Nat) (u : Usb) : Prop where
  past : c ≤ u.calls
  registered : u.calls = c → u.call ≠ .add
  halving : u.calls = c → u.Waiting → Halving c m u

section halving
variable {udcName : Bytes} {c m : Nat} {u u' : Usb}

theorem Listed.alive_last (hl : Listed u) (hwaiting : u.Waiting) {k : Nat} {rest : List Nat}
    (hafter : u.handlers.after = k :: rest) : u.alive k = true ↔ rest = [] := by
  have hlast := hl.last hwaiting
  have hnodup := hl.nodup
  rw [ListCursor.toList, hafter] at hlast hnodup
  rw [List.getLast?_append_cons] at hlast
  constructor
  · intro halive
    have hk := (Usb.alive_iff.mp halive).1
    cases rest with
    | nil => rfl
    | cons j rest =>
      rw [List.getLast?_cons_cons] at hlast
      have hmem := List.mem_of_getLast? hlast
      have hnot := (List.nodup_cons.mp (List.nodup_append.mp hnodup).2.1).1
      exact absurd (hk ▸ hmem) hnot
  · rintro rfl
    cases hlast
    exact hwaiting.alive

theorem Halving.monitor (h : Halving c m u) (hl : Listed u) (hc : u.calls = c)
    (hwaiting : u.Waiting) (hwaiting' : u'.Waiting) (hstep : u.MonitorStep udcName u') :
    Halving c m u' := by
  cases hstep with
  | done env pc hnone =>
    refine ⟨by simp [MonitorPc.held?], by simp, fun _ => ?_⟩
    have hleaves := h.leaves (by rw [pc]; rfl)
    simpa [Usb.leaves, pc, hnone, ListCursor.toList] using hleaves
  | expired env k pc hhead hverdict =>
    obtain ⟨rest, hafter⟩ := List.head?_eq_some_iff.mp hhead
    have hrest : rest ≠ [] := by
      intro hnil
      have halive := (hl.alive_last hwaiting hafter).mpr hnil
      rw [Usb.expired_iff.mp hverdict] at halive
      cases halive
    have hleaves := h.leaves (by rw [pc]; rfl)
    refine ⟨by simp [MonitorPc.held?], fun _ _ => ?_, fun _ => ?_⟩
    · simpa [ListCursor.erase, hafter] using hrest
    · simpa [Usb.leaves, pc, hafter, ListCursor.erase] using hleaves
  | ignored env k pc hhead hverdict =>
    obtain ⟨rest, hafter⟩ := List.head?_eq_some_iff.mp hhead
    have hnil : rest = [] := by
      refine (hl.alive_last hwaiting hafter).mp ?_
      cases halive : u.alive k with
      | true => rfl
      | false =>
        rw [Usb.expired_iff.mpr halive] at hverdict
        cases hverdict
    have hleaves := h.leaves (by rw [pc]; rfl)
    refine ⟨by simp [MonitorPc.held?], fun _ _ => by simp [hafter], fun _ => ?_⟩
    simpa [Usb.leaves, pc, hafter, hnil] using hleaves
  | accepted env k pc hhead hverdict =>
    refine ⟨fun j hj => ?_, by simp, by simp [MonitorPc.held?]⟩
    cases hj
    have halive : u.alive k = true := Usb.alive_of_accepted hverdict
    exact (Usb.alive_iff.mp halive).1.trans hc
  | advance env pc =>
    have hleaves := h.leaves (by rw [pc]; rfl)
    refine ⟨by simp [MonitorPc.held?], by simp, fun _ => ?_⟩
    cases hafter : u.handlers.after with
    | nil => exact absurd hafter (h.ahead env pc)
    | cons k rest =>
      have hnext : u.handlers.next = ⟨u.handlers.before ++ [k], rest⟩ := by
        cases hcursor : u.handlers with
        | mk before after =>
          rw [hcursor] at hafter
          subst hafter
          rfl
      simp only [Usb.leaves, pc, hafter, List.length_cons] at hleaves
      simp only [Usb.leaves, hnext, List.length_append, List.length_singleton]
      split
      next hnil =>
        rw [hnil] at hleaves
        simp at hleaves
        omega
      next hcons =>
        have hpos := List.length_pos_iff.mpr hcons
        omega
  | release env k pc | engage env k pc =>
    refine ⟨fun j hj => h.held j ?_, by simp, by simp [MonitorPc.held?]⟩
    rw [pc]
    exact hj
  | fulfil env k pc =>
    have hk : u.calls = k := hc.trans (h.held k (by rw [pc]; rfl)).symm
    obtain ⟨-, hset⟩ := hwaiting'
    simp [Usb.setValue, hk] at hset

/-- Nothing of a pass changes, and a call that waits afterwards waited before. -/
theorem Halved.frame (h : Halved c m u) (hcalls : u'.calls = u.calls)
    (hcall : u'.calls = c → u'.call ≠ .add)
    (hhandlers : u'.handlers = u.handlers) (hmonitor : u'.monitor = u.monitor)
    (hwaits : u'.Waiting → u.Waiting) : Halved c m u' where
  past := hcalls ▸ h.past
  registered := hcall
  halving hc hwaiting := by
    have hold := h.halving (hcalls ▸ hc) (hwaits hwaiting)
    refine ⟨fun k hk => hold.held k (hmonitor ▸ hk), fun env henv => ?_, fun hnone => ?_⟩
    · rw [hhandlers]
      exact hold.ahead env (hmonitor ▸ henv)
    · rw [hmonitor] at hnone
      have hleaves := hold.leaves hnone
      unfold Usb.leaves at hleaves ⊢
      rw [hhandlers, hmonitor]
      exact hleaves

theorem Halved.begin (h : Halved c m u) : Halved c m u.beginCall where
  past := Nat.le_succ_of_le h.past
  registered hc := by
    have hpast := h.past
    simp only [Usb.beginCall] at hc
    omega
  halving hc := by
    have hpast := h.past
    simp only [Usb.beginCall] at hc
    omega

theorem Halved.call {timeout : Bool} {value : Option Bool} (h : Halved c m u)
    (hstep : u.CallStep udcName timeout u' value) : Halved c m u' := by
  cases hstep with
  | add pc =>
    have hne : u.calls ≠ c := fun hc => h.registered hc pc
    exact ⟨h.past, fun hc => absurd hc hne, fun hc => absurd hc hne⟩
  | enable pc => exact h.frame rfl (fun _ => by simp) rfl rfl fun hw => ⟨.inl pc, hw.2⟩
  | ready pc | timedOut pc => exact h.frame rfl (fun _ => by simp) rfl rfl (by simp [Usb.Waiting])

/-- An event starts the next pass: half of the expired handlers will be left. -/
theorem Halved.uevent {env : UeventEnv} (h : Halved c m u) (hstep : u.receive env = some u') :
    Halved c (m / 2) u' := by
  obtain ⟨hidle, rfl⟩ := Usb.receive_eq hstep
  refine ⟨h.past, h.registered, fun hc hwaiting =>
    ⟨by simp [MonitorPc.held?], by simp, fun _ => ?_⟩⟩
  have hleaves := (h.halving hc hwaiting).leaves (by rw [hidle]; rfl)
  simp only [Usb.leaves, hidle] at hleaves
  simp only [Usb.leaves, ListCursor.start, List.length_nil, hleaves, Nat.zero_add]
  split
  next hnil => simp [hnil] at hleaves; omega
  next => rfl

theorem Halved.monitor (h : Halved c m u) (hl : Listed u) (hstep : u.MonitorStep udcName u') :
    Halved c m u' := by
  obtain ⟨hcall, hcalls, -⟩ := hstep.frame
  refine ⟨hcalls ▸ h.past, fun hc => hcall ▸ h.registered (hcalls ▸ hc), fun hc hwaiting' => ?_⟩
  have hwaiting : u.Waiting := by
    refine ⟨hcall ▸ hwaiting'.1, ?_⟩
    by_contra hset
    have hset' := hstep.keeps hset
    rw [← hcalls] at hset'
    exact hset' hwaiting'.2
  exact (h.halving (hcalls ▸ hc) hwaiting).monitor hl (hcalls ▸ hc) hwaiting hwaiting' hstep

theorem Halved.step {a : UsbAction} (h : Halved c m u) (hl : Listed u)
    (hstep : u.Step udcName a u') : Halved c (if a.isUevent then m / 2 else m) u' := by
  cases hstep with
  | begin => exact h.begin
  | call timeout u' value call => exact h.call call
  | disable name => exact h.frame rfl h.registered rfl rfl id
  | uevent env u' received => exact h.uevent received
  | monitor u' step => exact h.monitor hl (Usb.monitorStep_cases step)

end halving

section runs
variable {udcName : Bytes} {w : Watch}

/-- Between passes every handler but the last is expired. -/
theorem Listed.expired_length {u : Usb} (hl : Listed u) (hwaiting : u.Waiting)
    (hidle : u.monitor = .idle) : u.leaves = u.expired.length := by
  obtain ⟨olds, holds⟩ := List.getLast?_eq_some_iff.mp (hl.last hwaiting)
  rw [hl.expired_eq hwaiting holds]
  simp [Usb.leaves, hidle, holds]

theorem Halved.start {u : Usb} (hl : Listed u) (hwaiting : u.Waiting) (hidle : u.monitor = .idle) :
    Halved u.calls u.expired.length u where
  past := le_rfl
  registered _ := by
    obtain ⟨hcall, -⟩ := hwaiting
    cases hcall with
    | inl henable => simp [henable]
    | inr hwait => simp [hwait]
  halving _ _ := by
    refine ⟨fun k hk => ?_, fun env henv => ?_, fun _ => hl.expired_length hwaiting hidle⟩
    · rw [hidle] at hk
      cases hk
    · rw [hidle] at henv
      cases henv

theorem Halved.run {c m : Nat} {as : List UsbAction} (h : Halved c m w.usb)
    (hw : Watched udcName w) (hl : (watched udcName).Legal w as) :
    Halved c (m / 2 ^ as.countP UsbAction.isUevent) ((watched udcName).after w as).usb := by
  induction as generalizing w m with
  | nil => simpa [after] using h
  | cons a as ih =>
    have hstep := GuardedSystem.ofStep_effect hl.1
    change w.step udcName a = some ((watched udcName).effect w a) at hstep
    have hnext := hw.step hstep
    obtain ⟨usb, husb, heq⟩ := Watch.step_cases hstep
    have hhalved :
        Halved c (if a.isUevent then m / 2 else m) ((watched udcName).effect w a).usb := by
      rw [heq]
      exact h.step hw.listed husb
    have hrest := ih hhalved hnext hl.2
    rw [List.countP_cons]
    cases hevent : a.isUevent with
    | true =>
      rw [hevent, if_pos rfl, Nat.div_div_eq_div_mul, ← Nat.pow_succ'] at hrest
      exact hrest
    | false =>
      rw [hevent] at hrest
      exact hrest

/-- A start event that meets an even number of expired handlers, and the pass behind it. -/
theorem served_next {env : UeventEnv} (hw : Watched udcName w)
    (heven : EvenExpired w (.uevent env)) {n : Nat}
    (hl : (watched udcName).Legal w (.uevent env :: List.replicate n .monitor)) :
    Served udcName
      ((watched udcName).after w (.uevent env :: List.replicate n .monitor)) := by
  have hstep := GuardedSystem.ofStep_effect hl.1
  change w.step udcName (.uevent env) = some ((watched udcName).effect w (.uevent env)) at hstep
  have hcourse : OnCourse udcName ((watched udcName).effect w (.uevent env)) := by
    refine ⟨hw.step hstep, ?_⟩
    obtain ⟨usb, husb, heq⟩ := Watch.step_cases hstep
    cases husb with
    | uevent env u' received =>
      obtain ⟨-, rfl⟩ := Usb.receive_eq received
      intro k hk
      rw [heq] at hk ⊢
      simp only [Watch.dueAfter, Option.ite_none_right_eq_some, Option.some.injEq] at hk
      obtain ⟨⟨hstart, hwaiting⟩, rfl⟩ := hk
      obtain ⟨olds, holds⟩ := List.getLast?_eq_some_iff.mp (hw.listed.last hwaiting)
      have heven' : Even olds.length :=
        hw.listed.expired_eq hwaiting holds ▸ heven hstart hwaiting
      exact .inr (.inr ⟨rfl, env, olds, ⟨hwaiting, hstart, holds⟩, .inl ⟨rfl, heven'⟩⟩)
  have hmonitor : (watched udcName).Meets EvenExpired ((watched udcName).effect w (.uevent env))
      (List.replicate n .monitor) := by
    apply (GuardedSystem.meets_iff_prefix _ _).mpr
    intro before a hbefore
    have ha : a = .monitor := List.eq_of_mem_replicate (hbefore.subset (by simp))
    subst ha
    trivial
  have hend : OnCourse udcName ((watched udcName).after ((watched udcName).effect w (.uevent env))
      (List.replicate n .monitor)) := by
    refine GuardedSystem.invariant ?_ hcourse hl.2 hmonitor
    intro w a h hguard hok
    exact h.step hok (GuardedSystem.ofStep_effect hguard)
  exact hend.served

theorem uevent_enabled (hw : Watched udcName w) (hidle : w.usb.monitor = .idle)
    (env : UeventEnv) : ∃ w', w.step udcName (.uevent env) = some w' := by
  have hreceived : w.usb.receive env = some
      { w.usb with handlers := ListCursor.start w.usb.handlers.toList, monitor := .check env } := by
    simp [Usb.receive, hidle]
  have husb : w.usb.Step udcName (.uevent env) _ := .uevent env _ hreceived
  exact ⟨_, Watch.step_of_usb (husb.enabled hw.listed.running)⟩

end runs

/-- A call waits, between two passes, before e expired handlers. After n more events, started
or not, whatever else happened meanwhile, and the call still waiting, e / 2 ^ n of them are
left, and the next start event is served exactly if the binary digit n of e is zero. -/
theorem starts_recovered (udcName : Bytes) (pre post : List UsbAction) (env : UeventEnv)
    (hlegal : (watched udcName).Legal watchStart (pre ++ post))
    (hbefore : ((watched udcName).after watchStart pre).usb.Waiting ∧
      ((watched udcName).after watchStart pre).usb.monitor = .idle)
    (hafter : ((watched udcName).after watchStart (pre ++ post)).usb.Waiting ∧
      ((watched udcName).after watchStart (pre ++ post)).usb.monitor = .idle)
    (hsame : ((watched udcName).after watchStart (pre ++ post)).usb.calls =
      ((watched udcName).after watchStart pre).usb.calls) (hstart : starts env) :
    let e := ((watched udcName).after watchStart pre).usb.expired.length
    let n := post.countP UsbAction.isUevent
    let w := (watched udcName).after watchStart (pre ++ post)
    w.usb.expired.length = e / 2 ^ n ∧
      ((∀ m, (watched udcName).Legal w (.uevent env :: List.replicate m .monitor) →
          Served udcName ((watched udcName).after w (.uevent env :: List.replicate m .monitor))) ↔
        e.testBit n = false) := by
  intro e n w
  obtain ⟨hpre, hpost⟩ := (legal_append _ _ _).mp hlegal
  have hw₀ := Watched.run hpre
  have hw : Watched udcName w := Watched.run hlegal
  have hhalved := (Halved.start hw₀.listed hbefore.1 hbefore.2).run hw₀ hpost
  rw [← after_append] at hhalved
  have hhalving := hhalved.halving hsame hafter.1
  have hleft : w.usb.expired.length = e / 2 ^ n := by
    rw [← hw.listed.expired_length hafter.1 hafter.2]
    exact hhalving.leaves (by rw [hafter.2]; rfl)
  have hbit : e.testBit n = false ↔ Even w.usb.expired.length := by
    rw [hleft, Nat.testBit_eq_decide_div_mod_eq, decide_eq_false_iff_not, Nat.even_iff]
    omega
  refine ⟨hleft, ?_⟩
  rw [hbit]
  constructor
  · intro hserved
    by_contra hodd
    have hmissed : ¬ EvenExpired w (.uevent env) := fun heven => hodd (heven hstart hafter.1)
    obtain ⟨w', hw'⟩ := uevent_enabled hw hafter.2 env
    obtain ⟨m, hlegal', hunserved⟩ := (Lost.of_odd hw hmissed hw').unserved
    obtain ⟨hguard, heffect⟩ : (watched udcName).guard w (.uevent env) ∧
        (watched udcName).effect w (.uevent env) = w' := GuardedSystem.ofStep_some hw'
    have hend := hserved m ⟨hguard, heffect ▸ hlegal'⟩
    change Served udcName ((watched udcName).after ((watched udcName).effect w (.uevent env)) _)
      at hend
    rw [heffect] at hend
    exact hunserved hend
  · intro heven m hm
    exact served_next hw (fun _ _ => heven) hm

/-- The handlers of three calls that timed out are in the list when a fourth call waits. -/
def afterThreeTimeouts : List UsbAction :=
  (List.replicate 3 [UsbAction.begin, .call true, .call true, .call true]).flatten ++
    [.begin, .call true, .call true]

/-- Two start events that the fourth call loses, with their passes. -/
def lostStarts : List UsbAction :=
  .uevent startEvent :: List.replicate 5 .monitor ++ .uevent startEvent :: List.replicate 3 .monitor

/-- Of three expired handlers one start event takes two, the second one the last. -/
theorem starts_recovered_third :
    ((watched (bytes "dwc3")).after watchStart
      (afterThreeTimeouts ++ lostStarts)).usb.expired.length = 3 / 2 ^ 2 := by
  have hexpired :
      ((watched (bytes "dwc3")).after watchStart afterThreeTimeouts).usb.expired.length = 3 := by
    decide +kernel
  have h := (starts_recovered (bytes "dwc3") afterThreeTimeouts lostStarts startEvent
    (by decide +kernel) (by decide +kernel) (by decide +kernel) (by decide +kernel)
    (by decide)).1
  rw [hexpired] at h
  exact h

end Aawgd
