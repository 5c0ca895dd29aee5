import Aawgd.AccessoryCalls
import Aawgd.UeventDispatch
import Aawgd.UeventParse

/-! The whole of `monitorLoop`: what a sequence of netlink reads comes to, with the array that
is used for all of them; and the monitor thread of the USB manager, step by step, against it. -/
namespace Aawgd
open CString GuardedSystem

/-- What a read of the netlink socket answers. -/
inductive NetlinkRead where
  | failed
  | received (datagram : Bytes) (fits : datagram.length ≤ netlinkMsgSize)

/-- The array `msg`, the handlers, and all that these may change. -/
structure UeventMonitor (η σ : Type) where
  msg : Nat → UInt8
  handlers : List η
  world : σ

section loop
variable {η σ : Type} (handler : UeventEnv → η → σ → Bool × η × σ)

/-- One round of `monitorLoop`. The parser is given one round for each byte received. -/
def monitorRound (m : UeventMonitor η σ) : NetlinkRead → UeventMonitor η σ
  | .failed => m
  | .received datagram _ =>
    if datagram.length = 0 then m
    else
      let msg := messageArray m.msg datagram
      match (look msg (parseLoop datagram.length datagram.length 0 [])).value with
      | none => { m with msg := msg }
      | some envMap =>
        let (handlers, world) := dispatch (handler envMap) m.handlers m.world
        ⟨msg, handlers, world⟩

def monitorLoop (m : UeventMonitor η σ) (reads : List NetlinkRead) : UeventMonitor η σ :=
  reads.foldl (monitorRound handler) m

/-- The event of a read. -/
def NetlinkRead.event? : NetlinkRead → Option UeventEnv
  | .failed => none
  | .received datagram _ => if datagram = [] then none else some (environment datagram)

/-- The handlers and the world after an event. -/
def afterEvent (p : List η × σ) (envMap : UeventEnv) : List η × σ :=
  dispatch (handler envMap) p.1 p.2

theorem parsed (old : Nat → UInt8) {datagram : Bytes} (h : datagram.length ≤ netlinkMsgSize) :
    (look (messageArray old datagram) (parseLoop datagram.length datagram.length 0 [])).value =
      some (environment datagram) :=
  (parseLoop_looks [] (messageArray_holds old datagram) (Nat.zero_add _) h le_rfl).value

theorem monitorRound_eq (m : UeventMonitor η σ) (r : NetlinkRead) :
    ((monitorRound handler m r).handlers, (monitorRound handler m r).world) =
      (r.event?.toList).foldl (afterEvent handler) (m.handlers, m.world) := by
  cases r with
  | failed => rfl
  | received datagram fits =>
    by_cases hempty : datagram = []
    · simp [monitorRound, NetlinkRead.event?, hempty]
    · have hlen : datagram.length ≠ 0 := fun h => hempty (List.length_eq_zero_iff.mp h)
      simp [monitorRound, NetlinkRead.event?, hempty, hlen, parsed m.msg fits, afterEvent]

/-- Whatever the array held at first, and whatever earlier messages left in it: the loop
calls the handlers for the environments of the nonempty datagrams, one after another, and for
nothing else. -/
theorem monitorLoop_reads (old : Nat → UInt8) (handlers : List η) (world : σ)
    (reads : List NetlinkRead) :
    ((monitorLoop handler ⟨old, handlers, world⟩ reads).handlers,
        (monitorLoop handler ⟨old, handlers, world⟩ reads).world) =
      (reads.filterMap NetlinkRead.event?).foldl (afterEvent handler) (handlers, world) := by
  induction reads generalizing old handlers world with
  | nil => rfl
  | cons r reads ih =>
    obtain ⟨msg, hs, w, hround⟩ : ∃ msg hs w,
        monitorRound handler ⟨old, handlers, world⟩ r = ⟨msg, hs, w⟩ := ⟨_, _, _, rfl⟩
    have hone := monitorRound_eq handler ⟨old, handlers, world⟩ r
    have hrest := ih msg hs w
    rw [hround] at hone
    change ((monitorLoop handler (monitorRound handler _ r) reads).handlers,
      (monitorLoop handler (monitorRound handler _ r) reads).world) = _
    rw [hround, hrest, hone]
    cases hevent : r.event? with
    | none => simp [hevent]
    | some envMap => simp [hevent]

end loop

/-! The monitor thread of the USB manager -/

/-- The handler of a call of `enableDefaultAndWaitForAccessory`, run in one go. -/
def usbHandler (udcName : Bytes) (envMap : UeventEnv) (k : Nat) (u : Usb) : Bool × Nat × Usb :=
  match accessoryHandler (u.alive k) envMap with
  | .expired => (true, k, u)
  | .ignored => (false, k, u)
  | .accepted => (true, k, ((u.disableGadget .default).enableGadget udcName .accessory).setValue k)

def usbManager (udcName : Bytes) : GuardedSystem Usb UsbAction :=
  .ofStep Usb.start (Usb.step udcName)

instance decidableUsbGuard (udcName : Bytes) (u : Usb) (a : UsbAction) :
    Decidable ((usbManager udcName).guard u a) := GuardedSystem.decidableGuardOfStep _ _ u a

/-- At an element of the list, with the rest of the manager as it is in s. -/
def Usb.atCheck (s : Usb) (c : ListCursor Nat) (envMap : UeventEnv) : Usb :=
  { s with handlers := c, monitor := .check envMap }

/-- Between two passes. -/
def Usb.atRest (s : Usb) (c : ListCursor Nat) : Usb := { s with handlers := c, monitor := .idle }

/-- What the monitor thread does by itself. -/
def UsbAction.ofMonitor : UsbAction → Bool
  | .uevent _ | .monitor => true
  | .begin | .call _ | .disable _ => false

def UsbAction.received? : UsbAction → Option UeventEnv
  | .uevent envMap => some envMap
  | _ => none

section thread
variable {udcName : Bytes} {envMap : UeventEnv}

theorem Listed.run {u : Usb} {as : List UsbAction} (h : Listed u)
    (hl : (usbManager udcName).Legal u as) : Listed ((usbManager udcName).after u as) :=
  invariant_all (fun _ _ hu hg => hu.step (Usb.step_cases (GuardedSystem.ofStep_effect hg))) h hl

/-- Steps of the monitor thread with nothing in between. -/
def Alone (udcName : Bytes) (u u' : Usb) : Prop :=
  ∃ n, (usbManager udcName).Legal u (List.replicate n .monitor) ∧
    (usbManager udcName).after u (List.replicate n .monitor) = u'

theorem Alone.step {u u₁ u' : Usb} (hl : Listed u) (hstep : u.monitorStep udcName = some u₁)
    (hrest : Listed u₁ → Alone udcName u₁ u') : Alone udcName u u' := by
  have husb : u.Step udcName .monitor u₁ := .monitor u₁ hstep
  obtain ⟨hguard, heffect⟩ : (usbManager udcName).guard u .monitor ∧
      (usbManager udcName).effect u .monitor = u₁ :=
    GuardedSystem.ofStep_some (husb.enabled hl.running)
  obtain ⟨n, hlegal, hafter⟩ := hrest (hl.step husb)
  refine ⟨n + 1, ⟨hguard, ?_⟩, ?_⟩
  · rw [heffect]
    exact hlegal
  · rw [List.replicate_succ, after, heffect]
    exact hafter

theorem atCheck_step (udcName : Bytes) (envMap : UeventEnv) (s : Usb) (before : List Nat) (k : Nat)
    (after : List Nat) : (s.atCheck ⟨before, k :: after⟩ envMap).monitorStep udcName =
      some (match accessoryHandler (s.alive k) envMap with
        | .expired => { s with handlers := ⟨before, after⟩, monitor := .advance envMap }
        | .ignored => { s with handlers := ⟨before, k :: after⟩, monitor := .advance envMap }
        | .accepted =>
          { s with handlers := ⟨before, k :: after⟩, monitor := .release envMap k }) := by
  have halive : (s.atCheck ⟨before, k :: after⟩ envMap).alive k = s.alive k := rfl
  simp only [Usb.monitorStep, Usb.atCheck] at halive ⊢
  rw [halive]
  cases accessoryHandler (s.alive k) envMap <;> rfl

/-- From an element on, the thread does what the loop does with the handlers run in one go. -/
theorem thread_passFrom (udcName : Bytes) (c : ListCursor Nat) (s : Usb)
    (hl : Listed (s.atCheck c envMap)) : Alone udcName (s.atCheck c envMap)
      ((dispatchFrom (usbHandler udcName envMap) c s).2.atRest
        ⟨(dispatchFrom (usbHandler udcName envMap) c s).1, []⟩) := by
  induction c, s using dispatchFrom.induct (usbHandler udcName envMap) with
  | case1 s before =>
    rw [dispatchFrom]
    exact .step hl rfl fun _ => ⟨0, trivial, rfl⟩
  | case2 s before k after k' s' hr ih =>
    rw [dispatchFrom_done hr]
    have hcheck := atCheck_step udcName envMap s before k after
    cases hverdict : accessoryHandler (s.alive k) envMap with
    | expired =>
      simp only [usbHandler, hverdict, Prod.mk.injEq] at hr
      obtain ⟨-, rfl, rfl⟩ := hr
      rw [hverdict] at hcheck
      exact .step hl hcheck fun hl₁ => .step hl₁ rfl fun hl₂ => ih hl₂
    | ignored => simp [usbHandler, hverdict] at hr
    | accepted =>
      simp only [usbHandler, hverdict, Prod.mk.injEq] at hr
      obtain ⟨-, rfl, rfl⟩ := hr
      rw [hverdict] at hcheck
      -- the default gadget goes, the accessory gadget comes, then the promise is set
      exact .step hl hcheck fun hl₁ => .step hl₁ rfl fun hl₂ => .step hl₂ rfl fun hl₃ =>
        .step hl₃ rfl fun hl₄ => .step hl₄ rfl fun hl₅ => ih hl₅
  | case3 s before k after k' s' hr ih =>
    rw [dispatchFrom_kept hr]
    have hcheck := atCheck_step udcName envMap s before k after
    cases hverdict : accessoryHandler (s.alive k) envMap with
    | expired | accepted => simp [usbHandler, hverdict] at hr
    | ignored =>
      simp only [usbHandler, hverdict, Prod.mk.injEq] at hr
      obtain ⟨-, rfl, rfl⟩ := hr
      rw [hverdict] at hcheck
      exact .step hl hcheck fun hl₁ => .step hl₁ rfl fun hl₂ => ih hl₂

/-- One event after another, each dispatched before the next is read. -/
theorem thread_events (udcName : Bytes) {s : Usb} {c : ListCursor Nat} (hl : Listed (s.atRest c))
    (events : List UeventEnv) :
    let p := events.foldl (afterEvent (usbHandler udcName)) (c.toList, s)
    ∃ as c', (usbManager udcName).Legal (s.atRest c) as ∧ (∀ a ∈ as, a.ofMonitor = true) ∧
      as.filterMap UsbAction.received? = events ∧
      (usbManager udcName).after (s.atRest c) as = p.2.atRest c' ∧ c'.toList = p.1 := by
  induction events generalizing s c with
  | nil => exact ⟨[], c, trivial, by simp, rfl, rfl, rfl⟩
  | cons envMap events ih =>
    have hread : (s.atRest c).Step udcName (.uevent envMap) (s.atCheck (.start c.toList) envMap) :=
      .uevent envMap _ rfl
    obtain ⟨hguard, heffect⟩ : (usbManager udcName).guard (s.atRest c) (.uevent envMap) ∧
        (usbManager udcName).effect (s.atRest c) (.uevent envMap) =
          s.atCheck (.start c.toList) envMap :=
      GuardedSystem.ofStep_some (hread.enabled hl.running)
    have hlcheck := hl.step hread
    obtain ⟨n, hlegal, hafter⟩ := thread_passFrom udcName (.start c.toList) s hlcheck
    have hlrest := hlcheck.run hlegal
    rw [hafter] at hlrest
    obtain ⟨as, c', hlegal', hactions, hreceived, hend, hlist⟩ := ih hlrest
    refine ⟨.uevent envMap :: (List.replicate n .monitor ++ as), c', ⟨hguard, ?_⟩, ?_, ?_, ?_, ?_⟩
    · rw [heffect, legal_append, hafter]
      exact ⟨hlegal, hlegal'⟩
    · intro a ha
      simp only [List.mem_cons, List.mem_append, List.mem_replicate] at ha
      obtain rfl | ⟨-, rfl⟩ | ha := ha
      · rfl
      · rfl
      · exact hactions a ha
    · have hquiet : (List.replicate n UsbAction.monitor).filterMap UsbAction.received? = [] := by
        simp [UsbAction.received?]
      change envMap :: (List.replicate n UsbAction.monitor ++ as).filterMap _ = _
      rw [List.filterMap_append, hquiet, hreceived, List.nil_append]
    · change (usbManager udcName).after ((usbManager udcName).effect _ (.uevent envMap)) _ = _
      rw [heffect, after_append, hafter, hend, ListCursor.toList, List.append_nil]
      rfl
    · rw [hlist, ListCursor.toList, List.append_nil]
      rfl

end thread

/-- The monitor thread, left to itself in any state that it is idle in, dispatches what it
reads as `monitorLoop` does with handlers run in one go: at the end the handlers that are
left, the gadgets, the promises and the calls are the same. -/
theorem monitor_thread_loop (udcName : Bytes) (old : Nat → UInt8) (pre : List UsbAction)
    (hpre : (usbManager udcName).Legal Usb.start pre)
    (hidle : ((usbManager udcName).after Usb.start pre).monitor = .idle)
    (reads : List NetlinkRead) :
    let u := (usbManager udcName).after Usb.start pre
    let m := monitorLoop (usbHandler udcName) ⟨old, u.handlers.toList, u⟩ reads
    ∃ as c, (usbManager udcName).Legal u as ∧ (∀ a ∈ as, a.ofMonitor = true) ∧
      as.filterMap UsbAction.received? = reads.filterMap NetlinkRead.event? ∧
      (usbManager udcName).after u as = m.world.atRest c ∧ c.toList = m.handlers := by
  intro u m
  have hl : Listed u := Listed.start.run hpre
  have hu : u.atRest u.handlers = u := by
    unfold Usb.atRest
    rw [← hidle]
  have hloop : (m.handlers, m.world) = _ :=
    monitorLoop_reads (usbHandler udcName) old u.handlers.toList u reads
  obtain ⟨hhandlers, hworld⟩ := Prod.mk.inj hloop
  rw [← hu] at hl
  obtain ⟨as, c, hlegal, hactions, hreceived, hend, hlist⟩ :=
    thread_events udcName hl (reads.filterMap NetlinkRead.event?)
  rw [hu] at hlegal hend
  refine ⟨as, c, hlegal, hactions, hreceived, ?_, ?_⟩
  · rw [hend, hworld]
  · rw [hlist, hhandlers]

/-- The call has registered its handler and waits. -/
def waitingCall : List UsbAction := [.begin, .call true, .call true]

/-- A failed read, then the start event. -/
theorem monitor_thread_loop_start : ∃ as, (usbManager (bytes "dwc3")).Legal
      ((usbManager (bytes "dwc3")).after Usb.start waitingCall) as ∧
    as.filterMap UsbAction.received? =
      [environment (encodeEnvironment startHeader startEvent)] := by
  have hfits : (encodeEnvironment startHeader startEvent).length ≤ netlinkMsgSize := by decide
  obtain ⟨as, c, hlegal, -, hreceived, -⟩ := monitor_thread_loop (bytes "dwc3") (fun _ => 0)
    waitingCall (by decide) (by decide) [.failed, .received _ hfits]
  exact ⟨as, hlegal, hreceived⟩

end Aawgd
