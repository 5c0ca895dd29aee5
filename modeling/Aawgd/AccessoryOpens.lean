import Aawgd.DaemonCleanup
import Mathlib.Data.List.DropRight

/-! What has happened, in its session, before the accessory device is opened. -/
namespace Aawgd

/-- What the threads do with the accessory, and the marks between sessions. In `handled` the
handler of call k runs on a dispatched uevent, and in `switched` its switch is complete;
`disabled` is a write of `disableGadget` by `main`. -/
inductive AccessoryEvent where
  | received (env : UeventEnv)
  | registered (k : Nat)
  | handled (k : Nat) (env : UeventEnv)
  | switched (k : Nat)
  | opened | closed
  | disabled
  | nextIteration
  deriving DecidableEq

def Usb.callEvents (u : Usb) : List AccessoryEvent :=
  match u.call with
  | .add => [.registered u.calls]
  | _ => []

def Usb.monitorEvents (u : Usb) : List AccessoryEvent :=
  match u.monitor with
  | .check env => u.handlers.after.head?.toList.map fun k => .handled k env
  | .engage _ k => [.switched k]
  | _ => []

def Daemon.mainEvents (s : Daemon) : List AccessoryEvent :=
  match s.main with
  | .waiting => s.usb.callEvents
  | .disableDefault | .disableAccessory => [.disabled]
  | .pause => [.nextIteration]
  | _ => []

/-- The device is opened, and `handleClient` is done with it when an error or the end of
the forwarding makes it return. -/
def Daemon.proxyEvents (ok : Bool) (s : Daemon) : List AccessoryEvent :=
  match s.proxy with
  | .waiting => s.usb.callEvents
  | .openUsb => if ok = true then [.opened] else [.opened, .closed]
  | .configure => if ok = true then [] else [.closed]
  | .forwarding => [.closed]
  | _ => []

def accessoryEvents (s : Daemon) : DaemonAction → List AccessoryEvent
  | .main _ => s.mainEvents
  | .proxy ok => s.proxyEvents ok
  | .retry => []
  | .uevent env => [.received env]
  | .monitor => s.usb.monitorEvents

/-- Neither a write of `disableGadget` nor the end of an iteration. -/
def AccessoryEvent.within : AccessoryEvent → Bool
  | .disabled | .nextIteration => false
  | _ => true

/-- The log since the gadgets were last disabled or the iteration began. -/
def sinceCleanup (log : List AccessoryEvent) : List AccessoryEvent :=
  log.rtakeWhile AccessoryEvent.within

/-- The car has started the accessory: one event has been read and, since the last cleanup,
those of es have happened in order. -/
structure StartedBy (es : List AccessoryEvent) (env : UeventEnv) (log : List AccessoryEvent) :
    Prop where
  ordered : es.Sublist (sinceCleanup log)
  event : starts env
  received : .received env ∈ log

section log
variable {log out es : List AccessoryEvent} {env : UeventEnv} {e : AccessoryEvent}

theorem sinceCleanup_append (hout : ∀ e ∈ out, e.within = true) :
    sinceCleanup (log ++ out) = sinceCleanup log ++ out := by
  induction out generalizing log with
  | nil => simp
  | cons e out ih =>
    have hfirst : sinceCleanup (log ++ [e]) = sinceCleanup log ++ [e] :=
      List.rtakeWhile_concat_pos _ _ _ (hout e (by simp))
    rw [List.append_cons, ih fun e he => hout e (List.mem_cons_of_mem _ he), hfirst,
      ← List.append_cons]

theorem StartedBy.keep (h : StartedBy es env log) (hout : ∀ e ∈ out, e.within = true) :
    StartedBy es env (log ++ out) where
  ordered := by
    rw [sinceCleanup_append hout]
    exact h.ordered.trans (List.sublist_append_left _ _)
  event := h.event
  received := List.mem_append_left _ h.received

theorem StartedBy.next (h : StartedBy es env log) (he : e.within = true) :
    StartedBy (es ++ [e]) env (log ++ [e]) where
  ordered := by
    rw [sinceCleanup_append (by simpa using he)]
    exact h.ordered.append (List.Sublist.refl _)
  event := h.event
  received := List.mem_append_left _ h.received

end log

/-- The handler of call k, registered, run on a START event, and through with its switch. -/
def switchOf (k : Nat) (env : UeventEnv) : List AccessoryEvent :=
  [.registered k, .handled k env, .switched k]

/-- The event the monitor thread is at. -/
def MonitorPc.event? : MonitorPc → Option UeventEnv
  | .idle => none
  | .check env | .advance env | .release env _ | .engage env _ | .fulfil env _ => some env

/-- What the log shows for the place of the call and of the handler that serves it. -/
structure Witnessed (log : List AccessoryEvent) (u : Usb) : Prop where
  reading : ∀ env, u.monitor.event? = some env → .received env ∈ log
  registered : u.call = .enable ∨ u.call = .wait →
    [AccessoryEvent.registered u.calls].Sublist (sinceCleanup log)
  held : u.call ≠ .idle → ∀ env, u.monitor = .release env u.calls ∨ u.monitor = .engage env u.calls →
    StartedBy [.registered u.calls, .handled u.calls env] env log
  fulfilling : u.call ≠ .idle → ∀ env, u.monitor = .fulfil env u.calls →
    StartedBy (switchOf u.calls env) env log
  satisfied : u.call ≠ .idle → u.setCalls u.calls ≠ 0 →
    ∃ env, StartedBy (switchOf u.calls env) env log

section usb
variable {udcName : Bytes} {log out : List AccessoryEvent} {u u' : Usb}

theorem Witnessed.keep (h : Witnessed log u) (hout : ∀ e ∈ out, e.within = true) :
    Witnessed (log ++ out) u where
  reading env he := List.mem_append_left _ (h.reading env he)
  registered hc := by
    rw [sinceCleanup_append hout]
    exact (h.registered hc).trans (List.sublist_append_left _ _)
  held hc env hm := (h.held hc env hm).keep hout
  fulfilling hc env hm := (h.fulfilling hc env hm).keep hout
  satisfied hc hs := by
    obtain ⟨env, henv⟩ := h.satisfied hc hs
    exact ⟨env, henv.keep hout⟩

theorem Witnessed.note (h : Witnessed log u) (e : AccessoryEvent) (he : e.within = true) :
    Witnessed (log ++ [e]) u := h.keep (by simpa using he)

/-- With no call running only the event that is being handled counts. -/
theorem Witnessed.rest (h : Witnessed log u) (hidle : u'.call = .idle)
    (hmonitor : u'.monitor = u.monitor) : Witnessed (log ++ out) u' where
  reading env he := List.mem_append_left _ (h.reading env (hmonitor ▸ he))
  registered hc := by simp [hidle] at hc
  held hc := absurd hidle hc
  fulfilling hc := absurd hidle hc
  satisfied hc := absurd hidle hc

theorem Witnessed.begin (h : Witnessed log u) (hh : Handled u) : Witnessed log u.beginCall where
  reading := h.reading
  registered hc := by simp [Usb.beginCall] at hc
  held _ env hm := by
    have hheld : u.monitor.held? = some (u.calls + 1) := by
      change u.monitor = .release env (u.calls + 1) ∨ u.monitor = .engage env (u.calls + 1) at hm
      cases hm with
      | inl hm => rw [hm, MonitorPc.held?]
      | inr hm => rw [hm, MonitorPc.held?]
    exact absurd hheld (hh.begin.fresh rfl).2
  fulfilling _ env hm := by
    have hheld : u.monitor.held? = some (u.calls + 1) := by
      change u.monitor = .fulfil env (u.calls + 1) at hm
      rw [hm, MonitorPc.held?]
    exact absurd hheld (hh.begin.fresh rfl).2
  satisfied _ hs := absurd (hh.begin.fresh rfl).1 hs

theorem Witnessed.call {timeout : Bool} {value : Option Bool} (h : Witnessed log u)
    (hstep : u.CallStep udcName timeout u' value) : Witnessed (log ++ u.callEvents) u' := by
  have hrunning := hstep.running
  cases hstep with
  | add pc =>
    have hevents : u.callEvents = [.registered u.calls] := by rw [Usb.callEvents, pc]
    rw [hevents]
    have hkept := h.note (.registered u.calls) rfl
    refine ⟨hkept.reading, fun _ => ?_, fun _ => hkept.held hrunning,
      fun _ => hkept.fulfilling hrunning, fun _ => hkept.satisfied hrunning⟩
    rw [sinceCleanup_append (by simp [AccessoryEvent.within])]
    exact List.sublist_append_right _ _
  | enable pc =>
    have hevents : u.callEvents = [] := by rw [Usb.callEvents, pc]
    rw [hevents, List.append_nil]
    exact ⟨h.reading, fun _ => h.registered (.inl pc), fun _ => h.held hrunning,
      fun _ => h.fulfilling hrunning, fun _ => h.satisfied hrunning⟩
  | ready pc | timedOut pc => exact h.rest rfl rfl

theorem Witnessed.receive {env : UeventEnv} (h : Witnessed log u) (hstep : u.receive env = some u') :
    Witnessed (log ++ [.received env]) u' := by
  obtain ⟨-, rfl⟩ := Usb.receive_eq hstep
  have hkept := h.note (.received env) rfl
  refine ⟨fun env' he => ?_, hkept.registered, nofun, nofun, hkept.satisfied⟩
  cases he
  simp

/-- The monitor walks on with no promise locked. -/
theorem Witnessed.walk (h : Witnessed log u) (hout : ∀ e ∈ out, e.within = true)
    {handlers : ListCursor Nat} {monitor : MonitorPc}
    (hevent : ∀ env, monitor.event? = some env → u.monitor.event? = some env)
    (hheld : monitor.held? = none) :
    Witnessed (log ++ out) { u with handlers := handlers, monitor := monitor } where
  reading env he := List.mem_append_left _ (h.reading env (hevent env he))
  registered := (h.keep hout).registered
  held _ env hm := by
    change monitor = .release env u.calls ∨ monitor = .engage env u.calls at hm
    cases hm with
    | inl hm => simp [hm, MonitorPc.held?] at hheld
    | inr hm => simp [hm, MonitorPc.held?] at hheld
  fulfilling _ env hm := by
    change monitor = .fulfil env u.calls at hm
    simp [hm, MonitorPc.held?] at hheld
  satisfied := (h.keep hout).satisfied

/-- The handler of the running call finds its promise alive and the event to be a START. -/
theorem Witnessed.accept {env : UeventEnv} {k : Nat} (h : Witnessed log u) (hh : Handled u)
    (pc : u.monitor = .check env) (hmem : u.handlers.after.head? = some k)
    (hverdict : accessoryHandler (u.alive k) env = .accepted) :
    Witnessed (log ++ [.handled k env]) { u with monitor := .release env k } := by
  have hlocked := Usb.alive_of_accepted hverdict
  obtain ⟨rfl, hrunning⟩ := Usb.alive_iff.mp hlocked
  have hstarts : starts env := by rwa [hlocked] at hverdict
  have hcall : u.call = .enable ∨ u.call = .wait := by
    have hadd : u.call ≠ .add := fun hadd =>
      hh.unregistered hadd (List.mem_append_right _ (List.mem_of_mem_head? hmem))
    cases hc : u.call <;> simp_all
  have hreceived := h.reading env (by rw [pc, MonitorPc.event?])
  have hkept := h.note (.handled u.calls env) rfl
  refine ⟨fun env' he => ?_, hkept.registered, fun _ env' hm => ?_, nofun, hkept.satisfied⟩
  · cases he
    exact List.mem_append_left _ hreceived
  · have henv : env' = env := by simpa [eq_comm] using hm
    subst henv
    refine ⟨?_, hstarts, List.mem_append_left _ hreceived⟩
    rw [sinceCleanup_append (by simp [AccessoryEvent.within])]
    exact (h.registered hcall).append (List.Sublist.refl _)

/-- The handler's switch is complete. -/
theorem Witnessed.engage {env : UeventEnv} {k : Nat} (h : Witnessed log u)
    (pc : u.monitor = .engage env k) :
    Witnessed (log ++ [.switched k]) { u.enableGadget udcName .accessory with monitor := .fulfil env k } := by
  have hkept := h.note (.switched k) rfl
  refine ⟨fun env' he => ?_, hkept.registered, nofun, fun hc env' hm => ?_, hkept.satisfied⟩
  · cases he
    exact hkept.reading env (by rw [pc, MonitorPc.event?])
  · have hk : env = env' ∧ k = u.calls := by
      simpa [Usb.enableGadget, Usb.writeGadgetFile] using hm
    obtain ⟨rfl, rfl⟩ := hk
    exact (h.held hc env (.inr pc)).next rfl

theorem Witnessed.fulfil {env : UeventEnv} {k : Nat} (h : Witnessed log u)
    (pc : u.monitor = .fulfil env k) {handlers : ListCursor Nat} :
    Witnessed log { u.setValue k with handlers := handlers, monitor := .advance env } := by
  refine ⟨fun env' he => ?_, h.registered, nofun, nofun, fun hc hs => ?_⟩
  · cases he
    exact h.reading env (by rw [pc, MonitorPc.event?])
  · by_cases hk : k = u.calls
    · exact ⟨env, h.fulfilling hc env (hk ▸ pc)⟩
    · have hother : (u.setValue k).setCalls u.calls = u.setCalls u.calls := by
        simp [Usb.setValue, Ne.symm hk]
      exact h.satisfied hc (hother ▸ hs)

theorem monitorEvents_within (u : Usb) : ∀ e ∈ u.monitorEvents, e.within = true := by
  unfold Usb.monitorEvents
  split <;> simp [AccessoryEvent.within]

theorem Witnessed.monitor (h : Witnessed log u) (hh : Handled u) (hstep : u.MonitorStep udcName u') :
    Witnessed (log ++ u.monitorEvents) u' := by
  have hwithin := monitorEvents_within u
  cases hstep with
  | done env pc none => exact h.walk hwithin nofun rfl
  | expired env k pc | ignored env k pc =>
    exact h.walk hwithin (fun _ he => by rw [pc]; exact he) rfl
  | advance env pc => exact h.walk hwithin (fun _ he => by rw [pc]; exact he) rfl
  | accepted env k pc hmem hverdict =>
    have hevents : u.monitorEvents = [.handled k env] := by
      rw [Usb.monitorEvents, pc]
      simp [hmem]
    rw [hevents]
    exact h.accept hh pc hmem hverdict
  | release env k pc =>
    have hevents : u.monitorEvents = [] := by rw [Usb.monitorEvents, pc]
    rw [hevents, List.append_nil]
    refine ⟨fun env' he => ?_, h.registered, fun hc env' hm => ?_, nofun, h.satisfied⟩
    · cases he
      exact h.reading env (by rw [pc, MonitorPc.event?])
    · have hk : env = env' ∧ k = u.calls := by simpa [Usb.disableGadget, Usb.writeGadgetFile] using hm
      obtain ⟨rfl, rfl⟩ := hk
      exact h.held hc env (.inl pc)
  | engage env k pc =>
    have hevents : u.monitorEvents = [.switched k] := by rw [Usb.monitorEvents, pc]
    rw [hevents]
    exact h.engage pc
  | fulfil env k pc =>
    have hevents : u.monitorEvents = [] := by rw [Usb.monitorEvents, pc]
    rw [hevents, List.append_nil]
    exact h.fulfil pc

end usb

/-! In the daemon -/

/-- The wait of this iteration has returned true and the device is still to be opened. -/
def Awaited (u : Setup) (s : Daemon) : Prop :=
  if u.strategy = .usbFirst then
    s.main = .server ∨ s.proxy = .accept ∨ s.proxy = .stop ∨ s.proxy = .openUsb
  else s.proxy = .openUsb

section daemon
variable {u : Setup} {s s' : Daemon} {a : DaemonAction} {log : List AccessoryEvent}

theorem callEvents_within (usb : Usb) : ∀ e ∈ usb.callEvents, e.within = true := by
  unfold Usb.callEvents
  split <;> simp [AccessoryEvent.within]

theorem proxyEvents_within (ok : Bool) : ∀ e ∈ s.proxyEvents ok, e.within = true := by
  unfold Daemon.proxyEvents
  split
  next => exact callEvents_within s.usb
  next => cases ok <;> simp [AccessoryEvent.within]
  next => cases ok <;> simp [AccessoryEvent.within]
  next => simp [AccessoryEvent.within]
  next => simp

/-- `main` cleans up and ends iterations in three statements only. -/
theorem mainEvents_within (hmain : s.main ≠ .disableDefault ∧ s.main ≠ .disableAccessory ∧
    s.main ≠ .pause) : ∀ e ∈ s.mainEvents, e.within = true := by
  unfold Daemon.mainEvents
  split
  next => exact callEvents_within s.usb
  next pc => exact absurd pc hmain.1
  next pc => exact absurd pc hmain.2.1
  next pc => exact absurd pc hmain.2.2
  next => simp

theorem accessoryEvents_within (hmain : s.main ≠ .disableDefault ∧ s.main ≠ .disableAccessory ∧
    s.main ≠ .pause) : ∀ e ∈ accessoryEvents s a, e.within = true := by
  cases a with
  | main ok => exact mainEvents_within hmain
  | proxy ok => exact proxyEvents_within ok
  | retry => simp [accessoryEvents]
  | uevent env => simp [accessoryEvents, AccessoryEvent.within]
  | monitor => exact monitorEvents_within s.usb

/-- Between the end of the proxy thread and the next iteration no call runs. -/
theorem Tidy.resting (ht : Tidy u s) (hserving : ¬ s.main.serving) (hmain : s.main ≠ .waiting) :
    s.usb.call = .idle := by
  by_contra hr
  cases ht.calling.running hr with
  | inl hw => exact hmain hw
  | inr hw =>
    have hidle := ht.retrying.scheduled.idle hserving
    cases hidle.symm.trans hw

theorem Witnessed.step (ht : Tidy u s) (h : Witnessed log s.usb) (hstep : DaemonStep u s a s') :
    Witnessed (log ++ accessoryEvents s a) s'.usb := by
  cases hstep with
  | waitFirst ok pc =>
    have hevents : accessoryEvents s (.main ok) = [] := by simp [accessoryEvents, Daemon.mainEvents, pc]
    rw [hevents, List.append_nil]
    exact h.begin ht.listed.handled
  | proxyBegins ok pc =>
    have hevents : accessoryEvents s (.proxy ok) = [] := by
      simp [accessoryEvents, Daemon.proxyEvents, pc]
    rw [hevents, List.append_nil]
    exact h.begin ht.listed.handled
  | mainWaits ok usb pc call | mainReturns ok usb started pc call =>
    have hevents : accessoryEvents s (.main ok) = s.usb.callEvents := by
      simp [accessoryEvents, Daemon.mainEvents, pc]
    rw [hevents]
    exact h.call (Usb.callStep_cases call)
  | proxyWaits ok usb pc call | proxyReturns ok usb started pc call =>
    have hevents : accessoryEvents s (.proxy ok) = s.usb.callEvents := by
      simp [accessoryEvents, Daemon.proxyEvents, pc]
    rw [hevents]
    exact h.call (Usb.callStep_cases call)
  | disableDefault ok pc | disableAccessory ok pc | pause ok pc =>
    exact h.rest (ht.resting (by simp [pc, MainPc.serving]) (by simp [pc])) rfl
  | uevent env usb received => exact h.receive received
  | monitor usb step => exact h.monitor ht.listed.handled (Usb.monitorStep_cases step)
  | retry => exact h.keep (by simp [accessoryEvents])
  | proxyStop ok | proxyAdvances ok => exact h.keep (proxyEvents_within ok)
  | powered ok bt next pc =>
    refine h.keep (mainEvents_within ?_)
    cases pc with
    | inl pc => simp [pc]
    | inr pc => simp [pc]
  | waitLater ok pc | serve pc | giveUp pc | connect ok pc | joinProxy ok pc | mainStop ok pc
  | joinRetry ok pc => exact h.keep (mainEvents_within (by simp [pc]))

/-- Cleaning up, `main` has no session left to open the device in. -/
theorem Awaited.within (ht : Tidy u s) (h : Awaited u s ∨ s.usb.call ≠ .idle) :
    s.main ≠ .disableDefault ∧ s.main ≠ .disableAccessory ∧ s.main ≠ .pause := by
  by_contra hnot
  have hserving : ¬ s.main.serving := fun hm => hnot (by obtain hm | hm | hm := hm <;> simp [hm])
  have hmain : s.main ≠ .waiting ∧ s.main ≠ .server := by
    constructor
    · exact fun hm => hnot (by simp [hm])
    · exact fun hm => hnot (by simp [hm])
  cases h with
  | inl h =>
    have hidle := ht.retrying.scheduled.idle hserving
    unfold Awaited at h
    split at h <;> simp_all
  | inr h => exact h (ht.resting hserving hmain.1)

/-- Waiting is over for a session before the step, or the step is its end. -/
theorem Awaited.before (ht : Tidy u s) (hstep : DaemonStep u s a s') (h : Awaited u s') :
    Awaited u s ∨ s.usb.call ≠ .idle ∧ s.usb.setCalls s.usb.calls ≠ 0 := by
  have hserving := ht.retrying.scheduled.serving
  have hproxyLater := ht.calling.proxyLater
  cases hstep with
  | mainReturns ok usb started pc call =>
    have hcall := Usb.callStep_cases call
    obtain ⟨-, hvalue, hlimit⟩ := hcall.returned
    exact .inr ⟨hcall.running, hvalue.mp (hlimit.resolve_right nofun)⟩
  | proxyReturns ok usb started pc call =>
    have hcall := Usb.callStep_cases call
    have hstarted : started = true := by simpa [Awaited, hproxyLater (.inr pc)] using h
    exact .inr ⟨hcall.running, hcall.returned.2.1.mp hstarted⟩
  | proxyAdvances ok next pc =>
    left
    by_cases hfirst : u.strategy = .usbFirst
    · simp only [Awaited, hfirst, if_true] at h ⊢
      obtain ⟨pc, rfl⟩ | ⟨pc, rfl⟩ | ⟨pc, rfl⟩ | ⟨pc, rfl⟩ := pc <;> simp_all
    · simp only [Awaited, hfirst, if_false] at h ⊢
      simp [h] at pc
  | joinProxy ok pc =>
    left
    cases hadapter : u.adapter <;> simp [Awaited, hadapter] at h
  | powered ok bt next pc =>
    left
    by_cases hfirst : u.strategy = .usbFirst
    · cases pc <;> simp_all [Awaited]
    · simpa [Awaited, hfirst] using h
  | _ =>
    left
    by_cases hfirst : u.strategy = .usbFirst <;>
      simp_all [Awaited, MainPc.serving, Daemon.beginCall]

/-! While the device is in use -/

/-- `handleClient` has opened the device and is not done with it. -/
def InUse (s : Daemon) : Prop := s.proxy = .configure ∨ s.proxy = .forwarding

theorem daemonStep_proxy {ok : Bool} (h : daemonStep u s (.proxy ok) = some s') :
    s.proxyStep u ok = some s' := by
  unfold daemonStep at h
  split at h
  next => cases h
  next => exact h

theorem proxyStep_opens {ok : Bool} (h : s.proxyStep u ok = some s') (pc : s.proxy = .openUsb)
    (hopen : .closed ∉ s.proxyEvents ok) : InUse s' := by
  cases ok with
  | true =>
    simp only [Daemon.proxyStep, pc, if_true, Option.some.injEq] at h
    subst h
    exact .inl rfl
  | false => simp [Daemon.proxyEvents, pc] at hopen

theorem InUse.proxy {ok : Bool} (h : InUse s) (hstep : s.proxyStep u ok = some s')
    (hopen : .closed ∉ s.proxyEvents ok) : InUse s' := by
  cases h with
  | inl pc =>
    cases ok with
    | true =>
      simp only [Daemon.proxyStep, pc, if_true, Option.some.injEq] at hstep
      subst hstep
      exact .inr rfl
    | false => simp [Daemon.proxyEvents, pc] at hopen
  | inr pc => simp [Daemon.proxyEvents, pc] at hopen

theorem InUse.serving (hs : Scheduled u s.main s.proxy s.stop s.bt.retry) (h : InUse s) :
    s.main.serving := by
  apply hs.serving
  cases h with
  | inl h => simp [h]
  | inr h => simp [h]

/-- As long as the device is in use `main` does not clean up. -/
theorem InUse.undisturbed (hs : Scheduled u s.main s.proxy s.stop s.bt.retry) (h : InUse s) :
    .disabled ∉ accessoryEvents s a := by
  have hwithin : ∀ e ∈ accessoryEvents s a, e.within = true := by
    apply accessoryEvents_within
    obtain hm | hm | hm := h.serving hs <;> simp [hm]
  intro hd
  cases hwithin _ hd

theorem InUse.step (hs : Scheduled u s.main s.proxy s.stop s.bt.retry) (h : InUse s)
    (hstep : daemonStep u s a = some s') (hopen : .closed ∉ accessoryEvents s a) : InUse s' := by
  have hserving := h.serving hs
  have hcases := (daemonStep_cases hstep).2.2
  cases a with
  | proxy ok => exact h.proxy (daemonStep_proxy hstep) hopen
  | retry | uevent | monitor =>
    cases hcases
    exact h
  | main ok =>
    cases hcases with
    | joinProxy ok pc ended => simp [InUse, ended] at h
    | powered | connect => exact h
    | _ => simp_all [MainPc.serving]

/-! The log of a run -/

theorem append_split {ε : Type*} {log out before after : List ε} {e : ε}
    (h : log ++ out = before ++ e :: after) :
    (∃ rest, log = before ++ e :: rest ∧ after = rest ++ out) ∨
      ∃ front, before = log ++ front ∧ out = front ++ e :: after := by
  obtain ⟨front, hbefore, hout⟩ | ⟨rest, hlog, hrest⟩ := List.append_eq_append_iff.mp h
  · exact .inr ⟨front, hbefore, hout⟩
  · cases rest with
    | nil => exact .inr ⟨[], by simpa using hlog.symm, hrest.symm⟩
    | cons x rest =>
      cases hrest
      exact .inl ⟨rest, hlog, rfl⟩

/-- Only the proxy thread opens the device, in one statement. -/
theorem opened_of_events {front after : List AccessoryEvent}
    (h : accessoryEvents s a = front ++ .opened :: after) :
    front = [] ∧ s.proxy = .openUsb ∧ .disabled ∉ after ∧ ∃ ok, a = .proxy ok := by
  have hmem : .opened ∈ accessoryEvents s a := by simp [h]
  have hcall : .opened ∉ s.usb.callEvents := by
    unfold Usb.callEvents
    split <;> simp
  cases a with
  | main ok =>
    have hnot : .opened ∉ s.mainEvents := by
      unfold Daemon.mainEvents
      split <;> simp_all
    exact absurd hmem hnot
  | retry | uevent => simp [accessoryEvents] at hmem
  | monitor =>
    have hnot : .opened ∉ s.usb.monitorEvents := by
      unfold Usb.monitorEvents
      split <;> simp
    exact absurd hmem hnot
  | proxy ok =>
    have hpc : s.proxy = .openUsb := by
      by_contra hother
      have hnot : .opened ∉ s.proxyEvents ok := by
        unfold Daemon.proxyEvents
        cases ok <;> split <;> simp_all
      exact hnot hmem
    have hevents : accessoryEvents s (.proxy ok) = if ok = true then [.opened] else [.opened, .closed] := by
      simp [accessoryEvents, Daemon.proxyEvents, hpc]
    rw [hevents] at h
    cases front with
    | nil =>
      refine ⟨rfl, hpc, ?_, ok, rfl⟩
      cases ok with
      | true =>
        cases h
        simp
      | false =>
        cases h
        simp
    | cons x front => cases ok <;> cases front <;> simp at h

/-- Before the device is opened, one START event has been read and, since the iteration
began and the gadgets were last disabled, the handler of a call has been registered, run on
that event and completed its switch; and no write of `disableGadget` comes before
`handleClient` is done with the device. -/
structure OpenedInSession (before after : List AccessoryEvent) : Prop where
  started : ∃ k env, starts env ∧ .received env ∈ before ∧
    [.registered k, .handled k env, .switched k].Sublist (sinceCleanup before)
  undisturbed : ∀ front rest, after = front ++ .disabled :: rest → .closed ∈ front

/-- What the log shows for every open of the device, and for the place of the session. -/
structure Opens (u : Setup) (log : List AccessoryEvent) (s : Daemon) : Prop where
  tidy : Tidy u s
  witnessed : Witnessed log s.usb
  awaited : Awaited u s → ∃ k env, StartedBy (switchOf k env) env log
  inUse : ∀ before after, log = before ++ .opened :: after → .closed ∉ after → InUse s
  opened : ∀ before after, log = before ++ .opened :: after → OpenedInSession before after

theorem Opens.awaited_step (h : Opens u log s) (hstep : DaemonStep u s a s')
    (hawaited : Awaited u s') :
    ∃ k env, StartedBy (switchOf k env) env (log ++ accessoryEvents s a) := by
  have hbefore := Awaited.before h.tidy hstep hawaited
  have hwithin := accessoryEvents_within (a := a) (Awaited.within h.tidy (hbefore.imp_right And.left))
  cases hbefore with
  | inl hbefore =>
    obtain ⟨k, env, hstarted⟩ := h.awaited hbefore
    exact ⟨k, env, hstarted.keep hwithin⟩
  | inr hset =>
    obtain ⟨env, hstarted⟩ := h.witnessed.satisfied hset.1 hset.2
    exact ⟨_, env, hstarted.keep hwithin⟩

theorem Opens.inUse_step (h : Opens u log s) (hstep : daemonStep u s a = some s')
    (before after : List AccessoryEvent) (hsplit : log ++ accessoryEvents s a = before ++ .opened :: after)
    (hopen : .closed ∉ after) : InUse s' := by
  obtain ⟨rest, hlog, rfl⟩ | ⟨front, hbefore, hout⟩ := append_split hsplit
  · rw [List.mem_append, not_or] at hopen
    exact (h.inUse before rest hlog hopen.1).step h.tidy.retrying.scheduled hstep hopen.2
  · obtain ⟨rfl, hpc, -, ok, rfl⟩ := opened_of_events hout
    have hclosed : .closed ∉ s.proxyEvents ok := by
      change s.proxyEvents ok = _ at hout
      simpa [hout] using hopen
    exact proxyStep_opens (daemonStep_proxy hstep) hpc hclosed

theorem Opens.opened_step (h : Opens u log s) (before after : List AccessoryEvent)
    (hsplit : log ++ accessoryEvents s a = before ++ .opened :: after) :
    OpenedInSession before after := by
  obtain ⟨rest, hlog, rfl⟩ | ⟨front, hbefore, hout⟩ := append_split hsplit
  · have hopened := h.opened before rest hlog
    refine ⟨hopened.started, fun front tail hafter => ?_⟩
    obtain ⟨rest', hrest, -⟩ | ⟨front', rfl, hout⟩ := append_split hafter
    · exact hopened.undisturbed front rest' hrest
    · by_contra hopen
      rw [List.mem_append, not_or] at hopen
      have hin := h.inUse before rest hlog hopen.1
      have hdisabled : .disabled ∈ accessoryEvents s a := by simp [hout]
      exact hin.undisturbed h.tidy.retrying.scheduled hdisabled
  · obtain ⟨rfl, hpc, hdisabled, -⟩ := opened_of_events hout
    have hawaited : Awaited u s := by
      unfold Awaited
      split <;> simp [hpc]
    obtain ⟨k, env, hstarted⟩ := h.awaited hawaited
    rw [hbefore, List.append_nil]
    refine ⟨⟨k, env, hstarted.event, hstarted.received, hstarted.ordered⟩, fun front rest hafter => ?_⟩
    simp [hafter] at hdisabled

theorem Opens.step (h : Opens u log s) (hstep : daemonStep u s a = some s') :
    Opens u (log ++ accessoryEvents s a) s' := by
  have hcases := (daemonStep_cases hstep).2.2
  constructor
  case tidy => exact h.tidy.step hcases
  case witnessed => exact h.witnessed.step h.tidy hcases
  case awaited => exact h.awaited_step hcases
  case inUse => exact h.inUse_step hstep
  case opened => exact h.opened_step

theorem Opens.start : Opens u [] daemonStart where
  tidy := Tidy.start
  witnessed := ⟨nofun, nofun, nofun, nofun, fun hc => absurd rfl hc⟩
  awaited h := by
    unfold Awaited at h
    split at h <;> simp [daemonStart] at h
  inUse before after h := by simp at h
  opened before after h := by simp at h

end daemon

end Aawgd
