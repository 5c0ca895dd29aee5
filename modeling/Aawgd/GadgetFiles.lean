import Aawgd.Daemon
import Mathlib.Algebra.Order.Ring.Nat

/-! The UDC files themselves: the controller that the constructor of the USB manager finds,
and what is in the files of the two gadgets when any of the writes may fail to open one. -/
namespace Aawgd
open GuardedSystem

def dot : UInt8 := 46

def newline : UInt8 := 10

/-- One round of the loop over the directory; the name found last is kept. -/
def readUdc (udcName entry : Bytes) : Bytes := if entry.head? = some dot then udcName else entry

/-- `UsbManager::UsbManager` after `disableGadget`; there is no listing when the directory
cannot be opened. -/
def findUdc : Option (List Bytes) → Bytes
  | none => []
  | some entries => entries.foldl readUdc []

/-- The files and the daemon that writes them. -/
structure Gadgets where
  daemon : Daemon
  file : Gadget → Bytes

/-- A write to the UDC file of a gadget, and whether the file could be opened. -/
structure Attempt where
  gadget : Gadget
  content : Bytes
  opened : Bool
  deriving DecidableEq

/-- `writeGadgetFile`: a file that cannot be opened is left as it is. -/
def writeFile (file : Gadget → Bytes) (w : Attempt) : Gadget → Bytes :=
  if w.opened then Function.update file w.gadget (w.content ++ [newline]) else file

/-- `enableGadget` of a call that has come to it. -/
def callWrites (udcName : Bytes) (usb : Usb) : Option (Gadget × Bytes) :=
  match usb.call with
  | .enable => some (.default, udcName)
  | .idle | .add | .wait => none

/-- The write that a step of the daemon makes. -/
def gadgetWrite (u : Setup) (s : Daemon) : DaemonAction → Option (Gadget × Bytes)
  | .main _ =>
    match s.main with
    | .waiting => callWrites u.udcName s.usb
    | .disableDefault => some (.default, [])
    | .disableAccessory => some (.accessory, [])
    | _ => none
  | .proxy _ =>
    match s.proxy with
    | .waiting => callWrites u.udcName s.usb
    | _ => none
  | .retry | .uevent _ => none
  | .monitor =>
    match s.usb.monitor with
    | .release _ _ => some (.default, [])
    | .engage _ _ => some (.accessory, u.udcName)
    | _ => none

/-- The attempt of a step, if it writes; `opened` tells whether `fopen` succeeds. -/
def attempts (u : Setup) (s : Gadgets) (a : DaemonAction × Bool) : List Attempt :=
  match gadgetWrite u s.daemon a.1 with
  | some (gadget, content) => [⟨gadget, content, a.2⟩]
  | none => []

/-- The constructor disables the default gadget and then the accessory gadget. -/
def constructorWrites (opened : Gadget → Bool) : List Attempt :=
  [⟨.default, [], opened .default⟩, ⟨.accessory, [], opened .accessory⟩]

def gadgetFiles (u : Setup) (found : Gadget → Bytes) (opened : Gadget → Bool) :
    GuardedSystem Gadgets (DaemonAction × Bool) where
  init := ⟨daemonStart, (constructorWrites opened).foldl writeFile found⟩
  guard s a := (daemon u).guard s.daemon a.1
  effect s a :=
    ⟨(daemon u).effect s.daemon a.1, (attempts u s a).foldl writeFile s.file⟩

instance decidableGadgetFilesGuard (u : Setup) (found : Gadget → Bytes) (opened : Gadget → Bool)
    (s : Gadgets) (a : DaemonAction × Bool) :
    Decidable ((gadgetFiles u found opened).guard s a) :=
  inferInstanceAs (Decidable ((daemon u).guard s.daemon a.1))

/-- All attempts to write the file of a gadget, the constructor's first. -/
def attemptsOn (u : Setup) (found : Gadget → Bytes) (opened : Gadget → Bool) (g : Gadget)
    (run : List (DaemonAction × Bool)) : List Attempt :=
  (constructorWrites opened ++ (gadgetFiles u found opened).outputs (attempts u)
    (gadgetFiles u found opened).init run).filter fun w => w.gadget = g

/-! The controller -/

def visible (entry : Bytes) : Bool := entry.head? != some dot

/-- The last entry that does not start with a dot, if there is one. -/
def lastUdc (listing : Option (List Bytes)) : Bytes :=
  (((listing.getD []).filter visible).getLast?).getD []

theorem foldl_readUdc (entries : List Bytes) (udcName : Bytes) :
    entries.foldl readUdc udcName = ((entries.filter visible).getLast?).getD udcName := by
  induction entries generalizing udcName with
  | nil => rfl
  | cons entry entries ih =>
    rw [List.foldl_cons, ih, readUdc]
    by_cases hdot : entry.head? = some dot
    · rw [if_pos hdot, List.filter_cons_of_neg (by simp [visible, hdot])]
    · rw [if_neg hdot, List.filter_cons_of_pos (by simp [visible, hdot]), List.getLast?_cons]
      cases (entries.filter visible).getLast? <;> rfl

/-- The daemon with the controller that was found. -/
def setupOf (strategy : ConnectionStrategy) (adapter : Bool) (listing : Option (List Bytes)) :
    Setup :=
  ⟨strategy, adapter, findUdc listing⟩

theorem findUdc_eq (listing : Option (List Bytes)) : findUdc listing = lastUdc listing := by
  cases listing with
  | none => rfl
  | some entries => exact foldl_readUdc entries []

/-! What the attempts come to -/

def written (c : Bytes) (w : Attempt) : Bytes := if w.opened then w.content ++ [newline] else c

theorem foldl_writeFile (ws : List Attempt) (file : Gadget → Bytes) (g : Gadget) :
    ws.foldl writeFile file g = (ws.filter fun w => w.gadget = g).foldl written (file g) := by
  induction ws generalizing file with
  | nil => rfl
  | cons w ws ih =>
    rw [List.foldl_cons, ih]
    by_cases hg : w.gadget = g
    · subst hg
      rw [List.filter_cons_of_pos (by simp), List.foldl_cons]
      congr 1
      unfold writeFile written
      split <;> simp
    · rw [List.filter_cons_of_neg (by simpa using hg)]
      congr 1
      unfold writeFile
      split
      · exact Function.update_of_ne (Ne.symm hg) _ _
      · rfl

/-- The daemon takes a write for done, whether the file could be opened or not. -/
theorem udc_step {u : Setup} {s s' : Daemon} {a : DaemonAction} (h : DaemonStep u s a s') :
    s'.usb.udc = (gadgetWrite u s a).elim s.usb.udc fun w => Function.update s.usb.udc w.1 w.2 := by
  cases h with
  | mainWaits ok usb pc call | proxyWaits ok usb pc call =>
    cases Usb.callStep_cases call with
    | add hc | enable hc =>
      simp [gadgetWrite, callWrites, pc, hc, Usb.enableGadget, Usb.writeGadgetFile]
  | mainReturns ok usb started pc call | proxyReturns ok usb started pc call =>
    cases Usb.callStep_cases call with
    | ready hc | timedOut hc => simp [gadgetWrite, callWrites, pc, hc]
  | uevent env usb received =>
    obtain ⟨-, rfl⟩ := Usb.receive_eq received
    rfl
  | monitor usb step =>
    cases Usb.monitorStep_cases step with
    | release env k pc | engage env k pc =>
      simp [gadgetWrite, pc, Usb.disableGadget, Usb.enableGadget, Usb.writeGadgetFile]
    | done env pc | expired env k pc | ignored env k pc | accepted env k pc | advance env pc
    | fulfil env k pc => simp [gadgetWrite, pc, Usb.setValue]
  | disableDefault ok pc | disableAccessory ok pc =>
    simp [gadgetWrite, pc, Usb.disableGadget, Usb.writeGadgetFile]
  | retry => rfl
  | powered ok bt next pc =>
    obtain ⟨hpc, -⟩ | ⟨hpc, -⟩ := pc <;> simp [gadgetWrite, hpc]
  | proxyAdvances ok next pc =>
    obtain ⟨hpc, -⟩ | ⟨hpc, -⟩ | ⟨hpc, -⟩ | ⟨hpc | hpc | hpc | hpc, -⟩ := pc <;>
      simp [gadgetWrite, hpc]
  | waitFirst ok pc | waitLater ok pc | serve pc | giveUp pc | connect ok pc | joinProxy ok pc
  | mainStop ok pc | joinRetry ok pc | pause ok pc | proxyStop ok pc | proxyBegins ok pc =>
    simp [gadgetWrite, pc, Daemon.beginCall, Usb.beginCall]

theorem callWrites_content {udcName : Bytes} {usb : Usb} {w : Gadget × Bytes}
    (h : callWrites udcName usb = some w) : w.2 = udcName := by
  unfold callWrites at h
  split at h <;> cases h
  rfl

theorem gadgetWrite_content {u : Setup} {s : Daemon} {a : DaemonAction} {w : Gadget × Bytes}
    (h : gadgetWrite u s a = some w) : w.2 = [] ∨ w.2 = u.udcName := by
  cases a with
  | main ok =>
    simp only [gadgetWrite] at h
    split at h
    next => exact .inr (callWrites_content h)
    next => exact .inl (by cases h; rfl)
    next => exact .inl (by cases h; rfl)
    next => cases h
  | proxy ok =>
    simp only [gadgetWrite] at h
    split at h
    next => exact .inr (callWrites_content h)
    next => cases h
  | retry | uevent env => cases h
  | monitor =>
    simp only [gadgetWrite] at h
    split at h
    next => exact .inl (by cases h; rfl)
    next => exact .inr (by cases h; rfl)
    next => cases h

/-- What the daemon takes a file to hold after the attempts on it. -/
def believed (_ : Bytes) (w : Attempt) : Bytes := w.content

/-- After the attempts so far the files hold what could be written, the daemon takes them for
written, and nothing but the empty content and the name was tried. -/
structure Attempted (u : Setup) (found : Gadget → Bytes) (ws : List Attempt) (s : Gadgets) :
    Prop where
  file : s.file = ws.foldl writeFile found
  udc : ∀ g, s.daemon.usb.udc g = (ws.filter fun w => w.gadget = g).foldl believed []
  content : ∀ w ∈ ws, w.content = [] ∨ w.content = u.udcName

theorem Attempted.step {u : Setup} {found : Gadget → Bytes} {opened : Gadget → Bool}
    {ws : List Attempt} {s : Gadgets} {a : DaemonAction × Bool} (h : Attempted u found ws s)
    (hguard : (gadgetFiles u found opened).guard s a) :
    Attempted u found (ws ++ attempts u s a) ((gadgetFiles u found opened).effect s a) := by
  have hudc := udc_step (daemon_step (u := u) hguard)
  refine ⟨?_, fun g => ?_, fun w hw => ?_⟩
  · rw [List.foldl_append, ← h.file]
    rfl
  · change ((daemon u).effect s.daemon a.1).usb.udc g = _
    rw [hudc, List.filter_append, List.foldl_append, ← h.udc g, attempts]
    cases hwrite : gadgetWrite u s.daemon a.1 with
    | none => rfl
    | some w =>
      by_cases hg : w.1 = g
      · subst hg
        simp [believed]
      · simp [hg, Ne.symm hg]
  · obtain hold | hnew := List.mem_append.mp hw
    · exact h.content w hold
    · unfold attempts at hnew
      split at hnew
      next gadget content hwrite =>
        obtain rfl := List.mem_singleton.mp hnew
        exact gadgetWrite_content hwrite
      next => cases hnew

theorem attempted_run {u : Setup} {found : Gadget → Bytes} {opened : Gadget → Bool}
    {run : List (DaemonAction × Bool)}
    (hlegal : (gadgetFiles u found opened).Legal (gadgetFiles u found opened).init run) :
    Attempted u found (constructorWrites opened ++ (gadgetFiles u found opened).outputs (attempts u)
      (gadgetFiles u found opened).init run)
      ((gadgetFiles u found opened).after (gadgetFiles u found opened).init run) := by
  let Inv (p : List Attempt × Gadgets) : Prop :=
    Attempted u found (constructorWrites opened ++ p.1) p.2
  have hstart : Inv ([], (gadgetFiles u found opened).init) := by
    refine ⟨rfl, fun g => ?_, fun w hw => ?_⟩
    · cases g <;> rfl
    · have hwrites :
          w = ⟨.default, [], opened .default⟩ ∨ w = ⟨.accessory, [], opened .accessory⟩ := by
        simpa [constructorWrites] using hw
      obtain rfl | rfl := hwrites
      · exact .inl rfl
      · exact .inl rfl
  have hstep : ∀ p a, Inv p → ((gadgetFiles u found opened).logged (attempts u)).guard p a →
      Inv (((gadgetFiles u found opened).logged (attempts u)).effect p a) := by
    intro p a hp hguard
    have hmove : (gadgetFiles u found opened).guard p.2 a := hguard
    have hnext := hp.step hmove
    rw [List.append_assoc] at hnext
    exact hnext
  have hend := invariant_all hstep hstart ((legal_logged [] _ run).mpr hlegal)
  rw [after_logged, List.nil_append] at hend
  exact hend

/-- The daemon runs as if every file could be opened. -/
theorem daemon_of_files {u : Setup} {found : Gadget → Bytes} {opened : Gadget → Bool}
    {s : Gadgets} {run : List (DaemonAction × Bool)}
    (hlegal : (gadgetFiles u found opened).Legal s run) :
    (daemon u).Legal s.daemon (run.map Prod.fst) ∧
      ((gadgetFiles u found opened).after s run).daemon =
        (daemon u).after s.daemon (run.map Prod.fst) := by
  induction run generalizing s with
  | nil => exact ⟨trivial, rfl⟩
  | cons a run ih =>
    obtain ⟨hrest, hafter⟩ := ih hlegal.2
    exact ⟨⟨hlegal.1, hrest⟩, hafter⟩

theorem foldl_written_cases (ws : List Attempt) (c : Bytes) :
    ws.foldl written c = c ∨ ∃ w ∈ ws, ws.foldl written c = w.content ++ [newline] := by
  induction ws generalizing c with
  | nil => exact .inl rfl
  | cons w ws ih =>
    obtain hc | ⟨w', hw', hc⟩ := ih (written c w)
    · rw [List.foldl_cons, hc, written]
      split
      next => exact .inr ⟨w, List.mem_cons_self, rfl⟩
      next => exact .inl rfl
    · exact .inr ⟨w', List.mem_cons_of_mem w hw', by rw [List.foldl_cons, hc]⟩

/-- Whatever files cannot be opened and whenever, the daemon runs as if they could, which holds
by construction: it never looks at the outcome of a write. The file of a gadget holds what it
held before, an empty line or a line with the controller's name, which is the last entry of the
directory that does not start with a dot; without a controller a file that was written holds an
empty line. And a file whose last write succeeded holds what the daemon takes it to hold. -/
theorem files_written (strategy : ConnectionStrategy) (adapter : Bool)
    (listing : Option (List Bytes)) (found : Gadget → Bytes) (opened : Gadget → Bool)
    (run : List (DaemonAction × Bool))
    (hlegal : (gadgetFiles (setupOf strategy adapter listing) found opened).Legal
      (gadgetFiles (setupOf strategy adapter listing) found opened).init run) :
    let u := setupOf strategy adapter listing
    let s := (gadgetFiles u found opened).after (gadgetFiles u found opened).init run
    ((daemon u).Legal daemonStart (run.map Prod.fst) ∧
      s.daemon = (daemon u).after daemonStart (run.map Prod.fst)) ∧
    (∀ g, s.file g = found g ∨ s.file g = [newline] ∨ s.file g = lastUdc listing ++ [newline]) ∧
    ∀ g w, (attemptsOn u found opened g run).getLast? = some w → w.opened = true →
      s.file g = s.daemon.usb.udc g ++ [newline] := by
  intro u s
  have h := attempted_run hlegal
  have hfile : ∀ g, s.file g = (attemptsOn u found opened g run).foldl written (found g) :=
    fun g => (congrFun h.file g).trans (foldl_writeFile _ found g)
  refine ⟨daemon_of_files hlegal, fun g => ?_, fun g w hw hopened => ?_⟩
  · rw [hfile g]
    obtain hc | ⟨w, hw, hc⟩ := foldl_written_cases (attemptsOn u found opened g run) (found g)
    · exact .inl hc
    · rw [hc]
      obtain hempty | hname := h.content w (List.mem_filter.mp hw).1
      · exact .inr (.inl (by rw [hempty]; rfl))
      · refine .inr (.inr ?_)
        rw [hname, ← findUdc_eq]
        rfl
  · obtain ⟨ws, hws⟩ := List.getLast?_eq_some_iff.mp hw
    have hudc : s.daemon.usb.udc g = (attemptsOn u found opened g run).foldl believed [] := h.udc g
    rw [hfile g, hudc, hws, List.foldl_append, List.foldl_append]
    simp [written, believed, hopened]

/-- The first session of a phone-first daemon, up to the default gadget. -/
def boundRun : List (DaemonAction × Bool) :=
  [(.main true, true), (.main true, true), (.main true, true), (.proxy true, true),
    (.proxy true, true), (.proxy true, true), (.proxy true, true), (.proxy true, true)]

theorem files_written_bound :
    let u := setupOf .phoneFirst true (some [bytes ".", bytes "dwc3", bytes ".."])
    let s := (gadgetFiles u (fun _ => []) fun _ => false).after
      (gadgetFiles u (fun _ => []) fun _ => false).init boundRun
    s.file .default = bytes "dwc3" ++ [newline] ∧ s.file .accessory = [] := by
  intro u s
  have h := files_written .phoneFirst true (some [bytes ".", bytes "dwc3", bytes ".."])
    (fun _ => []) (fun _ => false) boundRun (by decide +kernel)
  exact ⟨h.2.2 .default ⟨.default, bytes "dwc3", true⟩ (by decide +kernel) rfl, by decide +kernel⟩

end Aawgd
