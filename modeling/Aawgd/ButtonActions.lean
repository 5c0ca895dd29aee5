import Aawgd.ButtonMonitor
import Aawgd.DeviceListing
import Aawgd.SharedCells

/-! What the button script does about a burst of presses: the light signals, the Bluetooth
reset and the debug mode, with the files and processes it works on as calls that can fail. -/
namespace Aawgd.ButtonScript
open CallProgram ThrowingProgram DeviceListing

inductive Led where
  | red | green | blue
  deriving DecidableEq

inductive ServiceUnit where
  | aaDongle | bluetooth | adbd | usbGadget | serialGetty
  deriving DecidableEq

inductive Verb where
  | start | stop | restart | unmask
  deriving DecidableEq

/-- What is started with `subprocess.run` or as a command of a shell script. `rm` gets no
operands: under `shell=True` only the first word of the list is the command. -/
inductive Process where
  | systemctl (verb : Verb) (units : List ServiceUnit)
  | bluetoothctlRemove (mac : Text)
  | rm
  deriving DecidableEq

/-- A process could not be started, or it ran and had this exit status. -/
inductive Ran where
  | raised
  | exited (status : Int)
  deriving DecidableEq

inductive Call where
  | writeLed (led : Led) (on : Bool)
  | sleep (milliseconds : Nat)
  | grabButton
  | bluetoothctlDevices
  | run (process : Process)
  | execDebug
  | gadgets
  | clearUdc (gadget : Text)
  deriving DecidableEq

/-- Whether the brightness was written, the device grabbed, the debug script started; the
text that the listing printed, if it could be had; the gadget directories. -/
def Answer : Call → Type
  | .writeLed _ _ | .grabButton | .execDebug => Bool
  | .sleep _ | .clearUdc _ => Unit
  | .bluetoothctlDevices => Option Text
  | .run _ => Ran
  | .gadgets => List Text

abbrev Program (α : Type) := CallProgram Call Answer α

/-- Any exception; no handler looks at it. -/
abbrev Script (α : Type) := Throwing Call Answer Unit α

/-- `try: … except Exception: pass` -/
def passing (p : Script Unit) : Program Unit := p.run >>= fun _ => .ret ()

/-- `with open(LED_PATHS[led], 'w') as f: f.write(…)` -/
def write (led : Led) (on : Bool) : Script Unit :=
  ExceptT.mk (.call (.writeLed led on) fun (written : Bool) =>
    .ret (if written then .ok () else .error ()))

def setColor (r g b : Nat) : Program Unit := passing do
  write .red (r != 0)
  write .green (g != 0)
  write .blue (b != 0)

def turnOff : Program Unit := passing ([.red, .green, .blue].forM fun p => write p false)

def sleep (milliseconds : Nat) : Program Unit := .call (.sleep milliseconds) fun _ => .ret ()

/-- One round of `blink_color`. -/
def blink (r g b delay : Nat) : Program Unit := do
  setColor r g b
  sleep delay
  turnOff
  sleep delay

def blinkColor (times r g b delay : Nat) : Program Unit := do
  turnOff
  (List.replicate times ()).forM fun _ => blink r g b delay

/-- `subprocess.run`, the exit status not looked at. -/
def subprocessRun (process : Process) : Script Unit :=
  ExceptT.mk (.call (.run process) fun (ran : Ran) =>
    .ret (match ran with
      | .raised => .error ()
      | .exited _ => .ok ()))

def bluetoothctlDevices : Script Text :=
  ExceptT.mk (.call .bluetoothctlDevices fun (stdout : Option Text) =>
    .ret (match stdout with
      | none => .error ()
      | some text => .ok text))

/-- The loop over the lines; an index out of range raises. -/
def removeDevices : Script Unit := do
  let stdout ← bluetoothctlDevices
  (stdout.splitOn '\n').forM fun line =>
    if isDeviceLine line then
      match secondField? line with
      | none => throw ()
      | some mac => subprocessRun (.bluetoothctlRemove mac)
    else pure ()

def resetBluetooth : Script Unit := do
  ExceptT.lift (blinkColor 5 1 1 0 60)
  subprocessRun (.systemctl .stop [.aaDongle])
  ExceptT.lift (sleep 1000)
  ExceptT.lift (passing removeDevices)
  subprocessRun .rm
  subprocessRun (.systemctl .restart [.bluetooth])
  ExceptT.lift (sleep 1000)
  subprocessRun (.systemctl .start [.aaDongle])

/-- A command of the debug script, whatever becomes of it. -/
def command (c : Call) : Program Unit := .call c fun _ => .ret ()

def gadgets : Program (List Text) := .call .gadgets .ret

/-- `enable_debug.sh` -/
def enableDebug : Program Unit := do
  let found ← gadgets
  found.forM fun gadget => command (.clearUdc gadget)
  command (.run (.systemctl .stop [.aaDongle]))
  command (.sleep 2000)
  command (.run (.systemctl .unmask [.adbd, .usbGadget, .serialGetty]))
  command (.run (.systemctl .start [.usbGadget]))
  command (.run (.systemctl .start [.adbd]))
  command (.run (.systemctl .start [.serialGetty]))
  command (.writeLed .red false)
  command (.writeLed .green true)
  command (.writeLed .blue true)

def execDebug : Script Unit :=
  ExceptT.mk (.call .execDebug fun (started : Bool) =>
    .ret (if started then .ok () else .error ()))

def activateDebugMode : Script Unit := do
  ExceptT.lift (blinkColor 10 0 1 1 40)
  execDebug
  ExceptT.lift enableDebug

/-- The end of `evaluate_clicks`, on the count that was taken. -/
def act (count : Nat) : Script Unit :=
  match ButtonMonitor.command? count with
  | some .resetBluetooth => resetBluetooth
  | some .activateDebugMode => activateDebugMode
  | none => pure ()

/-- `main` up to its loop, which it does not come to if the button cannot be had. -/
def startup : Script Unit := do
  ExceptT.lift turnOff
  ExceptT.mk (.call .grabButton fun (grabbed : Bool) =>
    .ret (if grabbed then .ok () else .error ()))

/-! The light -/

/-- What an event stores in the brightness of an LED. -/
def ledWrites (led : Led) : Event Call Answer → Option Bool
  | ⟨.writeLed l on, (written : Bool)⟩ => if l = led ∧ written = true then some on else none
  | _ => none

/-- The LEDs that cannot be written are the same all the time. -/
def OnBoard (broken : Led → Bool) : Event Call Answer → Prop
  | ⟨.writeLed led _, (written : Bool)⟩ => written = !broken led
  | _ => True

def DebugStarted : Event Call Answer → Prop
  | ⟨.execDebug, (started : Bool)⟩ => started = true
  | _ => False

/-- An exception at one LED keeps the script from the ones behind it. -/
def reached (broken : Led → Bool) : Led → Bool
  | .red => !broken .red
  | .green => !broken .red && !broken .green
  | .blue => !broken .red && !broken .green && !broken .blue

def LedEvent (broken : Led → Bool) (led : Led) (ev : Event Call Answer) : Prop :=
  OnBoard broken ev ∧ (led = .red ∨ ¬ DebugStarted ev)

def signal (r g b : Bool) : Program Unit := passing do
  write .red r
  write .green g
  write .blue b

def shown (r g b : Bool) : Led → Bool
  | .red => r
  | .green => g
  | .blue => b

theorem turnOff_signal : turnOff = signal false false false := by
  unfold turnOff signal
  simp [List.forM]

theorem signal_stores {broken : Led → Bool} {led : Led} (r g b : Bool) :
    (signal r g b).Ensures (LedEvent broken led) fun tr _ => ∀ v,
      stored (ledWrites led) v tr = if reached broken led then shown r g b led else v := by
  refine ensures_call.mpr fun (red : Bool) hred => ?_
  obtain rfl : red = !broken .red := hred.1
  cases hr : broken .red with
  | true => exact ensures_ret.mpr fun v => by cases led <;> simp [ledWrites, reached, hr]
  | false =>
    refine ensures_call.mpr fun (green : Bool) hgreen => ?_
    obtain rfl : green = !broken .green := hgreen.1
    cases hg : broken .green with
    | true =>
      exact ensures_ret.mpr fun v => by cases led <;> simp [ledWrites, reached, shown, hr, hg]
    | false =>
      refine ensures_call.mpr fun (blue : Bool) hblue => ?_
      obtain rfl : blue = !broken .blue := hblue.1
      cases hb : broken .blue with
      | true | false =>
        exact ensures_ret.mpr fun v => by cases led <;> simp [ledWrites, reached, shown, hr, hg, hb]

def Call.isLight : Call → Bool
  | .writeLed _ _ | .sleep _ => true
  | _ => false

def Call.isLed : Call → Bool
  | .writeLed _ _ => true
  | _ => false

theorem ledWrites_none {led : Led} {ev : Event Call Answer} (h : ev.1.isLed = false) :
    ledWrites led ev = none := by
  obtain ⟨c, r⟩ := ev
  cases c with
  | writeLed led' on => cases h
  | _ => rfl

section light
variable {broken : Led → Bool} {led : Led} {rest : Bool}

/-- A program that has nothing to do with the light. -/
theorem leaves_dark {α : Type} {p : Program α} (h : p.Only fun c => c.isLed = false) :
    Leaves (ledWrites led) (LedEvent broken led) rest p :=
  leaves_of_only h fun _ hev _ => ledWrites_none hev

theorem turnOff_restores (h : reached broken led = true) :
    Restores (ledWrites led) (LedEvent broken led) false turnOff := by
  rw [turnOff_signal]
  refine (signal_stores false false false).mono fun tr _ htr v => ?_
  rw [htr, if_pos h]
  cases led <;> rfl

theorem signal_leaves (h : reached broken led = false) (r g b : Bool) :
    Leaves (ledWrites led) (LedEvent broken led) rest (signal r g b) := by
  refine (signal_stores r g b).mono fun tr _ htr => ?_
  rw [htr, h]
  rfl

/-- An LED that is reached rests dark, the others as they are. -/
theorem turnOff_leaves (hrest : reached broken led = true → rest = false) :
    Leaves (ledWrites led) (LedEvent broken led) rest turnOff := by
  cases h : reached broken led with
  | true =>
    obtain rfl := hrest h
    exact (turnOff_restores h).leaves
  | false =>
    rw [turnOff_signal]
    exact signal_leaves h _ _ _

theorem blink_leaves (hrest : reached broken led = true → rest = false) (r g b delay : Nat) :
    Leaves (ledWrites led) (LedEvent broken led) rest (blink r g b delay) := by
  have hsleep : Leaves (ledWrites led) (LedEvent broken led) rest (sleep delay) :=
    leaves_dark ⟨rfl, fun _ => trivial⟩
  cases h : reached broken led with
  | true =>
    obtain rfl := hrest h
    have hoff := (turnOff_restores h).bind fun _ => hsleep
    exact (Restores.after fun _ => Restores.after fun _ => hoff).leaves
  | false =>
    have hcolor : Leaves (ledWrites led) (LedEvent broken led) rest (setColor r g b) :=
      signal_leaves h _ _ _
    exact hcolor.bind fun _ => hsleep.bind fun _ => (turnOff_leaves hrest).bind fun _ => hsleep

theorem blinkColor_leaves (hrest : reached broken led = true → rest = false)
    (times r g b delay : Nat) :
    Leaves (ledWrites led) (LedEvent broken led) rest (blinkColor times r g b delay) :=
  (turnOff_leaves hrest).bind fun _ => leaves_forM fun _ => blink_leaves hrest r g b delay

theorem subprocessRun_only {q : Call → Prop} {process : Process} (h : q (.run process)) :
    (subprocessRun process).run.Only q :=
  ⟨h, fun _ => trivial⟩

theorem lift_only {q : Call → Prop} {p : Program Unit} (h : p.Only q) :
    (ExceptT.lift p : Script Unit).run.Only q := by
  rw [ExceptT.run_lift, map_eq_pure_bind]
  exact h.bind fun _ => trivial

theorem removeDevices_only {q : Call → Prop} (hlisting : q .bluetoothctlDevices)
    (hremove : ∀ mac, q (.run (.bluetoothctlRemove mac))) : removeDevices.run.Only q := by
  refine only_bind ⟨hlisting, fun _ => trivial⟩ fun stdout => only_forM fun line _ => ?_
  split
  · split
    · trivial
    · exact subprocessRun_only (hremove _)
  · trivial

/-- What a reset does once the light is out. -/
theorem resetBluetooth_run : ∃ p : Script Unit,
    resetBluetooth.run = (blinkColor 5 1 1 0 60 >>= fun _ => p.run) ∧
      p.run.Only fun c => c.isLed = false := by
  refine ⟨_, ExceptT.run_bind_lift _ _, ?_⟩
  have hsleep : (ExceptT.lift (sleep 1000) : Script Unit).run.Only fun c => c.isLed = false :=
    lift_only ⟨rfl, fun _ => trivial⟩
  have hdevices : removeDevices.run.Only fun c => c.isLed = false :=
    removeDevices_only rfl fun _ => rfl
  have hremove : (ExceptT.lift (passing removeDevices) : Script Unit).run.Only
      fun c => c.isLed = false :=
    lift_only (hdevices.bind fun _ => trivial)
  refine only_bind (subprocessRun_only rfl) fun _ => only_bind hsleep fun _ =>
    only_bind hremove fun _ => only_bind (subprocessRun_only rfl) fun _ =>
    only_bind (subprocessRun_only rfl) fun _ => only_bind hsleep fun _ => subprocessRun_only rfl

/-- The debug script puts out the red LED, whether it was reached or not. -/
theorem enableDebug_leaves (hrest : reached broken .red = true → rest = false) :
    Leaves (ledWrites .red) (LedEvent broken .red) rest enableDebug := by
  have hcommand : ∀ c : Call, c.isLed = false →
      Leaves (ledWrites .red) (LedEvent broken .red) rest (command c) :=
    fun c hc => leaves_dark ⟨hc, fun _ => trivial⟩
  have hgadgets : Leaves (ledWrites .red) (LedEvent broken .red) rest gadgets :=
    leaves_dark ⟨rfl, fun _ => trivial⟩
  refine hgadgets.bind fun found => (leaves_forM fun _ => hcommand _ rfl).bind fun _ =>
    (hcommand _ rfl).bind fun _ => (hcommand _ rfl).bind fun _ => (hcommand _ rfl).bind fun _ =>
    (hcommand _ rfl).bind fun _ => (hcommand _ rfl).bind fun _ => (hcommand _ rfl).bind fun _ => ?_
  refine ensures_call.mpr fun (red : Bool) hred => ?_
  obtain rfl : red = !broken .red := hred.1
  refine ensures_call.mpr fun green _ => ensures_call.mpr fun blue _ => ensures_ret.mpr ?_
  cases hr : broken .red with
  | true => simp [ledWrites]
  | false => simp [ledWrites, hrest (by simp [reached, hr])]

theorem act_leaves (hrest : reached broken led = true → rest = false) (count : Nat) :
    Leaves (ledWrites led) (LedEvent broken led) rest (act count).run := by
  unfold act
  split
  next =>
    obtain ⟨p, hrun, hp⟩ := resetBluetooth_run
    rw [hrun]
    exact (blinkColor_leaves hrest 5 1 1 0 60).bind fun _ => leaves_dark hp
  next =>
    rw [activateDebugMode, ExceptT.run_bind_lift]
    refine (blinkColor_leaves hrest 10 0 1 1 40).bind fun _ => ?_
    refine ensures_call.mpr fun (started : Bool) hstarted => ?_
    cases started with
    | false => exact leaves_ret _
    | true =>
      obtain rfl := hstarted.2.resolve_right (fun h => h rfl)
      exact (enableDebug_leaves hrest).bind fun _ => leaves_ret _
  next => exact leaves_ret _

end light

/-! The service -/

def Verb.running? : Verb → Option Bool
  | .start | .restart => some true
  | .stop => some false
  | .unmask => none

/-- Whether the service of the dongle runs, as successful commands set it. -/
def dongleWrites : Event Call Answer → Option Bool
  | ⟨.run (.systemctl verb units), (ran : Ran)⟩ =>
    if units.contains .aaDongle ∧ ran = .exited 0 then verb.running? else none
  | _ => none

/-- The exceptions that end the thread of a burst. -/
def fatal : Event Call Answer → Option Unit
  | ⟨.run (.systemctl _ _), (ran : Ran)⟩ | ⟨.run .rm, (ran : Ran)⟩ =>
    if ran = .raised then some () else none
  | ⟨.execDebug, (started : Bool)⟩ => if started then none else some ()
  | _ => none

/-- Commands for the service of the dongle have their effect. -/
def Effective : Event Call Answer → Prop
  | ⟨.run (.systemctl _ units), (ran : Ran)⟩ => units.contains .aaDongle = true → ran = .exited 0
  | _ => True

def ServiceEvent (ev : Event Call Answer) : Prop :=
  fatal ev = none ∧ Effective ev ∧ ¬ DebugStarted ev

section decide

instance decidableOnBoard (broken : Led → Bool) : (ev : Event Call Answer) →
    Decidable (OnBoard broken ev)
  | ⟨.writeLed led _, (written : Bool)⟩ => inferInstanceAs (Decidable (written = !broken led))
  | ⟨.sleep _, _⟩ | ⟨.grabButton, _⟩ | ⟨.bluetoothctlDevices, _⟩ | ⟨.run _, _⟩ | ⟨.execDebug, _⟩
  | ⟨.gadgets, _⟩ | ⟨.clearUdc _, _⟩ => .isTrue trivial

instance decidableDebugStarted : (ev : Event Call Answer) → Decidable (DebugStarted ev)
  | ⟨.execDebug, (started : Bool)⟩ => inferInstanceAs (Decidable (started = true))
  | ⟨.writeLed _ _, _⟩ | ⟨.sleep _, _⟩ | ⟨.grabButton, _⟩ | ⟨.bluetoothctlDevices, _⟩ | ⟨.run _, _⟩
  | ⟨.gadgets, _⟩ | ⟨.clearUdc _, _⟩ => .isFalse id

instance decidableEffective : (ev : Event Call Answer) → Decidable (Effective ev)
  | ⟨.run (.systemctl _ units), (ran : Ran)⟩ =>
    inferInstanceAs (Decidable (units.contains .aaDongle = true → ran = .exited 0))
  | ⟨.run (.bluetoothctlRemove _), _⟩ | ⟨.run .rm, _⟩ | ⟨.writeLed _ _, _⟩ | ⟨.sleep _, _⟩
  | ⟨.grabButton, _⟩ | ⟨.bluetoothctlDevices, _⟩ | ⟨.execDebug, _⟩ | ⟨.gadgets, _⟩
  | ⟨.clearUdc _, _⟩ => .isTrue trivial

instance decidableServiceEvent (ev : Event Call Answer) : Decidable (ServiceEvent ev) :=
  inferInstanceAs (Decidable (_ ∧ _ ∧ _))

end decide

theorem signal_only (r g b : Bool) : (signal r g b).Only fun c => c.isLight = true := by
  have hwrite : ∀ led on, (write led on).run.Only fun c => c.isLight = true :=
    fun led on => ⟨rfl, fun _ => trivial⟩
  exact (only_bind (hwrite _ _) fun _ => only_bind (hwrite _ _) fun _ => hwrite _ _).bind
    fun _ => trivial

theorem turnOff_only : turnOff.Only fun c => c.isLight = true :=
  turnOff_signal ▸ signal_only false false false

theorem blinkColor_only (times r g b delay : Nat) :
    (blinkColor times r g b delay).Only fun c => c.isLight = true := by
  have hsleep : (sleep delay).Only fun c => c.isLight = true := ⟨rfl, fun _ => trivial⟩
  have hcolor : (setColor r g b).Only fun c => c.isLight = true := signal_only _ _ _
  exact turnOff_only.bind fun _ => Only.forM fun _ _ =>
    hcolor.bind fun _ => hsleep.bind fun _ => turnOff_only.bind fun _ => hsleep

theorem fatal_light {ev : Event Call Answer} (h : ev.1.isLight = true) : fatal ev = none := by
  obtain ⟨c, r⟩ := ev
  cases c with
  | writeLed led on => rfl
  | sleep milliseconds => rfl
  | _ => cases h

theorem dongleWrites_light {ev : Event Call Answer} (h : ev.1.isLight = true) :
    dongleWrites ev = none := by
  obtain ⟨c, r⟩ := ev
  cases c with
  | writeLed led on => rfl
  | sleep milliseconds => rfl
  | _ => cases h

/-! A part of a script that is not hit by a fatal exception, by what it does besides the light. -/

def duties (tr : List (Event Call Answer)) : List (Event Call Answer) :=
  tr.filter fun ev => !ev.1.isLight

def Does (p : Script Unit) (P : List (Event Call Answer) → Prop) : Prop :=
  p.run.Ensures (fun ev => fatal ev = none) fun tr r => r.isOk = true ∧ P (duties tr)

theorem Does.bind {p q : Script Unit} {P Q : List (Event Call Answer) → Prop} (hp : Does p P)
    (hq : Does q Q) :
    Does (p >>= fun _ => q) fun l => ∃ l₁ l₂, l = l₁ ++ l₂ ∧ P l₁ ∧ Q l₂ := by
  refine Ensures.throwing hp (fun _ _ h => nomatch h.1) fun tr _ h => hq.mono fun tr' r h' => ?_
  exact ⟨h'.1, _, _, List.filter_append .., h.2, h'.2⟩

theorem does_light {p : Program Unit} (hp : p.Only fun c => c.isLight = true) :
    Does (ExceptT.lift p) (· = []) := by
  intro tr r h _
  rw [ExceptT.run_lift, map_eq_pure_bind] at h
  obtain ⟨a, tr₁, tr₂, rfl, h₁, h₂⟩ := traces_bind_some h
  obtain ⟨rfl, hr⟩ := traces_done h₂
  have hnone : duties (tr₁ ++ []) = [] := by
    rw [List.append_nil, duties, List.filter_eq_nil_iff]
    exact fun ev hev => by simp [hp.traces h₁ ev hev]
  exact ⟨by rw [hr r rfl]; rfl, hnone⟩

/-- A process that has to be started. -/
theorem does_run {process : Process} (h : fatal ⟨.run process, Ran.raised⟩ ≠ none) :
    Does (subprocessRun process) fun l => ∃ ran : Ran, l = [⟨.run process, ran⟩] := by
  refine ensures_call.mpr fun (ran : Ran) hran => ensures_ret.mpr ?_
  cases ran with
  | raised => exact absurd hran h
  | exited status => exact ⟨rfl, _, rfl⟩

/-! The removal of the known devices -/

def removal (r : Text × Ran) : Event Call Answer := ⟨.run (.bluetoothctlRemove r.1), r.2⟩

/-- One after the other, up to the first that cannot be started. -/
inductive TriesAll : List Text → List (Text × Ran) → Prop
  | done : TriesAll [] []
  | raised (mac : Text) (macs : List Text) : TriesAll (mac :: macs) [(mac, .raised)]
  | exited (mac : Text) (status : Int) {macs : List Text} {rs : List (Text × Ran)}
    (tail : TriesAll macs rs) : TriesAll (mac :: macs) ((mac, .exited status) :: rs)

def Tried : Option Text → List (Text × Ran) → Prop
  | none, rs => rs = []
  | some stdout, rs => TriesAll (deviceAddresses stdout) rs

theorem TriesAll.all {macs : List Text} {rs : List (Text × Ran)} (h : TriesAll macs rs)
    (hran : ∀ r ∈ rs, r.2 ≠ .raised) : rs.map Prod.fst = macs := by
  induction h with
  | done => rfl
  | raised mac macs => exact absurd rfl (hran _ List.mem_cons_self)
  | exited mac status tail ih =>
    rw [List.map_cons, ih fun r hr => hran r (List.mem_cons_of_mem _ hr)]

theorem TriesAll.first {macs : List Text} {rs : List (Text × Ran)} (h : TriesAll macs rs) :
    rs.map Prod.fst <+: macs := by
  induction h with
  | done => exact List.prefix_refl []
  | raised mac macs => exact ⟨macs, rfl⟩
  | exited mac status tail ih => exact List.cons_prefix_cons.mpr ⟨rfl, ih⟩

theorem removeLines {legal : Event Call Answer → Prop} (ls : List Text) :
    (ls.forM fun line => if isDeviceLine line then
      match secondField? line with
      | none => throw ()
      | some mac => subprocessRun (.bluetoothctlRemove mac)
    else pure () : Script Unit).run.Ensures legal fun tr _ => ∃ rs, tr = rs.map removal ∧
      TriesAll ((ls.filter isDeviceLine).filterMap secondField?) rs := by
  induction ls with
  | nil => exact ensures_ret.mpr ⟨[], rfl, .done⟩
  | cons line ls ih =>
    by_cases hline : isDeviceLine line = true
    · obtain ⟨mac, hmac⟩ := Option.isSome_iff_exists.mp (secondField?_isSome hline)
      have hmacs : ((line :: ls).filter isDeviceLine).filterMap secondField? =
          mac :: (ls.filter isDeviceLine).filterMap secondField? := by
        rw [List.filter_cons_of_pos hline, List.filterMap_cons_some hmac]
      simp only [List.forM_eq_forM, List.forM_cons, hline, if_true, hmac, hmacs]
      refine ensures_call.mpr fun (ran : Ran) _ => ?_
      cases ran with
      | raised => exact ensures_ret.mpr ⟨[(mac, .raised)], rfl, .raised mac _⟩
      | exited status =>
        refine ih.mono fun tr _ ⟨rs, htr, hrs⟩ => ?_
        exact ⟨(mac, .exited status) :: rs, by rw [htr]; rfl, .exited mac status hrs⟩
    · simp only [List.forM_eq_forM, List.forM_cons, hline, List.filter_cons_of_neg hline]
      exact ih

/-- The listing, and what is tried after it. -/
theorem removeDevices_ensures {legal : Event Call Answer → Prop} :
    removeDevices.run.Ensures legal fun tr _ => ∃ (listed : Option Text) (rs : List (Text × Ran)),
      tr = ⟨.bluetoothctlDevices, listed⟩ :: rs.map removal ∧ Tried listed rs := by
  refine ensures_call.mpr fun (listed : Option Text) _ => ?_
  cases listed with
  | none => exact ensures_ret.mpr ⟨none, [], rfl, rfl⟩
  | some stdout =>
    refine (removeLines (stdout.splitOn '\n')).mono fun tr _ ⟨rs, htr, hrs⟩ => ?_
    exact ⟨some stdout, rs, by rw [htr], hrs⟩

theorem passing_ensures {legal : Event Call Answer → Prop} {p : Script Unit}
    {Q : List (Event Call Answer) → Prop} (hp : p.run.Ensures legal fun tr _ => Q tr) :
    (ExceptT.lift (passing p) : Script Unit).run.Ensures legal
      fun tr r => r.isOk = true ∧ Q tr := by
  rw [ExceptT.run_lift, map_eq_pure_bind]
  have hpassing : (passing p).Ensures legal fun tr _ => Q tr :=
    hp.bind fun tr _ htr => ensures_ret.mpr (by rwa [List.append_nil])
  exact hpassing.bind fun tr _ htr => ensures_ret.mpr ⟨rfl, by rwa [List.append_nil]⟩

theorem duties_removal (rs : List (Text × Ran)) : duties (rs.map removal) = rs.map removal :=
  List.filter_eq_self.mpr (List.forall_mem_map.mpr fun _ _ => rfl)

theorem does_removal : Does (ExceptT.lift (passing removeDevices)) fun l =>
    ∃ (listed : Option Text) (rs : List (Text × Ran)),
      l = ⟨.bluetoothctlDevices, listed⟩ :: rs.map removal ∧ Tried listed rs := by
  refine (passing_ensures removeDevices_ensures).mono fun tr r ⟨hr, listed, rs, htr, hrs⟩ => ?_
  refine ⟨hr, listed, rs, ?_, hrs⟩
  rw [htr, duties, List.filter_cons_of_pos rfl]
  exact congrArg _ (duties_removal rs)

/-- A whole reset besides the light: the service stopped, the devices removed, the state
wiped, Bluetooth restarted, the service started. -/
def ResetDone (l : List (Event Call Answer)) : Prop :=
  ∃ (stopped : Ran) (listed : Option Text) (rs : List (Text × Ran)) (wiped restarted started : Ran),
    l = ⟨.run (.systemctl .stop [.aaDongle]), stopped⟩ :: ⟨.bluetoothctlDevices, listed⟩ ::
      rs.map removal ++ [⟨.run .rm, wiped⟩, ⟨.run (.systemctl .restart [.bluetooth]), restarted⟩,
        ⟨.run (.systemctl .start [.aaDongle]), started⟩] ∧ Tried listed rs

theorem resetBluetooth_does : Does resetBluetooth ResetDone := by
  have hsleep : Does (ExceptT.lift (sleep 1000)) (· = []) := does_light ⟨rfl, fun _ => trivial⟩
  have hsystemctl : ∀ verb units, Does (subprocessRun (.systemctl verb units)) fun l =>
      ∃ ran : Ran, l = [⟨.run (.systemctl verb units), ran⟩] :=
    fun _ _ => does_run (by simp [fatal])
  have hrm : Does (subprocessRun .rm) fun l => ∃ ran : Ran, l = [⟨.run .rm, ran⟩] :=
    does_run (by simp [fatal])
  refine ((does_light (blinkColor_only 5 1 1 0 60)).bind <| (hsystemctl _ _).bind <|
    hsleep.bind <| does_removal.bind <| hrm.bind <| (hsystemctl _ _).bind <|
    hsleep.bind <| hsystemctl _ _).mono fun tr r ⟨hr, hl⟩ => ⟨hr, ?_⟩
  obtain ⟨_, _, hl, rfl, _, _, rfl, ⟨stopped, rfl⟩, _, _, rfl, rfl, _, _, rfl,
    ⟨listed, rs, rfl, hrs⟩, _, _, rfl, ⟨wiped, rfl⟩, _, _, rfl, ⟨restarted, rfl⟩, _, _, rfl, rfl,
    started, rfl⟩ := hl
  exact ⟨stopped, listed, rs, wiped, restarted, started, by simpa using hl, hrs⟩

theorem Does.ok {p : Script Unit} {P : List (Event Call Answer) → Prop} (h : Does p P) :
    p.run.Ensures ServiceEvent fun _ r => r.isOk = true :=
  (Ensures.of_legal h fun _ hev => hev.1).mono fun _ _ h' => h'.1

theorem resetBluetooth_restores : Restores dongleWrites ServiceEvent true resetBluetooth.run := by
  have hsleep : Does (ExceptT.lift (sleep 1000)) (· = []) := does_light ⟨rfl, fun _ => trivial⟩
  have hsystemctl : ∀ verb units, Does (subprocessRun (.systemctl verb units)) fun l =>
      ∃ ran : Ran, l = [⟨.run (.systemctl verb units), ran⟩] :=
    fun _ _ => does_run (by simp [fatal])
  have hrm : Does (subprocessRun .rm) fun l => ∃ ran : Ran, l = [⟨.run .rm, ran⟩] :=
    does_run (by simp [fatal])
  have hstart : Restores dongleWrites ServiceEvent true
      (subprocessRun (.systemctl .start [.aaDongle])).run := by
    refine ensures_call.mpr fun (ran : Ran) hran => ensures_ret.mpr fun v => ?_
    obtain rfl : ran = .exited 0 := hran.2.1 rfl
    rfl
  exact .throwing (does_light (blinkColor_only 5 1 1 0 60)).ok fun _ =>
    .throwing (hsystemctl _ _).ok fun _ => .throwing hsleep.ok fun _ =>
    .throwing does_removal.ok fun _ => .throwing hrm.ok fun _ =>
    .throwing (hsystemctl _ _).ok fun _ => .throwing hsleep.ok fun _ => hstart

/-- No burst leaves the service stopped that does not start the debug mode. -/
theorem act_service (count : Nat) : Leaves dongleWrites ServiceEvent true (act count).run := by
  unfold act
  split
  next => exact resetBluetooth_restores.leaves
  next =>
    rw [activateDebugMode, ExceptT.run_bind_lift]
    have hlight : Leaves dongleWrites ServiceEvent true (blinkColor 10 0 1 1 40) :=
      leaves_of_only (blinkColor_only 10 0 1 1 40) fun _ hev _ => dongleWrites_light hev
    refine hlight.bind fun _ => ensures_call.mpr fun (started : Bool) hstarted => ?_
    cases started with
    | false => cases hstarted.1
    | true => exact absurd rfl hstarted.2.2
  next => exact leaves_ret _

theorem run_failsLast {process : Process}
    (h : ∀ ran : Ran, fatal ⟨.run process, ran⟩ = if ran = .raised then some () else none) :
    FailsLast fatal (subprocessRun process) := by
  refine failsLast_call (fun (ran : Ran) e he => ?_) fun (ran : Ran) a ha => ?_
  · cases ran with
    | raised => exact h .raised
    | exited status => cases he
  · cases ran with
    | raised => cases ha
    | exited status => exact h (.exited status)

theorem resetBluetooth_failsLast : FailsLast fatal resetBluetooth := by
  have hlight : ∀ p : Program Unit, p.Only (fun c => c.isLight = true) →
      FailsLast fatal (ExceptT.lift p) :=
    fun p hp => failsLast_lift fun tr o h ev hev => fatal_light (hp.traces h ev hev)
  have hdevices : removeDevices.run.Only
      fun c => c = .bluetoothctlDevices ∨ ∃ mac, c = .run (.bluetoothctlRemove mac) :=
    removeDevices_only (.inl rfl) fun mac => .inr ⟨mac, rfl⟩
  have hremove : FailsLast fatal (ExceptT.lift (passing removeDevices)) := by
    refine failsLast_lift fun tr o h ev hev => ?_
    obtain ⟨c, r⟩ := ev
    have hcall := (hdevices.bind fun _ => trivial : (passing removeDevices).Only _).traces h _ hev
    obtain rfl | ⟨mac, rfl⟩ := hcall
    · rfl
    · rfl
  have hsleep := hlight (sleep 1000) ⟨rfl, fun _ => trivial⟩
  have hsystemctl : ∀ verb units, FailsLast fatal (subprocessRun (.systemctl verb units)) :=
    fun _ _ => run_failsLast fun _ => rfl
  exact (hlight _ (blinkColor_only 5 1 1 0 60)).bind fun _ => (hsystemctl _ _).bind fun _ =>
    hsleep.bind fun _ => hremove.bind fun _ => (run_failsLast fun _ => rfl).bind fun _ =>
    (hsystemctl _ _).bind fun _ => hsleep.bind fun _ => hsystemctl _ _

def removed? : Event Call Answer → Option Text
  | ⟨.run (.bluetoothctlRemove mac), _⟩ => some mac
  | _ => none

theorem removed_duties (tr : List (Event Call Answer)) :
    (duties tr).filterMap removed? = tr.filterMap removed? := by
  rw [duties, List.filterMap_filter]
  refine congrArg (fun f => tr.filterMap f) (funext fun ev => ?_)
  obtain ⟨c, r⟩ := ev
  cases c <;> rfl

theorem removed_removals (rs : List (Text × Ran)) :
    (rs.map removal).filterMap removed? = rs.map Prod.fst := by
  rw [List.filterMap_map, show removed? ∘ removal = some ∘ Prod.fst from rfl,
    List.filterMap_eq_map]

def listed? : Event Call Answer → Option (Option Text)
  | ⟨.bluetoothctlDevices, (stdout : Option Text)⟩ => some stdout
  | _ => none

theorem listed_removals (rs : List (Text × Ran)) : (rs.map removal).filterMap listed? = [] := by
  rw [List.filterMap_eq_nil_iff]
  exact List.forall_mem_map.mpr fun _ _ => rfl

/-- The removals that go with what the listing printed. -/
theorem ResetDone.tried {tr : List (Event Call Answer)} (h : ResetDone (duties tr))
    {stdout : Text} (hlisted : (⟨.bluetoothctlDevices, some stdout⟩ : Event Call Answer) ∈ tr) :
    ∃ rs, TriesAll (deviceAddresses stdout) rs ∧ tr.filterMap removed? = rs.map Prod.fst ∧
      ∀ r ∈ rs, removal r ∈ tr := by
  obtain ⟨stopped, listed, rs, wiped, restarted, started, hl, hrs⟩ := h
  have hmem : ∀ ev ∈ duties tr, ev ∈ tr := fun ev hev => (List.mem_filter.mp hev).1
  have hheard : some stdout ∈ (duties tr).filterMap listed? :=
    List.mem_filterMap.mpr ⟨_, List.mem_filter.mpr ⟨hlisted, rfl⟩, rfl⟩
  have hlisting : listed? ⟨.bluetoothctlDevices, listed⟩ = some listed := rfl
  rw [hl, List.cons_append, List.cons_append, List.filterMap_cons_none rfl,
    List.filterMap_cons_some hlisting, List.filterMap_append, listed_removals] at hheard
  obtain rfl := List.mem_singleton.mp hheard
  refine ⟨rs, hrs, ?_, fun r hr => hmem _ ?_⟩
  · rw [← removed_duties, hl, List.cons_append, List.cons_append, List.filterMap_cons_none rfl,
      List.filterMap_cons_none rfl, List.filterMap_append, removed_removals]
    exact List.append_nil _
  · rw [hl]
    simp only [List.cons_append, List.mem_cons, List.mem_append, List.mem_map]
    exact .inr (.inr (.inl ⟨r, hr, rfl⟩))

/-- A reset is ended by an exception of `systemctl` or `rm` and by nothing else; without one
it is done whole, and whatever becomes of the listing and the removals, the service is started
again at its end. Where the listing could be had, the removals are those of the second fields
of its device lines, in order, up to one that cannot be started and all of them otherwise. -/
theorem reset_duties {tr : List (Event Call Answer)} {r : Except Unit Unit}
    (h : Traces resetBluetooth.run tr (some r)) :
    (r = .error () → ∃ before ev, tr = before ++ [ev] ∧ fatal ev = some () ∧
      ∀ x ∈ before, fatal x = none) ∧
    (r = .ok () → ResetDone (duties tr)) ∧
    ∀ stdout : Text, r = .ok () →
      (⟨.bluetoothctlDevices, some stdout⟩ : Event Call Answer) ∈ tr →
      tr.filterMap removed? <+: deviceAddresses stdout ∧
      ((∀ mac, (⟨.run (.bluetoothctlRemove mac), Ran.raised⟩ : Event Call Answer) ∉ tr) →
        tr.filterMap removed? = deviceAddresses stdout) := by
  have hends := resetBluetooth_failsLast tr _ h
  refine ⟨?_, ?_, fun stdout hr hlisted => ?_⟩
  · rintro rfl
    exact hends.error
  · rintro rfl
    exact (resetBluetooth_does tr _ h hends.ok).2
  · subst hr
    obtain ⟨rs, hrs, hremoved, hmem⟩ := (resetBluetooth_does tr _ h hends.ok).2.tried hlisted
    rw [hremoved]
    refine ⟨hrs.first, fun hran => hrs.all fun x hx hraised => hran x.1 ?_⟩
    rw [← hraised]
    exact hmem x hx

/-- All is well, and one device is known. -/
def oneKnown : Unit → (c : Call) → Answer c × Unit
  | _, .writeLed _ _ | _, .grabButton | _, .execDebug => (true, ())
  | _, .sleep _ | _, .clearUdc _ => ((), ())
  | _, .bluetoothctlDevices =>
    (some ['D', 'e', 'v', 'i', 'c', 'e', ' ', '0', '0', ':', 'A', 'B', ' ', 'C', 'a', 'r',
      '\n'], ())
  | _, .run _ => (Ran.exited 0, ())
  | _, .gadgets => ([], ())

theorem reset_duties_one :
    ResetDone (duties (run oneKnown resetBluetooth.run ()).trace) :=
  (reset_duties (run_traces oneKnown resetBluetooth.run ())).2.1 rfl

end Aawgd.ButtonScript
