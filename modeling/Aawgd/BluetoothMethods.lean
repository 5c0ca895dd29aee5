import Aawgd.AdapterLifecycle
import Aawgd.BluetoothBus

/-! The methods of the Bluetooth handler over its whole life: which adapter they call, how a
call that fails ends them, and that the daemon's runs count their calls. -/
namespace Aawgd.BluetoothBus
open CallProgram ThrowingProgram

inductive Method where
  | setPower (on : Bool)
  | setPairable (pairable : Bool)
  | startAdvertising
  | stopAdvertising
  | powerOn
  | powerOff
  | connectDevice

def BluetoothHandler.call (h : BluetoothHandler) (strategy : ConnectionStrategy) : Method → Bus Unit
  | .setPower on => h.setPower on
  | .setPairable pairable => h.setPairable pairable
  | .startAdvertising => h.startAdvertising
  | .stopAdvertising => h.stopAdvertising
  | .powerOn => h.powerOn strategy
  | .powerOff => h.powerOff strategy
  | .connectDevice => connectDevice

/-- `init`, and then methods in any order. -/
def lifetime (strategy : ConnectionStrategy) (uniqueSuffix : Bytes) (ms : List Method) :
    Bus Unit := do
  let h ← init strategy uniqueSuffix
  ms.forM (h.call strategy)

/-- `Config::getUniqueSuffix`, with the first line of the serial number's file. -/
def getUniqueSuffix (e : Environment) (serialNumberLine : Bytes) : Bytes :=
  let uniqueSuffix := Config.getenvString e (bytes "AAWG_UNIQUE_NAME_SUFFIX") []
  if uniqueSuffix ≠ [] then uniqueSuffix
  else
    -- the line as a C string, without the null at its end
    let serialNumber := bytes "00000000" ++ serialNumberLine.takeWhile (· ≠ 0)
    serialNumber.drop (serialNumber.length - 6)

/-- `Config::getConnectionStrategy`, with the member that keeps its first result. -/
def getConnectionStrategy (e : Environment) (kept : Option ConnectionStrategy) :
    ConnectionStrategy × Option ConnectionStrategy :=
  match kept with
  | some strategy => (strategy, kept)
  | none =>
    let strategy : ConnectionStrategy :=
      match Config.getenvInt e (bytes "AAWG_CONNECTION_STRATEGY") 1 with
      | 0 => .dongleMode
      | 1 => .phoneFirst
      | 2 => .usbFirst
      | _ => .phoneFirst
    (strategy, some strategy)

/-- What calls get, one after another, the environment being what it is at each. -/
def strategies (kept : Option ConnectionStrategy) : List Environment → List ConnectionStrategy
  | [] => []
  | e :: es =>
    let (strategy, kept) := getConnectionStrategy e kept
    strategy :: strategies kept es

theorem strategies_kept (strategy : ConnectionStrategy) (es : List Environment) :
    strategies (some strategy) es = List.replicate es.length strategy := by
  induction es with
  | nil => rfl
  | cons e es ih => exact congrArg (strategy :: ·) ih

/-- All calls get what the first one has read, so that the methods can have it as an argument. -/
theorem strategies_once (e : Environment) (es : List Environment) :
    strategies none (e :: es) =
      List.replicate (es.length + 1) (getConnectionStrategy e none).1 :=
  congrArg ((getConnectionStrategy e none).1 :: ·) (strategies_kept _ es)

/-! The adapter -/

def BusCall.adapter? : BusCall → Option Path
  | .command (.setAlias adapter _) | .command (.setPowered adapter _)
  | .command (.setDiscoverable adapter _) | .command (.setPairable adapter _)
  | .command (.registerAdvertisement adapter _)
  | .command (.unregisterAdvertisement adapter _) => some adapter
  | _ => none

/-- The names that the calls give to the adapter. -/
def BusCall.alias? : BusCall → Option Bytes
  | .command (.setAlias _ adapterAlias) => some adapterAlias
  | .registerObject (.advertisement _ _ _ localName) => some localName
  | _ => none

/-- The first object that is an adapter. -/
def firstAdapter (o : ManagedObjects) : Option Path :=
  (o.objects.find? fun p => p.2.contains INTERFACE_BLUEZ_ADAPTER && !p.1.isEmpty).map Prod.fst

theorem adapterPath_eq (o : ManagedObjects) : firstAdapter o =
    if adapterPath o.objects = [] then none else some (adapterPath o.objects) := by
  unfold firstAdapter
  induction o.objects with
  | nil => rfl
  | cons p objects ih =>
    have hp : (p.2.contains INTERFACE_BLUEZ_ADAPTER && !p.1.isEmpty) = true ↔
        INTERFACE_BLUEZ_ADAPTER ∈ p.2 ∧ p.1 ≠ [] := by simp
    rw [adapterPath, List.find?_cons]
    by_cases hfound : INTERFACE_BLUEZ_ADAPTER ∈ p.2 ∧ p.1 ≠ []
    · rw [hp.mpr hfound, if_pos hfound, if_neg hfound.2, Option.map_some]
    · rw [Bool.eq_false_iff.mpr (mt hp.mp hfound), if_neg hfound]
      exact ih

/-- What is left of `init` when the objects are known. -/
def initWith (strategy : ConnectionStrategy) (adapterAlias : Bytes) (adapter : Option Path) :
    Bus BluetoothHandler := do
  if let some path := adapter then command (.setAlias path adapterAlias)
  exportProfiles strategy
  return ⟨adapter, adapterAlias⟩

/-- The alias that `init` gives the adapter. -/
def aliasFor (strategy : ConnectionStrategy) (uniqueSuffix : Bytes) : Bytes :=
  (if strategy = .dongleMode then ADAPTER_ALIAS_DONGLE_PREFIX else ADAPTER_ALIAS_PREFIX) ++
    uniqueSuffix

theorem init_run (strategy : ConnectionStrategy) (uniqueSuffix : Bytes) :
    (init strategy uniqueSuffix).run = .call .getManagedObjects fun r =>
      match r with
      | .ok o => (initWith strategy (aliasFor strategy uniqueSuffix) (firstAdapter o)).run
      | .error e => .ret (.error e) := by
  refine congrArg (call BusCall.getManagedObjects) (funext fun r => ?_)
  cases r with
  | error e => rfl
  | ok o =>
    dsimp only
    rw [adapterPath_eq]
    by_cases hpath : adapterPath o.objects = []
    · rw [if_pos hpath]
      change
        ((if adapterPath o.objects = [] then pure none else _ : Bus (Option Path)) >>= _).run = _
      rw [if_pos hpath]
      rfl
    · rw [if_neg hpath]
      change
        ((if adapterPath o.objects = [] then pure none else _ : Bus (Option Path)) >>= _).run = _
      rw [if_neg hpath]
      refine congrArg (call (BusCall.command _)) (funext fun r => ?_)
      cases r <;> rfl

/-- The calls that `init` and the methods make with this adapter and this alias. -/
def Owned (adapter : Option Path) (adapterAlias : Bytes) (c : BusCall) : Prop :=
  (∀ path, c.adapter? = some path → adapter = some path) ∧
    ∀ name, c.alias? = some name → name = adapterAlias

/-- A call that concerns no adapter. -/
theorem owned_of_none {adapter : Option Path} {adapterAlias : Bytes} {c : BusCall}
    (hadapter : c.adapter? = none) (halias : c.alias? = none) : Owned adapter adapterAlias c :=
  ⟨fun path h => by simp [hadapter] at h, fun name h => by simp [halias] at h⟩

section owned
variable {strategy : ConnectionStrategy} {adapterAlias : Bytes} {adapter : Option Path}

theorem command_only {q : BusCall → Prop} {c : BusCommand} (h : q (.command c)) :
    (command c).run.Only q := ⟨h, fun _ => trivial⟩

theorem ask_only {q : BusCall → Prop} {c : BusCall} (h : q c) : (ask c).run.Only q :=
  ⟨h, fun _ => trivial⟩

theorem exportProfiles_owned : (exportProfiles strategy).run.Only (Owned adapter adapterAlias) := by
  unfold exportProfiles
  refine only_bind (ask_only (owned_of_none rfl rfl)) fun _ => ?_
  refine only_bind (command_only (owned_of_none rfl rfl)) fun _ => ?_
  split
  next =>
    exact only_bind (ask_only (owned_of_none rfl rfl)) fun _ =>
      command_only (owned_of_none rfl rfl)
  next => trivial

theorem connectDevice_owned : connectDevice.run.Only (Owned adapter adapterAlias) := by
  rw [connectDevice_run]
  refine ⟨owned_of_none rfl rfl, fun r => ?_⟩
  cases r with
  | error e => trivial
  | ok o =>
    refine only_forM fun device _ => ?_
    rw [connectOne_run]
    refine ⟨owned_of_none rfl rfl, fun r => ?_⟩
    obtain e | _ | _ := r
    · trivial
    · exact ⟨owned_of_none rfl rfl, fun _ => trivial⟩
    · trivial

/-- A call on the handler's own adapter. -/
theorem owned_of_some {path : Path} {c : BusCall} (hadapter : c.adapter? = some path)
    (halias : c.alias? = none) : Owned (some path) adapterAlias c :=
  ⟨fun path' h => by rw [← hadapter, h], fun name h => by simp [halias] at h⟩

theorem setPower_owned (on : Bool) :
    ((⟨adapter, adapterAlias⟩ : BluetoothHandler).setPower on).run.Only
      (Owned adapter adapterAlias) := by
  cases adapter with
  | none => trivial
  | some path => exact command_only (owned_of_some rfl rfl)

theorem setPairable_owned (pairable : Bool) :
    ((⟨adapter, adapterAlias⟩ : BluetoothHandler).setPairable pairable).run.Only
      (Owned adapter adapterAlias) := by
  cases adapter with
  | none => trivial
  | some path =>
    exact only_bind (command_only (owned_of_some rfl rfl)) fun _ =>
      command_only (owned_of_some rfl rfl)

theorem startAdvertising_owned :
    (⟨adapter, adapterAlias⟩ : BluetoothHandler).startAdvertising.run.Only
      (Owned adapter adapterAlias) := by
  cases adapter with
  | none => trivial
  | some path =>
    have hobject : Owned (some path) adapterAlias (.registerObject (.advertisement
        LE_ADVERTISEMENT_OBJECT_PATH (bytes "peripheral") [AAWG_PROFILE_UUID] adapterAlias)) := by
      refine ⟨fun path' h => ?_, fun name h => ?_⟩
      · cases h
      · exact (Option.some.inj h).symm
    exact only_bind (ask_only hobject) fun _ => command_only (owned_of_some rfl rfl)

theorem stopAdvertising_owned :
    (⟨adapter, adapterAlias⟩ : BluetoothHandler).stopAdvertising.run.Only
      (Owned adapter adapterAlias) := by
  cases adapter with
  | none => trivial
  | some path => exact command_only (owned_of_some rfl rfl)

theorem call_owned (m : Method) :
    ((⟨adapter, adapterAlias⟩ : BluetoothHandler).call strategy m).run.Only
      (Owned adapter adapterAlias) := by
  cases m with
  | setPower on => exact setPower_owned on
  | setPairable pairable => exact setPairable_owned pairable
  | startAdvertising => exact startAdvertising_owned
  | stopAdvertising => exact stopAdvertising_owned
  | connectDevice => exact connectDevice_owned
  | powerOn =>
    cases adapter with
    | none => trivial
    | some path =>
      refine only_bind (setPower_owned true) fun _ => only_bind (setPairable_owned true) fun _ => ?_
      split
      next => exact startAdvertising_owned
      next => trivial
  | powerOff =>
    cases adapter with
    | none => trivial
    | some path =>
      change (if strategy = .dongleMode then _ else _ : Bus Unit).run.Only _
      split
      next => exact only_bind stopAdvertising_owned fun _ => setPower_owned false
      next => exact setPower_owned false

/-- Here the handler that comes of it is known beforehand. -/
theorem methods_owned (ms : List Method) :
    (initWith strategy adapterAlias adapter >>= fun h => ms.forM (h.call strategy)).run.Only
      (Owned adapter adapterAlias) := by
  have hrest : (exportProfiles strategy >>= fun _ =>
      ms.forM ((⟨adapter, adapterAlias⟩ : BluetoothHandler).call strategy)).run.Only
        (Owned adapter adapterAlias) :=
    only_bind exportProfiles_owned fun _ => only_forM fun m _ => call_owned m
  cases adapter with
  | none =>
    simp only [initWith, pure_bind, bind_assoc]
    exact hrest
  | some path =>
    simp only [initWith, pure_bind, bind_assoc]
    have halias : Owned (some path) adapterAlias (.command (.setAlias path adapterAlias)) :=
      ⟨fun path' h => h, fun name h => (Option.some.inj h).symm⟩
    exact only_bind (command_only halias) fun _ => hrest

end owned

/-! Failures -/

/-- The failures that nobody catches: those of a device stay in its pass. -/
def fatal? : Event BusCall BusAnswer → Option BusError
  | ⟨.getManagedObjects, .error e⟩ => some e
  | ⟨.command (.connectProfile _ _), _⟩ => none
  | ⟨.command _, .error e⟩ => some e
  | _ => none

theorem command_failsLast {c : BusCommand}
    (h : ∀ e : BusError, fatal? ⟨.command c, .error e⟩ = some e)
    (hok : fatal? ⟨.command c, .ok ()⟩ = none) : FailsLast fatal? (command c) :=
  failsLast_call (fun _ e he => he ▸ h e) (fun _ _ ha => ha ▸ hok)

theorem ask_failsLast {c : BusCall} (h : ∀ r, fatal? ⟨c, r⟩ = none) :
    FailsLast fatal? (ask c) :=
  failsLast_call (fun _ _ he => by cases he) (fun r _ _ => h r)

theorem getBluezObjects_failsLast : FailsLast fatal? getBluezObjects :=
  failsLast_call (fun _ _ he => he ▸ rfl) (fun _ _ ha => ha ▸ rfl)

/-- What a device throws is caught before the next one. -/
theorem connectOne_failsLast (device : Path) : FailsLast fatal? (connectOne device) := by
  intro tr o h
  rw [connectOne_run] at h
  obtain ⟨rfl, rfl⟩ | ⟨r, tr', rfl, h'⟩ := traces_call.mp h
  · exact .went (by simp) (by simp)
  obtain e | _ | _ := r
  · obtain ⟨rfl, ho⟩ := traces_ret.mp h'
    refine .went (by simp [fatal?]) fun e => ?_
    obtain rfl | rfl := ho <;> simp
  · obtain ⟨rfl, rfl⟩ | ⟨r, tr'', rfl, h''⟩ := traces_call.mp h'
    · exact .went (by simp [fatal?]) (by simp)
    · obtain ⟨rfl, ho⟩ := traces_ret.mp h''
      refine .went (by simp [fatal?]) fun e => ?_
      obtain rfl | rfl := ho <;> simp
  · obtain ⟨rfl, ho⟩ := traces_ret.mp h'
    refine .went (by simp [fatal?]) fun e => ?_
    obtain rfl | rfl := ho <;> simp

theorem connectDevice_failsLast : FailsLast fatal? connectDevice :=
  getBluezObjects_failsLast.bind fun _ => .forM connectOne_failsLast

section failsLast
variable {strategy : ConnectionStrategy} (h : BluetoothHandler)

theorem exportProfiles_failsLast : FailsLast fatal? (exportProfiles strategy) := by
  unfold exportProfiles
  refine (ask_failsLast fun _ => rfl).bind fun _ => ?_
  refine (command_failsLast (fun _ => rfl) rfl).bind fun _ => ?_
  split
  next => exact (ask_failsLast fun _ => rfl).bind fun _ => command_failsLast (fun _ => rfl) rfl
  next => exact .pure ()

theorem initAdapter_failsLast (adapterAlias : Bytes) :
    FailsLast fatal? (initAdapter adapterAlias) := by
  refine getBluezObjects_failsLast.bind fun o => ?_
  dsimp only
  split
  next => exact .pure none
  next => exact (command_failsLast (fun _ => rfl) rfl).bind fun _ => .pure _

theorem init_failsLast (uniqueSuffix : Bytes) : FailsLast fatal? (init strategy uniqueSuffix) :=
  (initAdapter_failsLast _).bind fun _ => exportProfiles_failsLast.bind fun _ => .pure _

theorem setPower_failsLast (on : Bool) : FailsLast fatal? (h.setPower on) := by
  unfold BluetoothHandler.setPower
  split
  next => exact command_failsLast (fun _ => rfl) rfl
  next => exact .pure ()

theorem setPairable_failsLast (pairable : Bool) : FailsLast fatal? (h.setPairable pairable) := by
  unfold BluetoothHandler.setPairable
  split
  next =>
    exact (command_failsLast (fun _ => rfl) rfl).bind fun _ => command_failsLast (fun _ => rfl) rfl
  next => exact .pure ()

theorem startAdvertising_failsLast : FailsLast fatal? h.startAdvertising := by
  unfold BluetoothHandler.startAdvertising
  split
  next => exact (ask_failsLast fun _ => rfl).bind fun _ => command_failsLast (fun _ => rfl) rfl
  next => exact .pure ()

theorem stopAdvertising_failsLast : FailsLast fatal? h.stopAdvertising := by
  unfold BluetoothHandler.stopAdvertising
  split
  next => exact command_failsLast (fun _ => rfl) rfl
  next => exact .pure ()

theorem powerOn_failsLast : FailsLast fatal? (h.powerOn strategy) := by
  unfold BluetoothHandler.powerOn
  split
  next =>
    refine (setPower_failsLast h true).bind fun _ => (setPairable_failsLast h true).bind fun _ => ?_
    split
    next => exact startAdvertising_failsLast h
    next => exact .pure ()
  next => exact .pure ()

theorem powerOff_failsLast : FailsLast fatal? (h.powerOff strategy) := by
  unfold BluetoothHandler.powerOff
  split
  next =>
    dsimp only
    split
    next => exact (stopAdvertising_failsLast h).bind fun _ => setPower_failsLast h false
    next => exact setPower_failsLast h false
  next => exact .pure ()

theorem call_failsLast (m : Method) : FailsLast fatal? (h.call strategy m) := by
  cases m with
  | setPower on => exact setPower_failsLast h on
  | setPairable pairable => exact setPairable_failsLast h pairable
  | startAdvertising => exact startAdvertising_failsLast h
  | stopAdvertising => exact stopAdvertising_failsLast h
  | powerOn => exact powerOn_failsLast h
  | powerOff => exact powerOff_failsLast h
  | connectDevice => exact connectDevice_failsLast

end failsLast

/-! The whole life -/

theorem lifetime_run (strategy : ConnectionStrategy) (uniqueSuffix : Bytes) (ms : List Method) :
    (lifetime strategy uniqueSuffix ms).run = .call .getManagedObjects fun r =>
      match r with
      | .ok o => (initWith strategy (aliasFor strategy uniqueSuffix) (firstAdapter o) >>=
          fun h => ms.forM (h.call strategy)).run
      | .error e => .ret (.error e) := by
  rw [lifetime, ThrowingProgram.run_bind, init_run, call_bind]
  refine congrArg (call BusCall.getManagedObjects) (funext fun r => ?_)
  cases r with
  | ok o => exact (ThrowingProgram.run_bind _ _).symm
  | error e => rfl

theorem getUniqueSuffix_length {e : Environment}
    (h : Config.getenvString e (bytes "AAWG_UNIQUE_NAME_SUFFIX") [] = []) (line : Bytes) :
    (getUniqueSuffix e line).length = 6 := by
  have height : (bytes "00000000").length = 8 := by decide
  unfold getUniqueSuffix
  simp only [h, ne_eq, not_true_eq_false, if_false, List.length_drop, List.length_append, height]
  omega

/-- The handler from `init` on, whatever is called and whatever is answered: only the first
adapter of BlueZ is ever called, under one name, which without the variable ends in six bytes;
and it goes on until a call fails outside the attempts at devices, which ends it at once. -/
theorem lifetime_calls {strategy : ConnectionStrategy} {e : Environment} {line : Bytes}
    {ms : List Method} {tr : BusTrace} {o : Option (Except BusError Unit)}
    (h : Traces (lifetime strategy (getUniqueSuffix e line) ms).run tr o) :
    (∀ ev ∈ tr, ∀ path, ev.1.adapter? = some path →
      ∃ objects, tr.head? = some ⟨.getManagedObjects, .ok objects⟩ ∧
        firstAdapter objects = some path) ∧
    (∀ ev ∈ tr, ∀ name, ev.1.alias? = some name →
      name = aliasFor strategy (getUniqueSuffix e line)) ∧
    (Config.getenvString e (bytes "AAWG_UNIQUE_NAME_SUFFIX") [] = [] →
      (getUniqueSuffix e line).length = 6) ∧
    Ends fatal? tr o := by
  have hends : Ends fatal? tr o :=
    ((init_failsLast _).bind fun handler => .forM fun m => call_failsLast handler m) tr o h
  rw [lifetime_run] at h
  obtain ⟨rfl, -⟩ | ⟨r, tr', rfl, h'⟩ := traces_call.mp h
  · exact ⟨by simp, by simp, fun hnone => getUniqueSuffix_length hnone line, hends⟩
  cases r with
  | error e =>
    obtain ⟨rfl, -⟩ := traces_ret.mp h'
    refine ⟨?_, ?_, fun hnone => getUniqueSuffix_length hnone line, hends⟩
    · simp [BusCall.adapter?]
    · simp [BusCall.alias?]
  | ok objects =>
    have howned := (methods_owned ms).traces h'
    refine ⟨fun ev hev path hpath => ⟨objects, rfl, ?_⟩, fun ev hev name hname => ?_,
      fun hnone => getUniqueSuffix_length hnone line, hends⟩
    · obtain rfl | hev := List.mem_cons.mp hev
      · cases hpath
      · exact (howned ev hev).1 path hpath
    · obtain rfl | hev := List.mem_cons.mp hev
      · cases hname
      · exact (howned ev hev).2 name hname

/-- One adapter and one phone. -/
def oneAdapter : ManagedObjects where
  objects := [(bytes "/org/bluez", []), (bytes "/org/bluez/hci0", [INTERFACE_BLUEZ_ADAPTER]),
    (bytes "/org/bluez/hci0/dev_1", [INTERFACE_BLUEZ_DEVICE])]
  paths_nodup := by decide
  interfaces_nodup := by decide

/-- Everything succeeds, and the phone is not connected. -/
def granting : Unit → (c : BusCall) → BusAnswer c × Unit
  | s, .getManagedObjects => (.ok oneAdapter, s)
  | s, .connected _ => (.ok false, s)
  | s, .command _ => (.ok (), s)
  | s, .registerObject _ => (true, s)
  | s, .sleep => ((), s)
  | s, .wait => (false, s)

theorem lifetime_calls_powered :
    let suffix := getUniqueSuffix ⟨fun _ => none, []⟩ (bytes "1234abcd")
    let out := run granting (lifetime .dongleMode suffix [.powerOn]).run ()
    suffix.length = 6 ∧ Ends fatal? out.trace (some out.value) :=
  have hcalls := lifetime_calls (run_traces granting
    (lifetime .dongleMode (getUniqueSuffix ⟨fun _ => none, []⟩ (bytes "1234abcd")) [.powerOn]).run ())
  ⟨hcalls.2.2.1 rfl, hcalls.2.2.2⟩

/-! The adapter that the daemon's runs follow -/

/-- The calls that power the adapter and that register the advertisement. -/
def adapterCall? : BusCall → Option AdapterCall
  | .command (.setPowered _ on) => some (.power on)
  | .command (.registerAdvertisement _ _) => some .register
  | .command (.unregisterAdvertisement _ _) => some .unregister
  | _ => none

/-- Those of a method, as the daemon's runs count them. -/
def Method.calls (strategy : ConnectionStrategy) : Method → List AdapterCall
  | .setPower on => [.power on]
  | .startAdvertising => [.register]
  | .stopAdvertising => [.unregister]
  | .powerOn => powerOnCalls strategy
  | .powerOff => powerOffCalls strategy
  | .setPairable _ | .connectDevice => []

/-- Without an adapter nothing is called. -/
def methodCalls (strategy : ConnectionStrategy) (adapter : Bool) (m : Method) : List AdapterCall :=
  if adapter = true then m.calls strategy else []

/-- What a method is to the handler that is followed in the daemon's runs. -/
def Method.effect (strategy : ConnectionStrategy) (adapter : Bool) (b : Bluetooth) :
    Method → Bluetooth
  | .setPower on => b.setPower adapter on
  | .startAdvertising => b.startAdvertising adapter
  | .stopAdvertising => b.stopAdvertising adapter
  | .powerOn => b.powerOn strategy adapter
  | .powerOff => b.powerOff strategy adapter
  | .setPairable _ | .connectDevice => b

section adapter
variable {strategy : ConnectionStrategy} (adapterAlias : Bytes) (path : Path)

theorem setPower_shows (on : Bool) : Shows adapterCall? [.power on]
    ((⟨some path, adapterAlias⟩ : BluetoothHandler).setPower on) := shows_call rfl

theorem setPairable_shows (adapter : Option Path) (pairable : Bool) : Shows adapterCall? []
    ((⟨adapter, adapterAlias⟩ : BluetoothHandler).setPairable pairable) := by
  refine shows_nothing (q := fun c => adapterCall? c = none) ?_ fun _ h => h
  cases adapter with
  | none => trivial
  | some path => exact only_bind (command_only rfl) fun _ => command_only rfl

theorem startAdvertising_shows : Shows adapterCall? [.register]
    (⟨some path, adapterAlias⟩ : BluetoothHandler).startAdvertising := by
  have hobject {c : BusCall} (h : adapterCall? c = none) : Shows adapterCall? [] (ask c) :=
    shows_nothing (q := fun c => adapterCall? c = none) (ask_only h) fun _ h => h
  exact (hobject rfl).bind fun _ => shows_call rfl

theorem stopAdvertising_shows : Shows adapterCall? [.unregister]
    (⟨some path, adapterAlias⟩ : BluetoothHandler).stopAdvertising := shows_call rfl

theorem connectDevice_shows : Shows adapterCall? [] connectDevice := by
  refine shows_nothing (q := fun c => adapterCall? c = none) ?_ fun _ h => h
  rw [connectDevice_run]
  refine ⟨rfl, fun r => ?_⟩
  cases r with
  | error e => trivial
  | ok o =>
    refine only_forM fun device _ => ?_
    rw [connectOne_run]
    refine ⟨rfl, fun r => ?_⟩
    obtain e | _ | _ := r
    · trivial
    · exact ⟨rfl, fun _ => trivial⟩
    · trivial

theorem call_shows (adapter : Option Path) (m : Method) :
    Shows adapterCall? (methodCalls strategy adapter.isSome m)
      ((⟨adapter, adapterAlias⟩ : BluetoothHandler).call strategy m) := by
  cases adapter with
  | none =>
    cases m with
    | connectDevice => exact connectDevice_shows
    | _ => exact shows_nothing (q := fun c => adapterCall? c = none) trivial fun _ h => h
  | some path =>
    cases m with
    | setPower on => exact setPower_shows adapterAlias path on
    | setPairable pairable => exact setPairable_shows adapterAlias (some path) pairable
    | startAdvertising => exact startAdvertising_shows adapterAlias path
    | stopAdvertising => exact stopAdvertising_shows adapterAlias path
    | connectDevice => exact connectDevice_shows
    | powerOn =>
      have hpower := setPower_shows adapterAlias path true
      have hpairable := setPairable_shows adapterAlias (some path) true
      cases strategy with
      | dongleMode =>
        exact hpower.bind fun _ => hpairable.bind fun _ => startAdvertising_shows adapterAlias path
      | phoneFirst | usbFirst =>
        exact hpower.bind fun _ => hpairable.bind fun _ =>
          shows_nothing (q := fun c => adapterCall? c = none) trivial fun _ h => h
    | powerOff =>
      have hpower := setPower_shows adapterAlias path false
      cases strategy with
      | dongleMode => exact (stopAdvertising_shows adapterAlias path).bind fun _ => hpower
      | phoneFirst | usbFirst => exact hpower

/-- The model's adapter after a method, and whether the model has crashed in it. -/
theorem effect_radio (adapter : Bool) (b : Bluetooth) (m : Method) :
    (m.effect strategy adapter b).radio = bluez.after b.radio (methodCalls strategy adapter m) := by
  cases adapter <;> cases m <;> cases strategy <;> rfl

theorem effect_crashed (adapter : Bool) (b : Bluetooth) (m : Method) :
    (m.effect strategy adapter b).crashed = false ↔
      b.crashed = false ∧ bluez.Legal b.radio (methodCalls strategy adapter m) := by
  cases adapter with
  | false => cases m <;> simp [Method.effect, methodCalls, GuardedSystem.Legal,
      Bluetooth.setPower, Bluetooth.startAdvertising, Bluetooth.stopAdvertising,
      Bluetooth.powerOn, Bluetooth.powerOff]
  | true =>
    cases m with
    | setPower on => simp [Method.effect, methodCalls, Method.calls, GuardedSystem.Legal, bluez,
        Bluetooth.setPower]
    | startAdvertising => simp [Method.effect, methodCalls, Method.calls, GuardedSystem.Legal,
        bluez, Bluetooth.radio, Bluetooth.startAdvertising]
    | stopAdvertising => simp [Method.effect, methodCalls, Method.calls, GuardedSystem.Legal,
        bluez, Bluetooth.radio, Bluetooth.stopAdvertising]
    | powerOn => cases strategy <;> simp [Method.effect, methodCalls, Method.calls, powerOnCalls,
        GuardedSystem.Legal, bluez, Bluetooth.radio, Bluetooth.powerOn, Bluetooth.setPower,
        Bluetooth.startAdvertising]
    | powerOff => cases strategy <;> simp [Method.effect, methodCalls, Method.calls, powerOffCalls,
        GuardedSystem.Legal, bluez, Bluetooth.radio, Bluetooth.powerOff, Bluetooth.setPower,
        Bluetooth.stopAdvertising]
    | setPairable | connectDevice => simp [Method.effect, methodCalls, Method.calls,
        GuardedSystem.Legal]

theorem effects_calls (adapter : Bool) (ms : List Method) (b : Bluetooth) :
    (ms.foldl (Method.effect strategy adapter) b).radio =
      bluez.after b.radio (ms.flatMap (methodCalls strategy adapter)) ∧
    ((ms.foldl (Method.effect strategy adapter) b).crashed = false ↔
      b.crashed = false ∧ bluez.Legal b.radio (ms.flatMap (methodCalls strategy adapter))) := by
  induction ms generalizing b with
  | nil => simp [GuardedSystem.after, GuardedSystem.Legal]
  | cons m ms ih =>
    obtain ⟨hradio, hcrashed⟩ := ih (m.effect strategy adapter b)
    rw [effect_radio] at hradio hcrashed
    rw [List.foldl_cons, List.flatMap_cons, GuardedSystem.after_append,
      GuardedSystem.legal_append, hradio, hcrashed, effect_crashed, and_assoc]
    exact ⟨rfl, Iff.rfl⟩

end adapter

/-! What the bus refuses -/

def adapterCalls? (tr : BusTrace) : List AdapterCall := tr.filterMap fun ev => adapterCall? ev.1

/-- Of the calls whose failure is thrown, those and only those fail that register an
advertisement again or unregister one that is not there. -/
def Refuses (r : Radio) (tr : BusTrace) : Prop :=
  ∀ before ev rest, tr = before ++ ev :: rest →
    (fatal? ev = none ↔ ∀ c, adapterCall? ev.1 = some c →
      bluez.guard (bluez.after r (adapterCalls? before)) c)

theorem legal_of_refuses {r : Radio} {tr : BusTrace} (h : Refuses r tr)
    (hclean : ∀ ev ∈ tr, fatal? ev = none) : bluez.Legal r (adapterCalls? tr) := by
  induction tr generalizing r with
  | nil => trivial
  | cons ev tr ih =>
    have hev := (h [] ev tr rfl).mp (hclean ev List.mem_cons_self)
    have hrest : ∀ x ∈ tr, fatal? x = none := fun x hx => hclean x (List.mem_cons_of_mem ev hx)
    cases hcall : adapterCall? ev.1 with
    | none =>
      have hskip (l : BusTrace) : adapterCalls? (ev :: l) = adapterCalls? l :=
        List.filterMap_cons_none hcall
      rw [hskip]
      refine ih (fun before x rest hsplit => ?_) hrest
      have hx := h (ev :: before) x rest (congrArg (ev :: ·) hsplit)
      rwa [hskip] at hx
    | some c =>
      have hfirst (l : BusTrace) : adapterCalls? (ev :: l) = c :: adapterCalls? l :=
        List.filterMap_cons_some hcall
      rw [hfirst]
      refine ⟨hev c hcall, ih (fun before x rest hsplit => ?_) hrest⟩
      have hx := h (ev :: before) x rest (congrArg (ev :: ·) hsplit)
      rwa [hfirst] at hx

/-- A run that threw has made a call that is not allowed. -/
theorem not_legal_of_refuses {r : Radio} {before : BusTrace} {ev : Event BusCall BusAnswer}
    {e : BusError} (h : Refuses r (before ++ [ev])) (hfatal : fatal? ev = some e) :
    ¬ bluez.Legal r (adapterCalls? (before ++ [ev])) := by
  intro hlegal
  have hgood := h before ev [] rfl
  simp only [hfatal, reduceCtorEq, false_iff, not_forall] at hgood
  obtain ⟨c, hcall, hguard⟩ := hgood
  have hlast : [ev].filterMap (fun ev => adapterCall? ev.1) = [c] := List.filterMap_cons_some hcall
  rw [adapterCalls?, List.filterMap_append, hlast, GuardedSystem.legal_append] at hlegal
  exact hguard hlegal.2.1

/-- Any methods, one after another, call by call and whatever the bus answers: their calls on
the adapter are those that the daemon's runs count, up to the one at which they throw; the
adapter of those runs is what these calls make of it, and it has crashed when they break the
rule for advertisements. Where the bus refuses what breaks this rule and nothing else, the
methods throw exactly where the daemon's model has crashed. -/
theorem methods_calls (h : BluetoothHandler) (strategy : ConnectionStrategy) (ms : List Method)
    (b : Bluetooth) (hb : b.crashed = false) :
    let calls := ms.flatMap (methodCalls strategy h.adapter.isSome)
    let b' := ms.foldl (Method.effect strategy h.adapter.isSome) b
    Shows adapterCall? calls (ms.forM (h.call strategy)) ∧
    b'.radio = bluez.after b.radio calls ∧ (b'.crashed = false ↔ bluez.Legal b.radio calls) ∧
    ∀ tr r, Traces (ms.forM (h.call strategy)).run tr (some r) → Refuses b.radio tr →
      (r = .ok () ↔ b'.crashed = false) := by
  intro calls b'
  have hshows : Shows adapterCall? calls (ms.forM (h.call strategy)) :=
    .forM fun m => call_shows h.adapterAlias h.adapter m
  obtain ⟨hradio, hcrashed⟩ := @effects_calls strategy h.adapter.isSome ms b
  simp only [hb, true_and] at hcrashed
  have hmodel : b'.crashed = false ↔ bluez.Legal b.radio calls := hcrashed
  refine ⟨hshows, hradio, hmodel, fun tr r ht hrefuses => ?_⟩
  have hends : Ends fatal? tr (some r) := FailsLast.forM (fun m => call_failsLast h m) tr _ ht
  have hseen := hshows tr _ ht
  rw [hmodel]
  cases r with
  | ok u =>
    refine iff_of_true rfl ?_
    have hall : adapterCalls? tr = calls := hseen.2 () rfl
    exact hall ▸ legal_of_refuses hrefuses hends.ok
  | error e =>
    refine iff_of_false (by simp) fun hlegal => ?_
    obtain ⟨before, ev, rfl, hfatal, -⟩ := hends.error
    obtain ⟨rest, hrest⟩ := hseen.1
    refine not_legal_of_refuses hrefuses hfatal ?_
    rw [← hrest, GuardedSystem.legal_append] at hlegal
    exact hlegal.1

/-- In dongle mode the adapter is powered twice: the second time the advertisement is there. -/
theorem methods_calls_twice :
    let b' := [Method.powerOn, .powerOn].foldl (Method.effect .dongleMode true) Bluetooth.initial
    ¬ b'.crashed = false ∧ Shows adapterCall? [.power true, .register, .power true, .register]
      ([Method.powerOn, .powerOn].forM
        ((⟨some (bytes "/org/bluez/hci0"), []⟩ : BluetoothHandler).call .dongleMode)) :=
  have hcalls := methods_calls ⟨some (bytes "/org/bluez/hci0"), []⟩ .dongleMode
    [.powerOn, .powerOn] Bluetooth.initial rfl
  ⟨fun h =>
    have hagain : true = false := (hcalls.2.2.1.mp h).2.2.2.1
    Bool.noConfusion hagain, hcalls.1⟩

end Aawgd.BluetoothBus
