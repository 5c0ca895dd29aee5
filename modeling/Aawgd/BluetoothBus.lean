import Aawgd.Bluetooth
import Aawgd.Config
import Aawgd.ThrowingProgram

/-! The Bluetooth handler on the D-Bus: its methods, call by call. Every call of a remote
method or property can fail, and a failure is thrown. -/
namespace Aawgd.BluetoothBus
open CallProgram ThrowingProgram

abbrev Path := Bytes

/-- `DBus::ManagedObjects`, a map of maps: every path with the names of its interfaces. -/
structure ManagedObjects where
  objects : List (Path × List Bytes)
  paths_nodup : (objects.map Prod.fst).Nodup
  interfaces_nodup : ∀ o ∈ objects, o.2.Nodup

structure BusError where
  name : Bytes
  deriving DecidableEq

inductive Variant where
  | string (value : Bytes)
  | uint16 (value : UInt16)
  deriving DecidableEq

/-- What is exported on the bus. -/
inductive BusObject where
  | aawProfile (path : Path)
  | hspProfile (path : Path)
  | advertisement (path : Path) (type : Bytes) (serviceUUIDs : List Bytes) (localName : Bytes)
  deriving DecidableEq

/-- The remote calls without a result. -/
inductive BusCommand where
  | setAlias (adapter : Path) (adapterAlias : Bytes)
  | setPowered (adapter : Path) (on : Bool)
  | setDiscoverable (adapter : Path) (on : Bool)
  | setPairable (adapter : Path) (on : Bool)
  | registerProfile (profile : Path) (uuid : Bytes) (options : List (Bytes × Variant))
  | registerAdvertisement (adapter advertisement : Path)
  | unregisterAdvertisement (adapter advertisement : Path)
  | connectProfile (device : Path) (uuid : Bytes)
  deriving DecidableEq

inductive BusCall where
  | getManagedObjects
  | connected (device : Path)
  | command (c : BusCommand)
  | registerObject (object : BusObject)
  | sleep
  | wait
  deriving DecidableEq

/-- What goes over the bus may fail. A registration at the own connection has a status, and
a wait tells whether the future is ready. -/
@[reducible] def BusAnswer : BusCall → Type
  | .getManagedObjects => Except BusError ManagedObjects
  | .connected _ => Except BusError Bool
  | .command _ => Except BusError Unit
  | .registerObject _ | .wait => Bool
  | .sleep => Unit

abbrev BusTrace := List (Event BusCall BusAnswer)

/-- A method of the handler; what it throws and does not catch is its error. -/
abbrev Bus := Throwing BusCall BusAnswer BusError

/-- A call that cannot fail. -/
def ask (c : BusCall) : Bus (BusAnswer c) :=
  ExceptT.lift (perform c : CallProgram BusCall BusAnswer (BusAnswer c))

def command (c : BusCommand) : Bus Unit :=
  ExceptT.mk (perform (BusCall.command c) : CallProgram BusCall BusAnswer (BusAnswer (.command c)))

def connected (device : Path) : Bus Bool :=
  ExceptT.mk (perform (BusCall.connected device) :
    CallProgram BusCall BusAnswer (BusAnswer (.connected device)))

def getBluezObjects : Bus ManagedObjects :=
  ExceptT.mk (perform BusCall.getManagedObjects :
    CallProgram BusCall BusAnswer (BusAnswer .getManagedObjects))

def INTERFACE_BLUEZ_ADAPTER : Bytes := bytes "org.bluez.Adapter1"
def INTERFACE_BLUEZ_DEVICE : Bytes := bytes "org.bluez.Device1"
def LE_ADVERTISEMENT_OBJECT_PATH : Path := bytes "/com/aawgd/bluetooth/advertisement"
def AAWG_PROFILE_OBJECT_PATH : Path := bytes "/com/aawgd/bluetooth/aawg"
def AAWG_PROFILE_UUID : Bytes := bytes "4de17a00-52cb-11e6-bdf4-0800200c9a66"
def HSP_HS_PROFILE_OBJECT_PATH : Path := bytes "/com/aawgd/bluetooth/hsp"
def HSP_HS_UUID : Bytes := bytes "00001108-0000-1000-8000-00805f9b34fb"
def ADAPTER_ALIAS_PREFIX : Bytes := bytes "WirelessAADongle-"
def ADAPTER_ALIAS_DONGLE_PREFIX : Bytes := bytes "AndroidAuto-Dongle-"

def serviceRecord : Bytes := bytes "<?xml version=\"1.0\" encoding=\"UTF-8\" ?>
<record>
  <attribute id=\"0x0001\">
    <sequence>
      <uuid value=\"4de17a00-52cb-11e6-bdf4-0800200c9a66\" />
    </sequence>
  </attribute>
  <attribute id=\"0x0004\">
    <sequence>
      <sequence>
        <uuid value=\"0x0100\" />
      </sequence>
      <sequence>
        <uuid value=\"0x0003\" />
        // --- CAMBIO 2: Forzamos el Canal 10 en el XML --- 
        <uint8 value=\"10\" />
      </sequence>
    </sequence>
  </attribute>
  <attribute id=\"0x0100\">
    <text value=\"AA Wireless\" />
  </attribute>
</record>"

/-- `m_adapter` and `m_adapterAlias`. -/
structure BluetoothHandler where
  adapter : Option Path
  adapterAlias : Bytes

/-! The objects of BlueZ -/

/-- The loop of `initAdapter`: the first path with an adapter's interface, empty if there is
none. -/
def adapterPath : List (Path × List Bytes) → Path
  | [] => []
  | (path, interfaces) :: objects =>
    if INTERFACE_BLUEZ_ADAPTER ∈ interfaces ∧ path ≠ [] then path else adapterPath objects

/-- The loop of `connectDevice`: a path for every device interface. -/
def devicePaths (objects : List (Path × List Bytes)) : List Path :=
  objects.flatMap fun (path, interfaces) =>
    (interfaces.filter (· = INTERFACE_BLUEZ_DEVICE)).map fun _ => path

/-! The methods -/

def initAdapter (adapterAlias : Bytes) : Bus (Option Path) := do
  let objects ← getBluezObjects
  let path := adapterPath objects.objects
  if path = [] then return none
  command (.setAlias path adapterAlias)
  return some path

def exportProfiles (strategy : ConnectionStrategy) : Bus Unit := do
  -- a registration that fails is only logged
  let _ ← ask (.registerObject (.aawProfile AAWG_PROFILE_OBJECT_PATH))
  command (.registerProfile AAWG_PROFILE_OBJECT_PATH AAWG_PROFILE_UUID
    [(bytes "Name", .string (bytes "AA Wireless")), (bytes "Role", .string (bytes "server")),
      (bytes "Channel", .uint16 10), (bytes "ServiceRecord", .string serviceRecord)])
  if strategy ≠ .dongleMode then
    let _ ← ask (.registerObject (.hspProfile HSP_HS_PROFILE_OBJECT_PATH))
    command (.registerProfile HSP_HS_PROFILE_OBJECT_PATH HSP_HS_UUID
      [(bytes "Name", .string (bytes "HSP HS"))])

/-- `BluetoothHandler::init`, with the suffix that the configuration gives. -/
def init (strategy : ConnectionStrategy) (uniqueSuffix : Bytes) : Bus BluetoothHandler := do
  let adapterAliasPrefix :=
    if strategy = .dongleMode then ADAPTER_ALIAS_DONGLE_PREFIX else ADAPTER_ALIAS_PREFIX
  let adapter ← initAdapter (adapterAliasPrefix ++ uniqueSuffix)
  exportProfiles strategy
  return ⟨adapter, adapterAliasPrefix ++ uniqueSuffix⟩

namespace BluetoothHandler

def setPower (h : BluetoothHandler) (on : Bool) : Bus Unit := do
  let some adapter := h.adapter | return ()
  command (.setPowered adapter on)

def setPairable (h : BluetoothHandler) (pairable : Bool) : Bus Unit := do
  let some adapter := h.adapter | return ()
  command (.setDiscoverable adapter pairable)
  command (.setPairable adapter pairable)

def startAdvertising (h : BluetoothHandler) : Bus Unit := do
  let some adapter := h.adapter | return ()
  let _ ← ask (.registerObject (.advertisement LE_ADVERTISEMENT_OBJECT_PATH (bytes "peripheral")
    [AAWG_PROFILE_UUID] h.adapterAlias))
  command (.registerAdvertisement adapter LE_ADVERTISEMENT_OBJECT_PATH)

def stopAdvertising (h : BluetoothHandler) : Bus Unit := do
  let some adapter := h.adapter | return ()
  command (.unregisterAdvertisement adapter LE_ADVERTISEMENT_OBJECT_PATH)

def powerOn (h : BluetoothHandler) (strategy : ConnectionStrategy) : Bus Unit := do
  let some _ := h.adapter | return ()
  h.setPower true
  h.setPairable true
  if strategy = .dongleMode then h.startAdvertising

def powerOff (h : BluetoothHandler) (strategy : ConnectionStrategy) : Bus Unit := do
  let some _ := h.adapter | return ()
  if strategy = .dongleMode then h.stopAdvertising
  h.setPower false

end BluetoothHandler

/-- The body of the loop over the devices; what it throws is caught in it. -/
def connectOne (device : Path) : Bus Unit :=
  tryCatch (do
    if ← connected device then return ()
    command (.connectProfile device AAWG_PROFILE_UUID))
    fun _ => return ()

def connectDevice : Bus Unit := do
  let objects ← getBluezObjects
  (devicePaths objects.objects).forM connectOne

/-! One pass over the devices -/

theorem connectOne_run (device : Path) : (connectOne device).run =
    .call (.connected device) fun r =>
      match r with
      | .ok true | .error _ => .ret (.ok ())
      | .ok false => .call (.command (.connectProfile device AAWG_PROFILE_UUID)) fun _ =>
        .ret (.ok ()) := by
  refine congrArg (call (BusCall.connected device)) (funext fun r => ?_)
  obtain e | _ | _ := r
  · rfl
  · refine congrArg (call (BusCall.command _)) (funext fun r => ?_)
    cases r <;> rfl
  · rfl

/-- What a device that was found takes: the question whether it is connected, and one
attempt if it answers that it is not. -/
inductive Attempt (device : Path) : BusTrace → Prop
  | already : Attempt device [⟨.connected device, .ok true⟩]
  | failed (e : BusError) : Attempt device [⟨.connected device, .error e⟩]
  | tried (r : Except BusError Unit) : Attempt device [⟨.connected device, .ok false⟩,
      ⟨.command (.connectProfile device AAWG_PROFILE_UUID), r⟩]

theorem connectOne_traces {device : Path} {tr : BusTrace} {r : Except BusError Unit} :
    Traces (connectOne device).run tr (some r) ↔ Attempt device tr ∧ r = .ok () := by
  rw [connectOne_run]
  constructor
  · intro h
    obtain ⟨-, hnone⟩ | ⟨answer, tr', rfl, h'⟩ := traces_call.mp h
    · cases hnone
    obtain e | _ | _ := answer
    · cases h'
      exact ⟨.failed e, rfl⟩
    · obtain ⟨-, hnone⟩ | ⟨sent, tr'', rfl, h''⟩ := traces_call.mp h'
      · cases hnone
      cases h''
      exact ⟨.tried sent, rfl⟩
    · cases h'
      exact ⟨.already, rfl⟩
  · rintro ⟨hattempt, rfl⟩
    cases hattempt with
    | already => exact .call _ _ _ (.ret _)
    | failed e => exact .call _ _ _ (.ret _)
    | tried r =>
      refine traces_call.mpr (.inr ⟨(.ok false : Except BusError Bool), _, rfl, ?_⟩)
      exact traces_call.mpr (.inr ⟨r, _, rfl, .ret _⟩)

theorem connectAll_traces {devices : List Path} {tr : BusTrace} {r : Except BusError Unit} :
    Traces (devices.forM connectOne).run tr (some r) ↔
      ∃ attempts, List.Forall₂ Attempt devices attempts ∧ tr = attempts.flatten ∧ r = .ok () := by
  induction devices generalizing tr with
  | nil =>
    constructor
    · intro h
      cases h
      exact ⟨[], .nil, rfl, rfl⟩
    · rintro ⟨attempts, hattempts, rfl, rfl⟩
      cases hattempts
      exact .ret _
  | cons device devices ih =>
    have hcons : ((device :: devices).forM connectOne).run = _ :=
      ThrowingProgram.run_bind (connectOne device) fun _ => devices.forM connectOne
    rw [hcons]
    constructor
    · intro h
      obtain ⟨a, tr₁, tr₂, rfl, h₁, h₂⟩ := traces_bind_some h
      obtain ⟨hattempt, rfl⟩ := connectOne_traces.mp h₁
      obtain ⟨attempts, hattempts, rfl, rfl⟩ := ih.mp h₂
      exact ⟨tr₁ :: attempts, .cons hattempt hattempts, rfl, rfl⟩
    · rintro ⟨attempts, hattempts, rfl, rfl⟩
      cases hattempts with
      | cons hattempt hattempts =>
        exact (connectOne_traces.mpr ⟨hattempt, rfl⟩).bind (ih.mpr ⟨_, hattempts, rfl, rfl⟩)

theorem connectDevice_run : connectDevice.run = .call .getManagedObjects fun r =>
    match r with
    | .ok objects => ((devicePaths objects.objects).forM connectOne).run
    | .error e => .ret (.error e) := by
  refine congrArg (call BusCall.getManagedObjects) (funext fun r => ?_)
  cases r <;> rfl

/-! The devices -/

/-- Interfaces have distinct names, so that a device is found once. -/
theorem devicePaths_eq (o : ManagedObjects) : devicePaths o.objects =
    (o.objects.filter fun p => INTERFACE_BLUEZ_DEVICE ∈ p.2).map Prod.fst := by
  have hnodup := o.interfaces_nodup
  generalize o.objects = objects at hnodup ⊢
  induction objects with
  | nil => rfl
  | cons p objects ih =>
    have hrest := ih fun p' hp' => hnodup p' (List.mem_cons_of_mem p hp')
    have hp := hnodup p List.mem_cons_self
    simp only [devicePaths, List.flatMap_cons, List.filter_cons, List.filter_eq] at hrest ⊢
    rw [hrest]
    by_cases hmem : INTERFACE_BLUEZ_DEVICE ∈ p.2
    · have hone := List.count_eq_one_of_mem hp hmem
      simp [hmem, hone]
    · have hnone := List.count_eq_zero_of_not_mem hmem
      simp [hmem, hnone]

theorem devicePaths_nodup (o : ManagedObjects) : (devicePaths o.objects).Nodup := by
  rw [devicePaths_eq]
  exact o.paths_nodup.sublist (List.filter_sublist.map Prod.fst)

/-- The devices asked whether they are connected, those that answered no, and those that
were told to connect. -/
def asked? : Event BusCall BusAnswer → Option Path
  | ⟨.connected device, _⟩ => some device
  | _ => none

def free? : Event BusCall BusAnswer → Option Path
  | ⟨.connected device, .ok false⟩ => some device
  | _ => none

def connects? : Event BusCall BusAnswer → Option Path
  | ⟨.command (.connectProfile device _), _⟩ => some device
  | _ => none

theorem Attempt.lists {device : Path} {tr : BusTrace} (h : Attempt device tr) :
    tr.filterMap asked? = [device] ∧ tr.filterMap connects? = tr.filterMap free? := by
  cases h <;> exact ⟨rfl, rfl⟩

theorem attempts_lists {devices : List Path} {attempts : List BusTrace}
    (h : List.Forall₂ Attempt devices attempts) :
    attempts.flatten.filterMap asked? = devices ∧
      attempts.flatten.filterMap connects? = attempts.flatten.filterMap free? := by
  induction h with
  | nil => exact ⟨rfl, rfl⟩
  | cons hattempt _ ih =>
    obtain ⟨hasked, hconnects⟩ := hattempt.lists
    simp [List.filterMap_append, hasked, hconnects, ih]

theorem connectDevice_attempts {tr : BusTrace} {r : Except BusError Unit} :
    Traces connectDevice.run tr (some r) ↔
      (∃ e, tr = [⟨.getManagedObjects, .error e⟩] ∧ r = .error e) ∨
      ∃ (o : ManagedObjects) (attempts : List BusTrace),
        List.Forall₂ Attempt (devicePaths o.objects) attempts ∧
        tr = ⟨.getManagedObjects, .ok o⟩ :: attempts.flatten ∧ r = .ok () := by
  rw [connectDevice_run]
  constructor
  · intro h
    obtain ⟨-, hnone⟩ | ⟨answer, tr', rfl, h'⟩ := traces_call.mp h
    · cases hnone
    cases answer with
    | error e =>
      cases h'
      exact .inl ⟨e, rfl, rfl⟩
    | ok o =>
      obtain ⟨attempts, hattempts, rfl, rfl⟩ := connectAll_traces.mp h'
      exact .inr ⟨o, attempts, hattempts, rfl, rfl⟩
  · rintro (⟨e, rfl, rfl⟩ | ⟨o, attempts, hattempts, rfl, rfl⟩)
    · exact traces_call.mpr (.inr ⟨(.error e : Except BusError ManagedObjects), _, rfl, .ret _⟩)
    · exact traces_call.mpr (.inr ⟨(.ok o : Except BusError ManagedObjects), _, rfl,
        connectAll_traces.mpr ⟨attempts, hattempts, rfl, rfl⟩⟩)

/-- `connectDevice`, whatever is answered: it fails exactly when the objects cannot be had.
Otherwise every device is asked once, in the order of the map, those that are not connected
are told to connect, once each, and no failure keeps it from the next device. -/
theorem connectDevice_traces {tr : BusTrace} {r : Except BusError Unit} :
    (Traces connectDevice.run tr (some r) ↔
      (∃ e, tr = [⟨.getManagedObjects, .error e⟩] ∧ r = .error e) ∨
      ∃ (o : ManagedObjects) (attempts : List BusTrace),
        List.Forall₂ Attempt (devicePaths o.objects) attempts ∧
        tr = ⟨.getManagedObjects, .ok o⟩ :: attempts.flatten ∧ r = .ok ()) ∧
    (Traces connectDevice.run tr (some r) → (tr.filterMap asked?).Nodup ∧
      tr.filterMap connects? = tr.filterMap free?) := by
  refine ⟨connectDevice_attempts, fun h => ?_⟩
  obtain ⟨e, rfl, -⟩ | ⟨o, attempts, hattempts, rfl, -⟩ := connectDevice_attempts.mp h
  · exact ⟨.nil, rfl⟩
  · obtain ⟨hasked, hconnects⟩ := attempts_lists hattempts
    refine ⟨?_, hconnects⟩
    change (attempts.flatten.filterMap asked?).Nodup
    rw [hasked]
    exact devicePaths_nodup o

end Aawgd.BluetoothBus
