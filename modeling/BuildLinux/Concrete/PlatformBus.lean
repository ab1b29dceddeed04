/-
The platform bus of driver/platform_led_demo/platform/platform.c.

Devices and drivers are entered into tables of eight and matched by name from
both sides.  A registration gives the tables behind it and the probe calls it
made, in their order; a probe does not register anything itself.
-/

import BuildLinux.FirstFit
import BuildLinux.MatchedPairs
import Mathlib.Data.List.Induction

namespace BuildLinux.Concrete.PlatformBus

open FirstFit MatchedPairs

/-- `struct platform_device`; the address tells the objects apart. -/
structure PlatformDevice where
  address : Nat
  name : String
  id : Int
  deriving DecidableEq, Repr

/-- `struct platform_driver`. -/
structure PlatformDriver where
  address : Nat
  name : String
  deriving DecidableEq, Repr

def maxDevices : Nat := 8

def maxDrivers : Nat := 8

structure Bus where
  device_table : List (Option PlatformDevice)
  driver_table : List (Option PlatformDriver)
  deriving DecidableEq, Repr

/-- The call `drv->probe(dev)`. -/
abbrev Probe := PlatformDriver × PlatformDevice

/-! ### Registration -/

def namesEqual (drv : PlatformDriver) (dev : PlatformDevice) : Bool := drv.name == dev.name

/-- The inner loop of `platform_device_register`. -/
def probeDrivers (dev : PlatformDevice) (driver_table : List (Option PlatformDriver)) :
    List Probe :=
  driver_table.filterMap fun slot =>
    slot.bind fun drv => if namesEqual drv dev then some (drv, dev) else none

/-- The inner loop of `platform_driver_register`. -/
def probeDevices (drv : PlatformDriver) (device_table : List (Option PlatformDevice)) :
    List Probe :=
  device_table.filterMap fun slot =>
    slot.bind fun dev => if namesEqual drv dev then some (drv, dev) else none

def platformDeviceRegister (dev : PlatformDevice) (bus : Bus) : Bus × List Probe :=
  match markFirst Option.isNone (fun _ => some dev) bus.device_table with
  | some (_, device_table) =>
      ({ bus with device_table := device_table }, probeDrivers dev bus.driver_table)
  | none => (bus, [])

def platformDriverRegister (drv : PlatformDriver) (bus : Bus) : Bus × List Probe :=
  match markFirst Option.isNone (fun _ => some drv) bus.driver_table with
  | some (_, driver_table) =>
      ({ bus with driver_table := driver_table }, probeDevices drv bus.device_table)
  | none => (bus, [])

inductive Registration where
  | device (dev : PlatformDevice)
  | driver (drv : PlatformDriver)
  deriving DecidableEq, Repr

def Registration.call : Registration → Bus → Bus × List Probe
  | .device dev => platformDeviceRegister dev
  | .driver drv => platformDriverRegister drv

def emptyBus : Bus where
  device_table := slots maxDevices []
  driver_table := slots maxDrivers []

/-- The bus behind a sequence of calls, with all the probes made so far. -/
def busAfter (calls : List Registration) : Bus × List Probe :=
  calls.foldl (fun state call => ((call.call state.1).1, state.2 ++ (call.call state.1).2))
    (emptyBus, [])

/-! ### What was registered -/

def devicesOf (calls : List Registration) : List PlatformDevice :=
  calls.filterMap fun call => match call with
    | .device dev => some dev
    | .driver _ => none

def driversOf (calls : List Registration) : List PlatformDriver :=
  calls.filterMap fun call => match call with
    | .device _ => none
    | .driver drv => some drv

theorem filterMap_ite {item result : Type} (wanted : item → Bool) (make : item → result)
    (items : List item) :
    items.filterMap (fun x => if wanted x then some (make x) else none) =
      (items.filter wanted).map make := by
  induction items with
  | nil => rfl
  | cons first rest ih =>
      cases isWanted : wanted first with
      | true => simp [isWanted, ih]
      | false => simp [isWanted, ih]

theorem probeDrivers_slots (dev : PlatformDevice) (drivers : List PlatformDriver) :
    probeDrivers dev (slots maxDrivers drivers) =
      (drivers.filter fun drv => namesEqual drv dev).map fun drv => (drv, dev) := by
  rw [probeDrivers, filterMap_slots]
  exact filterMap_ite (fun drv => namesEqual drv dev) (fun drv => (drv, dev)) drivers

theorem probeDevices_slots (drv : PlatformDriver) (devices : List PlatformDevice) :
    probeDevices drv (slots maxDevices devices) =
      (devices.filter (namesEqual drv)).map fun dev => (drv, dev) := by
  rw [probeDevices, filterMap_slots]
  exact filterMap_ite (namesEqual drv) (fun dev => (drv, dev)) devices

theorem platformDeviceRegister_slots (dev : PlatformDevice) (devices : List PlatformDevice)
    (driver_table : List (Option PlatformDriver)) :
    platformDeviceRegister dev ⟨slots maxDevices devices, driver_table⟩ =
      if devices.length < maxDevices then
        (⟨slots maxDevices (devices ++ [dev]), driver_table⟩, probeDrivers dev driver_table)
      else (⟨slots maxDevices devices, driver_table⟩, []) := by
  rw [platformDeviceRegister, fill_slots]
  by_cases room : devices.length < maxDevices
  · rw [if_pos room, if_pos room]
  · rw [if_neg room, if_neg room]

theorem platformDriverRegister_slots (drv : PlatformDriver) (drivers : List PlatformDriver)
    (device_table : List (Option PlatformDevice)) :
    platformDriverRegister drv ⟨device_table, slots maxDrivers drivers⟩ =
      if drivers.length < maxDrivers then
        (⟨device_table, slots maxDrivers (drivers ++ [drv])⟩, probeDevices drv device_table)
      else (⟨device_table, slots maxDrivers drivers⟩, []) := by
  rw [platformDriverRegister, fill_slots]
  by_cases room : drivers.length < maxDrivers
  · rw [if_pos room, if_pos room]
  · rw [if_neg room, if_neg room]

/-! ### Every sequence of registrations -/

/-- The first eight of each kind fill the tables, and their matches were probed. -/
structure Matched (calls : List Registration) (state : Bus × List Probe) : Prop where
  devices : state.1.device_table = slots maxDevices ((devicesOf calls).take maxDevices)
  drivers : state.1.driver_table = slots maxDrivers ((driversOf calls).take maxDrivers)
  probes : state.2.Perm
    (matchedPairs namesEqual ((driversOf calls).take maxDrivers)
      ((devicesOf calls).take maxDevices))

theorem take_arrived {item : Type} (size : Nat) (items : List item) (arrived : item) :
    (items ++ [arrived]).take size =
      if (items.take size).length < size then items.take size ++ [arrived]
      else items.take size := by
  rw [List.length_take]
  by_cases room : items.length < size
  · have fits : (items ++ [arrived]).length ≤ size := by
      rw [List.length_append, List.length_singleton]
      omega
    rw [if_pos (by omega), List.take_of_length_le fits,
      List.take_of_length_le (Nat.le_of_lt room)]
  · rw [if_neg (by omega), List.take_append_of_le_length (by omega)]

theorem device_matched {calls : List Registration} {state : Bus × List Probe}
    (matched : Matched calls state) (dev : PlatformDevice) :
    Matched (calls ++ [.device dev])
      ((platformDeviceRegister dev state.1).1,
        state.2 ++ (platformDeviceRegister dev state.1).2) := by
  have devices : devicesOf (calls ++ [.device dev]) = devicesOf calls ++ [dev] :=
    List.filterMap_append
  have drivers : driversOf (calls ++ [.device dev]) = driversOf calls := by
    rw [driversOf, List.filterMap_append]
    exact List.append_nil _
  have isBus : state.1 = ⟨slots maxDevices ((devicesOf calls).take maxDevices),
      slots maxDrivers ((driversOf calls).take maxDrivers)⟩ := by
    rw [← matched.devices, ← matched.drivers]
  rw [isBus, platformDeviceRegister_slots]
  by_cases room : ((devicesOf calls).take maxDevices).length < maxDevices
  · rw [if_pos room, probeDrivers_slots]
    constructor
    · rw [devices, take_arrived, if_pos room]
    · rw [drivers]
    · rw [devices, drivers, take_arrived, if_pos room]
      exact (matched.probes.append_right _).trans (matchedPairs_right _ _ _ dev).symm
  · rw [if_neg room]
    constructor
    · rw [devices, take_arrived, if_neg room]
    · rw [drivers]
    · rw [devices, drivers, take_arrived, if_neg room, List.append_nil]
      exact matched.probes

theorem driver_matched {calls : List Registration} {state : Bus × List Probe}
    (matched : Matched calls state) (drv : PlatformDriver) :
    Matched (calls ++ [.driver drv])
      ((platformDriverRegister drv state.1).1,
        state.2 ++ (platformDriverRegister drv state.1).2) := by
  have devices : devicesOf (calls ++ [.driver drv]) = devicesOf calls := by
    rw [devicesOf, List.filterMap_append]
    exact List.append_nil _
  have drivers : driversOf (calls ++ [.driver drv]) = driversOf calls ++ [drv] :=
    List.filterMap_append
  have isBus : state.1 = ⟨slots maxDevices ((devicesOf calls).take maxDevices),
      slots maxDrivers ((driversOf calls).take maxDrivers)⟩ := by
    rw [← matched.devices, ← matched.drivers]
  rw [isBus, platformDriverRegister_slots]
  by_cases room : ((driversOf calls).take maxDrivers).length < maxDrivers
  · rw [if_pos room, probeDevices_slots]
    constructor
    · rw [devices]
    · rw [drivers, take_arrived, if_pos room]
    · rw [devices, drivers, take_arrived, if_pos room, matchedPairs_left]
      exact matched.probes.append_right _
  · rw [if_neg room]
    constructor
    · rw [devices]
    · rw [drivers, take_arrived, if_neg room]
    · rw [devices, drivers, take_arrived, if_neg room, List.append_nil]
      exact matched.probes

theorem busAfter_matched (calls : List Registration) : Matched calls (busAfter calls) := by
  induction calls using List.reverseRecOn with
  | nil => exact ⟨rfl, rfl, List.Perm.refl _⟩
  | append_singleton calls call ih =>
      have stepped : busAfter (calls ++ [call]) =
          ((call.call (busAfter calls).1).1,
            (busAfter calls).2 ++ (call.call (busAfter calls).1).2) := by
        rw [busAfter, List.foldl_append]
        rfl
      rw [stepped]
      cases call with
      | device dev => exact device_matched ih dev
      | driver drv => exact driver_matched ih drv

/-- Each pair of equal names among the first eight of each kind is probed once,
and nothing else is; later registrations do nothing. -/
theorem probes_exact {calls : List Registration} (devicesDistinct : (devicesOf calls).Nodup)
    (driversDistinct : (driversOf calls).Nodup) :
    (busAfter calls).2.Nodup ∧
      (∀ drv dev, (drv, dev) ∈ (busAfter calls).2 ↔
        drv ∈ (driversOf calls).take 8 ∧ dev ∈ (devicesOf calls).take 8 ∧
          drv.name = dev.name) ∧
      (∀ dev, 8 ≤ (devicesOf calls).length →
        platformDeviceRegister dev (busAfter calls).1 = ((busAfter calls).1, [])) ∧
      ∀ drv, 8 ≤ (driversOf calls).length →
        platformDriverRegister drv (busAfter calls).1 = ((busAfter calls).1, []) := by
  have matched := busAfter_matched calls
  have isBus : (busAfter calls).1 = ⟨slots maxDevices ((devicesOf calls).take maxDevices),
      slots maxDrivers ((driversOf calls).take maxDrivers)⟩ := by
    rw [← matched.devices, ← matched.drivers]
  refine ⟨?_, ?_, ?_, ?_⟩
  · apply matched.probes.nodup_iff.mpr
    exact matchedPairs_nodup (driversDistinct.sublist (List.take_sublist _ _))
      (devicesDistinct.sublist (List.take_sublist _ _))
  · intro drv dev
    rw [matched.probes.mem_iff, mem_matchedPairs, namesEqual, beq_iff_eq]
    rfl
  · intro dev full
    have noRoom : ¬((devicesOf calls).take maxDevices).length < maxDevices := by
      rw [List.length_take, maxDevices]
      omega
    rw [isBus, platformDeviceRegister_slots, if_neg noRoom]
  · intro drv full
    have noRoom : ¬((driversOf calls).take maxDrivers).length < maxDrivers := by
      rw [List.length_take, maxDrivers]
      omega
    rw [isBus, platformDriverRegister_slots, if_neg noRoom]

/-- Two drivers of one name and a device between them. -/
theorem both_drivers_probed :
    (busAfter [.driver ⟨1, "led"⟩, .device ⟨2, "led", 0⟩, .driver ⟨3, "led"⟩]).2 =
        [(⟨1, "led"⟩, ⟨2, "led", 0⟩), (⟨3, "led"⟩, ⟨2, "led", 0⟩)] ∧
      (busAfter [.driver ⟨1, "led"⟩, .device ⟨2, "led", 0⟩, .driver ⟨3, "led"⟩]).2.Nodup :=
  ⟨by decide, (probes_exact (by decide) (by decide)).1⟩

end BuildLinux.Concrete.PlatformBus
