import Micro80.Device

/-!
# Port maps

A port map says which device answers at each of the 256 ports of one direction, and which devices
are in the map at all, each once. A device may hold any number of ports.

A range of ports is given by its first port and a count of 32 bits. Its end is computed in 32 bits
too, so a count that reaches beyond them leaves a range without a port.

## Main definitions

* `PortMap`, with `PortMap.install?`, `PortMap.removePort?` and `PortMap.remove?`.
* `PortMap.installBoth`: one device in the maps of both directions.
* `PortMap.clearOnce`: every device of two maps cleared once.
-/

namespace Micro80

/-- All ports in ascending order. -/
def allPorts : List UInt8 := (List.range 256).map UInt8.ofNat

theorem mem_allPorts (p : UInt8) : p ∈ allPorts := by
  rw [allPorts, List.mem_map]
  exact ⟨p.toNat, List.mem_range.2 p.toNat_lt, UInt8.ofNat_toNat⟩

/-- Whether a port is in the range of `count` ports that starts with `first`. -/
def inRange (first : UInt8) (count : UInt32) (p : UInt8) : Bool :=
  first ≤ p && p.toUInt32 < first.toUInt32 + count

/-- **Port maps.** -/
structure PortMap (ι : Type) where
  /-- The device at a port. -/
  owner : UInt8 → Option ι
  /-- The devices in the map, the newest first. -/
  devices : List ι

namespace PortMap

variable {ι σ : Type}

/-- The map without devices. -/
def empty : PortMap ι := ⟨fun _ => none, []⟩

/-- The number of ports with a device. -/
def count (m : PortMap ι) : Nat := allPorts.countP fun p => (m.owner p).isSome

/-- Whether some port of a range has a device. -/
def isBusy (m : PortMap ι) (first : UInt8) (count : UInt32) : Bool :=
  allPorts.any fun p => inRange first count p && (m.owner p).isSome

/-- The device with a given name. -/
def findName? (info : ι → DeviceInfo) (m : PortMap ι) (name : Text) : Option ι :=
  m.devices.find? fun d => (info d).name == name

variable [DecidableEq ι]

/-- The lowest port of a device. -/
def lowest? (m : PortMap ι) (d : ι) : Option UInt8 :=
  allPorts.find? fun p => m.owner p = some d

/-- Whether a device is in the map. -/
def has (m : PortMap ι) (d : ι) : Bool := m.devices.contains d

/-! ### Installing and removing -/

/-- **Installing a device** at a range of ports. Nothing is installed where the range reaches beyond
the last port or where one of its ports has a device. -/
def install? (m : PortMap ι) (d : ι) (first : UInt8) (count : UInt32) : Option (PortMap ι) :=
  if 256 < first.toUInt32 + count ∨ m.isBusy first count then none
  else some
    { owner := fun p => if inRange first count p then some d else m.owner p
      devices := if m.has d then m.devices else d :: m.devices }

/-- A device that has been installed is at the ports of its range, and the other ports are as they
were. -/
theorem owner_install? {m m' : PortMap ι} {d : ι} {first : UInt8} {count : UInt32}
    (h : m.install? d first count = some m') (p : UInt8) :
    m'.owner p = if inRange first count p then some d else m.owner p := by
  unfold install? at h
  split at h
  · cases h
  · cases h
    rfl

/-- A device is installed at ports without a device only. -/
theorem not_isBusy_of_install? {m m' : PortMap ι} {d : ι} {first : UInt8} {count : UInt32}
    (h : m.install? d first count = some m') : m.isBusy first count = false := by
  unfold install? at h
  split at h
  · cases h
  · rename_i free
    exact Bool.eq_false_iff.2 fun busy => free (.inr busy)

/-- Removes whatever is at one port. A device goes out of the map with its last port. There is
nothing to remove where there is no device. -/
def removePort? (m : PortMap ι) (port : UInt8) : Option (PortMap ι) :=
  match m.owner port with
  | none => none
  | some d =>
    let owner := fun p => if p = port then none else m.owner p
    let stays := allPorts.any fun p => owner p = some d
    some { owner := owner, devices := if stays then m.devices else m.devices.filter (· ≠ d) }

/-- The map without a device. -/
def without (m : PortMap ι) (d : ι) : PortMap ι where
  owner := fun p => if m.owner p = some d then none else m.owner p
  devices := m.devices.filter (· ≠ d)

/-- A map without a device is the same at the ports of the others. -/
theorem owner_without (m : PortMap ι) (d : ι) (p : UInt8) :
    (m.without d).owner p = if m.owner p = some d then none else m.owner p := rfl

/-- Removing what is at one port leaves the other ports as they are. -/
theorem owner_removePort? {m m' : PortMap ι} {port : UInt8} (h : m.removePort? port = some m')
    (p : UInt8) : m'.owner p = if p = port then none else m.owner p := by
  unfold removePort? at h
  split at h
  · cases h
  · cases h
    rfl

/-- Removes a device from all of its ports. There is nothing to remove where it has none. -/
def remove? (m : PortMap ι) (d : ι) : Option (PortMap ι) :=
  (m.lowest? d).map fun _ => m.without d

/-- **Both directions.** Installs a device at its own ports in the maps of its directions, and says
whether that was possible. If it is possible in one of them only, neither keeps it. -/
def installBoth (info : ι → DeviceInfo) (d : ι) (inputs outputs : PortMap ι) :
    Bool × PortMap ι × PortMap ι :=
  let i := info d
  if i.input && inputs.isBusy i.port i.count || i.output && outputs.isBusy i.port i.count then
    (false, inputs, outputs)
  else
    match if i.input then inputs.install? d i.port i.count else some inputs with
    | none => (false, inputs, outputs)
    | some inputs' =>
      match if i.output then outputs.install? d i.port i.count else some outputs with
      | none => (false, inputs'.without d, outputs)
      | some outputs' => (true, inputs', outputs')

/-! ### Using the devices -/

omit [DecidableEq ι] in
/-- Reads from a port. A port without a device gives the value `default`. -/
def read (bus : Peripherals ι σ) (m : PortMap ι) (p : UInt8) (default : UInt8) (s : σ) :
    Access σ UInt8 :=
  match m.owner p with
  | none => ⟨s, none, .ok default⟩
  | some d => bus.read d p s

omit [DecidableEq ι] in
/-- Writes to a port. A port without a device ignores it. -/
def write (bus : Peripherals ι σ) (m : PortMap ι) (p b : UInt8) (s : σ) : Access σ Unit :=
  match m.owner p with
  | none => ⟨s, none, .ok ()⟩
  | some d => bus.write d p b s

omit [DecidableEq ι] in
/-- Clears each device of a map. -/
def clearAll (bus : Peripherals ι σ) (m : PortMap ι) (s : σ) : σ :=
  m.devices.foldl (fun s d => bus.clear d s) s

/-- **Clearing once.** Clears each device that is in one of two maps, a device in both of them only
once. -/
def clearOnce (bus : Peripherals ι σ) (inputs outputs : PortMap ι) (s : σ) : σ :=
  (outputs.devices.filter fun d => !inputs.has d).foldl (fun s d => bus.clear d s)
    (inputs.clearAll bus s)

end PortMap

end Micro80
