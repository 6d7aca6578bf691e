import Micro80.Device

/-!
# Bench devices

Devices for trying out machines and port maps. They answer reads from a script, remember what is
written to them and count what happens; some of them fail, and some ask for a stop.

## Main definitions

* `Bench.Device`: a device and its script.
* `Bench.State`: what a device remembers.
* `Bench.peripherals`: the behaviour of several bench devices.
-/

namespace Micro80

namespace Bench

/-- **Kinds of bench devices.** -/
inductive Kind where
  /-- Answers reads from its script and remembers writes. -/
  | latch
  /-- Answers as if nothing were there, and remembers nothing but the access. -/
  | plain
  /-- A latch whose access with the given number fails. -/
  | flaky (fails : Nat)
  /-- Always fails. -/
  | broken
  /-- A latch that asks for a stop at every access, if there is a reason. -/
  | stopping (reason : Option StopReason)

/-- **Bench devices.** -/
structure Device where
  /-- The description. -/
  info : DeviceInfo
  /-- How the device behaves. -/
  kind : Kind
  /-- The bytes that reads give. -/
  script : List UInt8

/-- **States.** What a bench device remembers. -/
structure State where
  /-- The number of accesses, failures included. -/
  accesses : Nat
  /-- The number of reads that were answered from the script. -/
  reads : Nat
  /-- The number of times it was cleared. -/
  clears : Nat
  /-- The port of the last access. -/
  lastPort : Option UInt8
  /-- The bytes that were written, the newest first. -/
  newest : List UInt8

namespace State

/-- The state of a new device. -/
def fresh : State := ⟨0, 0, 0, none, []⟩

/-- The bytes that were written. -/
def written (s : State) : List UInt8 := s.newest.reverse

/-- The state after an access has begun. -/
def begin (s : State) (port : UInt8) : State :=
  { s with accesses := s.accesses + 1, lastPort := some port }

/-- The state after the device has been cleared. -/
def clear (s : State) : State := { s with clears := s.clears + 1, newest := [] }

end State

namespace Device

/-- Whether a device fails, once an access has begun. -/
def fails (d : Device) (s : State) : Bool :=
  match d.kind with
  | .broken => true
  | .flaky n => s.accesses == n
  | _ => false

/-- Whether a device does what the script says. -/
def scripted (d : Device) : Bool :=
  match d.kind with
  | .plain => false
  | _ => true

/-- The reason to stop that a device gives. -/
def stop (d : Device) : Option StopReason :=
  match d.kind with
  | .stopping reason => reason
  | _ => none

/-- The byte for the next read. The last byte of the script is repeated, and without a script there
are zeros. -/
def next (d : Device) (s : State) : UInt8 :=
  d.script.getD (min s.reads (d.script.length - 1)) 0

/-- Reading from a device. -/
def read (d : Device) (port : UInt8) (s : State) : Access State UInt8 :=
  let s := s.begin port
  if d.fails s then ⟨s, none, .error ⟨.ascii "device read failed"⟩⟩
  else if d.scripted then ⟨{ s with reads := s.reads + 1 }, d.stop, .ok (d.next s)⟩
  else ⟨s, d.stop, .ok floating⟩

/-- Writing to a device. -/
def write (d : Device) (port b : UInt8) (s : State) : Access State Unit :=
  let s := s.begin port
  if d.fails s then ⟨s, none, .error ⟨.ascii "device write failed"⟩⟩
  else if d.scripted then ⟨{ s with newest := b :: s.newest }, d.stop, .ok ()⟩
  else ⟨s, d.stop, .ok ()⟩

end Device

/-- **The bench.** The behaviour of several bench devices, numbered from zero. -/
def peripherals {n : Nat} (devices : Vector Device n) : Peripherals (Fin n) (Vector State n) where
  info i := devices[i].info
  read i port s :=
    let a := devices[i].read port s[i]
    ⟨s.set i a.state, a.stop, a.result⟩
  write i port b s :=
    let a := devices[i].write port b s[i]
    ⟨s.set i a.state, a.stop, a.result⟩
  clear i s := s.set i s[i].clear

/-- The states of new devices. -/
def fresh (n : Nat) : Vector State n := Vector.replicate n .fresh

end Bench

end Micro80
