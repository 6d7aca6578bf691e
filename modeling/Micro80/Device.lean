import Micro80.Stop
import Micro80.Text

/-!
# Devices

A machine knows a device by its description, which says at which ports and in which directions it
answers, and by what reading, writing and clearing do. Devices have states of their own; together
they are the world of the devices, which the machine carries along without looking at it.

## Main definitions

* `DeviceInfo`: the description of a device.
* `Access`: what comes of reading or writing.
* `Peripherals`: the behaviour of a collection of devices.
-/

namespace Micro80

/-! ### Descriptions -/

/-- **Device descriptions.** -/
structure DeviceInfo where
  /-- The name by which the device is found. -/
  name : Text
  /-- What sort of device it is. -/
  model : Text
  /-- Free text for messages. -/
  description : Text
  /-- Whether it answers reads. -/
  input : Bool
  /-- Whether it answers writes. -/
  output : Bool
  /-- Its first port. -/
  port : UInt8
  /-- The number of its ports. -/
  count : UInt32

namespace DeviceInfo

/-- The last port of a device. -/
def lastPort (i : DeviceInfo) : UInt32 := i.port.toUInt32 + i.count - 1

/-- **Showing a device.** Its names, its description and its ports. -/
def text (i : DeviceInfo) : Text :=
  Text.clip (i.name ++ .ascii " (" ++ i.model ++ .ascii ") " ++ i.description
      ++ .ascii " at port " ++ .marked 2 i.port.toNat)
    ++ (if 1 < i.count then Text.ascii ".." ++ Text.marked 2 i.lastPort.toNat else [])

end DeviceInfo

/-! ### Behaviour -/

/-- **Device failures.** What a device has to say when it cannot answer. -/
structure DeviceFailure where
  message : Text
  deriving DecidableEq

/-- **Accesses.** What comes of one access to something with a state: the state after it, a request
to stop, and the answer or a failure. -/
structure Access (σ α : Type) where
  /-- The state after the access. -/
  state : σ
  /-- The reason to stop after the instruction, if there is one. -/
  stop : Option StopReason
  /-- The answer. -/
  result : Except DeviceFailure α

/-- **Peripherals.** The behaviour of the devices named by `ι`, whose states together make up a
value of `σ`. -/
structure Peripherals (ι σ : Type) where
  /-- The description of a device. -/
  info : ι → DeviceInfo
  /-- Reading from a device at one of its ports. -/
  read : ι → UInt8 → σ → Access σ UInt8
  /-- Writing to a device at one of its ports. -/
  write : ι → UInt8 → UInt8 → σ → Access σ Unit
  /-- Clearing a device. -/
  clear : ι → σ → σ

/-- What is read where there is no device: the lines of the bus are high. -/
def floating : UInt8 := 0xFF

end Micro80
