import Micro80.Device
import Micro80.Instruction.Disassembly
import Micro80.Log.Message
import Micro80.Machine.Core

/-!
# Events

Whatever a machine has to report is an event. An event becomes a message only where somebody
listens, so reporting costs nothing without a console.

## Main definitions

* `Event`, with `Event.severity` and `Event.message`.
-/

namespace Micro80

/-- **Events.** -/
inductive Event where
  /-- The machine has been reset. -/
  | reset (v : Variant)
  /-- So many bytes have been loaded at an address. -/
  | loaded (count : Nat) (origin : UInt16)
  /-- An instruction is about to be executed, with this accumulator and these flags. -/
  | executing (i : Instruction) (a f : UInt8)
  /-- The byte at an address begins no instruction. -/
  | undecodable (e : DecodeError) (b : UInt8) (a : UInt16)
  /-- The machine has halted at an address. -/
  | halted (v : Variant) (a : UInt16)
  /-- So many bytes are going to be copied from one address to another. -/
  | transferring (count : Nat) (source target : UInt16)
  /-- The instruction at an address has nothing to copy. -/
  | nothingToTransfer (a : UInt16)
  /-- A device has been attached. -/
  | attached (i : DeviceInfo)
  /-- A device cannot be attached. -/
  | conflict (i : DeviceInfo)
  /-- A device is being removed. -/
  | removing (i : DeviceInfo)
  /-- A port without a device has been read. -/
  | unmappedInput (port : UInt8)
  /-- A byte has been written to a port without a device. -/
  | unmappedOutput (b port : UInt8)

namespace Event

/-- An address in messages. -/
def addressText (a : UInt16) : Text := .marked 4 a.toNat

/-- A byte in messages. -/
def byteText (b : UInt8) : Text := .marked 2 b.toNat

/-- How serious an event is. -/
def severity : Event → Severity
  | executing .. | halted .. => .trace
  | undecodable .. => .warning
  | _ => .debug

/-- The line for an instruction: its address, its bytes, its text, the accumulator and the flags. -/
def traceText (i : Instruction) (a f : UInt8) : Text :=
  .hex 4 i.address.toNat ++ .ascii "/ "
    ++ .padRight 12 (i.bytes.flatMap fun b => Text.hex 2 b.toNat ++ [Text.blank]) ++ .ascii "\t"
    ++ .padRight 20 i.text ++ .ascii "\tA=" ++ .hex 2 a.toNat
    ++ .ascii " F=" ++ i.variant.layout.display f

/-- What is said about an event. -/
def text : Event → Text
  | reset v => v.name ++ .ascii " reset"
  | loaded count origin =>
    .ascii "loaded " ++ .decimal 1 (count % 0x100000000 : Nat) ++ .ascii " bytes at "
      ++ addressText origin ++ .ascii ".." ++ addressText (origin + UInt16.ofNat (count - 1))
  | executing i a f => traceText i a f
  | undecodable e b a =>
    e.message ++ .ascii " (" ++ byteText b ++ .ascii ") at " ++ addressText a
  | halted v a => v.name ++ .ascii " halted at " ++ addressText a
  | transferring count source target =>
    .ascii "block transfer of " ++ .decimal 1 count ++ .ascii " bytes from "
      ++ addressText source ++ .ascii " to " ++ addressText target
  | nothingToTransfer a =>
    .ascii "block transfer at " ++ addressText a ++ .ascii " with BC=0 ignored"
  | attached i =>
    if i.count ≤ 1 then i.description ++ .ascii " attached to port " ++ byteText i.port
    else
      i.description ++ .ascii " attached to ports " ++ byteText i.port ++ .ascii ".."
        ++ .marked 2 i.lastPort.toNat
  | conflict i =>
    i.description ++ .ascii " conflicts with an existing device at port " ++ byteText i.port
  | removing i => .ascii "removing " ++ i.description
  | unmappedInput port => .ascii "input from unimplemented port " ++ byteText port
  | unmappedOutput b port =>
    .ascii "output " ++ byteText b ++ .ascii " to unimplemented port " ++ byteText port

/-- **The message for an event.** -/
def message (e : Event) : Message := .formatted e.severity e.text

end Event

/-- What there is to report about an instruction while it takes effect on a core. -/
def Instruction.remark? (i : Instruction) (c : Core) : Option Event :=
  match i.operation with
  | .halt => some (.halted i.variant i.address)
  | .block _ true =>
    let s := c.registers.main
    let count := s.pair .bc
    if count = 0 then some (.nothingToTransfer i.address)
    else some (.transferring count.toNat (s.pair .hl) (s.pair .de))
  | _ => none

end Micro80
