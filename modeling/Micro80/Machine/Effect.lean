import Micro80.Instruction.Decode
import Micro80.Machine.Core

/-!
# Effects of instructions

The effect of an instruction is a function of the core alone. Instructions for ports stop half way:
they tell which port they want and how the core goes on from there, and whoever owns the devices
does the rest. Nothing in the core has changed by then but the program counter.

An instruction whose operands do not fit its operation has no effect that could be told; no table of
this library contains one.

## Main definitions

* `Effect`.
* `Instruction.effect?`: the effect of an instruction on a core.
-/

namespace Micro80

/-- **Effects.** -/
inductive Effect where
  /-- The core after the instruction. -/
  | done (c : Core)
  /-- The core after an instruction that halts. -/
  | halted (c : Core)
  /-- A byte is wanted from a port. The core waits, and `store` is how it takes the byte. -/
  | input (c : Core) (port : UInt8) (store : Core → UInt8 → Core)
  /-- A byte is to go to a port. -/
  | output (c : Core) (port b : UInt8)

namespace Instruction

/-- Arithmetic on the byte for which the destination stands. -/
def onDst (L : FlagLayout) (i : Instruction) (c : Core)
    (f : UInt8 → UInt8 → AluResult UInt8) : Option Effect :=
  (i.dst.place8? c.registers).map fun p =>
    let r := f (c.read8 p) c.flags
    .done ((c.write8 L p r.value).setFlags L r.flags)

/-- A change of the word for which the destination stands. -/
def onDst16 (L : FlagLayout) (i : Instruction) (c : Core) (f : UInt16 → UInt16) :
    Option Effect :=
  (i.dst.place16? c.registers).map fun p => .done (c.write16 L p (f (c.read16 p)))

/-- A change of one bit of the byte for which the source stands. -/
def onBit (L : FlagLayout) (i : Instruction) (c : Core) (f : UInt8 → UInt8 → UInt8) :
    Option Effect :=
  match i.dst, i.src.place8? c.registers with
  | .bit n, some p => some (.done (c.write8 L p (f (c.read8 p) (1 <<< UInt8.ofNat n.val))))
  | _, _ => none

/-- **Effects.** What an instruction does to a core whose program counter stands behind it. -/
def effect? (L : FlagLayout) (i : Instruction) (c : Core) : Option Effect :=
  match i.operation with
  | .nop => some (.done c)
  | .halt => some (.halted c)
  | .move =>
    match c.value8? i.src, i.dst.place8? c.registers with
    | some b, some p => some (.done (c.write8 L p b))
    | _, _ => none
  | .move16 =>
    match c.value16? i.src, i.dst.place16? c.registers with
    | some w, some p => some (.done (c.write16 L p w))
    | _, _ => none
  | .arithmetic k =>
    (c.value8? i.src).map fun b =>
      let r := Alu.arithmetic L k c.accumulator b c.flags
      .done (if k = .cp then c.setFlags L r.flags else c.setResult L r)
  | .inc => i.onDst L c (Alu.inc L)
  | .dec => i.onDst L c (Alu.dec L)
  | .shift k => i.onDst L c (Alu.shift L k)
  | .inc16 => i.onDst16 L c (· + 1)
  | .dec16 => i.onDst16 L c (· - 1)
  | .arithmetic16 k =>
    match i.dst.place16? c.registers, c.value16? i.src with
    | some p, some w =>
      let r := Alu.arithmetic16 L k (c.read16 p) w c.flags
      some (.done ((c.write16 L p r.value).setFlags L r.flags))
    | _, _ => none
  | .neg => some (.done (c.setResult L (Alu.neg L c.accumulator)))
  | .daa => some (.done (c.setResult L (Alu.daa L c.accumulator c.flags)))
  | .cpl => some (.done (c.setResult L (Alu.cpl L c.accumulator c.flags)))
  | .scf => some (.done (c.setFlags L (Alu.scf L c.flags).flags))
  | .ccf => some (.done (c.setFlags L (Alu.ccf L c.flags).flags))
  | .rotateA k => some (.done (c.setResult L (Alu.rotateA L k c.accumulator c.flags)))
  | .bit =>
    match i.dst, c.value8? i.src with
    | .bit n, some b => some (.done (c.setFlags L (Alu.bit L n b c.flags).flags))
    | _, _ => none
  | .set => i.onBit L c fun b mask => b ||| mask
  | .res => i.onBit L c fun b mask => b &&& ~~~mask
  | .jp | .jr =>
    (c.value16? i.src).map fun a => .done (if i.dst.permits c.flags then c.jump a else c)
  | .djnz =>
    i.src.target?.map fun a =>
      let b := c.registers.get8 .b - 1
      let counted := c.set8 .b b
      .done (if b = 0 then counted else counted.jump a)
  | .call =>
    i.src.target?.map fun a =>
      .done (if i.dst.permits c.flags then (c.push c.registers.pc).jump a else c)
  | .ret => some (.done (if i.dst.permits c.flags then c.pop.jump c.top else c))
  | .rst => i.src.target?.map fun a => .done ((c.push c.registers.pc).jump a)
  | .push => (c.value16? i.src).map fun w => .done (c.push w)
  | .pop => (i.dst.place16? c.registers).map fun p => .done (c.pop.write16 L p c.top)
  | .exchangeDEHL => some (.done { c with registers := c.registers.exchangeDEHL })
  | .exchangeAF => some (.done { c with registers := c.registers.exchangeAF })
  | .exchangeGeneral => some (.done { c with registers := c.registers.exchangeGeneral })
  | .exchangeTop =>
    match i.dst.place16? c.registers, i.src.place16? c.registers with
    | some p, some q => some (.done ((c.write16 L p (c.read16 q)).write16 L q (c.read16 p)))
    | _, _ => none
  | .input =>
    match i.dst.place8? c.registers, i.src with
    | some p, .port n => some (.input c n fun c b => c.write8 L p b)
    | some p, .portC =>
      some (.input c (c.registers.get8 .c) fun c b =>
        let r := Alu.input L b c.flags
        (c.write8 L p r.value).setFlags L r.flags)
    | _, _ => none
  | .output =>
    match i.dst, c.value8? i.src with
    | .port n, some b => some (.output c n b)
    | .portC, some b => some (.output c (c.registers.get8 .c) b)
    | _, _ => none
  | .block d false => some (.done (c.transfer L d))
  | .block d true => some (.done (c.transferAll L d))
  | .ei => some (.done { c with interrupts := true })
  | .di => some (.done { c with interrupts := false })

end Instruction

end Micro80
