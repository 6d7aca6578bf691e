import Micro80.Proofs.Alu.Sparing
import Micro80.Proofs.Instruction.Form
import Micro80.Proofs.Instruction.Preservation

/-!
# Flags that instructions spare

Every operation has its own flags, and leaves the others as they were. Most operations have none at
all: they make no change that concerns the flags, since among all operands that can be decoded only
those of a push and a pop have to do with them. What the primitives spare remains spared when a
result is stored, as the flags that a processor can hold are not changed by being fixed.

A block transfer sets its flags once for each byte, and so not at all if there is none.

## Main definitions

* `Operand.involvesFlags`: operands that have to do with the flags.
* `Instruction.touchedFlags`: the bits of the flags that an instruction may change.

## Main statements

* `Instruction.dst_involvesFlags_of_decode`, `Instruction.src_involvesFlags_of_decode`: which
  decoded operands have to do with the flags.
* `Core.sameBut_transferMany`: the flags that block transfers spare.
* `Instruction.keeps_touchedFlags`: instructions change no other bits.
-/

namespace Micro80

/-! ### Operands -/

namespace Operand

/-- Whether the flags are in an operand, or in the address of the byte for which it stands. -/
def involvesFlags : Operand → Bool
  | reg8 .f | reg16 (.pair .af) | indirect .af => true
  | _ => false

theorem reg16_involvesFlags {r : Reg16} (other : r ≠ .pair .af) :
    (reg16 r).involvesFlags = false := by
  cases r with
  | pair p =>
    cases p with
    | af => exact absurd rfl other
    | bc | de | hl => rfl
  | sp | ix | iy | pc => rfl

variable {o : Operand} {s : Registers} (h : o.involvesFlags = false)

include h

theorem flags_notMem_changes8 : .flags ∉ o.changes8 s := by
  intro mem
  unfold changes8 at mem
  cases place : o.place8? s with
  | none =>
    rw [place] at mem
    cases mem
  | some p =>
    rw [place] at mem
    obtain rfl := Place8.flags_mem_changes.1 mem
    cases o with
    | reg8 r =>
      cases place
      cases h
    | _ => cases place

theorem flags_notMem_changes16 : .flags ∉ o.changes16 s := by
  intro mem
  unfold changes16 at mem
  cases place : o.place16? s with
  | none =>
    rw [place] at mem
    cases mem
  | some p =>
    rw [place] at mem
    obtain rfl := Place16.flags_mem_changes.1 mem
    cases o with
    | reg16 r =>
      cases place
      cases h
    | _ => cases place

/-- Neither the place of such an operand nor what is there depends on the flags. -/
theorem value8?_setFlags (L : FlagLayout) (c : Core) (f : UInt8) :
    (c.setFlags L f).value8? o = c.value8? o := by
  cases o with
  | reg8 r =>
    cases r with
    | f => cases h
    | b | c | d | e | h | l | a => rfl
  | indirect p =>
    cases p with
    | af => cases h
    | bc | de | hl => rfl
  | indexed x d => cases x <;> rfl
  | _ => rfl

end Operand

namespace Encoding

theorem orHL_ne_af (x : Option Index) : Index.orHL x ≠ .pair .af := by
  obtain _ | _ | _ := x <;> simp [Index.orHL, Index.register]

/-- The flags have to do with an operand only if it is among the pairs with AF. -/
theorem eq_of_involvesFlags {e : Encoding} {c : Context} {i : Nat}
    (h : (e.operand c i).involvesFlags = true) : e = .pairAF := by
  have byCode (code : Fin 8) : (c.byCode code).involvesFlags = false := by
    unfold Context.byCode
    split
    · rename_i r found
      cases r with
      | f => exact absurd found (ofCode?_ne_flags code)
      | b | c | d | e | h | l | a => rfl
    · rfl
    · rfl
  have hl := Operand.reg16_involvesFlags (orHL_ne_af c.index)
  cases e with
  | pairAF => rfl
  | high => exact absurd h (Bool.eq_false_iff.1 (byCode _))
  | low => exact absurd h (Bool.eq_false_iff.1 (byCode _))
  | hl => exact absurd h (Bool.eq_false_iff.1 hl)
  | pair =>
    have pairs (code : Fin 4) : (Operand.reg16 (c.pairByCode .sp code)).involvesFlags = false :=
      match code with
      | 0 | 1 | 3 => rfl
      | 2 => hl
    exact absurd h (Bool.eq_false_iff.1 (pairs _))
  | _ => cases h

end Encoding

namespace Instruction

section

variable {v : Variant} {m : Memory} {a : UInt16} {i : Instruction} (h : decode v m a = .ok i)

include h

/-- **Of the destinations** only that of a pop may have to do with the flags, -/
theorem dst_involvesFlags_of_decode (operation : i.operation ≠ .pop) :
    i.dst.involvesFlags = false := by
  obtain ⟨lead, e, -, -, -, mem, -, rfl⟩ := exists_entry_of_decode h
  rw [e.dst_ofEntry]
  exact Bool.eq_false_iff.2 fun involves =>
    operation ((v.pairAF_of_mem e mem).1 (Encoding.eq_of_involvesFlags involves))

/-- **and of the sources** only that of a push. -/
theorem src_involvesFlags_of_decode (operation : i.operation ≠ .push) :
    i.src.involvesFlags = false := by
  obtain ⟨lead, e, -, -, -, mem, -, rfl⟩ := exists_entry_of_decode h
  rw [e.src_ofEntry]
  exact Bool.eq_false_iff.2 fun involves =>
    operation ((v.pairAF_of_mem e mem).2 (Encoding.eq_of_involvesFlags involves))

end

/-! ### Changes of the flags -/

/-- **The flags that an instruction touches.** The bits of the flags that may differ after an
instruction on a core. -/
def touchedFlags (v : Variant) (i : Instruction) (c : Core) : UInt8 :=
  match i.operation with
  | .arithmetic _ | .neg | .shift _ | .exchangeAF => 0xFF
  | .arithmetic16 k => if k = .add then v.carryFlags else 0xFF
  | .rotateA _ | .scf | .ccf => v.carryFlags
  | .inc | .dec | .bit => ~~~0x01
  | .input => if i.src = .portC then ~~~0x01 else 0
  | .daa => if v = .z80 then ~~~0x02 else 0xFF
  | .pop => if i.dst = .reg16 (.pair .af) then 0xFF else 0
  | .block _ false => 0x16
  | .block _ true => if c.registers.main.pair .bc = 0 then 0 else 0x16
  | _ => 0

/-- **Instructions without flags.** An instruction that touches no flags does not set them, but for
the complement, which sets them to what they are. -/
theorem flags_notMem_changes {v : Variant} {m : Memory} {a : UInt16} {i : Instruction}
    (h : decode v m a = .ok i) {c : Core} (untouched : i.touchedFlags v c = 0)
    (notComplement : i.operation ≠ .cpl) : .flags ∉ i.changes c := by
  have carryFlags : v.carryFlags ≠ 0 := by cases v <;> decide
  unfold touchedFlags at untouched
  unfold changes
  cases operation : i.operation with
  | nop | halt | output | ei | di | exchangeDEHL | exchangeGeneral => simp
  | rst | push => simp [Core.pushChanges]
  | jp | jr | djnz | call | ret =>
    dsimp only
    split <;> simp [Core.pushChanges]
  | move =>
    exact Operand.flags_notMem_changes8 (dst_involvesFlags_of_decode h (by simp [operation]))
  | set | res =>
    exact Operand.flags_notMem_changes8 (src_involvesFlags_of_decode h (by simp [operation]))
  | move16 | inc16 | dec16 =>
    exact Operand.flags_notMem_changes16 (dst_involvesFlags_of_decode h (by simp [operation]))
  | exchangeTop =>
    have dst := dst_involvesFlags_of_decode h (by simp [operation])
    have src := src_involvesFlags_of_decode h (by simp [operation])
    rw [List.mem_append, not_or]
    exact ⟨Operand.flags_notMem_changes16 dst, Operand.flags_notMem_changes16 src⟩
  | pop =>
    obtain ⟨r, dst, -⟩ := exists_dst_of_pop h operation
    have other : r ≠ .pair .af := by
      rintro rfl
      simp [operation, dst] at untouched
    rw [dst]
    refine List.not_mem_cons_of_ne_of_not_mem (by simp) ?_
    exact Operand.flags_notMem_changes16 (Operand.reg16_involvesFlags other)
  | input =>
    have dst := dst_involvesFlags_of_decode h (by simp [operation])
    rw [operation] at untouched
    dsimp only at untouched ⊢
    split at untouched
    · cases untouched
    · rename_i notC
      rw [if_neg notC, List.append_nil]
      exact Operand.flags_notMem_changes8 dst
  | block d repeats =>
    rw [operation] at untouched
    cases repeats with
    | false => cases untouched
    | true =>
      dsimp only at untouched
      split at untouched
      · rename_i none
        simp [none]
      · cases untouched
  | cpl => exact absurd operation notComplement
  | rotateA | scf | ccf =>
    rw [operation] at untouched
    exact absurd untouched carryFlags
  | arithmetic | neg | shift | exchangeAF | inc | dec | bit =>
    rw [operation] at untouched
    cases untouched
  | arithmetic16 k =>
    rw [operation] at untouched
    dsimp only at untouched
    split at untouched
    · exact absurd untouched carryFlags
    · cases untouched
  | daa =>
    rw [operation] at untouched
    dsimp only at untouched
    split at untouched <;> cases untouched

end Instruction

/-! ### Effects -/

section

variable {v : Variant} {c : Core} {mask : UInt8}

/-- Flags that are the same but for a mask are still so when they are set. -/
theorem Core.sameBut_setFlags (canonical : v.layout.fix c.flags = c.flags) {f : UInt8}
    (same : Flags.SameBut mask c.flags f) (c' : Core) :
    Flags.SameBut mask c.flags (c'.setFlags v.layout f).flags := by
  have fixed := same.fix v.layout
  rw [canonical] at fixed
  exact fixed

/-- **Block transfers** set half carry, parity and subtraction flag, once for each byte. -/
theorem Core.sameBut_transferMany (canonical : v.layout.fix c.flags = c.flags) (d : Direction)
    (steps : Nat) : Flags.SameBut 0x16 c.flags (c.transferMany v.layout d steps).flags := by
  induction steps generalizing c with
  | zero => exact .refl _ _
  | succ steps ih =>
    have first : Flags.SameBut 0x16 c.flags (c.transfer v.layout d).flags := by
      rw [flags_transfer]
      refine Flags.sameBut_encode canonical (Flags.sameBut_toByte (.inr rfl) (.inr rfl) ?_ ?_ ?_
        (.inr rfl))
      all_goals exact .inl rfl
    exact first.trans (ih (FlagLayout.fix_fix v _))

namespace Instruction

variable {i : Instruction}

/-- An instruction that may change all flags. -/
theorem keeps_all : ∀ e ∈ i.effect? v.layout c,
    e.Keeps (fun c' => Flags.SameBut 0xFF c.flags c'.flags) c :=
  keeps_of_survives (fun _ _ _ _ _ _ => Flags.sameBut_all _ _) (Flags.sameBut_all _ _)

/-- An instruction that touches no flags and does not set them to what they are. -/
theorem keeps_flags {m : Memory} {a : UInt16} (h : decode v m a = .ok i)
    (untouched : i.touchedFlags v c = 0) (notComplement : i.operation ≠ .cpl) :
    ∀ e ∈ i.effect? v.layout c, e.Keeps (fun c' => Flags.SameBut mask c.flags c'.flags) c := by
  refine keeps_of_survives (fun x mem _ _ makes same => ?_) (.refl _ _)
  have notSet : x ≠ .flags := by
    rintro rfl
    exact flags_notMem_changes h untouched notComplement mem
  have notExchanged : x ≠ .exchangeAF := by
    rintro rfl
    have operation : i.operation = .exchangeAF := suits_of_mem_changes _ mem
    rw [touchedFlags, operation] at untouched
    cases untouched
  rw [makes.flags_eq notSet notExchanged]
  exact same

variable (canonical : v.layout.fix c.flags = c.flags)

include canonical

/-- Setting flags spares what the primitive that computes them spares, -/
theorem keeps_setFlags {f : UInt8} (spares : Flags.SameBut mask c.flags f) (c' : Core) :
    ∀ e ∈ some (Effect.done (c'.setFlags v.layout f)),
      e.Keeps (fun c' => Flags.SameBut mask c.flags c'.flags) c :=
  keeps_some (.done (Core.sameBut_setFlags canonical spares c'))

/-- and so does arithmetic on the byte of the destination. -/
theorem keeps_flags_onDst {f : UInt8 → UInt8 → AluResult UInt8}
    (spares : ∀ a, Flags.SameBut mask c.flags (f a c.flags).flags) :
    ∀ e ∈ i.onDst v.layout c f, e.Keeps (fun c' => Flags.SameBut mask c.flags c'.flags) c :=
  keeps_map fun p _ => Core.sameBut_setFlags canonical (spares (c.read8 p)) _

/-- **Instructions spare flags.** A decoded instruction on a core with flags that the processor can
hold changes no other bits of the flags than those that it touches. -/
theorem keeps_touchedFlags {m : Memory} {a : UInt16} (h : decode v m a = .ok i) :
    ∀ e ∈ i.effect? v.layout c,
      e.Keeps (fun c' => Flags.SameBut (i.touchedFlags v c) c.flags c'.flags) c := by
  unfold touchedFlags
  cases operation : i.operation with
  | arithmetic | neg | shift | exchangeAF => exact keeps_all
  | arithmetic16 k =>
    dsimp only
    split
    · rename_i sum
      unfold effect?
      rw [operation, sum]
      dsimp only
      split
      · exact keeps_setFlags canonical (Alu.sameBut_add16 canonical _ _) _
      · exact keeps_none
    · exact keeps_all
  | inc =>
    unfold effect?
    rw [operation]
    exact keeps_flags_onDst canonical (Alu.sameBut_inc canonical)
  | dec =>
    unfold effect?
    rw [operation]
    exact keeps_flags_onDst canonical (Alu.sameBut_dec canonical)
  | bit =>
    unfold effect?
    rw [operation]
    dsimp only
    split
    · exact keeps_setFlags canonical (Alu.sameBut_bit canonical _ _) _
    · exact keeps_none
  | rotateA k =>
    unfold effect?
    rw [operation]
    exact keeps_setFlags canonical (Alu.sameBut_rotateA canonical k _) _
  | scf =>
    unfold effect?
    rw [operation]
    exact keeps_setFlags canonical (Alu.sameBut_scf canonical) _
  | ccf =>
    unfold effect?
    rw [operation]
    exact keeps_setFlags canonical (Alu.sameBut_ccf canonical) _
  | cpl =>
    unfold effect?
    rw [operation]
    have same : Flags.SameBut 0 c.flags (Alu.cpl v.layout c.accumulator c.flags).flags := by
      rw [Alu.flags_cpl canonical]
      exact .refl _ _
    exact keeps_setFlags canonical same _
  | daa =>
    dsimp only
    split
    · unfold effect?
      rw [operation]
      exact keeps_setFlags canonical (Alu.sameBut_daa canonical _) _
    · exact keeps_all
  | pop =>
    dsimp only
    split
    · exact keeps_all
    · rename_i other
      exact keeps_flags h (by simp [touchedFlags, operation, other]) (by simp [operation])
  | input =>
    dsimp only
    split
    · rename_i portC
      unfold effect?
      rw [operation, portC]
      dsimp only
      split
      · rename_i contra
        cases contra
      · exact keeps_some (.input fun b =>
          Core.sameBut_setFlags canonical (Alu.sameBut_input canonical b) _)
      · exact keeps_none
    · rename_i other
      exact keeps_flags h (by simp [touchedFlags, operation, other]) (by simp [operation])
  | block d repeats =>
    cases repeats with
    | false =>
      unfold effect?
      rw [operation]
      exact keeps_some (.done (Core.sameBut_transferMany canonical d 1))
    | true =>
      dsimp only
      split
      · rename_i none
        exact keeps_flags h (by simp [touchedFlags, operation, none]) (by simp [operation])
      · unfold effect?
        rw [operation]
        exact keeps_some (.done (Core.sameBut_transferMany canonical d _))
  | _ => exact keeps_flags h (by simp [touchedFlags, operation]) (by simp [operation])

end Instruction

end

end Micro80
