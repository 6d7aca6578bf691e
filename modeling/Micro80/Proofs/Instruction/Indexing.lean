import Micro80.Memory.Inspect
import Micro80.Proofs.Instruction.Acceptance
import Micro80.Proofs.Instruction.Assembly
import Micro80.Proofs.Instruction.Faithfulness

/-!
# Index registers in the place of HL

A byte in front of an instruction of the Z80 puts an index register in the place of HL. Without that
byte, and without the distance that stands behind the opcode where the instruction works with a byte
in memory, the same entry of the table decides, and the operands are the same but for HL. So an
instruction with an index register is a substitution in one without.

This is not what the search for an entry looks like, since an entry that takes no index register
does not count when one is asked for. But the first entry that counts is then also the first one of
all, except for the opcode of the halt instruction, which hides the move from memory to memory.

## Main definitions

* `Operand.substitute`: an operand with an index register in the place of HL.
* `Operand.withIndex`, `Instruction.withIndex`: the same with another index register.
* `Instruction.bareBytes`: the bytes of an instruction without those that an index register adds.
* `Instruction.IsSubstituted`: an instruction that is another one with an index register.

## Main statements

* `Opcode.find?_of_indexed`: the entry that decides is the same without an index register.
* `Instruction.exists_isSubstituted`: an instruction with an index register is a substitution.
* `Instruction.index_replaces_hl`: the two index registers are alike, and both replace HL.
-/

namespace Micro80

/-! ### Operands -/

namespace Operand

/-- **Substitution.** The operand with an index register in the place of HL. The byte to which HL
points becomes the byte at a distance from where the index register points. -/
def substitute (x : Index) (d : Int8) : Operand → Operand
  | reg16 (.pair .hl) => reg16 x.register
  | indirect .hl => indexed x d
  | o => o

/-- The operand with another index register. -/
def withIndex (y : Index) : Operand → Operand
  | indexed _ d => indexed y d
  | reg16 .ix | reg16 .iy => reg16 y.register
  | o => o

/-- One index register comes in the place of the other as it comes in the place of HL. -/
theorem withIndex_substitute {o : Operand} (plain : o.usesIndex = false) (x y : Index) (d : Int8) :
    (o.substitute x d).withIndex y = o.substitute y d := by
  cases o with
  | reg16 r =>
    cases r with
    | pair p =>
      cases p with
      | hl => cases x <;> rfl
      | _ => rfl
    | ix | iy => cases plain
    | sp | pc => rfl
  | indirect p => cases p <;> rfl
  | indexed => cases plain
  | _ => rfl

theorem isIndexed_eq (o : Operand) : o.isIndexed = !o.displacement.isEmpty := by
  cases o <;> rfl

end Operand

namespace Encoding

theorem substitute_byCode {c c' : Context} {x : Index} {d : Int8} {code : Fin 8}
    (index : c.index = some x) (index' : c'.index = none)
    (displacement : (code.val == 6) = true → c.displacement = d) :
    c.byCode code = (c'.byCode code).substitute x d := by
  have memory : ∀ code : Fin 8, Reg8.ofCode? code = none → (code.val == 6) = true := by decide
  unfold Context.byCode
  rw [index, index']
  cases h : Reg8.ofCode? code with
  | some r => rfl
  | none =>
    rw [displacement (memory code h)]
    rfl

theorem substitute_pairByCode {c c' : Context} {x : Index} (d : Int8) {last : Reg16}
    (index : c.index = some x) (index' : c'.index = none)
    (other : (Operand.reg16 last).substitute x d = .reg16 last) (code : Fin 4) :
    .reg16 (c.pairByCode last code) =
      (Operand.reg16 (c'.pairByCode last code)).substitute x d := by
  unfold Context.pairByCode
  rw [index, index']
  match code with
  | 0 | 1 | 2 => rfl
  | 3 => exact other.symm

/-- **The operand of an encoding** with an index register and without one. The bytes of the operand
may stand in different places. -/
theorem substitute_operand {e : Encoding} (near : e ≠ .relative) {c c' : Context} {x : Index}
    {d : Int8} (index : c.index = some x) (index' : c'.index = none)
    (opcode : c.opcode = c'.opcode)
    (displacement : e.selectsMemory c'.opcode = true → c.displacement = d) {k k' : Nat}
    (bytes : ∀ n < e.size, c.byte (k + n) = c'.byte (k' + n)) :
    e.operand c k = (e.operand c' k').substitute x d := by
  have single (one : 0 < e.size) : c.byte k = c'.byte k' := bytes 0 one
  have word (two : 1 < e.size) : c.word k = c'.word k' := by
    unfold Context.word
    rw [bytes 1 two, single (by omega)]
  unfold operand
  rw [opcode]
  cases e with
  | high => exact substitute_byCode index index' displacement
  | low => exact substitute_byCode index index' displacement
  | pair => exact substitute_pairByCode d index index' rfl _
  | pairAF => exact substitute_pairByCode d index index' rfl _
  | hl =>
    rw [index, index']
    rfl
  | imm8 => exact congrArg Operand.imm8 (single (by decide))
  | port => exact congrArg Operand.port (single (by decide))
  | imm16 => exact congrArg Operand.imm16 (word (by decide))
  | direct8 => exact congrArg Operand.direct (word (by decide))
  | direct16 => exact congrArg Operand.direct16 (word (by decide))
  | address => exact congrArg Operand.address (word (by decide))
  | relative => exact absurd rfl near
  | _ => rfl

theorem isIndexed_operand (e : Encoding) (c : Context) (i : Nat) :
    (e.operand c i).isIndexed = (c.index.isSome && e.selectsMemory c.opcode) := by
  rw [Operand.isIndexed_eq, displacement_operand]
  cases c.index.isSome && e.selectsMemory c.opcode <;> rfl

end Encoding

/-! ### Entries -/

namespace Opcode

/-- The first entry of all is the first one with an index register, if it may have one. -/
theorem find?_of_indexable {table : List Opcode} {page : Option UInt8} {opcode : UInt8} {e : Opcode}
    (h : find? table page false opcode = some e) (indexable : e.indexable = true) :
    find? table page true opcode = some e := by
  unfold find? at h ⊢
  rw [List.find?_eq_some_iff_append] at h ⊢
  obtain ⟨found, before, after, rfl, earlier⟩ := h
  refine ⟨?_, before, after, rfl, fun other mem => ?_⟩
  · simpa [matching, indexable] using found
  · have := earlier other mem
    simp only [matching, Bool.not_false, Bool.true_or, Bool.and_true] at this
    simp only [matching, Bool.not_and, Bool.or_eq_true] at this ⊢
    exact .inl this

/-- The first entry of all for an opcode that takes an index register may have one. -/
theorem indexable_of_mem_indexedOpcodes :
    ∀ b ∈ Z80.indexedOpcodes, (find? Z80.opcodes none false b).any indexable = true := by
  decide +kernel

/-- **The same entry decides** without the index register. -/
theorem find?_of_indexed {b : UInt8} {e : Opcode} (mem : b ∈ Z80.indexedOpcodes)
    (h : find? Z80.opcodes none true b = some e) : find? Z80.opcodes none false b = some e := by
  obtain ⟨first, found, indexable⟩ :=
    (Option.any_eq_true _ _).1 (indexable_of_mem_indexedOpcodes b mem)
  rw [found, ← h, find?_of_indexable found indexable]

/-- An instruction that may have an index register does not go anywhere by a distance. -/
theorem near_of_indexable {e : Opcode} (mem : e ∈ Z80.opcodes)
    (indexable : e.indexable = true) : e.dst ≠ .relative ∧ e.src ≠ .relative := by
  have readable := Variant.isReadable_of_mem .z80 e mem
  constructor
  · exact fun h => Bool.false_ne_true (((readable .dst).2 h).symm.trans indexable)
  · exact fun h => Bool.false_ne_true (((readable .src).2 h).symm.trans indexable)

end Opcode

/-- What is no lead neither selects an index register nor other entries. -/
theorem Z80.plain_of_notMem_leads {b : UInt8} (h : b ∉ leads) :
    Index.ofLead? b = none ∧ Lead.isPage b = false := by
  simp only [leads, List.mem_cons, List.not_mem_nil, or_false, not_or] at h
  obtain ⟨notCB, notDD, notED, notFD⟩ := h
  constructor
  · rw [Index.ofLead?, if_neg notDD, if_neg notFD]
  · rw [Lead.isPage, beq_false_of_ne notCB, beq_false_of_ne notED]
    rfl

/-- An opcode that takes an index register is no lead. -/
theorem Z80.notMem_leads_of_mem_indexedOpcodes : ∀ b ∈ indexedOpcodes, b ∉ leads := by
  decide +kernel

/-- The verdict behind a byte that selects an index register does not depend on which one it is. -/
theorem Z80.classify_lead (x : Index) (b : UInt8) :
    classify x.lead b =
      if b ∈ indexedOpcodes then none
      else if b = 0x76 then some .memoryToMemory else some .illegalOpcode := by
  cases x <;> simp [classify, Implemented, IsMemoryMove, leads, Index.lead]

namespace Instruction

/-! ### Instructions -/

/-- Whether an instruction works with a byte to which an index register points. -/
def pointsByIndex (i : Instruction) : Bool := i.dst.isIndexed || i.src.isIndexed

/-- The bytes of an instruction without the one in front that selects an index register, and without
the distance behind the opcode if there is one. -/
def bareBytes (i : Instruction) : List UInt8 :=
  match i.bytes with
  | _ :: opcode :: rest => opcode :: if i.pointsByIndex then rest.tail else rest
  | _ => []

/-- The instruction with another index register. -/
def withIndex (y : Index) (i : Instruction) : Instruction :=
  { i with
    bytes := y.lead :: i.bytes.tail
    index := some y
    dst := i.dst.withIndex y
    src := i.src.withIndex y }

/-- **Substituted instructions.** An instruction is another one with an index register in the place
of HL, and with the given distance from it. -/
structure IsSubstituted (x : Index) (d : Int8) (i j : Instruction) : Prop where
  /-- The same entry has decided, -/
  entry_eq : i.entry = j.entry
  /-- for an instruction with the index register, -/
  index_eq : i.index = some x
  /-- and for one without. -/
  index_eq_none : j.index = none
  /-- The destinations are the same but for HL, -/
  dst_eq : i.dst = j.dst.substitute x d
  /-- and so are the sources. -/
  src_eq : i.src = j.src.substitute x d
  /-- Not both are the same. -/
  replaced : i.dst ≠ j.dst ∨ i.src ≠ j.src
  /-- The index register takes a byte, and the distance takes another one. -/
  length_eq : i.length = j.length + 1 + i.pointsByIndex.toNat

section

variable {e : Opcode} {v : Variant} {x : Index} {a a' : UInt16} {byte byte' : Nat → UInt8}

theorem pointsByIndex_ofEntry :
    (ofEntry e v ⟨some x, none, 1⟩ a byte).pointsByIndex = e.selectsMemory (byte 1) := by
  unfold pointsByIndex
  rw [e.dst_ofEntry, e.src_ofEntry, Encoding.isIndexed_operand, Encoding.isIndexed_operand]
  rfl

theorem bytes_ofEntry_indexed : (ofEntry e v ⟨some x, none, 1⟩ a byte).bytes =
    byte 0 :: byte 1 :: (List.range ((e.selectsMemory (byte 1)).toNat
      + (e.dst.size + e.src.size))).map fun k => byte (2 + k) := by
  rw [e.bytes_ofEntry, Opcode.dstAt]
  show (List.range (2 + (e.selectsMemory (byte 1)).toNat + _ + _)).map byte = _
  rw [Nat.add_assoc, Nat.add_assoc, map_range_add]
  rfl

theorem bareBytes_ofEntry : (ofEntry e v ⟨some x, none, 1⟩ a byte).bareBytes =
    byte 1 :: (List.range (e.dst.size + e.src.size)).map fun k =>
      byte (2 + (e.selectsMemory (byte 1)).toNat + k) := by
  unfold bareBytes
  rw [bytes_ofEntry_indexed, pointsByIndex_ofEntry]
  cases e.selectsMemory (byte 1) with
  | false => simp
  | true =>
    simp only [Bool.toNat_true, if_true, map_range_add _ 1]
    exact congrArg (byte 1 :: ·) (List.map_congr_left fun k _ => by rw [Nat.add_assoc])

/-- Without an index register no operand is or uses one. -/
theorem usesIndex_ofEntry (e : Opcode) (v : Variant) (a : UInt16) (byte : Nat → UInt8) :
    (ofEntry e v .empty a byte).dst.usesIndex = false ∧
      (ofEntry e v .empty a byte).src.usesIndex = false := by
  have unused (encoding : Encoding) (k : Nat) :
      (encoding.operand (e.context .empty a byte) k).usesIndex = false := by
    rw [Operand.usesIndex_eq, or_self_iff.1 (encoding.index?_operand (e.context .empty a byte) k)]
    rfl
  exact ⟨unused e.dst _, unused e.src _⟩

/-- **Instructions of an entry** with an index register and without one, from the same bytes. -/
theorem operands_ofEntry (v : Variant) (x : Index) (a a' : UInt16)
    (near : e.dst ≠ .relative ∧ e.src ≠ .relative) (opcode : byte 1 = byte' 0)
    (bytes : ∀ k < e.dst.size + e.src.size,
      byte (2 + (e.selectsMemory (byte 1)).toNat + k) = byte' (1 + k)) :
    (ofEntry e v ⟨some x, none, 1⟩ a byte).dst =
        (ofEntry e v .empty a' byte').dst.substitute x (byte 2).toInt8 ∧
      (ofEntry e v ⟨some x, none, 1⟩ a byte).src =
        (ofEntry e v .empty a' byte').src.substitute x (byte 2).toInt8 := by
  rw [e.dst_ofEntry, e.dst_ofEntry, e.src_ofEntry, e.src_ofEntry]
  have displacement (h : e.selectsMemory (byte' 0) = true) :
      (e.context ⟨some x, none, 1⟩ a byte).displacement = (byte 2).toInt8 := by
    rw [← opcode] at h
    exact if_pos h
  constructor
  · refine Encoding.substitute_operand near.1 rfl rfl opcode (fun h => displacement ?_)
      fun n hn => ?_
    · rw [Opcode.selectsMemory, Bool.or_eq_true]
      exact .inl h
    · exact bytes n (by omega)
  · refine Encoding.substitute_operand near.2 rfl rfl opcode (fun h => displacement ?_)
      fun n hn => ?_
    · rw [Opcode.selectsMemory, Bool.or_eq_true]
      exact .inr h
    · have := bytes (e.dst.size + n) (by omega)
      rw [← Nat.add_assoc, ← Nat.add_assoc] at this
      exact this

/-- **Instructions of an entry** with the one index register and with the other, from the same
bytes. -/
theorem withIndex_ofEntry (near : e.dst ≠ .relative ∧ e.src ≠ .relative) {y : Index}
    (first : byte' 0 = y.lead)
    (short : (ofEntry e v ⟨some x, none, 1⟩ a byte).length ≤ maxLength)
    (same : ∀ k, 0 < k → k < maxLength → byte' k = byte k) :
    (ofEntry e v ⟨some x, none, 1⟩ a byte).withIndex y = ofEntry e v ⟨some y, none, 1⟩ a byte' := by
  have opcode : byte' 1 = byte 1 := same 1 (by decide) (by decide)
  have distance : byte' 2 = byte 2 := same 2 (by decide) (by decide)
  have long : (ofEntry e v ⟨some x, none, 1⟩ a byte).length =
      2 + ((e.selectsMemory (byte 1)).toNat + (e.dst.size + e.src.size)) := by
    rw [length_ofEntry, Nat.add_assoc, Nat.add_assoc]
    rfl
  have rest : ∀ k < (e.selectsMemory (byte 1)).toNat + (e.dst.size + e.src.size),
      byte' (2 + k) = byte (2 + k) := fun k hk => same _ (by omega) (by omega)
  -- Both are substitutions in the instruction that has neither the first byte nor the distance.
  let bare (k : Nat) : UInt8 :=
    if k = 0 then byte 1 else byte (1 + (e.selectsMemory (byte 1)).toNat + k)
  have bare_succ (k : Nat) : bare (1 + k) = byte (2 + (e.selectsMemory (byte 1)).toNat + k) := by
    show (if 1 + k = 0 then _ else _) = _
    rw [if_neg (by omega)]
    congr 1
    omega
  have bare_zero : byte 1 = bare 0 := rfl
  obtain ⟨dst, src⟩ := operands_ofEntry v x a a near bare_zero fun k _ => (bare_succ k).symm
  obtain ⟨dst', src'⟩ := operands_ofEntry v y a a near (opcode.trans bare_zero) fun k hk => by
    rw [bare_succ, opcode, Nat.add_assoc]
    exact rest _ (by omega)
  obtain ⟨plain, plain'⟩ := usesIndex_ofEntry e v a bare
  have bytes : y.lead :: (ofEntry e v ⟨some x, none, 1⟩ a byte).bytes.tail =
      (ofEntry e v ⟨some y, none, 1⟩ a byte').bytes := by
    rw [bytes_ofEntry_indexed, bytes_ofEntry_indexed, first, opcode]
    exact congrArg (y.lead :: byte 1 :: ·)
      (List.map_congr_left fun k hk => (rest k (List.mem_range.1 hk)).symm)
  refine (Instruction.mk.injEq ..).mpr ⟨rfl, rfl, rfl, bytes, rfl, Eq.trans ?_ dst'.symm,
    Eq.trans ?_ src'.symm⟩
  · rw [dst, distance, Operand.withIndex_substitute plain]
  · rw [src, distance, Operand.withIndex_substitute plain']

end

/-! ### Decoding -/

section

variable {x : Index} {m : Memory} {a : UInt16} {i : Instruction}

/-- **An entry decides** about an instruction with an index register. -/
theorem exists_ofEntry_of_decode (first : m.read a = x.lead) (h : decode .z80 m a = .ok i) :
    ∃ e, m.ahead a 1 ∈ Z80.indexedOpcodes ∧
      Opcode.find? Z80.opcodes none true (m.ahead a 1) = some e ∧
      i = ofEntry e .z80 ⟨some x, none, 1⟩ a (m.ahead a) ∧ i.defect? = none := by
  have own := decode_eq_ok_iff.1 h
  have accepted := verdict_decodeOwn_z80 m a
  rw [own, first, Z80.classify_lead] at accepted
  have mem : m.ahead a 1 ∈ Z80.indexedOpcodes := by
    by_contra missing
    rw [← m.ahead_one, if_neg missing] at accepted
    split at accepted <;> cases accepted
  obtain ⟨lead, e, hl, he, -, rfl, sound⟩ := decodeWith_eq_ok_iff.1 own
  have selected : Index.ofLead? (m.ahead a 0) = some x := by
    rw [m.ahead_zero, first, Index.ofLead?_lead]
  simp only [Lead.read?, selected] at hl
  split at hl
  · cases hl
  · cases hl
    exact ⟨e, mem, he, rfl, sound⟩

/-- What is no lead begins an instruction, about which the entry for that byte decides. -/
theorem decode_of_notMem_leads {e : Opcode} (plain : m.ahead a 0 ∉ Z80.leads)
    (he : Opcode.find? Z80.opcodes none false (m.ahead a 0) = some e) :
    decode .z80 m a = .ok (ofEntry e .z80 .empty a (m.ahead a)) := by
  have implemented : Z80.Implemented (m.ahead a 0) (m.ahead a 1) := .inl plain
  have accepted := verdict_z80 a (m.ahead a)
  rw [Z80.classify, if_pos implemented] at accepted
  obtain ⟨j, own⟩ := verdict_eq_none_iff.1 accepted
  obtain ⟨lead, e', hl, he', -, rfl, -⟩ := decodeWith_eq_ok_iff.1 own
  obtain ⟨noIndex, noPage⟩ := Z80.plain_of_notMem_leads plain
  obtain rfl := Option.some.inj ((Lead.read?_of_plain noIndex noPage).symm.trans hl)
  obtain rfl := Option.some.inj (he'.symm.trans he)
  exact decode_eq_ok_iff.2 own

/-- **An instruction with an index register is a substitution** in the instruction that has its
other bytes, wherever these stand. -/
theorem exists_isSubstituted (first : m.read a = x.lead) (h : decode .z80 m a = .ok i)
    {m' : Memory} {a' : UInt16} (holds : m'.bytesFrom a' i.bareBytes.length = i.bareBytes) :
    ∃ j, decode .z80 m' a' = .ok j ∧ j.bytes = i.bareBytes ∧
      IsSubstituted x (m.read (a + 2)).toInt8 i j := by
  obtain ⟨e, mem, he, rfl, sound⟩ := exists_ofEntry_of_decode first h
  have near := Opcode.near_of_indexable (List.mem_of_find?_eq_some he) (indexable_of_find? he rfl)
  rw [bareBytes_ofEntry] at holds ⊢
  rw [List.length_cons, List.length_map, List.length_range, Memory.bytesFrom, Nat.add_comm] at holds
  have parts := holds
  rw [map_range_add] at parts
  obtain ⟨opcode, rest⟩ := List.cons_eq_cons.1 parts
  have found : decode .z80 m' a' = .ok (ofEntry e .z80 .empty a' (m'.ahead a')) := by
    apply decode_of_notMem_leads
    · rw [opcode]
      exact Z80.notMem_leads_of_mem_indexedOpcodes _ mem
    · rw [opcode]
      exact Opcode.find?_of_indexed mem he
  obtain ⟨dst, src⟩ := operands_ofEntry .z80 x a a' near opcode.symm
    fun k hk => (List.map_inj_left.1 rest k (List.mem_range.2 hk)).symm
  refine ⟨_, found, ?_, rfl, rfl, rfl, dst, src, ?_, ?_⟩
  · rw [e.bytes_ofEntry, Nat.add_assoc]
    exact holds
  · have used := (Bool.and_eq_true_iff.1 (usesIndexWell_of_defect? sound rfl)).1
    obtain ⟨unused, unused'⟩ := usesIndex_ofEntry e .z80 a' (m'.ahead a')
    rw [← not_and_or]
    rintro ⟨same, same'⟩
    rw [same, same', unused, unused'] at used
    cases used
  · rw [length_ofEntry, length_ofEntry, pointsByIndex_ofEntry]
    simp only [Lead.empty, Option.isSome_some, Option.isSome_none, Bool.true_and, Bool.false_and,
      Bool.toNat_false]
    omega

/-! ### The two index registers -/

/-- The 8085 has no index registers. -/
theorem verdict_i8085_of_lead (first : m.read a = x.lead) :
    verdict (decodeOwn .i8085 m a) = some .illegalOpcode := by
  rw [verdict_decodeOwn_i8085, first]
  cases x <;> rfl

/-- **Decoding with another index register** in front of the same bytes. -/
theorem decode_withIndex (first : m.read a = x.lead) {y : Index} {m' : Memory}
    (first' : m'.read a = y.lead)
    (same : ∀ k, 0 < k → k < maxLength → m'.ahead a k = m.ahead a k) :
    decode .z80 m' a = (decode .z80 m a).map (withIndex y) := by
  have second : m'.read (a + 1) = m.read (a + 1) := same 1 (by decide) (by decide)
  have verdicts : verdict (decode .z80 m' a) = verdict (decode .z80 m a) := by
    have own : verdict (decodeOwn .z80 m' a) = verdict (decodeOwn .z80 m a) := by
      rw [verdict_decodeOwn_z80, verdict_decodeOwn_z80, first, first', second,
        Z80.classify_lead, Z80.classify_lead]
    have other : verdict (decodeOwn .i8085 m' a) = verdict (decodeOwn .i8085 m a) := by
      rw [verdict_i8085_of_lead first, verdict_i8085_of_lead first']
    rw [verdict_decode, verdict_decode, own, Variant.other, other]
  cases decoded : decode .z80 m a with
  | error e =>
    rw [decoded] at verdicts
    exact verdict_eq_some_iff.1 verdicts
  | ok i =>
    rw [decoded] at verdicts
    obtain ⟨i', decoded'⟩ := verdict_eq_none_iff.1 verdicts
    rw [decoded']
    obtain ⟨e, -, he, rfl, -⟩ := exists_ofEntry_of_decode first decoded
    obtain ⟨e', -, he', rfl, -⟩ := exists_ofEntry_of_decode first' decoded'
    rw [show m'.ahead a 1 = m.ahead a 1 from second, he] at he'
    obtain rfl := Option.some.inj he'
    have near := Opcode.near_of_indexable (List.mem_of_find?_eq_some he)
      (indexable_of_find? he rfl)
    exact congrArg Except.ok (withIndex_ofEntry near ((m'.ahead_zero a).trans first')
      (isSound_of_decode decoded).length_le same).symm

/-- **Index registers replace HL.** Behind the byte for an index register the same is decoded as
behind the one for the other, apart from that register. If this is an instruction, then its bytes
are one as well without the first byte, and without the distance behind the opcode if the
instruction works with a byte in memory, wherever they stand. The same entry has decided, and the
operands are the same but for HL, in the place of which the index register has come. -/
theorem index_replaces_hl (first : m.read a = x.lead) :
    (∀ (y : Index) (m' : Memory), m'.read a = y.lead →
        (∀ k, 0 < k → k < maxLength → m'.ahead a k = m.ahead a k) →
        decode .z80 m' a = (decode .z80 m a).map (withIndex y)) ∧
      ∀ i, decode .z80 m a = .ok i → ∀ (m' : Memory) (a' : UInt16),
        m'.bytesFrom a' i.bareBytes.length = i.bareBytes →
        ∃ j, decode .z80 m' a' = .ok j ∧ j.bytes = i.bareBytes ∧
          IsSubstituted x (m.read (a + 2)).toInt8 i j :=
  ⟨fun _ _ first' same => decode_withIndex first first' same,
    fun _ h _ _ holds => exists_isSubstituted first h holds⟩

end

/-- The store of an immediate byte to where IX points, `DD 36 05 7F`, is the store of that byte to
where HL points, `36 7F`, and behind `FD` it is the store to where IY points. -/
theorem index_replaces_hl_store :
    let m := (((Memory.blank.write 0 0xDD).write 1 0x36).write 2 0x05).write 3 0x7F
    let bare := (Memory.blank.write 0x20 0x36).write 0x21 0x7F
    decode .z80 (m.write 0 0xFD) 0 = (decode .z80 m 0).map (withIndex .iy) ∧
      ∃ i j, decode .z80 m 0 = .ok i ∧ decode .z80 bare 0x20 = .ok j ∧ j.bytes = [0x36, 0x7F] ∧
        IsSubstituted .ix 5 i j := by
  intro m bare
  have first : m.read 0 = Index.ix.lead := by simp [m, Index.lead]
  have first' : (m.write 0 0xFD).read 0 = Index.iy.lead := by simp [Index.lead]
  have rest : ∀ k, 0 < k → k < maxLength → (m.write 0 0xFD).ahead 0 k = m.ahead 0 k := by
    intro k pos short
    unfold maxLength at short
    obtain rfl | rfl | rfl : k = 1 ∨ k = 2 ∨ k = 3 := by omega
    · simp [Memory.ahead]
    · simp [Memory.ahead]
    · simp [Memory.ahead]
  have both := index_replaces_hl first
  have found : (decode .z80 m 0).toOption.map bareBytes = some [0x36, 0x7F] := by decide +kernel
  obtain ⟨i, decoded, bytes⟩ := exists_decode_of_map found
  have holds : bare.bytesFrom 0x20 i.bareBytes.length = i.bareBytes := by
    rw [bytes]
    simp [bare, Memory.bytesFrom, List.range_succ, Memory.ahead]
  obtain ⟨j, hj, same, substituted⟩ := both.2 i decoded bare 0x20 holds
  have distance : m.read (0 + 2) = 5 := by simp [m]
  rw [distance] at substituted
  exact ⟨both.1 .iy _ first' rest, i, j, decoded, hj, same.trans bytes, substituted⟩

end Instruction

end Micro80
