import Micro80.Machine.Panel
import Micro80.Proofs.Instruction.Hidden
import Micro80.Proofs.Machine.Advance
import Micro80.Proofs.Machine.Composition
import Micro80.Proofs.Machine.Journal

/-!
# Runs and hidden registers

An 8085 does not know of the registers that only the Z80 has. Whatever they hold, its runs end in
the same way, with the same contents of all other registers and of memory, the same accesses to
devices and the same reports, and at the end the hidden registers hold what they held at the
beginning.

All of this is one equation: giving other contents to the hidden registers commutes with runs.

## Main definitions

* `Machine.hidden`, `Machine.withHidden`: the hidden registers of a machine.

## Main statements

* `Machine.turn_withHidden`, `Machine.take_withHidden`: turns commute with the change.
* `Machine.runEnds_withHidden`, `Machine.runAll_withHidden`: so do runs.
* `Machine.hidden_registers_unseen`: what this means for two machines.
-/

namespace Micro80

variable {ι σ : Type}

namespace Machine

/-- The hidden registers of a machine. -/
def hidden (m : Machine ι σ) : HiddenRegisters := m.core.hidden

/-- The machine with other contents of the hidden registers. -/
def withHidden (x : HiddenRegisters) (m : Machine ι σ) : Machine ι σ :=
  m.alterCore (Core.withHidden x)

section

variable (x : HiddenRegisters) (m : Machine ι σ)

@[simp] theorem hidden_withHidden : (m.withHidden x).hidden = x := rfl

@[simp] theorem withHidden_hidden : m.withHidden m.hidden = m := rfl

@[simp] theorem variant_withHidden : (m.withHidden x).variant = m.variant := rfl

@[simp] theorem policy_withHidden : (m.withHidden x).policy = m.policy := rfl

@[simp] theorem core_withHidden : (m.withHidden x).core = m.core.withHidden x := rfl

/-! ### Reports and ports -/

theorem isView_withHidden : IsView id (withHidden x : Machine ι σ → Machine ι σ) where
  inputs _ := rfl
  outputs _ := rfl
  policy _ := rfl
  console _ := rfl
  devices _ := rfl
  withConsole _ _ := rfl
  withDevices _ _ := rfl

/-- What is told about an instruction does not come from hidden registers either. -/
theorem prepare_withHidden (i : Instruction) :
    (m.withHidden x).prepare i = (m.prepare i).withHidden x := by
  unfold prepare
  rw [(isView_withHidden x).report]
  exact (isView_withHidden x).reportAny (alterCore { m.report _ with
    fault := none
    lastPC := i.address
    phase := .execute } fun c => c.jump i.next) _

theorem skip_withHidden (e : DecodeError) :
    (m.withHidden x).skip e = (m.skip e).map (withHidden x) := by
  rw [skip_eq, skip_eq]
  simp only [report_eq, policy_withHidden]
  cases m.policy.illegalOpcode <;> rfl

/-! ### Turns -/

variable (bus : Peripherals ι σ)

theorem conclude_withHidden {α : Type} (access : Access (Machine ι σ) α) (c : Core) (a : UInt16)
    {store store' : α → Core} (stored : ∀ b, store' b = (store b).withHidden x) :
    conclude (access.map (withHidden x)) (c.withHidden x) a store' =
      (conclude access c a store).map (withHidden x) := by
  obtain ⟨m, stop, result⟩ := access
  cases result with
  | error e => rfl
  | ok b =>
    dsimp only [conclude, Access.map]
    rw [stored]
    cases stop <;> rfl

theorem settle_withHidden (a : UInt16) {e : Effect} (plainly : e.StoresPlainly) :
    (m.withHidden x).settle bus a (e.withHidden x) = (m.settle bus a e).map (withHidden x) := by
  cases e with
  | done c => rfl
  | halted c => rfl
  | input c p store =>
    dsimp only [Effect.withHidden]
    rw [settle_input, settle_input, (isView_withHidden x).readPort bus.refines_id]
    exact conclude_withHidden x _ c a fun b => plainly x c b
  | output c p b =>
    dsimp only [Effect.withHidden]
    rw [settle_output, settle_output, (isView_withHidden x).writePort bus.refines_id]
    exact conclude_withHidden x _ c a fun _ => rfl

theorem execute_withHidden {i : Instruction} (plain : i.IsPlain) :
    (m.withHidden x).execute bus i = (m.execute bus i).map (withHidden x) := by
  rw [execute_eq, execute_eq, prepare_withHidden, variant_withHidden, core_withHidden,
    Core.jump_withHidden, plain.effect?_withHidden]
  cases effect : i.effect? m.variant.layout (m.core.jump i.next) with
  | some e =>
    exact settle_withHidden x (m.prepare i) bus i.address (Instruction.storesPlainly_effect? effect)
  | none => rfl

/-- **Turns** of an 8085 do not see hidden registers and leave them as they are. -/
theorem turn_withHidden (first : Bool) {m : Machine ι σ} (plain : m.variant = .i8085) :
    (m.withHidden x).turn bus first = (m.turn bus first).map (withHidden x) := by
  cases proceeds : m.proceeds first with
  | false =>
    have proceeds' : (m.withHidden x).proceeds first = false := proceeds
    rw [turn_of_not_proceeds proceeds', turn_of_not_proceeds proceeds]
    rfl
  | true =>
    have proceeds' : (m.withHidden x).proceeds first = true := proceeds
    rw [turn_of_proceeds proceeds', turn_of_proceeds proceeds]
    cases decoded : Instruction.decode m.variant m.core.memory m.pc with
    | error e =>
      rw [advance_of_error decoded, advance_of_error (m := m.withHidden x) decoded]
      exact skip_withHidden x { m with phase := .decode } e
    | ok i =>
      rw [advance_of_ok decoded, advance_of_ok (m := m.withHidden x) decoded]
      rw [plain] at decoded
      exact execute_withHidden x { m with phase := .decode } bus
        (Instruction.isPlain_of_decode decoded)

end

/-! ### Runs -/

section

variable {m : Machine ι σ} (plain : m.variant = .i8085) (x : HiddenRegisters)
  (bus : Peripherals ι σ)

include plain

omit plain in
/-- An 8085 stays one. -/
theorem isI8085_turn (first : Bool) (y : Machine ι σ) (same : y.variant = .i8085) :
    (y.turn bus first).machine.variant = .i8085 :=
  (variant_turn bus first y).trans same

theorem take_withHidden (turns : Nat) (first : Bool) :
    (m.withHidden x).take bus turns first = (m.take bus turns first).map (withHidden x) :=
  take_map (isI8085_turn bus) (fun first _ same => turn_withHidden x bus first same) turns first
    plain

/-- **Runs,** with or without a limit, do not see hidden registers and leave them as they are. -/
theorem runEnds_withHidden (limit : Nat) (r : Machine ι σ × Cause) :
    (m.withHidden x).RunEnds bus limit r ↔
      ∃ r', m.RunEnds bus limit r' ∧ r = (r'.1.withHidden x, r'.2) :=
  runEnds_map ((Nat.eq_zero_or_pos limit).imp id fun _ => Nat.zero_le limit)
    (fun turns _ _ => take_withHidden plain x bus turns true) r

/-- **Runs one after the other** do not, either. -/
theorem runAll_withHidden (limits : List Nat) :
    (m.withHidden x).runAll bus limits =
      (m.runAll bus limits).map fun r => (r.1.withHidden x, r.2) :=
  runAll_map (isI8085_turn bus) (fun first _ same => turn_withHidden x bus first same) limits plain

/-- The accesses to devices are the same as well. -/
theorem journals_withHidden (limits : List Nat) :
    (m.withHidden x).journals bus limits = m.journals bus limits := by
  have recorded : (m.withHidden x).recording = m.recording.withHidden x := rfl
  rw [journals, recorded, runAll_withHidden (m := m.recording) plain, List.map_map]
  rfl

end

/-- **Hidden registers are not seen by an 8085.** Let two machines differ in nothing but what their
hidden registers hold. However they are run, with or without a limit, once or several times, the
runs of the one end as those of the other, with machines that again differ in nothing but what these
registers hold, and both machines have accessed their devices in the same way. In each of the
machines the hidden registers hold at the end what they held at the beginning. -/
theorem hidden_registers_unseen (bus : Peripherals ι σ) {m m' : Machine ι σ}
    (plain : m.variant = .i8085) (alike : m' = m.withHidden m'.hidden) :
    (∀ limit r', m'.RunEnds bus limit r' ↔
        ∃ r, m.RunEnds bus limit r ∧ r' = (r.1.withHidden m'.hidden, r.2)) ∧
      (∀ limits, m'.runAll bus limits =
        (m.runAll bus limits).map fun r => (r.1.withHidden m'.hidden, r.2)) ∧
      (∀ limits, m'.journals bus limits = m.journals bus limits) ∧
      ∀ y ∈ [m, m'], (∀ limit r, y.RunEnds bus limit r → r.1.hidden = y.hidden) ∧
        ∀ limits, ∀ r ∈ y.runAll bus limits, r.1.hidden = y.hidden := by
  have plain' : m'.variant = .i8085 := by
    rw [alike]
    exact plain
  -- A machine whose hidden registers are given the contents that they have is the same machine.
  have keeps : ∀ y : Machine ι σ, y.variant = .i8085 →
      (∀ limit r, y.RunEnds bus limit r → r.1.hidden = y.hidden) ∧
        ∀ limits, ∀ r ∈ y.runAll bus limits, r.1.hidden = y.hidden := by
    intro y same
    constructor
    · intro limit r ends
      rw [← withHidden_hidden y, runEnds_withHidden same] at ends
      obtain ⟨r', -, rfl⟩ := ends
      exact hidden_withHidden y.hidden r'.1
    · intro limits r ran
      rw [← withHidden_hidden y, runAll_withHidden same] at ran
      obtain ⟨r', -, rfl⟩ := List.mem_map.1 ran
      exact hidden_withHidden y.hidden r'.1
  refine ⟨fun limit r' => ?_, fun limits => ?_, fun limits => ?_, fun y hy => ?_⟩
  · have ends := runEnds_withHidden plain m'.hidden bus limit r'
    rw [← alike] at ends
    exact ends
  · have ran := runAll_withHidden plain m'.hidden bus limits
    rw [← alike] at ran
    exact ran
  · have journals := journals_withHidden plain m'.hidden bus limits
    rw [← alike] at journals
    exact journals
  · simp only [List.mem_cons, List.not_mem_nil, or_false] at hy
    obtain rfl | rfl := hy
    · exact keeps y plain
    · exact keeps y plain'

/-- A program that on a Z80 would exchange both register sets and load an index register. An 8085
that passes over what is no instruction increases HL by one. -/
def reckless : Machine Empty Unit :=
  { (start .i8085 () none).load 0 [0x21, 0x34, 0x12, 0x08, 0xD9, 0xDD, 0x23, 0x76] with
    policy := ⟨false, false⟩ }

/-- The same machine with something in an index register and in the shadow of BC. -/
def laden : Machine Empty Unit := (reckless.setRegister 14 0xBEEF).setRegister 17 0xCAFE

/-- The program does what it does without the contents, and these are still there at the end. -/
theorem hidden_registers_unseen_laden :
    reckless.variant = .i8085 ∧ laden = reckless.withHidden laden.hidden ∧
      (laden.runAll .empty [20]).map (fun r =>
        (r.1.core.registers.main.pair .hl, r.1.hidden.ix, r.1.hidden.shadow.pair .bc, r.2)) =
        [(0x1235, 0xBEEF, 0xCAFE, .stop .halt)] := by
  have plain : reckless.variant = .i8085 := by decide +kernel
  have alike : laden = reckless.withHidden laden.hidden := rfl
  obtain ⟨-, ran, -⟩ := hidden_registers_unseen .empty plain alike
  refine ⟨plain, alike, ?_⟩
  rw [ran]
  decide +kernel

end Machine

end Micro80
