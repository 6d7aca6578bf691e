import Micro80.Proofs.Machine.Dialogue
import Micro80.Proofs.Machine.Journal

/-!
# Reset and power on

A machine that has been reset cannot be told from a new one that has been given its memory, its
devices, its policy and its console, whatever state it was in before: halted, behind an instruction
that failed, with registers that somebody has loaded. There is one exception. A reset keeps the
address of the last instruction, and a new machine has not executed any. Nothing that a machine does
depends on this address, and the first instruction that is executed overwrites it.

So the two machines go on in the same way in all dialogues, and they are even equal as soon as some
run has executed an instruction. That devices cannot tell them apart is part of this, since their
states are a part of the machine, with a journal of the accesses to them if they keep one.

## Main definitions

* `Machine.withLastPC`: a machine with another address of the last instruction.
* `Machine.renewed`: a new machine with the surroundings of another one.
* `Machine.Idle`: dialogues in which no instruction is executed.
* `Machine.Indistinguishable`: machines that go on in the same way.

## Main statements

* `Machine.reset_eq`: a reset machine is a new one but for the address of the last instruction.
* `Machine.take_withLastPC`, `Machine.take_withLastPC_of_executes`: turns of the two machines.
* `Machine.imitates_withLastPC`: dialogues with the two machines.
* `Machine.reset_is_power_on`: all of this together.
-/

namespace Micro80

variable {ι σ : Type}

namespace Machine

/-! ### The address of the last instruction -/

/-- The machine with another address of the last instruction. -/
def withLastPC (a : UInt16) (m : Machine ι σ) : Machine ι σ := { m with lastPC := a }

/-- **New machines in old surroundings.** A new machine of the same kind that has been given the
memory, the devices at their ports, the policy and the console. -/
def renewed (m : Machine ι σ) : Machine ι σ :=
  { (start m.variant m.devices m.console : Machine ι σ).alterMemory fun _ => m.core.memory with
    inputs := m.inputs
    outputs := m.outputs
    policy := m.policy }

/-- **A reset machine** is a new one but for the address of the last instruction. -/
theorem reset_eq (m : Machine ι σ) : m.reset = m.renewed.withLastPC m.lastPC := by
  unfold renewed start reset
  rw [report_eq, report_eq]
  rfl

section

variable (a : UInt16) (m : Machine ι σ)

@[simp] theorem policy_withLastPC : (m.withLastPC a).policy = m.policy := rfl

@[simp] theorem inputs_withLastPC : (m.withLastPC a).inputs = m.inputs := rfl

@[simp] theorem outputs_withLastPC : (m.withLastPC a).outputs = m.outputs := rfl

theorem isView_withLastPC : IsView id (withLastPC a : Machine ι σ → Machine ι σ) where
  inputs _ := rfl
  outputs _ := rfl
  policy _ := rfl
  console _ := rfl
  devices _ := rfl
  withConsole _ _ := rfl
  withDevices _ _ := rfl

/-! ### Turns -/

theorem skip_withLastPC (e : DecodeError) :
    (m.withLastPC a).skip e = (m.skip e).map (withLastPC a) := by
  rw [skip_eq, skip_eq]
  simp only [report_eq, policy_withLastPC]
  cases m.policy.illegalOpcode <;> rfl

/-- The address is overwritten before an instruction takes effect. -/
theorem prepare_withLastPC (i : Instruction) : (m.withLastPC a).prepare i = m.prepare i := by
  unfold prepare
  rw [(isView_withLastPC a).report]
  rfl

theorem execute_withLastPC (bus : Peripherals ι σ) (i : Instruction) :
    (m.withLastPC a).execute bus i = m.execute bus i := by
  rw [execute_eq, execute_eq, prepare_withLastPC]
  rfl

/-- Whether the bytes at the program counter are an instruction. -/
def AtInstruction (m : Machine ι σ) : Prop :=
  ∃ i, Instruction.decode m.variant m.core.memory m.pc = .ok i

variable {a m} {bus : Peripherals ι σ} {first : Bool}

/-- **A turn that executes an instruction** does not depend on the address of the last one. -/
theorem turn_withLastPC_of_atInstruction (proceeds : m.proceeds first = true)
    (found : m.AtInstruction) : (m.withLastPC a).turn bus first = m.turn bus first := by
  obtain ⟨i, decoded⟩ := found
  have proceeds' : (m.withLastPC a).proceeds first = true := proceeds
  rw [turn_of_proceeds proceeds', turn_of_proceeds proceeds, advance_of_ok decoded,
    advance_of_ok (m := m.withLastPC a) decoded]
  exact execute_withLastPC a { m with phase := .decode } bus i

/-- **Any other turn** keeps the address of the last instruction. -/
theorem turn_withLastPC (idle : m.proceeds first = true → ¬ m.AtInstruction) :
    (m.withLastPC a).turn bus first = (m.turn bus first).map (withLastPC a) := by
  cases proceeds : m.proceeds first with
  | false =>
    have proceeds' : (m.withLastPC a).proceeds first = false := proceeds
    rw [turn_of_not_proceeds proceeds', turn_of_not_proceeds proceeds]
    rfl
  | true =>
    have proceeds' : (m.withLastPC a).proceeds first = true := proceeds
    rw [turn_of_proceeds proceeds', turn_of_proceeds proceeds]
    cases decoded : Instruction.decode m.variant m.core.memory m.pc with
    | ok i => exact absurd ⟨i, decoded⟩ (idle proceeds)
    | error e =>
      rw [advance_of_error decoded, advance_of_error (m := m.withLastPC a) decoded]
      exact skip_withLastPC a { m with phase := .decode } e

/-! ### Runs -/

/-- Turns that execute no instruction keep the address of the last one. -/
theorem take_withLastPC {turns : Nat}
    (idle : ∀ x ∈ m.visited bus turns first, ¬ x.AtInstruction) :
    (m.withLastPC a).take bus turns first = (m.take bus turns first).map (withLastPC a) := by
  induction turns generalizing first m with
  | zero => rfl
  | succ turns ih =>
    have still : m.proceeds first = true → ¬ m.AtInstruction := fun proceeds =>
      idle m (self_mem_visited proceeds turns)
    rw [take_succ, take_succ, turn_withLastPC still]
    cases turned : m.turn bus first with
    | ended x cause => rfl
    | running x =>
      rw [visited_of_running turned] at idle
      exact ih fun y hy => idle y (List.mem_cons_of_mem m hy)

/-- **Turns that execute an instruction** do not depend on the address of the last one. -/
theorem take_withLastPC_of_executes {turns : Nat}
    (executes : ∃ x ∈ m.visited bus turns first, x.AtInstruction) :
    (m.withLastPC a).take bus turns first = m.take bus turns first := by
  induction turns generalizing first m with
  | zero =>
    obtain ⟨x, hx, -⟩ := executes
    cases hx
  | succ turns ih =>
    rw [take_succ, take_succ]
    by_cases found : m.proceeds first = true ∧ m.AtInstruction
    · rw [turn_withLastPC_of_atInstruction found.1 found.2]
    · -- The instruction is still to come, so that the run has not ended.
      have still : m.proceeds first = true → ¬ m.AtInstruction := fun proceeds here =>
        found ⟨proceeds, here⟩
      obtain ⟨x, hx, here⟩ := executes
      rw [turn_withLastPC still]
      rw [visited] at hx
      split at hx
      · rename_i proceeds
        obtain rfl | later := List.mem_cons.1 hx
        · exact absurd here (still proceeds)
        · cases turned : m.turn bus first with
          | ended y cause => simp [turned] at later
          | running y =>
            rw [turned] at later
            exact ih ⟨x, later, here⟩
      · cases hx

end

/-- The instructions of a run are among those of a run with more turns. -/
theorem visited_subset_of_le {bus : Peripherals ι σ} {first : Bool} {m : Machine ι σ} {n n' : Nat}
    (le : n ≤ n') : m.visited bus n first ⊆ m.visited bus n' first := by
  induction n generalizing n' first m with
  | zero => exact List.nil_subset _
  | succ n ih =>
    obtain ⟨k, rfl⟩ := Nat.exists_eq_add_one.2 (Nat.lt_of_lt_of_le (Nat.succ_pos n) le)
    rw [visited, visited]
    split
    · split
      · exact List.cons_subset_cons _ (ih (Nat.le_of_succ_le_succ le))
      · exact List.Subset.refl _
    · exact List.Subset.refl _

/-- **Executing.** A run with the given limit, zero for none, executes an instruction, whether or
not a device then fails. -/
def Executes (bus : Peripherals ι σ) (limit : Nat) (m : Machine ι σ) : Prop :=
  ∃ turns, (limit = 0 ∨ turns ≤ limit) ∧ ∃ x ∈ m.visited bus turns true, x.AtInstruction

section

variable {a : UInt16} {m : Machine ι σ} {bus : Peripherals ι σ} {limit : Nat}

/-- **A run that executes an instruction** ends in the same way, whatever was the last one. -/
theorem runEnds_withLastPC_of_executes (executes : m.Executes bus limit) (r : Machine ι σ × Cause) :
    (m.withLastPC a).RunEnds bus limit r ↔ m.RunEnds bus limit r := by
  obtain ⟨n, enough, x, hx, found⟩ := executes
  have same : ∀ turns, n ≤ turns → limit = 0 ∨ turns ≤ limit →
      (m.withLastPC a).take bus turns true = (m.take bus turns true).map id := fun turns le _ => by
    rw [take_withLastPC_of_executes ⟨x, visited_subset_of_le le hx, found⟩]
    cases m.take bus turns true <;> rfl
  simpa using runEnds_map enough same r

/-- **A run that executes no instruction** keeps the address of the last one. -/
theorem runEnds_withLastPC (idle : ¬ m.Executes bus limit) (r : Machine ι σ × Cause) :
    (m.withLastPC a).RunEnds bus limit r ↔
      ∃ r', m.RunEnds bus limit r' ∧ r = (r'.1.withLastPC a, r'.2) :=
  runEnds_map (Nat.eq_zero_or_pos limit |>.imp id fun _ => Nat.zero_le limit)
    (fun turns _ within => take_withLastPC fun x hx found => idle ⟨turns, within, x, hx, found⟩) r

end

/-! ### Actions -/

theorem load_withLastPC (a : UInt16) (m : Machine ι σ) (origin : UInt16) (bytes : List UInt8) :
    (m.withLastPC a).load origin bytes = (m.load origin bytes).withLastPC a := by
  unfold load
  dsimp only
  split
  · rfl
  · exact (isView_withLastPC a).report (m.alterMemory fun memory => memory.load origin bytes) _

theorem loadImage_withLastPC (a : UInt16) (m : Machine ι σ) (i : Image) :
    (m.withLastPC a).loadImage i = (m.loadImage i).withLastPC a := by
  unfold loadImage
  induction i.segments generalizing m with
  | nil => rfl
  | cons s rest ih =>
    rw [List.foldl_cons, List.foldl_cons, load_withLastPC]
    exact ih (m.load s.1 s.2)

theorem reset_withLastPC (a : UInt16) (m : Machine ι σ) :
    (m.withLastPC a).reset = m.reset.withLastPC a := by
  rw [reset_eq, reset_eq]
  rfl

variable [DecidableEq ι]

theorem install_withLastPC (a : UInt16) (m : Machine ι σ) (bus : Peripherals ι σ) (d : ι) :
    (m.withLastPC a).install bus d =
      ((m.install bus d).1, (m.install bus d).2.withLastPC a) := by
  unfold install
  rw [inputs_withLastPC, outputs_withLastPC]
  obtain ⟨possible, inputs, outputs⟩ := PortMap.installBoth bus.info d m.inputs m.outputs
  have reported := (isView_withLastPC a).report { m with inputs := inputs, outputs := outputs }
  cases possible with
  | true => exact congrArg (Prod.mk true) (reported (.attached (bus.info d)))
  | false => exact congrArg (Prod.mk false) (reported (.conflict (bus.info d)))

/-- **Actions** do not depend on the address of the last instruction and keep it. -/
theorem act_withLastPC (a : UInt16) (m : Machine ι σ) (bus : Peripherals ι σ) (x : Action ι σ) :
    (m.withLastPC a).act bus x = ((m.act bus x).1.withLastPC a, (m.act bus x).2) := by
  cases x with
  | setPC | requestStop | setPolicy | alterConsole | alterMemory | removeAll | clearDevices
  | alterDevices => rfl
  | setRegister n w =>
    dsimp only [act, setRegister]
    split <;> rfl
  | load origin bytes => exact congrArg (·, Answer.done) (load_withLastPC a m origin bytes)
  | loadImage i => exact congrArg (·, Answer.done) (loadImage_withLastPC a m i)
  | install d =>
    dsimp only [act]
    rw [install_withLastPC]
  | remove d =>
    dsimp only [act, remove]
    rw [(isView_withLastPC a).report]
    rfl
  | readPort p =>
    dsimp only [act]
    rw [(isView_withLastPC a).readPort bus.refines_id]
    rfl
  | writePort p b =>
    dsimp only [act]
    rw [(isView_withLastPC a).writePort bus.refines_id]
    rfl
  | reset => exact congrArg (·, Answer.done) (reset_withLastPC a m)
  | masterClear => exact congrArg (·, Answer.done) (reset_withLastPC a (m.clearDevices bus))

/-! ### Dialogues -/

/-- **Idle dialogues.** Dialogues in which no run executes an instruction. -/
inductive Idle (bus : Peripherals ι σ) (m : Machine ι σ) :
    List (Command ι σ × Answer) → Machine ι σ → Prop where
  | start : Idle bus m [] m
  | perform {l : List (Command ι σ × Answer)} {x y : Machine ι σ} {c : Command ι σ} {a : Answer}
      (before : Idle bus m l x) (performs : x.Performs bus c a y)
      (rests : ∀ limit, c = .run limit → ¬ x.Executes bus limit) : Idle bus m ((c, a) :: l) y

/-- **Imitation.** Whatever can become of the first machine can become of the second one by the same
commands with the same answers. The outcomes can differ in the address of the last instruction, and
only as long as no instruction has been executed. -/
def Imitates (bus : Peripherals ι σ) (m m' : Machine ι σ) : Prop :=
  ∀ l x, m.Dialogue bus l x →
    ∃ x', m'.Dialogue bus l x' ∧ x' = x.withLastPC x'.lastPC ∧ (x' = x ∨ m.Idle bus l x)

/-- **Indistinguishable machines** imitate each other. -/
def Indistinguishable (bus : Peripherals ι σ) (m m' : Machine ι σ) : Prop :=
  m.Imitates bus m' ∧ m'.Imitates bus m

/-- A command that executes no instruction is performed in the same way, whatever was the last
one. -/
theorem Performs.withLastPC {bus : Peripherals ι σ} {m x : Machine ι σ} {c : Command ι σ}
    {answer : Answer} (performs : m.Performs bus c answer x)
    (rests : ∀ limit, c = .run limit → ¬ m.Executes bus limit) (a : UInt16) :
    (m.withLastPC a).Performs bus c answer (x.withLastPC a) := by
  cases performs with
  | run ends => exact .run ((runEnds_withLastPC (rests _ rfl) _).2 ⟨_, ends, rfl⟩)
  | act action =>
    rw [performs_act_iff]
    exact act_withLastPC a m bus action

/-- **Dialogues do not depend on the address of the last instruction.** -/
theorem imitates_withLastPC (bus : Peripherals ι σ) (m : Machine ι σ) (a : UInt16) :
    m.Imitates bus (m.withLastPC a) := by
  intro l x dialogue
  -- Until an instruction is executed the address stays, and then the machines are equal.
  have either : ∃ x', (m.withLastPC a).Dialogue bus l x' ∧
      (x' = x ∨ m.Idle bus l x ∧ x' = x.withLastPC a) := by
    induction dialogue with
    | start => exact ⟨m.withLastPC a, .start, .inr ⟨.start, rfl⟩⟩
    | @perform l x y c answer before performs ih =>
      obtain ⟨x', before', rfl | ⟨idle, rfl⟩⟩ := ih
      · exact ⟨y, .perform before' performs, .inl rfl⟩
      · by_cases works : ∃ limit, c = .run limit ∧ x.Executes bus limit
        · obtain ⟨limit, rfl, executes⟩ := works
          obtain ⟨cause, rfl, ends⟩ := performs_run_iff.1 performs
          have same : (x.withLastPC a).RunEnds bus limit (y, cause) :=
            (runEnds_withLastPC_of_executes executes _).2 ends
          exact ⟨y, .perform before' (.run same), .inl rfl⟩
        · have rests : ∀ limit, c = .run limit → ¬ x.Executes bus limit :=
            fun limit same executes => works ⟨limit, same, executes⟩
          exact ⟨y.withLastPC a, .perform before' (performs.withLastPC rests a),
            .inr ⟨.perform idle performs rests, rfl⟩⟩
  obtain ⟨x', dialogue', rfl | ⟨idle, rfl⟩⟩ := either
  · exact ⟨x', dialogue', rfl, .inl rfl⟩
  · exact ⟨x.withLastPC a, dialogue', rfl, .inr idle⟩

theorem indistinguishable_withLastPC (bus : Peripherals ι σ) (m : Machine ι σ) (a : UInt16) :
    (m.withLastPC a).Indistinguishable bus m :=
  ⟨imitates_withLastPC bus (m.withLastPC a) m.lastPC, imitates_withLastPC bus m a⟩

/-- **A reset is as good as switching off and on.** It leaves memory with its breakpoints, the
devices, their ports and the policy as they are. No user can tell the machine afterwards from a new
one with the same surroundings, but for the address of the last instruction until one is executed.
Nor can the devices, even if they keep a journal of the accesses to them. -/
theorem reset_is_power_on (bus : Peripherals ι σ) (m : Machine ι σ) :
    (m.reset.core.memory = m.core.memory ∧ m.reset.devices = m.devices ∧
        m.reset.inputs = m.inputs ∧ m.reset.outputs = m.outputs ∧ m.reset.policy = m.policy) ∧
      m.reset.Indistinguishable bus m.renewed ∧
      m.recording.reset.Indistinguishable bus.journaled m.recording.renewed := by
  refine ⟨?_, ?_, ?_⟩
  · unfold reset
    rw [report_eq]
    exact ⟨rfl, rfl, rfl, rfl, rfl⟩
  · rw [reset_eq]
    exact indistinguishable_withLastPC bus m.renewed m.lastPC
  · rw [reset_eq]
    exact indistinguishable_withLastPC bus.journaled m.recording.renewed m.recording.lastPC

end Machine

end Micro80
