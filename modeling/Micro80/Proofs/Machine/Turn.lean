import Micro80.Machine.Run
import Micro80.Proofs.Instruction.Soundness

/-!
# Turns of a run

A turn ends at once if the machine has halted or stands in front of a breakpoint that counts, and
otherwise it advances past one instruction. Only in the first turn of a run is a breakpoint passed
over, and this is all that the two kinds of turns differ in.

A run ends for one of the reasons that the machine itself knows, or because of its devices. Operands
that do not fit are not among the reasons, since no table decodes to an instruction that has them.

## Main definitions

* `Progress.machine`, `Progress.cause?`: a machine and why its run has ended, if it has.
* `Progress.map`: the same progress of machines that are looked at through a function.
* `Machine.advance`: a turn that neither a halt nor a breakpoint ends.
* `Machine.visited`: the machines in front of the instructions of a run.
* `Machine.runAll`: several runs one after the other.
* `Peripherals.empty`: the peripherals of a machine without devices.
* `Peripherals.Requests`: the reasons to stop that devices may give.
* `Machine.Ends`, `Progress.IsRegular`: why a turn can end a run, and how it leaves the machine if
  it does not.

## Main statements

* `Machine.turn_eq`: a turn advances unless a halt or a breakpoint ends it.
* `Machine.isRegular_turn`, `Machine.isRegular_take`: turns are regular.
* `Machine.keeps_turn`, `Machine.keeps_take`: what advancing keeps is kept by any number of turns.
* `Machine.take_map`, `Machine.runAll_map`: what commutes with each turn commutes with any number of
  them, and with runs.
* `Machine.run_eq`, `Machine.runFree?_eq`: both kinds of runs in terms of turns.
-/

namespace Micro80

variable {ι σ : Type}

/-! ### Progress -/

namespace Progress

/-- The machine, whether or not its run has ended. -/
def machine : Progress ι σ → Machine ι σ
  | running m => m
  | ended m _ => m

/-- Why the run has ended, if it has. -/
def cause? : Progress ι σ → Option Cause
  | running _ => none
  | ended _ cause => some cause

/-- Progress of which the end, if it has been reached, is final. -/
def andThen (p : Progress ι σ) (f : Machine ι σ → Progress ι σ) : Progress ι σ :=
  match p with
  | running m => f m
  | ended m cause => ended m cause

/-- Progress with the machine looked at through a function. -/
def map {τ : Type} (f : Machine ι σ → Machine ι τ) : Progress ι σ → Progress ι τ
  | running m => running (f m)
  | ended m cause => ended (f m) cause

@[simp] theorem machine_running (m : Machine ι σ) : (running m).machine = m := rfl

@[simp] theorem machine_ended (m : Machine ι σ) (cause : Cause) :
    (ended m cause).machine = m := rfl

@[simp] theorem cause?_running (m : Machine ι σ) : (running m).cause? = none := rfl

@[simp] theorem cause?_ended (m : Machine ι σ) (cause : Cause) :
    (ended m cause).cause? = some cause := rfl

@[simp] theorem andThen_running (m : Machine ι σ) (f : Machine ι σ → Progress ι σ) :
    (running m).andThen f = f m := rfl

@[simp] theorem andThen_ended (m : Machine ι σ) (cause : Cause)
    (f : Machine ι σ → Progress ι σ) : (ended m cause).andThen f = ended m cause := rfl

@[simp] theorem map_running {τ : Type} (f : Machine ι σ → Machine ι τ) (m : Machine ι σ) :
    (running m).map f = running (f m) := rfl

@[simp] theorem map_ended {τ : Type} (f : Machine ι σ → Machine ι τ) (m : Machine ι σ)
    (cause : Cause) : (ended m cause).map f = ended (f m) cause := rfl

@[simp] theorem machine_map {τ : Type} (f : Machine ι σ → Machine ι τ) (p : Progress ι σ) :
    (p.map f).machine = f p.machine := by
  cases p <;> rfl

@[simp] theorem cause?_map {τ : Type} (f : Machine ι σ → Machine ι τ) (p : Progress ι σ) :
    (p.map f).cause? = p.cause? := by
  cases p <;> rfl

end Progress

/-! ### Reasons to stop -/

/-- No devices. -/
def Peripherals.empty : Peripherals Empty Unit where
  info := nofun
  read := nofun
  write := nofun
  clear := nofun

/-- **Requests.** Some access to some device asks for a stop with the given reason. -/
def Peripherals.Requests (bus : Peripherals ι σ) (r : StopReason) : Prop :=
  (∃ d p s, (bus.read d p s).stop = some r) ∨ ∃ d p b s, (bus.write d p b s).stop = some r

namespace Machine

/-- **Causes of a turn.** Why a turn can end a run: for one of the reasons that the machine knows by
itself, or because a device fails or asks for it. -/
inductive Ends (bus : Peripherals ι σ) : Cause → Prop where
  | halt : Ends bus (.stop .halt)
  | breakpoint : Ends bus (.stop .breakpoint)
  | illegalOpcode : Ends bus (.stop .illegalOpcode)
  | unmappedPort : Ends bus (.stop .unmappedPort)
  | request {r : StopReason} (h : bus.Requests r) : Ends bus (.stop r)
  | failure (e : DeviceFailure) : Ends bus (.failure e)

theorem Ends.ne_malformed {bus : Peripherals ι σ} {cause : Cause} (h : Ends bus cause) :
    cause ≠ .malformed := by
  cases h <;> simp

/-- A run ends as finished by itself only if a device asks for this. -/
theorem Ends.ne_finished {bus : Peripherals ι σ} (hb : ¬ bus.Requests .finished) {cause : Cause}
    (h : Ends bus cause) : cause ≠ .stop .finished := by
  rintro rfl
  cases h with
  | request h => exact hb h

theorem ends_of_unmapped {bus : Peripherals ι σ} {policy : Policy} {r : StopReason}
    (h : policy.unmappedPort = some r) : Ends bus (.stop r) := by
  unfold Policy.unmappedPort at h
  split at h
  · cases h
    exact .unmappedPort
  · cases h

theorem ends_of_readPort {bus : Peripherals ι σ} {m : Machine ι σ} {p : UInt8} {r : StopReason}
    (h : (m.readPort bus p).stop = some r) : Ends bus (.stop r) := by
  unfold readPort at h
  split at h
  · exact ends_of_unmapped h
  · exact .request (.inl ⟨_, _, _, h⟩)

theorem ends_of_writePort {bus : Peripherals ι σ} {m : Machine ι σ} {p b : UInt8} {r : StopReason}
    (h : (m.writePort bus p b).stop = some r) : Ends bus (.stop r) := by
  unfold writePort at h
  split at h
  · exact ends_of_unmapped h
  · exact .request (.inr ⟨_, _, _, _, h⟩)

end Machine

/-- **Regular progress.** A machine that goes on is ready to fetch, and a run ends for a reason. -/
inductive Progress.IsRegular (bus : Peripherals ι σ) : Progress ι σ → Prop where
  | running {m : Machine ι σ} (h : m.phase = .fetch) : IsRegular bus (.running m)
  | ended {m : Machine ι σ} {cause : Cause} (h : Machine.Ends bus cause) :
      IsRegular bus (.ended m cause)

/-- Regular progress stays regular if its continuation is. -/
theorem Progress.IsRegular.andThen {bus : Peripherals ι σ} {p : Progress ι σ}
    (h : p.IsRegular bus) {f : Machine ι σ → Progress ι σ}
    (hf : ∀ m, m.phase = .fetch → (f m).IsRegular bus) : (p.andThen f).IsRegular bus := by
  cases h with
  | running ready => exact hf _ ready
  | ended ends => exact .ended ends

namespace Machine

/-! ### Advancing -/

/-- Whether there is a breakpoint at the program counter. -/
def atBreakpoint (m : Machine ι σ) : Bool := m.core.memory.isBreak m.pc

/-- **Proceeding.** Whether a turn deals with an instruction. -/
def proceeds (first : Bool) (m : Machine ι σ) : Bool :=
  !m.isHalted && (first || !m.atBreakpoint)

/-- **Advancing.** A turn that neither a halt nor a breakpoint ends. -/
def advance (bus : Peripherals ι σ) (m : Machine ι σ) : Progress ι σ :=
  match Instruction.decode m.variant m.core.memory m.pc with
  | .error e => { m with phase := .decode }.skip e
  | .ok i => { m with phase := .decode }.execute bus i

theorem advance_of_error {bus : Peripherals ι σ} {m : Machine ι σ} {e : DecodeError}
    (h : Instruction.decode m.variant m.core.memory m.pc = .error e) :
    m.advance bus = { m with phase := .decode }.skip e := by
  unfold advance
  rw [h]

theorem advance_of_ok {bus : Peripherals ι σ} {m : Machine ι σ} {i : Instruction}
    (h : Instruction.decode m.variant m.core.memory m.pc = .ok i) :
    m.advance bus = { m with phase := .decode }.execute bus i := by
  unfold advance
  rw [h]

/-- **A turn** advances unless a halt or a breakpoint ends it. -/
theorem turn_eq (bus : Peripherals ι σ) (first : Bool) (m : Machine ι σ) :
    m.turn bus first =
      if m.isHalted then .ended m (.stop .halt)
      else if !first && m.atBreakpoint then .ended m (.stop .breakpoint)
      else m.advance bus := by
  unfold turn isHalted
  simp only [decide_eq_true_eq]
  rfl

/-- A byte that is no instruction is passed over or ends the run, as the policy has it. -/
theorem skip_eq (m : Machine ι σ) (e : DecodeError) :
    m.skip e =
      let reported := { m with fault := some e, phase := .fetch }.report
        (.undecodable e (m.core.memory.read m.pc) m.pc)
      match m.policy.illegalOpcode with
      | some r => .ended reported (.stop r)
      | none => .running (reported.setPC (m.pc + 1)) := by
  unfold skip
  simp only [report_eq]
  rfl

theorem proceeds_iff {first : Bool} {m : Machine ι σ} :
    m.proceeds first = true ↔
      m.isHalted = false ∧ (!first && m.atBreakpoint) = false := by
  unfold proceeds
  cases m.isHalted <;> cases first <;> cases m.atBreakpoint <;> decide

theorem turn_of_proceeds {bus : Peripherals ι σ} {first : Bool} {m : Machine ι σ}
    (h : m.proceeds first = true) : m.turn bus first = m.advance bus := by
  obtain ⟨awake, free⟩ := proceeds_iff.1 h
  rw [turn_eq, awake, free]
  rfl

/-- A turn that does not deal with an instruction ends the run and changes nothing. -/
theorem turn_of_not_proceeds {bus : Peripherals ι σ} {first : Bool} {m : Machine ι σ}
    (h : m.proceeds first = false) :
    m.turn bus first =
      .ended m (.stop (if m.isHalted then .halt else .breakpoint)) := by
  rw [turn_eq]
  cases halted : m.isHalted with
  | true => rfl
  | false =>
    have stopped : (!first && m.atBreakpoint) = true := by
      rw [← Bool.not_eq_false]
      intro free
      rw [proceeds_iff.2 ⟨halted, free⟩] at h
      cases h
    rw [stopped]
    rfl

/-- **Preparing.** The machine as it is when an instruction takes effect: the program counter is
behind the instruction, and the console has been told. -/
def prepare (m : Machine ι σ) (i : Instruction) : Machine ι σ :=
  let m := m.report (.executing i m.core.accumulator m.core.flags)
  let m := { m with fault := none, lastPC := i.address, phase := .execute }
  let m := m.alterCore fun c => c.jump i.next
  m.reportAny (i.remark? m.core)

/-- Preparing changes nothing that an instruction or a device can see but the program counter. -/
theorem exists_prepare_eq (m : Machine ι σ) (i : Instruction) :
    ∃ console, m.prepare i =
      { m with
        fault := none
        lastPC := i.address
        phase := .execute
        core := m.core.jump i.next
        console := console } := by
  unfold prepare reportAny
  simp only [report_eq]
  cases i.remark? _ with
  | none => exact ⟨_, rfl⟩
  | some e => exact ⟨_, report_eq _ e⟩

@[simp] theorem core_prepare (m : Machine ι σ) (i : Instruction) :
    (m.prepare i).core = m.core.jump i.next := by
  obtain ⟨console, same⟩ := m.exists_prepare_eq i
  rw [same]

@[simp] theorem variant_prepare (m : Machine ι σ) (i : Instruction) :
    (m.prepare i).variant = m.variant := by
  obtain ⟨console, same⟩ := m.exists_prepare_eq i
  rw [same]

/-- **Execution** is preparation and the settlement of an effect, if there is one. -/
theorem execute_eq (bus : Peripherals ι σ) (m : Machine ι σ) (i : Instruction) :
    m.execute bus i =
      match i.effect? m.variant.layout (m.core.jump i.next) with
      | some e => (m.prepare i).settle bus i.address e
      | none =>
        .ended { m.prepare i with core := (m.prepare i).core.jump i.address, phase := .fetch }
          .malformed := by
  rw [← core_prepare, ← variant_prepare m i]
  rfl

/-- **Concluding.** What comes of an instruction that has accessed a port. The core takes the answer
unless there is none; then the instruction is taken back. -/
def conclude {α : Type} (access : Access (Machine ι σ) α) (c : Core) (a : UInt16)
    (store : α → Core) : Progress ι σ :=
  match access.result with
  | .ok b => access.state.complete (store b) access.stop
  | .error e => access.state.takeBack c a e

theorem settle_input (bus : Peripherals ι σ) (m : Machine ι σ) (a : UInt16) (c : Core)
    (p : UInt8) (store : Core → UInt8 → Core) :
    m.settle bus a (.input c p store) = conclude (m.readPort bus p) c a (store c) := by
  simp only [settle, conclude]
  generalize m.readPort bus p = access
  obtain ⟨m', stop, result⟩ := access
  cases result <;> rfl

theorem settle_output (bus : Peripherals ι σ) (m : Machine ι σ) (a : UInt16) (c : Core)
    (p b : UInt8) :
    m.settle bus a (.output c p b) = conclude (m.writePort bus p b) c a fun _ => c := by
  simp only [settle, conclude]
  generalize m.writePort bus p b = access
  obtain ⟨m', stop, result⟩ := access
  cases result <;> rfl

/-! ### Turns are regular -/

theorem isRegular_complete {bus : Peripherals ι σ} (m : Machine ι σ) (c : Core)
    {stop : Option StopReason} (h : ∀ r, stop = some r → Ends bus (.stop r)) :
    (m.complete c stop).IsRegular bus := by
  cases stop with
  | none => exact .running rfl
  | some r => exact .ended (h r rfl)

theorem isRegular_conclude {bus : Peripherals ι σ} {α : Type}
    {access : Access (Machine ι σ) α} (h : ∀ r, access.stop = some r → Ends bus (.stop r))
    (c : Core) (a : UInt16) (store : α → Core) : (conclude access c a store).IsRegular bus := by
  obtain ⟨m, stop, result⟩ := access
  cases result with
  | ok b => exact isRegular_complete m (store b) h
  | error e => exact .ended (.failure e)

theorem isRegular_settle (bus : Peripherals ι σ) (m : Machine ι σ) (a : UInt16) (effect : Effect) :
    (m.settle bus a effect).IsRegular bus := by
  cases effect with
  | done c => exact .running rfl
  | halted c => exact .ended .halt
  | input c p store =>
    rw [settle_input]
    exact isRegular_conclude (fun _ => ends_of_readPort) c a (store c)
  | output c p b =>
    rw [settle_output]
    exact isRegular_conclude (fun _ => ends_of_writePort) c a fun _ => c

theorem isRegular_skip (bus : Peripherals ι σ) (m : Machine ι σ) (e : DecodeError) :
    (m.skip e).IsRegular bus := by
  rw [skip_eq]
  unfold Policy.illegalOpcode
  cases m.policy.stopOnIllegalOpcode with
  | true => exact .ended .illegalOpcode
  | false => exact .running (phase_report _ _)

/-- A sound instruction has an effect, so that its execution does not end the run as malformed. -/
theorem isRegular_execute (bus : Peripherals ι σ) {v : Variant} {i : Instruction} (h : i.IsSound v)
    (m : Machine ι σ) : (m.execute bus i).IsRegular bus := by
  have works := h.isSome_effect? m.variant.layout (m.core.jump i.next)
  obtain ⟨e, effect⟩ := Option.isSome_iff_exists.1 works
  rw [execute_eq, effect]
  exact isRegular_settle bus _ _ e

theorem isRegular_advance (bus : Peripherals ι σ) (m : Machine ι σ) :
    (m.advance bus).IsRegular bus := by
  unfold advance
  split
  · exact isRegular_skip bus _ _
  · rename_i i decoded
    exact isRegular_execute bus (Instruction.isSound_of_decode decoded) _

/-- **Turns are regular.** -/
theorem isRegular_turn (bus : Peripherals ι σ) (first : Bool) (m : Machine ι σ) :
    (m.turn bus first).IsRegular bus := by
  rw [turn_eq]
  split
  · exact .ended .halt
  · split
    · exact .ended .breakpoint
    · exact isRegular_advance bus m

/-! ### Runs in turns -/

@[simp] theorem take_zero (bus : Peripherals ι σ) (first : Bool) (m : Machine ι σ) :
    m.take bus 0 first = .running m := rfl

theorem take_succ (bus : Peripherals ι σ) (turns : Nat) (first : Bool) (m : Machine ι σ) :
    m.take bus (turns + 1) first = (m.turn bus first).andThen (take bus turns false) := by
  rw [take]
  cases m.turn bus first <;> rfl

/-- **Turns are regular** however many there are. -/
theorem isRegular_take (bus : Peripherals ι σ) (turns : Nat) (first : Bool) (m : Machine ι σ) :
    (m.take bus (turns + 1) first).IsRegular bus := by
  -- At least one turn is taken; without any the machine need not be ready.
  induction turns generalizing first m with
  | zero =>
    rw [take_succ]
    exact (isRegular_turn bus first m).andThen fun m' ready => .running ready
  | succ turns ih =>
    rw [take_succ]
    exact (isRegular_turn bus first m).andThen fun m' _ => ih false m'

/-- **What advancing keeps** is kept by turns. -/
theorem keeps_turn {bus : Peripherals ι σ} {P : Machine ι σ → Prop}
    (advance : ∀ m, P m → P (m.advance bus).machine) (first : Bool) {m : Machine ι σ} (h : P m) :
    P (m.turn bus first).machine := by
  cases proceeds : m.proceeds first with
  | false =>
    rw [turn_of_not_proceeds proceeds]
    exact h
  | true =>
    rw [turn_of_proceeds proceeds]
    exact advance m h

/-- **What turns keep** is kept by any number of them. -/
theorem keeps_take {bus : Peripherals ι σ} {P : Machine ι σ → Prop}
    (turn : ∀ first m, P m → P (m.turn bus first).machine) (turns : Nat) (first : Bool)
    {m : Machine ι σ} (h : P m) : P (m.take bus turns first).machine := by
  induction turns generalizing first m with
  | zero => exact h
  | succ turns ih =>
    rw [take_succ]
    have next := turn first m h
    cases turned : m.turn bus first with
    | ended x cause =>
      rw [turned] at next
      exact next
    | running x =>
      rw [turned] at next
      exact ih false next

/-- **Turns through a function.** If a function commutes with the turns of all machines with a
property that lasts, it commutes with any number of turns of such a machine. -/
theorem take_map {τ : Type} {bus : Peripherals ι σ} {bus' : Peripherals ι τ}
    {f : Machine ι σ → Machine ι τ} {P : Machine ι σ → Prop}
    (turn : ∀ first m, P m → P (m.turn bus first).machine)
    (commutes : ∀ first m, P m → (f m).turn bus' first = (m.turn bus first).map f)
    (turns : Nat) (first : Bool) {m : Machine ι σ} (h : P m) :
    (f m).take bus' turns first = (m.take bus turns first).map f := by
  induction turns generalizing first m with
  | zero => rfl
  | succ turns ih =>
    rw [take_succ, take_succ, commutes first m h]
    have next := turn first m h
    cases turned : m.turn bus first with
    | ended x cause => rfl
    | running x =>
      rw [turned] at next
      exact ih false next

theorem run_eq (bus : Peripherals ι σ) (turns : Nat) (m : Machine ι σ) :
    m.run bus turns =
      ((m.take bus turns true).machine,
        (m.take bus turns true).cause?.getD (.stop .finished)) := by
  unfold run
  cases m.take bus turns true <;> rfl

/-- A run whose turns are those of another one, looked at through a function, ends as this one. -/
theorem run_map {τ : Type} {bus : Peripherals ι σ} {bus' : Peripherals ι τ}
    {f : Machine ι σ → Machine ι τ} {turns : Nat} {m : Machine ι σ} {m' : Machine ι τ}
    (same : m'.take bus' turns true = (m.take bus turns true).map f) :
    m'.run bus' turns = (f (m.run bus turns).1, (m.run bus turns).2) := by
  rw [run_eq, run_eq, same, Progress.machine_map, Progress.cause?_map]

/-- A step is one turn. -/
theorem step_eq (bus : Peripherals ι σ) (m : Machine ι σ) :
    m.step bus =
      ((m.turn bus true).machine, (m.turn bus true).cause?.getD (.stop .finished)) := by
  rw [step, run_eq, take_succ]
  cases m.turn bus true <;> rfl

theorem runFree?_eq (bus : Peripherals ι σ) (turns : Nat) (m : Machine ι σ) :
    m.runFree? bus turns =
      (m.take bus turns true).cause?.map fun cause =>
        ((m.take bus turns true).machine, cause) := by
  unfold runFree?
  cases m.take bus turns true <;> rfl

/-! ### The instructions of a run -/

/-- **Visits.** The machines in front of each of the instructions that a run deals with, where bytes
that are no instruction count as one. -/
def visited (bus : Peripherals ι σ) :
    (turns : Nat) → (first : Bool) → Machine ι σ → List (Machine ι σ)
  | 0, _, _ => []
  | turns + 1, first, m =>
    if m.proceeds first then
      m :: match m.turn bus first with
        | .running m => visited bus turns false m
        | .ended .. => []
    else []

theorem self_mem_visited {bus : Peripherals ι σ} {first : Bool} {m : Machine ι σ}
    (h : m.proceeds first = true) (turns : Nat) : m ∈ m.visited bus (turns + 1) first := by
  rw [visited, if_pos h]
  exact List.mem_cons_self

/-- What a run visits it deals with, and it passes over a breakpoint there only if it may do so in
its first turn. -/
theorem exists_proceeds_of_mem_visited {bus : Peripherals ι σ} {turns : Nat} {first : Bool}
    {m x : Machine ι σ} (h : x ∈ m.visited bus turns first) :
    ∃ f, (f = true → first = true) ∧ x.proceeds f = true := by
  induction turns generalizing first m with
  | zero => cases h
  | succ turns ih =>
    rw [visited] at h
    split at h
    · rename_i proceeds
      obtain rfl | later := List.mem_cons.1 h
      · exact ⟨first, id, proceeds⟩
      · split at later
        · obtain ⟨f, only, proceeds⟩ := ih later
          exact ⟨f, fun again => absurd (only again) Bool.false_ne_true, proceeds⟩
        · cases later
    · cases h

/-- A machine that goes on has dealt with an instruction and visits those of the turns to come. -/
theorem visited_of_running {bus : Peripherals ι σ} {first : Bool} {m m' : Machine ι σ}
    (h : m.turn bus first = .running m') (turns : Nat) :
    m.visited bus (turns + 1) first = m :: m'.visited bus turns false := by
  -- Otherwise the turn would have ended the run.
  have proceeds : m.proceeds first = true := by
    rw [← Bool.not_eq_false]
    intro stays
    rw [turn_of_not_proceeds stays] at h
    cases h
  rw [visited, if_pos proceeds, h]

/-- A run deals with no more instructions than it may take turns. -/
theorem length_visited_le (bus : Peripherals ι σ) (turns : Nat) (first : Bool) (m : Machine ι σ) :
    (m.visited bus turns first).length ≤ turns := by
  induction turns generalizing first m with
  | zero => exact Nat.le_refl 0
  | succ turns ih =>
    rw [visited]
    split
    · split
      · exact Nat.succ_le_succ (ih false _)
      · simp
    · simp

/-! ### Runs one after the other -/

/-- **Sequences of runs.** The machine and the cause after each of several runs, of which each
begins where the one before has ended. -/
def runAll (bus : Peripherals ι σ) : List Nat → Machine ι σ → List (Machine ι σ × Cause)
  | [], _ => []
  | turns :: rest, m => m.run bus turns :: runAll bus rest (m.run bus turns).1

/-- **Sequences of runs through a function.** If a function commutes with the turns of all machines
with a property that lasts, it commutes with sequences of runs of such a machine. -/
theorem runAll_map {τ : Type} {bus : Peripherals ι σ} {bus' : Peripherals ι τ}
    {f : Machine ι σ → Machine ι τ} {P : Machine ι σ → Prop}
    (turn : ∀ first m, P m → P (m.turn bus first).machine)
    (commutes : ∀ first m, P m → (f m).turn bus' first = (m.turn bus first).map f)
    (limits : List Nat) {m : Machine ι σ} (h : P m) :
    (f m).runAll bus' limits = (m.runAll bus limits).map fun r => (f r.1, r.2) := by
  induction limits generalizing m with
  | nil => rfl
  | cons turns rest ih =>
    have next : P (m.run bus turns).1 := by
      rw [run_eq]
      exact keeps_take turn turns true h
    rw [runAll, runAll, run_map (take_map turn commutes turns true h), ih next]
    rfl

/-- The machines in front of the instructions of several runs. -/
def visitedAll (bus : Peripherals ι σ) : List Nat → Machine ι σ → List (Machine ι σ)
  | [], _ => []
  | turns :: rest, m => m.visited bus turns true ++ visitedAll bus rest (m.run bus turns).1

end Machine

end Micro80
