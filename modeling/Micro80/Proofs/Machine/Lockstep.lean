import Mathlib.Data.List.Forall2
import Micro80.Proofs.Instruction.Compatibility
import Micro80.Proofs.Machine.Journal

/-!
# Lockstep of the two processors

An 8085 and a Z80 run in lockstep if they have agreeing cores, the same devices in the same states
and the same policy. As long as the 8085 meets portable instructions only, they stay in lockstep,
turn by turn, and their runs end for the same causes.

The machines need not have the same console, and nothing is said about what they report. Nor does it
matter what was wrong when they last decoded something, or where that was.

## Main definitions

* `Machine.Parallel`, `Machine.Lockstep`.
* `Machine.IsPortable`: the instruction at the program counter is portable.

## Main statements

* `Machine.lockstep_start`, `Machine.Lockstep.install`, `Machine.Lockstep.load`: machines that have
  been set up alike are in lockstep.
* `Machine.Lockstep.turn`: a turn at a portable instruction keeps machines in lockstep.
* `Machine.Lockstep.take`, `Machine.Lockstep.run`, `Machine.Lockstep.runFree?`: so do runs in which
  all instructions are portable.
-/

namespace Micro80

variable {ι σ : Type}

/-! ### Relations on outcomes -/

/-- Progress of two machines that are related, for the same cause if it has come to an end. -/
inductive Progress.Rel (R : Machine ι σ → Machine ι σ → Prop) :
    Progress ι σ → Progress ι σ → Prop where
  | running {m m' : Machine ι σ} (h : R m m') : Rel R (.running m) (.running m')
  | ended {m m' : Machine ι σ} (h : R m m') (cause : Cause) :
      Rel R (.ended m cause) (.ended m' cause)

namespace Progress.Rel

variable {R : Machine ι σ → Machine ι σ → Prop} {p q : Progress ι σ} (h : p.Rel R q)

include h

theorem machine : R p.machine q.machine := by
  cases h <;> assumption

theorem cause?_eq : p.cause? = q.cause? := by
  cases h <;> rfl

theorem andThen {f g : Machine ι σ → Progress ι σ}
    (hfg : ∀ m m', p = .running m → R m m' → (f m).Rel R (g m')) :
    (p.andThen f).Rel R (q.andThen g) := by
  cases h with
  | running related => exact hfg _ _ rfl related
  | ended related cause => exact .ended related cause

end Progress.Rel

/-- Accesses with the same answers after which the machines are related. -/
structure Access.Rel {α : Type} (R : Machine ι σ → Machine ι σ → Prop)
    (a b : Access (Machine ι σ) α) : Prop where
  state : R a.state b.state
  stop : a.stop = b.stop
  result : a.result = b.result

namespace Machine

/-! ### Side by side -/

/-- **Machines side by side.** An 8085 and a Z80 with the same devices and the same policy. -/
structure Parallel (m m' : Machine ι σ) : Prop where
  i8085 : m.variant = .i8085
  z80 : m'.variant = .z80
  policy : m.policy = m'.policy
  inputs : m.inputs = m'.inputs
  outputs : m.outputs = m'.outputs
  devices : m.devices = m'.devices

/-- **Lockstep.** Machines side by side with agreeing cores, and both are halted or neither is. -/
structure Lockstep (m m' : Machine ι σ) : Prop extends Parallel m m' where
  isHalted : m.isHalted = m'.isHalted
  core : m.core.Agree m'.core

namespace Parallel

variable {m m' : Machine ι σ} (h : m.Parallel m')

include h

theorem report (e e' : Event) : (m.report e).Parallel (m'.report e') := by
  rw [report_eq, report_eq]
  exact ⟨h.i8085, h.z80, h.policy, h.inputs, h.outputs, h.devices⟩

theorem prepare (i j : Instruction) : (m.prepare i).Parallel (m'.prepare j) := by
  obtain ⟨console, same⟩ := m.exists_prepare_eq i
  obtain ⟨console', same'⟩ := m'.exists_prepare_eq j
  rw [same, same']
  exact ⟨h.i8085, h.z80, h.policy, h.inputs, h.outputs, h.devices⟩

/-- An access to the same device with the same outcome. -/
theorem lift {α : Type} (a : Access σ α) : (m.lift a).Rel Parallel (m'.lift a) :=
  ⟨⟨h.i8085, h.z80, h.policy, h.inputs, h.outputs, rfl⟩, rfl, rfl⟩

theorem readPort (bus : Peripherals ι σ) (p : UInt8) :
    (m.readPort bus p).Rel Parallel (m'.readPort bus p) := by
  unfold Machine.readPort
  rw [h.inputs, h.devices]
  cases m'.inputs.owner p with
  | none => exact ⟨h.report _ _, congrArg Policy.unmappedPort h.policy, rfl⟩
  | some d => exact h.lift _

theorem writePort (bus : Peripherals ι σ) (p b : UInt8) :
    (m.writePort bus p b).Rel Parallel (m'.writePort bus p b) := by
  unfold Machine.writePort
  rw [h.outputs, h.devices]
  cases m'.outputs.owner p with
  | none => exact ⟨h.report _ _, congrArg Policy.unmappedPort h.policy, rfl⟩
  | some d => exact h.lift _

/-- Machines side by side are in lockstep once they are given a phase and agreeing cores. -/
theorem lockstep {c d : Core} (hc : c.Agree d) (phase : Phase) :
    Lockstep { m with core := c, phase := phase } { m' with core := d, phase := phase } :=
  ⟨⟨h.i8085, h.z80, h.policy, h.inputs, h.outputs, h.devices⟩, rfl, hc⟩

theorem complete {c d : Core} (hc : c.Agree d) (stop : Option StopReason) :
    (m.complete c stop).Rel Lockstep (m'.complete d stop) := by
  cases stop with
  | none => exact .running (h.lockstep hc .fetch)
  | some r => exact .ended (h.lockstep hc .fetch) (.stop r)

theorem takeBack {c d : Core} (hc : c.Agree d) (a : UInt16) (e : DeviceFailure) :
    (m.takeBack c a e).Rel Lockstep (m'.takeBack d a e) :=
  .ended (h.lockstep (hc.jump a) .fetch) (.failure e)

end Parallel

theorem conclude_rel {α : Type} {access access' : Access (Machine ι σ) α}
    (h : access.Rel Parallel access') {c d : Core} (hc : c.Agree d) (a : UInt16)
    {store store' : α → Core} (stored : ∀ b, (store b).Agree (store' b)) :
    (conclude access c a store).Rel Lockstep (conclude access' d a store') := by
  unfold conclude
  rw [h.stop, h.result]
  cases access'.result with
  | ok b => exact h.state.complete (stored b) access'.stop
  | error e => exact h.state.takeBack hc a e

/-- **Settling** agreeing effects. -/
theorem Parallel.settle {m m' : Machine ι σ} (h : m.Parallel m') (bus : Peripherals ι σ)
    (a : UInt16) {e e' : Effect} (he : e.Agree e') :
    (m.settle bus a e).Rel Lockstep (m'.settle bus a e') := by
  cases he with
  | done hc => exact h.complete hc none
  | halted hc => exact .ended (h.lockstep hc .halted) (.stop .halt)
  | input hc stored =>
    rw [settle_input, settle_input]
    exact conclude_rel (h.readPort bus _) hc a stored
  | output hc =>
    rw [settle_output, settle_output]
    exact conclude_rel (h.writePort bus _ _) hc a fun _ => hc

/-! ### Setting up -/

theorem agree_reset (v w : Variant) (m : Memory) (b : Bool) :
    Core.Agree ⟨.reset v.layout.reset, m, b⟩ ⟨.reset w.layout.reset, m, b⟩ where
  byte r hr := by
    cases r with
    | f => exact absurd rfl hr
    | _ => rfl
  sp := rfl
  pc := rfl
  memory := rfl
  interrupts := rfl
  flags := by
    show Flags.Agree v.layout.reset w.layout.reset
    cases v <;> cases w <;> exact ⟨by decide, by decide, by decide⟩

/-- New machines are in lockstep. -/
theorem lockstep_start (s : σ) (console console' : Option Console) :
    (start .i8085 s console : Machine ι σ).Lockstep (start .z80 s console') := by
  unfold start reset
  rw [report_eq, report_eq]
  refine ⟨⟨rfl, rfl, rfl, rfl, rfl, rfl⟩, rfl, ?_⟩
  dsimp only
  exact agree_reset .i8085 .z80 .blank false

namespace Lockstep

variable {m m' : Machine ι σ} (h : m.Lockstep m')

include h

theorem report (e e' : Event) : (m.report e).Lockstep (m'.report e') := by
  refine ⟨h.toParallel.report e e', ?_, ?_⟩
  · rw [Machine.isHalted, Machine.isHalted, phase_report, phase_report]
    exact h.isHalted
  · rw [core_report, core_report]
    exact h.core

theorem install [DecidableEq ι] (bus : Peripherals ι σ) (d : ι) :
    (m.install bus d).2.Lockstep (m'.install bus d).2 := by
  have wired : ∀ inputs outputs : PortMap ι, Lockstep
      { m with inputs := inputs, outputs := outputs }
      { m' with inputs := inputs, outputs := outputs } := fun inputs outputs =>
    ⟨⟨h.i8085, h.z80, h.policy, rfl, rfl, h.devices⟩, h.isHalted, h.core⟩
  unfold Machine.install
  rw [h.inputs, h.outputs]
  obtain ⟨possible, inputs, outputs⟩ := PortMap.installBoth bus.info d m'.inputs m'.outputs
  cases possible <;> exact (wired inputs outputs).report _ _

theorem load (origin : UInt16) (bytes : List UInt8) :
    (m.load origin bytes).Lockstep (m'.load origin bytes) := by
  have loaded : Lockstep (m.alterMemory fun memory => memory.load origin bytes)
      (m'.alterMemory fun memory => memory.load origin bytes) := by
    unfold alterMemory alterCore
    dsimp only
    rw [h.core.memory]
    exact ⟨⟨h.i8085, h.z80, h.policy, h.inputs, h.outputs, h.devices⟩, h.isHalted,
      h.core.store _⟩
  unfold Machine.load
  dsimp only
  split
  · exact loaded
  · exact loaded.report _ _

end Lockstep

/-! ### Turns -/

/-- **Portability.** There is a portable instruction at the program counter. -/
def IsPortable (m : Machine ι σ) : Prop :=
  ∃ i, Instruction.decode m.variant m.core.memory m.pc = .ok i ∧ i.IsPortable

instance decidableIsPortable (m : Machine ι σ) : Decidable m.IsPortable :=
  match h : Instruction.decode m.variant m.core.memory m.pc with
  | .ok i =>
    decidable_of_iff i.IsPortable
      ⟨fun portable => ⟨i, h, portable⟩, fun ⟨_, decoded, portable⟩ => by
        cases h.symm.trans decoded
        exact portable⟩
  | .error _ => isFalse fun ⟨_, decoded, _⟩ => nomatch h.symm.trans decoded

namespace Lockstep

variable {m m' : Machine ι σ} (h : m.Lockstep m') (bus : Peripherals ι σ)

include h

/-- Like instructions that are shared keep machines in lockstep. -/
theorem execute {i j : Instruction} (like : i.IsLike j) (shared : i.IsShared) :
    ({ m with phase := .decode }.execute bus i).Rel Lockstep
      ({ m' with phase := .decode }.execute bus j) := by
  have ready : Parallel { m with phase := .decode } { m' with phase := .decode } :=
    ⟨h.i8085, h.z80, h.policy, h.inputs, h.outputs, h.devices⟩
  have effects := Instruction.agree_effect? shared m.variant m'.variant (h.core.jump i.next)
  rw [like.effect? m'.variant.layout, like.next] at effects
  rw [execute_eq, execute_eq, like.next, ← like.address]
  generalize i.effect? m.variant.layout (m.core.jump j.next) = o at effects ⊢
  generalize j.effect? m'.variant.layout (m'.core.jump j.next) = o' at effects ⊢
  cases effects with
  | some effects => exact (ready.prepare i j).settle bus i.address effects
  | none =>
    -- This does not happen to sound instructions, but lockstep would not be lost by it.
    refine .ended ((ready.prepare i j).lockstep ?_ .fetch) .malformed
    rw [core_prepare, core_prepare, like.next]
    exact (h.core.jump _).jump _

/-- The 8085 decodes a portable instruction, and the Z80 decodes one that does the same. -/
theorem advance (portable : m.IsPortable) :
    (m.advance bus).Rel Lockstep (m'.advance bus) := by
  obtain ⟨i, decoded, portable⟩ := portable
  have own := decoded
  rw [h.i8085] at own
  -- Memory and program counter are the same, so the Z80 decodes the same bytes.
  obtain ⟨j, decoded', like⟩ := Instruction.exists_decode_z80 own
  have same : Instruction.decode m'.variant m'.core.memory m'.pc = .ok j := by
    have pc : m.pc = m'.pc := h.core.pc
    rw [h.z80, ← h.core.memory, ← pc]
    exact decoded'
  unfold Machine.advance
  rw [decoded, same]
  exact h.execute bus like (Instruction.isShared_of_decode own portable)

theorem atBreakpoint_eq : m.atBreakpoint = m'.atBreakpoint := by
  unfold atBreakpoint
  rw [h.core.memory, show m.pc = m'.pc from h.core.pc]

theorem proceeds_eq (first : Bool) : m.proceeds first = m'.proceeds first := by
  unfold proceeds
  rw [h.isHalted, h.atBreakpoint_eq]

/-- **A turn** at a portable instruction keeps machines in lockstep, and so does one that does not
deal with an instruction. -/
theorem turn (first : Bool) (portable : m.proceeds first = true → m.IsPortable) :
    (m.turn bus first).Rel Lockstep (m'.turn bus first) := by
  cases proceeds : m.proceeds first with
  | true =>
    have proceeds' : m'.proceeds first = true := by rw [← h.proceeds_eq first, proceeds]
    rw [turn_of_proceeds proceeds, turn_of_proceeds proceeds']
    exact h.advance bus (portable proceeds)
  | false =>
    have proceeds' : m'.proceeds first = false := by rw [← h.proceeds_eq first, proceeds]
    rw [turn_of_not_proceeds proceeds, turn_of_not_proceeds proceeds', h.isHalted]
    exact .ended h _

/-! ### Runs -/

/-- **Turns** at portable instructions keep machines in lockstep. -/
theorem take (turns : Nat) (first : Bool)
    (portable : ∀ x ∈ m.visited bus turns first, x.IsPortable) :
    (m.take bus turns first).Rel Lockstep (m'.take bus turns first) := by
  induction turns generalizing first m m' with
  | zero => exact .running h
  | succ turns ih =>
    have step := h.turn bus first fun proceeds => portable m (self_mem_visited proceeds turns)
    rw [take_succ, take_succ]
    -- What is visited after this turn is visited by the whole run.
    refine step.andThen fun m₁ m₁' here h₁ => ih h₁ false fun x later => portable x ?_
    rw [visited_of_running here]
    exact List.mem_cons_of_mem m later

/-- **Runs** through portable instructions end in lockstep, for the same cause. -/
theorem run (turns : Nat) (portable : ∀ x ∈ m.visited bus turns true, x.IsPortable) :
    (m.run bus turns).1.Lockstep (m'.run bus turns).1 ∧
      (m.run bus turns).2 = (m'.run bus turns).2 := by
  have ends := h.take bus turns true portable
  rw [run_eq, run_eq]
  exact ⟨ends.machine, congrArg (·.getD (.stop .finished)) ends.cause?_eq⟩

/-- Runs without a limit end in lockstep, for the same cause, if they end at all. -/
theorem runFree? (turns : Nat) (portable : ∀ x ∈ m.visited bus turns true, x.IsPortable) :
    Option.Rel (fun r r' => r.1.Lockstep r'.1 ∧ r.2 = r'.2)
      (m.runFree? bus turns) (m'.runFree? bus turns) := by
  rw [runFree?_eq, runFree?_eq]
  have ends := h.take bus turns true portable
  rw [ends.cause?_eq]
  cases (m'.take bus turns true).cause? with
  | none => exact .none
  | some cause => exact .some ⟨ends.machine, rfl⟩

/-- **Several runs** through portable instructions end in lockstep, each for the same cause. -/
theorem runAll (limits : List Nat) (portable : ∀ x ∈ m.visitedAll bus limits, x.IsPortable) :
    List.Forall₂ (fun r r' => r.1.Lockstep r'.1 ∧ r.2 = r'.2)
      (m.runAll bus limits) (m'.runAll bus limits) := by
  induction limits generalizing m m' with
  | nil => exact .nil
  | cons turns rest ih =>
    have first := h.run bus turns fun x here => portable x (List.mem_append_left _ here)
    exact .cons first (ih first.1 fun x later => portable x (List.mem_append_right _ later))

/-- Devices are accessed in the same way, with the same answers, in the same order. -/
theorem journals_eq (limits : List Nat)
    (portable : ∀ x ∈ m.visitedAll bus limits, x.IsPortable) :
    m.journals bus limits = m'.journals bus limits := by
  -- The journals begin empty and are part of the devices' states from there on.
  have recording : m.recording.Lockstep m'.recording :=
    ⟨⟨h.i8085, h.z80, h.policy, h.inputs, h.outputs, congrArg (·, []) h.devices⟩,
      h.isHalted, h.core⟩
  have runs := recording.runAll bus.journaled limits fun x here => by
    rw [← visitedAll_recording] at portable
    exact portable _ (List.mem_map_of_mem here)
  unfold journals
  rw [← List.forall₂_eq_eq_eq, List.forall₂_map_left_iff, List.forall₂_map_right_iff]
  exact runs.imp fun r r' ends => congrArg Prod.snd ends.1.devices

end Lockstep

/-- **The 8085 and the Z80 in lockstep.** Let an 8085 and a Z80 begin with the same memory, devices
and policy, the same registers of the 8085 but the flags, and the same sign, zero and carry. Through
however many runs, as long as the 8085 meets portable instructions only, each run ends for the same
cause on both, in a state that they have in common in the same sense, and with the same accesses to
devices in the same order. So does a run without a limit, if it ends. -/
theorem lockstep_of_portable (bus : Peripherals ι σ) {m m' : Machine ι σ} (h : m.Lockstep m') :
    (∀ limits, (∀ x ∈ m.visitedAll bus limits, x.IsPortable) →
      List.Forall₂ (fun r r' => r.1.Lockstep r'.1 ∧ r.2 = r'.2)
          (m.runAll bus limits) (m'.runAll bus limits) ∧
        m.journals bus limits = m'.journals bus limits) ∧
      ∀ turns, (∀ x ∈ m.visited bus turns true, x.IsPortable) →
        Option.Rel (fun r r' => r.1.Lockstep r'.1 ∧ r.2 = r'.2)
          (m.runFree? bus turns) (m'.runFree? bus turns) := by
  refine ⟨fun limits portable => ?_, fun turns portable => h.runFree? bus turns portable⟩
  exact ⟨h.runAll bus limits portable, h.journals_eq bus limits portable⟩

end Machine

/-- A device that answers with the byte that was last written to it. -/
def Peripherals.latch : Peripherals Unit UInt8 where
  info _ := ⟨.ascii "LATCH", .ascii "LATCH", .ascii "latch", true, true, 7, 1⟩
  read _ _ s := ⟨s, none, .ok s⟩
  write _ _ b _ := ⟨b, none, .ok ()⟩
  clear _ _ := 0

/-- A machine that loads the accumulator, doubles it, writes it to the latch, reads it back and
halts. -/
def Machine.latching (v : Variant) : Machine Unit UInt8 :=
  ((Machine.start v 0 none).install .latch ()).2.load 0
    [0x3E, 0x40, 0x87, 0xD3, 0x07, 0xDB, 0x07, 0x76]

/-- Both processors run through the same program, although doubling leaves them with different
parity flags. -/
theorem Machine.lockstep_of_portable_latching :
    ((latching .i8085).Lockstep (latching .z80) ∧
      ∀ x ∈ (latching .i8085).visitedAll .latch [2, 1, 5], x.IsPortable) ∧
    (List.Forall₂ (fun r r' => r.1.Lockstep r'.1 ∧ r.2 = r'.2)
        ((latching .i8085).runAll .latch [2, 1, 5]) ((latching .z80).runAll .latch [2, 1, 5]) ∧
      (latching .i8085).journals .latch [2, 1, 5] = (latching .z80).journals .latch [2, 1, 5]) ∧
    ((latching .i8085).run .latch 2).1.core.flags ≠ ((latching .z80).run .latch 2).1.core.flags := by
  have lockstep : (latching .i8085).Lockstep (latching .z80) :=
    ((lockstep_start 0 none none).install .latch ()).load 0 _
  have portable : ∀ x ∈ (latching .i8085).visitedAll .latch [2, 1, 5], x.IsPortable := by
    decide +kernel
  exact ⟨⟨lockstep, portable⟩, (lockstep_of_portable .latch lockstep).1 [2, 1, 5] portable,
    by decide +kernel⟩

end Micro80
