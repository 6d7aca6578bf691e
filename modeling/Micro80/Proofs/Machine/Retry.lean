import Mathlib.Data.List.Forall2
import Micro80.Proofs.Machine.Failure

/-!
# Trying again

An instruction that has been taken back can be tried once more. If a device fails without having
done anything else, a machine that is made to step again and again does what it would do with a
device that does not fail; it only takes more steps. The steps that fail leave it where it is, and
the others do the same as those of the machine with the reliable device.

The states of the faltering devices may hold more than those of the reliable ones, such as when to
fail next. A function says what they amount to.

## Main definitions

* `Peripherals.IsReliable`: devices that do not fail.
* `Peripherals.Falters`: devices that fail now and then, and otherwise do what other ones do.
* `Machine.Follows`: a machine with the devices of another one, looked at through a function.
* `Machine.steps`, `Machine.records`: what steps come to, one after the other.
* `Machine.completed`: the records of those that do not fail.

## Main statements

* `Machine.Follows.turn`: a turn fails and changes nothing, or does the same in both machines.
* `Machine.Follows.steps`: but for those that fail, steps do the same.
* `Machine.failure_recovery`: failures are taken back and can be tried again.
-/

namespace Micro80

variable {ι σ τ : Type}

/-! ### Faltering devices -/

/-- **Reliable devices.** No access to them fails. -/
structure Peripherals.IsReliable (bus : Peripherals ι σ) : Prop where
  read : ∀ d p s e, (bus.read d p s).result ≠ .error e
  write : ∀ d p b s e, (bus.write d p b s).result ≠ .error e

theorem Peripherals.IsReliable.not_fails {bus : Peripherals ι σ} (h : bus.IsReliable)
    {e : DeviceFailure} {s s' : σ} : ¬ bus.Fails e s s' := by
  rintro (⟨d, p, failed, -⟩ | ⟨d, p, b, failed, -⟩)
  · exact h.read d p s e failed
  · exact h.write d p b s e failed

/-- **Faltering.** An access that fails without having had another effect on the state `s`, or that
is, looked at through a function, what it should be. -/
def Access.Falters {α : Type} (f : τ → σ) (s : τ) (a : Access τ α) (b : Access σ α) : Prop :=
  (∃ e, a.result = .error e ∧ f a.state = f s) ∨ a.map f = b

/-- What is made of the answer to a faltering access. -/
theorem Access.Falters.use {α β : Type} {f : τ → σ} {s : τ} {a : Access τ α} {b : Access σ α}
    (h : a.Falters f s b) (g : α → β) : (a.use g).Falters f s (b.use g) := by
  obtain ⟨e, failed, same⟩ | rfl := h
  · exact .inl ⟨e, Access.use_result_eq_error.2 failed, same⟩
  · exact .inr rfl

/-- **Faltering devices.** Each access falters. -/
structure Peripherals.Falters (f : τ → σ) (flaky : Peripherals ι τ) (bus : Peripherals ι σ) :
    Prop where
  read : ∀ d p s, (flaky.read d p s).Falters f s (bus.read d p (f s))
  write : ∀ d p b s, (flaky.write d p b s).Falters f s (bus.write d p b (f s))

/-! ### Answered accesses -/

/-- The accesses of a journal that have not failed. -/
def answered (journal : List (DeviceAccess ι)) : List (DeviceAccess ι) :=
  journal.filter fun a => a.failure?.isNone

theorem answered_answered (journal : List (DeviceAccess ι)) :
    answered (answered journal) = answered journal := by
  simp [answered]

theorem answered_concat_of_failure {journal : List (DeviceAccess ι)} {a : DeviceAccess ι}
    {e : DeviceFailure} (h : a.failure? = some e) :
    answered (journal ++ [a]) = answered journal := by
  simp [answered, h]

theorem answered_concat_of_answer {journal : List (DeviceAccess ι)} {a : DeviceAccess ι}
    (h : ∀ e, a.failure? ≠ some e) : answered (journal ++ [a]) = answered journal ++ [a] := by
  have none : a.failure? = none := Option.eq_none_iff_forall_ne_some.2 h
  simp [answered, none]

namespace Peripherals

variable {f : τ → σ} {flaky : Peripherals ι τ} {bus : Peripherals ι σ}

theorem IsReliable.journaled (h : bus.IsReliable) : bus.journaled.IsReliable where
  read d p s := h.read d p s.1
  write d p b s := h.write d p b s.1

/-- Devices that falter do so too if a journal is kept, of which the accesses that have failed do
not count. -/
theorem Falters.journaled (h : flaky.Falters f bus) (reliable : bus.IsReliable) :
    flaky.journaled.Falters (fun s => (f s.1, answered s.2)) bus.journaled where
  read d p s := by
    obtain ⟨e, failed, same⟩ | matched := h.read d p s.1
    · refine .inl ⟨e, failed, Prod.ext same ?_⟩
      exact answered_concat_of_failure (DeviceAccess.failure?_read d p _ e |>.2 failed)
    · right
      simp only [Peripherals.journaled, ← matched, Access.map]
      rw [answered_concat_of_answer fun e failed => ?_]
      refine reliable.read d p (f s.1) e ?_
      rw [← matched]
      exact (DeviceAccess.failure?_read d p _ e).1 failed
  write d p b s := by
    obtain ⟨e, failed, same⟩ | matched := h.write d p b s.1
    · refine .inl ⟨e, failed, Prod.ext same ?_⟩
      exact answered_concat_of_failure (DeviceAccess.failure?_write d p b _ e |>.2 failed)
    · right
      simp only [Peripherals.journaled, ← matched, Access.map]
      rw [answered_concat_of_answer fun e failed => ?_]
      refine reliable.write d p b (f s.1) e ?_
      rw [← matched]
      exact (DeviceAccess.failure?_write d p b _ e).1 failed

end Peripherals

namespace Machine

/-! ### Following -/

/-- **Following.** A machine that has the devices of another one, looked at through a function, and
is otherwise like that machine, but for its books and its console. -/
structure Follows (f : τ → σ) (m : Machine ι τ) (m' : Machine ι σ) : Prop where
  variant : m.variant = m'.variant
  policy : m.policy = m'.policy
  inputs : m.inputs = m'.inputs
  outputs : m.outputs = m'.outputs
  devices : f m.devices = m'.devices
  isHalted : m.isHalted = m'.isHalted
  core : m.core = m'.core

theorem follows_mapDevices (f : τ → σ) (m : Machine ι τ) : m.Follows f (m.mapDevices f) :=
  ⟨rfl, rfl, rfl, rfl, rfl, rfl, rfl⟩

/-- Reliable devices end no turn. -/
theorem turn_ne_failure {bus : Peripherals ι σ} (reliable : bus.IsReliable) (first : Bool)
    (m : Machine ι σ) (e : DeviceFailure) : (m.turn bus first).cause? ≠ some (.failure e) := by
  cases turned : m.turn bus first with
  | running x => simp
  | ended x cause =>
    rintro ⟨⟩
    exact reliable.not_fails (fails_of_turn turned).1

namespace Follows

variable {f : τ → σ} {m : Machine ι τ} {m' : Machine ι σ} (h : m.Follows f m')
  {flaky : Peripherals ι τ} {bus : Peripherals ι σ} (falters : flaky.Falters f bus)

include h

theorem pc : m.pc = m'.pc := congrArg (·.registers.pc) h.core

theorem proceeds (first : Bool) : m.proceeds first = m'.proceeds first := by
  unfold Machine.proceeds atBreakpoint
  rw [h.isHalted, h.core, h.pc]

/-- Machines that have found no instruction go on following each other. -/
theorem baffled (e : DecodeError) (console console' : Option Console) (c : Core) :
    (m.baffled e console c).Follows f (m'.baffled e console' c) :=
  ⟨h.variant, h.policy, h.inputs, h.outputs, h.devices, rfl, rfl⟩

/-- And so do machines that have dealt with an instruction. -/
theorem after (phase : Phase) (console console' : Option Console) {s : τ} {s' : σ}
    (devices : f s = s') (c : Core) :
    (m.after phase console s c).Follows f (m'.after phase console' s' c) :=
  ⟨h.variant, h.policy, h.inputs, h.outputs, devices, rfl, rfl⟩

include falters

/-- The outcome of an effect falters if the devices do. -/
theorem outcome (e : Effect) :
    (m.outcome flaky e).Falters f m.devices (m'.outcome bus e) := by
  cases e with
  | done c | halted c =>
    right
    unfold Machine.outcome
    rw [← h.devices]
    rfl
  | input c p store =>
    refine Access.Falters.use ?_ (store c)
    unfold received
    rw [h.inputs, h.policy, ← h.devices]
    cases m'.inputs.owner p with
    | none => exact .inr rfl
    | some d => exact falters.read d p m.devices
  | output c p b =>
    refine Access.Falters.use ?_ fun _ => c
    unfold sent
    rw [h.outputs, h.policy, ← h.devices]
    cases m'.outputs.owner p with
    | none => exact .inr rfl
    | some d => exact falters.write d p b m.devices

/-- **Advancing** fails and leaves the machine in front of the same instruction, or does the same in
both machines. -/
theorem advance (awake : m'.isHalted = false) :
    (∃ x e, m.advance flaky = .ended x (.failure e) ∧ x.Follows f m') ∨
      ((m.advance flaky).cause? = (m'.advance bus).cause? ∧
        (m.advance flaky).machine.Follows f (m'.advance bus).machine) := by
  cases decoded : Instruction.decode m.variant m.core.memory m.pc with
  | error fault =>
    obtain ⟨console, advanced⟩ := exists_advance_eq_of_error flaky decoded
    rw [h.variant, h.core, h.pc] at decoded
    obtain ⟨console', advanced'⟩ := exists_advance_eq_of_error bus decoded
    rw [advanced, advanced', h.policy, h.core, h.pc]
    right
    cases m'.policy.illegalOpcode with
    | some r => exact ⟨rfl, h.baffled fault console console' _⟩
    | none => exact ⟨rfl, h.baffled fault console console' _⟩
  | ok i =>
    obtain ⟨effect, console, hasEffect, advanced⟩ := exists_advance_eq_of_ok flaky decoded
    rw [h.variant, h.core, h.pc] at decoded
    obtain ⟨effect', console', hasEffect', advanced'⟩ := exists_advance_eq_of_ok bus decoded
    -- Both machines work on the same core, so that the effects are the same.
    rw [h.variant, h.core, hasEffect'] at hasEffect
    cases hasEffect
    rw [advanced, advanced']
    obtain ⟨e, failed, same⟩ | matched := h.outcome falters effect
    · left
      rw [failed]
      refine ⟨_, e, rfl, h.variant, h.policy, h.inputs, h.outputs, ?_, awake.symm, h.core⟩
      exact same.trans h.devices
    · right
      rw [← matched]
      simp only [Access.map]
      cases (m.outcome flaky effect).result with
      | ok c =>
        cases (m.outcome flaky effect).stop with
        | none => exact ⟨rfl, h.after effect.phase console console' rfl c⟩
        | some r => exact ⟨rfl, h.after effect.phase console console' rfl c⟩
      | error e =>
        rw [h.core]
        exact ⟨rfl, h.after .fetch console console' rfl m'.core⟩

/-- **A turn** fails and leaves the machine in front of the same instruction, or does the same in
both machines. -/
theorem turn (first : Bool) :
    (∃ x e, m.turn flaky first = .ended x (.failure e) ∧ x.Follows f m') ∨
      ((m.turn flaky first).cause? = (m'.turn bus first).cause? ∧
        (m.turn flaky first).machine.Follows f (m'.turn bus first).machine) := by
  cases proceeds : m'.proceeds first with
  | false =>
    rw [turn_of_not_proceeds proceeds, turn_of_not_proceeds ((h.proceeds first).trans proceeds),
      h.isHalted]
    exact .inr ⟨rfl, h⟩
  | true =>
    rw [turn_of_proceeds proceeds, turn_of_proceeds ((h.proceeds first).trans proceeds)]
    exact h.advance falters (proceeds_iff.1 proceeds).1

end Follows

/-! ### Steps one after the other -/

/-- **Steps,** whatever comes of them. -/
def steps (bus : Peripherals ι σ) (n : Nat) (m : Machine ι σ) : List (Machine ι σ × Cause) :=
  m.runAll bus (List.replicate n 1)

theorem steps_succ (bus : Peripherals ι σ) (n : Nat) (m : Machine ι σ) :
    m.steps bus (n + 1) = m.step bus :: (m.step bus).1.steps bus n := rfl

theorem length_steps (bus : Peripherals ι σ) (n : Nat) (m : Machine ι σ) :
    (m.steps bus n).length = n := by
  induction n generalizing m with
  | zero => rfl
  | succ n ih => rw [steps_succ, List.length_cons, ih]

end Machine

/-- Whether a run has ended because of a failure. -/
def Cause.isFailure : Cause → Bool
  | failure _ => true
  | stop _ | malformed => false

namespace Machine

/-- **Steps with faltering devices,** but for those that fail, are steps with reliable ones. -/
theorem Follows.steps {f : τ → σ} {flaky : Peripherals ι τ} {bus : Peripherals ι σ}
    (reliable : bus.IsReliable) (falters : flaky.Falters f bus) (n : Nat) {m : Machine ι τ}
    {m' : Machine ι σ} (h : m.Follows f m') :
    ∃ k, List.Forall₂ (fun r r' => r.1.Follows f r'.1 ∧ r.2 = r'.2)
      ((m.steps flaky n).filter fun r => !r.2.isFailure) (m'.steps bus k) := by
  induction n generalizing m m' with
  | zero => exact ⟨0, .nil⟩
  | succ n ih =>
    rw [steps_succ, step_eq]
    obtain ⟨x, e, failed, follows⟩ | ⟨cause, follows⟩ := h.turn falters true
    · -- The other machine waits until the step succeeds.
      obtain ⟨k, rest⟩ := ih follows
      refine ⟨k, ?_⟩
      rw [failed, List.filter_cons_of_neg (by simp [Cause.isFailure])]
      exact rest
    · obtain ⟨k, rest⟩ := ih follows
      refine ⟨k + 1, ?_⟩
      have succeeded :
          ((m'.turn bus true).cause?.getD (.stop .finished)).isFailure = false := by
        have sound := turn_ne_failure reliable true m'
        cases caused : (m'.turn bus true).cause? with
        | none => rfl
        | some cause =>
          cases cause with
          | stop | malformed => rfl
          | failure e => exact absurd caused (sound e)
      rw [cause, List.filter_cons_of_pos (by simp [succeeded]), steps_succ, step_eq]
      exact .cons ⟨follows, rfl⟩ rest

end Machine

/-! ### Records -/

/-- **Records** of steps. -/
structure Record (ι : Type) where
  /-- The core after the step. -/
  core : Core
  /-- Why the step has ended. -/
  cause : Cause
  /-- The accesses to devices that have been answered by then. -/
  answered : List (DeviceAccess ι)

namespace Machine

/-- **Records** of steps one after the other. -/
def records (bus : Peripherals ι σ) (n : Nat) (m : Machine ι σ) : List (Record ι) :=
  (m.recording.steps bus.journaled n).map fun r => ⟨r.1.core, r.2, answered r.1.devices.2⟩

/-- The records are those of the steps that are taken without a journal. -/
theorem map_records (bus : Peripherals ι σ) (n : Nat) (m : Machine ι σ) :
    (m.records bus n).map (fun r => (r.core, r.cause)) =
      (m.steps bus n).map fun r => (r.1.core, r.2) := by
  have forgotten := runAll_recording bus (List.replicate n 1) m
  rw [records, steps, steps, ← forgotten, List.map_map, List.map_map]
  rfl

/-- The records of those of the steps that no failure has ended. -/
def completed (bus : Peripherals ι σ) (n : Nat) (m : Machine ι σ) : List (Record ι) :=
  (m.records bus n).filter fun r => !r.cause.isFailure

/-- **Recovery from failures.** A run in which an access to a device fails ends because of that
failure. It leaves the machine as it was after a number of turns that were complete, in front of the
instruction that has failed and ready to fetch it again: apart from the devices, the books and the
reports nothing has changed. If the devices do nothing else when they fail, the records of steps,
without those that fail, are the records of the steps that are taken with devices that do not
fail. -/
theorem failure_recovery (flaky : Peripherals ι τ) (m : Machine ι τ) :
    (∀ turns e, m.Meets flaky turns e →
      (m.run flaky turns).2 = .failure e ∧
        m.runFree? flaky turns = some (m.run flaky turns) ∧
        ∃ k < turns, ∃ x, m.take flaky k true = .running x ∧
          flaky.Fails e x.devices (m.run flaky turns).1.devices ∧
          (m.run flaky turns).1 =
            { x with
              phase := .fetch
              fault := none
              lastPC := x.pc
              devices := (m.run flaky turns).1.devices
              console := (m.run flaky turns).1.console }) ∧
      ∀ (f : τ → σ) (bus : Peripherals ι σ), bus.IsReliable → flaky.Falters f bus → ∀ n,
        m.completed flaky n = (m.mapDevices f).records bus (m.completed flaky n).length := by
  constructor
  · intro turns e meets
    have caused := meets_iff.1 meets
    rw [run_eq, runFree?_eq]
    cases taken : m.take flaky turns true with
    | running x =>
      rw [taken] at caused
      cases caused
    | ended x cause =>
      rw [taken] at caused
      cases caused
      exact ⟨rfl, rfl, exists_take_of_failure taken⟩
  · intro f bus reliable falters n
    have follows : m.recording.Follows (fun s => (f s.1, answered s.2))
        (m.mapDevices f).recording := follows_mapDevices _ m.recording
    obtain ⟨k, same⟩ := follows.steps reliable.journaled (falters.journaled reliable) n
    have equal : m.completed flaky n = (m.mapDevices f).records bus k := by
      rw [completed, records, records, List.filter_map]
      rw [← List.forall₂_eq_eq_eq, List.forall₂_map_left_iff, List.forall₂_map_right_iff]
      refine same.imp fun r r' ⟨follows, cause⟩ => ?_
      rw [follows.core, cause, ← follows.devices, answered_answered]
    have length : (m.completed flaky n).length = k := by
      rw [equal, records, List.length_map, length_steps]
    rw [length]
    exact equal

end Machine

/-- A counter that counts how often it is read. -/
def Peripherals.counter : Peripherals Unit UInt8 where
  info _ := ⟨.ascii "CNT", .ascii "CNT", .ascii "counter", true, false, 0, 1⟩
  read _ _ s := ⟨s + 1, none, .ok s⟩
  write _ _ _ s := ⟨s, none, .ok ()⟩
  clear _ _ := 0

/-- What a device says that needs time. -/
def DeviceFailure.busy : DeviceFailure := ⟨.ascii "busy"⟩

/-- A counter that is busy whenever it is read for the first time. -/
def Peripherals.slowCounter : Peripherals Unit (Bool × UInt8) where
  info := counter.info
  read d p s :=
    if s.1 then
      let a := counter.read d p s.2
      ⟨(false, a.state), a.stop, a.result⟩
    else ⟨(true, s.2), none, .error .busy⟩
  write _ _ _ s := ⟨s, none, .ok ()⟩
  clear _ _ := (false, 0)

theorem Peripherals.isReliable_counter : counter.IsReliable :=
  ⟨fun _ _ _ _ => nofun, fun _ _ _ _ _ => nofun⟩

theorem Peripherals.falters_slowCounter : slowCounter.Falters Prod.snd counter where
  read d p s := by
    obtain ⟨ready, n⟩ := s
    cases ready with
    | false => exact .inl ⟨.busy, rfl, rfl⟩
    | true => exact .inr rfl
  write _ _ _ _ := .inr rfl

/-- A machine that reads the slow counter twice. -/
def Machine.polling : Machine Unit (Bool × UInt8) :=
  ((Machine.start .i8085 (false, 5) none).install .slowCounter ()).2.load 0 [0xDB, 0, 0xDB, 0]

/-- The first step fails, and of four steps two are those with the counter that is never busy. -/
theorem Machine.failure_recovery_polling :
    (polling.Meets .slowCounter 1 .busy ∧ Peripherals.counter.IsReliable
      ∧ Peripherals.slowCounter.Falters Prod.snd .counter) ∧
    (polling.run .slowCounter 1).2 = .failure .busy ∧
    polling.completed .slowCounter 4 = (polling.mapDevices Prod.snd).records .counter 2 := by
  have meets : polling.Meets .slowCounter 1 .busy := meets_iff.2 (by decide +kernel)
  obtain ⟨takenBack, again⟩ := failure_recovery Peripherals.slowCounter polling
  refine ⟨⟨meets, Peripherals.isReliable_counter, Peripherals.falters_slowCounter⟩,
    (takenBack 1 .busy meets).1, ?_⟩
  have completed :=
    again Prod.snd .counter Peripherals.isReliable_counter Peripherals.falters_slowCounter 4
  have two : (polling.completed .slowCounter 4).length = 2 := by decide +kernel
  rw [two] at completed
  exact completed

end Micro80
