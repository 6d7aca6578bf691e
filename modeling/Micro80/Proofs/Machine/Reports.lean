import Micro80.Proofs.Machine.Dialogue
import Micro80.Proofs.Machine.Journal

/-!
# Reports

A machine reports events to its console, if there is one, and takes nothing from it. Which events it
reports is therefore a matter of the machine alone, and can be said without a console: one list of
events for each turn, each run and each action. Whoever listens then has the messages for these
events, as far as the threshold lets them through, and everything else is the same for all
listeners.

## Main definitions

* `Console.listen`: a console after some events.
* `Machine.withConsole`: a machine with another console, or with none.
* `Machine.turnEvents`, `Machine.takeEvents`: what is reported in a turn, and in several ones.
* `Machine.actEvents`: what is reported when a user acts on a machine.

## Main statements

* `Console.listen_eq`: which messages a console has after some events.
* `Machine.turn_withConsole`, `Machine.take_withConsole`: turns do not depend on who listens.
* `Machine.act_withConsole`: neither do actions.
-/

namespace Micro80

variable {ι σ : Type}

/-! ### Listening -/

/-- No event ranks below the instruction trace. -/
theorem Event.passes_trace (e : Event) : e.severity.passes .trace = true := by
  cases e <;> rfl

namespace Console

/-- **Listening.** A console after some events. -/
def listen (c : Console) (events : List Event) : Console :=
  (events.map Event.message).foldl receive c

@[simp] theorem listen_append (c : Console) (events others : List Event) :
    c.listen (events ++ others) = (c.listen events).listen others := by
  rw [listen, List.map_append, List.foldl_append]
  rfl

/-- **What a console has heard** are the messages for the events that its threshold lets through, in
their order. -/
theorem listen_eq (c : Console) (events : List Event) :
    c.listen events =
      { c with
        received := (c.received.toList ++ (events.map Event.message).filter fun m =>
          m.severity.passes c.threshold).toArray } := by
  have heard : (c.listen events).received.toList = c.received.toList ++
      (events.map Event.message).filter fun m => m.severity.passes c.threshold :=
    received_foldl_receive c (events.map Event.message)
  rw [← heard]
  exact foldl_receive_eq c (events.map Event.message)

/-- The text of a console is that of its messages, one after the other. -/
theorem text_eq (c : Console) :
    c.text = if c.attached then c.received.toList.flatMap (Message.shown c.program) else [] := rfl

end Console

/-! ### Listeners -/

namespace Machine

/-- The machine with another console, or with none. -/
def withConsole (o : Option Console) (m : Machine ι σ) : Machine ι σ := { m with console := o }

section

variable (o : Option Console) (m : Machine ι σ)

@[simp] theorem withConsole_withConsole (o' : Option Console) :
    (m.withConsole o).withConsole o' = m.withConsole o' := rfl

@[simp] theorem console_withConsole : (m.withConsole o).console = o := rfl

@[simp] theorem variant_withConsole : (m.withConsole o).variant = m.variant := rfl

@[simp] theorem policy_withConsole : (m.withConsole o).policy = m.policy := rfl

@[simp] theorem core_withConsole : (m.withConsole o).core = m.core := rfl

@[simp] theorem inputs_withConsole : (m.withConsole o).inputs = m.inputs := rfl

@[simp] theorem outputs_withConsole : (m.withConsole o).outputs = m.outputs := rfl

end

/-- What a console, if there is one, has become after some events. -/
def heard (events : List Event) (o : Option Console) : Option Console :=
  o.map fun c => c.listen events

@[simp] theorem heard_nil (o : Option Console) : heard [] o = o := by
  cases o <;> rfl

theorem heard_append (events others : List Event) (o : Option Console) :
    heard (events ++ others) o = heard others (heard events o) := by
  cases o with
  | none => rfl
  | some c => exact congrArg some (c.listen_append events others)

section

variable (o : Option Console) (m : Machine ι σ)

theorem report_withConsole (e : Event) :
    (m.withConsole o).report e = (m.report e).withConsole (heard [e] o) := by
  rw [report_eq, report_eq]
  rfl

theorem reportAny_withConsole (e : Option Event) :
    (m.withConsole o).reportAny e = (m.reportAny e).withConsole (heard e.toList o) := by
  cases e with
  | none => exact congrArg (m.withConsole ·) (heard_nil o).symm
  | some e => exact report_withConsole o m e

/-! ### Turns -/

/-- **Announcements.** What is reported before an instruction takes effect. -/
def announcements (i : Instruction) : List Event :=
  .executing i m.core.accumulator m.core.flags :: (i.remark? (m.core.jump i.next)).toList

/-- What is reported about an access to a port. -/
def portEvents : Effect → List Event
  | .input _ p _ => if (m.inputs.owner p).isNone then [.unmappedInput p] else []
  | .output _ p b => if (m.outputs.owner p).isNone then [.unmappedOutput b p] else []
  | .done _ | .halted _ => []

/-- What is reported when an instruction is executed. -/
def executionEvents (i : Instruction) : List Event :=
  m.announcements i ++
    (i.effect? m.variant.layout (m.core.jump i.next)).elim [] m.portEvents

/-- **The reports of a turn.** -/
def turnEvents (first : Bool) : List Event :=
  if m.proceeds first then
    match Instruction.decode m.variant m.core.memory m.pc with
    | .error e => [.undecodable e (m.core.memory.read m.pc) m.pc]
    | .ok i => m.executionEvents i
  else []

theorem prepare_withConsole (i : Instruction) :
    (m.withConsole o).prepare i = (m.prepare i).withConsole (heard (m.announcements i) o) := by
  -- The second event comes from the core after the first one, which is the same core.
  have two : m.announcements i = [.executing i m.core.accumulator m.core.flags] ++
      (i.remark? ((m.report (.executing i m.core.accumulator m.core.flags)).core.jump
        i.next)).toList := by
    rw [core_report]
    rfl
  rw [two, heard_append]
  unfold prepare
  rw [report_withConsole]
  exact reportAny_withConsole _ (alterCore { m.report _ with
    fault := none
    lastPC := i.address
    phase := .execute } fun c => c.jump i.next) _

theorem skip_withConsole (e : DecodeError) :
    (m.withConsole o).skip e =
      (m.skip e).map (withConsole
        (heard [.undecodable e (m.core.memory.read m.pc) m.pc] o)) := by
  have reported := report_withConsole o { m with fault := some e, phase := .fetch }
    (.undecodable e (m.core.memory.read m.pc) m.pc)
  rw [skip_eq, skip_eq, policy_withConsole]
  cases m.policy.illegalOpcode with
  | none => exact congrArg (fun x => Progress.running (x.setPC (m.pc + 1))) reported
  | some r => exact congrArg (Progress.ended · (.stop r)) reported

variable (bus : Peripherals ι σ)

theorem readPort_withConsole (p : UInt8) :
    (m.withConsole o).readPort bus p =
      (m.readPort bus p).map (withConsole
        (heard (if (m.inputs.owner p).isNone then [.unmappedInput p] else []) o)) := by
  unfold readPort
  rw [inputs_withConsole]
  cases m.inputs.owner p with
  | none => exact congrArg (Access.mk · _ _) (report_withConsole o m _)
  | some d =>
    simp only [Option.isNone_some, Bool.false_eq_true, if_false, heard_nil]
    rfl

theorem writePort_withConsole (p b : UInt8) :
    (m.withConsole o).writePort bus p b =
      (m.writePort bus p b).map (withConsole
        (heard (if (m.outputs.owner p).isNone then [.unmappedOutput b p] else []) o)) := by
  unfold writePort
  rw [outputs_withConsole]
  cases m.outputs.owner p with
  | none => exact congrArg (Access.mk · _ _) (report_withConsole o m _)
  | some d =>
    simp only [Option.isNone_some, Bool.false_eq_true, if_false, heard_nil]
    rfl

omit m in
theorem conclude_withConsole {α : Type} (access : Access (Machine ι σ) α) (c : Core) (a : UInt16)
    (store : α → Core) :
    conclude (access.map (withConsole o)) c a store =
      (conclude access c a store).map (withConsole o) := by
  obtain ⟨m, stop, result⟩ := access
  cases result with
  | error e => rfl
  | ok b => cases stop <;> rfl

theorem settle_withConsole (a : UInt16) (e : Effect) :
    (m.withConsole o).settle bus a e =
      (m.settle bus a e).map (withConsole (heard (m.portEvents e) o)) := by
  cases e with
  | done c => cases o <;> rfl
  | halted c => cases o <;> rfl
  | input c p store =>
    rw [settle_input, settle_input, readPort_withConsole, conclude_withConsole]
    rfl
  | output c p b =>
    rw [settle_output, settle_output, writePort_withConsole, conclude_withConsole]
    rfl

theorem execute_withConsole (i : Instruction) :
    (m.withConsole o).execute bus i =
      (m.execute bus i).map (withConsole (heard (m.executionEvents i) o)) := by
  rw [execute_eq, execute_eq, prepare_withConsole, variant_withConsole, core_withConsole,
    executionEvents, heard_append]
  cases i.effect? m.variant.layout (m.core.jump i.next) with
  | some e =>
    -- Preparing keeps the port maps, so that the reports about a port are the same.
    have kept : (m.prepare i).portEvents e = m.portEvents e := by
      obtain ⟨console, same⟩ := m.exists_prepare_eq i
      rw [same]
      rfl
    dsimp only [Option.elim]
    rw [settle_withConsole, kept]
  | none =>
    dsimp only [Option.elim]
    rw [heard_nil]
    rfl

/-- **Turns** do not depend on who listens. -/
theorem turn_withConsole (first : Bool) :
    (m.withConsole o).turn bus first =
      (m.turn bus first).map (withConsole (heard (m.turnEvents first) o)) := by
  unfold turnEvents
  cases proceeds : m.proceeds first with
  | false =>
    have proceeds' : (m.withConsole o).proceeds first = false := proceeds
    rw [turn_of_not_proceeds proceeds', turn_of_not_proceeds proceeds, if_neg Bool.false_ne_true,
      heard_nil]
    rfl
  | true =>
    have proceeds' : (m.withConsole o).proceeds first = true := proceeds
    rw [turn_of_proceeds proceeds', turn_of_proceeds proceeds, if_pos rfl]
    cases decoded : Instruction.decode m.variant m.core.memory m.pc with
    | error e =>
      rw [advance_of_error decoded, advance_of_error (m := m.withConsole o) decoded]
      exact skip_withConsole o { m with phase := .decode } e
    | ok i =>
      rw [advance_of_ok decoded, advance_of_ok (m := m.withConsole o) decoded]
      exact execute_withConsole o { m with phase := .decode } bus i

end

/-! ### Runs -/

/-- **The reports of several turns,** those of the first one in front. -/
def takeEvents (bus : Peripherals ι σ) :
    (turns : Nat) → (first : Bool) → Machine ι σ → List Event
  | 0, _, _ => []
  | turns + 1, first, m =>
    m.turnEvents first ++
      match m.turn bus first with
      | .running x => takeEvents bus turns false x
      | .ended .. => []

/-- **Turns one after the other** do not depend on who listens. -/
theorem take_withConsole (o : Option Console) (m : Machine ι σ) (bus : Peripherals ι σ)
    (turns : Nat) (first : Bool) :
    (m.withConsole o).take bus turns first =
      (m.take bus turns first).map (withConsole (heard (m.takeEvents bus turns first) o)) := by
  induction turns generalizing o first m with
  | zero => exact congrArg (fun o' => Progress.running (m.withConsole o')) (heard_nil o).symm
  | succ turns ih =>
    rw [take_succ, take_succ, takeEvents, turn_withConsole]
    cases m.turn bus first with
    | ended x cause =>
      dsimp only [Progress.map_ended, Progress.andThen_ended]
      rw [List.append_nil]
    | running x =>
      dsimp only [Progress.map_running, Progress.andThen_running]
      rw [ih, heard_append]

/-! ### Actions -/

theorem reset_withConsole (o : Option Console) (m : Machine ι σ) :
    (m.withConsole o).reset = m.reset.withConsole (heard [.reset m.variant] o) :=
  report_withConsole o
    { m with
      core := { m.core with registers := .reset m.variant.layout.reset, interrupts := false }
      phase := .fetch
      fault := none }
    (.reset m.variant)

/-- What is reported when bytes are loaded. -/
def loadEvents (origin : UInt16) (bytes : List UInt8) : List Event :=
  if bytes.isEmpty then [] else [.loaded bytes.length origin]

theorem load_withConsole (o : Option Console) (m : Machine ι σ) (origin : UInt16)
    (bytes : List UInt8) :
    (m.withConsole o).load origin bytes =
      (m.load origin bytes).withConsole (heard (loadEvents origin bytes) o) := by
  unfold load loadEvents
  dsimp only
  split
  · rw [heard_nil]
    rfl
  · exact report_withConsole o (m.alterMemory fun memory => memory.load origin bytes) _

/-- What is reported when an image is loaded. -/
def imageEvents (i : Image) : List Event := i.segments.flatMap fun s => loadEvents s.1 s.2

theorem loadImage_withConsole (o : Option Console) (m : Machine ι σ) (i : Image) :
    (m.withConsole o).loadImage i = (m.loadImage i).withConsole (heard (imageEvents i) o) := by
  unfold loadImage imageEvents
  induction i.segments generalizing o m with
  | nil => rw [List.flatMap_nil, heard_nil]; rfl
  | cons s rest ih =>
    rw [List.foldl_cons, List.foldl_cons, List.flatMap_cons, load_withConsole, heard_append]
    exact ih _ (m.load s.1 s.2)

/-- What is reported when a device is to be installed. -/
def installEvent (i : DeviceInfo) (possible : Bool) : Event :=
  if possible then .attached i else .conflict i

/-- **The reports of an action.** -/
def actEvents [DecidableEq ι] (bus : Peripherals ι σ) (m : Machine ι σ) :
    Action ι σ → List Event
  | .load origin bytes => loadEvents origin bytes
  | .loadImage i => imageEvents i
  | .install d => [installEvent (bus.info d) (m.install bus d).1]
  | .remove d => [.removing (bus.info d)]
  | .readPort p => if (m.inputs.owner p).isNone then [.unmappedInput p] else []
  | .writePort p b => if (m.outputs.owner p).isNone then [.unmappedOutput b p] else []
  | .reset | .masterClear => [.reset m.variant]
  | .setRegister .. | .setPC _ | .requestStop _ | .setPolicy _ | .alterConsole _ | .alterMemory _
  | .removeAll | .clearDevices | .alterDevices _ => []

end Machine

/-- Whether an action has to do with the console itself. -/
def Action.retunes : Action ι σ → Bool
  | .alterConsole _ => true
  | _ => false

namespace Machine

variable [DecidableEq ι] (bus : Peripherals ι σ) (o : Option Console) (m : Machine ι σ)

theorem install_withConsole (d : ι) :
    (m.withConsole o).install bus d =
      ((m.install bus d).1,
        (m.install bus d).2.withConsole
          (heard [installEvent (bus.info d) (m.install bus d).1] o)) := by
  unfold install
  rw [inputs_withConsole, outputs_withConsole]
  obtain ⟨possible, inputs, outputs⟩ := PortMap.installBoth bus.info d m.inputs m.outputs
  have reported := report_withConsole o { m with inputs := inputs, outputs := outputs }
  cases possible with
  | true => exact congrArg (Prod.mk true) (reported (.attached (bus.info d)))
  | false => exact congrArg (Prod.mk false) (reported (.conflict (bus.info d)))

/-- **Actions** do not depend on who listens. -/
theorem act_withConsole {x : Action ι σ} (tuned : x.retunes = false) :
    (m.withConsole o).act bus x =
      ((m.act bus x).1.withConsole (heard (m.actEvents bus x) o), (m.act bus x).2) := by
  cases x with
  | alterConsole => cases tuned
  | setPC | requestStop | setPolicy | alterMemory | removeAll | clearDevices | alterDevices =>
    cases o <;> rfl
  | setRegister n w =>
    dsimp only [act, actEvents, setRegister]
    rw [heard_nil]
    split <;> rfl
  | load origin bytes =>
    exact congrArg (·, Answer.done) (load_withConsole o m origin bytes)
  | loadImage i => exact congrArg (·, Answer.done) (loadImage_withConsole o m i)
  | install d =>
    dsimp only [act, actEvents]
    rw [install_withConsole]
  | remove d =>
    dsimp only [act, remove]
    rw [report_withConsole]
    rfl
  | readPort p =>
    dsimp only [act]
    rw [readPort_withConsole]
    rfl
  | writePort p b =>
    dsimp only [act]
    rw [writePort_withConsole]
    rfl
  | reset => exact congrArg (·, Answer.done) (reset_withConsole o m)
  | masterClear => exact congrArg (·, Answer.done) (reset_withConsole o (m.clearDevices bus))

end Machine

end Micro80
