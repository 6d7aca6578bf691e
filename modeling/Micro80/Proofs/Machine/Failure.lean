import Micro80.Proofs.Machine.Advance
import Micro80.Proofs.Machine.Journal

/-!
# Failures of devices

A device that fails ends the run, and the instruction that wanted it is taken back: the machine is
what it was after the last instruction that was complete, in front of the one that failed. What the
device has done to itself is its own affair, and the books say that the instruction has been tried.

That an access has failed can be read off the journal of a run, and the cause for which the run has
ended is then the failure of that access.

## Main definitions

* `DeviceAccess.failure?`: the failure of an access.
* `Peripherals.Fails`: some access to a device fails.
* `Progress.Continues`: the journal of a run that has ended because of each of its failures.
* `Machine.Meets`: a run in which some access fails.

## Main statements

* `Machine.fails_of_advance`: a turn takes back an instruction whose device fails.
* `Machine.meets_iff`: a run in which an access fails ends because of that failure.
* `Machine.exists_take_of_failure`: a run that ends because of a failure leaves the machine as it
  was before the instruction that has failed.
-/

namespace Micro80

variable {ι σ : Type}

/-! ### Accesses that fail -/

/-- The failure of an access, if it has failed. -/
def DeviceAccess.failure? : DeviceAccess ι → Option DeviceFailure
  | read _ _ (.error e) | write _ _ _ (.error e) => some e
  | read _ _ (.ok _) | write _ _ _ (.ok _) => none

@[simp] theorem DeviceAccess.failure?_read (d : ι) (p : UInt8)
    (r : Except DeviceFailure UInt8) (e : DeviceFailure) :
    (read d p r).failure? = some e ↔ r = .error e := by
  cases r <;> simp [failure?]

@[simp] theorem DeviceAccess.failure?_write (d : ι) (p b : UInt8)
    (r : Except DeviceFailure Unit) (e : DeviceFailure) :
    (write d p b r).failure? = some e ↔ r = .error e := by
  cases r <;> simp [failure?]

/-- **Failing.** Some access to devices in the state `s` fails and leaves them in the state `s'`. -/
def Peripherals.Fails (bus : Peripherals ι σ) (e : DeviceFailure) (s s' : σ) : Prop :=
  (∃ d p, (bus.read d p s).result = .error e ∧ (bus.read d p s).state = s') ∨
    ∃ d p b, (bus.write d p b s).result = .error e ∧ (bus.write d p b s).state = s'

theorem Access.use_result_eq_error {α β : Type} {a : Access σ α} {f : α → β} {e : DeviceFailure} :
    (a.use f).result = .error e ↔ a.result = .error e := by
  obtain ⟨s, stop, result⟩ := a
  cases result with
  | ok x => simp [use, Except.map]
  | error e => simp [use, Except.map]

theorem Progress.stopIf_ne_failure {stop : Option StopReason} {m m' : Machine ι σ}
    {e : DeviceFailure} : stopIf stop m ≠ .ended m' (.failure e) := by
  cases stop <;> simp [stopIf]

namespace Machine

/-! ### Taking back -/

/-- The outcome of an effect is a failure only if a device has failed. -/
theorem fails_of_outcome {bus : Peripherals ι σ} {m : Machine ι σ} {effect : Effect}
    {e : DeviceFailure} (h : (m.outcome bus effect).result = .error e) :
    bus.Fails e m.devices (m.outcome bus effect).state := by
  cases effect with
  | done | halted => cases h
  | input c p store =>
    have failed : (m.received bus p).result = .error e := Access.use_result_eq_error.1 h
    show bus.Fails e m.devices (m.received bus p).state
    unfold received at failed ⊢
    split at failed
    · cases failed
    · exact .inl ⟨_, p, failed, rfl⟩
  | output c p b =>
    have failed : (m.sent bus p b).result = .error e := Access.use_result_eq_error.1 h
    show bus.Fails e m.devices (m.sent bus p b).state
    unfold sent at failed ⊢
    split at failed
    · cases failed
    · exact .inr ⟨_, p, b, failed, rfl⟩

/-- **Taking back.** A turn that a failure ends has changed nothing but the devices, the books and
what has been reported. -/
theorem fails_of_advance {bus : Peripherals ι σ} {m m' : Machine ι σ} {e : DeviceFailure}
    (h : m.advance bus = .ended m' (.failure e)) :
    bus.Fails e m.devices m'.devices ∧ m' = m.after .fetch m'.console m'.devices m.core := by
  have inversion := m.advances bus
  generalize m.advance bus = p at h inversion
  cases inversion with
  | stops | passes => cases h
  | completes => exact absurd h Progress.stopIf_ne_failure
  | fails result =>
    cases h
    exact ⟨fails_of_outcome result, rfl⟩

theorem fails_of_turn {bus : Peripherals ι σ} {first : Bool} {m m' : Machine ι σ}
    {e : DeviceFailure} (h : m.turn bus first = .ended m' (.failure e)) :
    bus.Fails e m.devices m'.devices ∧ m' = m.after .fetch m'.console m'.devices m.core := by
  cases proceeds : m.proceeds first with
  | false =>
    rw [turn_of_not_proceeds proceeds] at h
    cases h
  | true =>
    rw [turn_of_proceeds proceeds] at h
    exact fails_of_advance h

/-- **Runs that a failure ends** have gone on until a certain turn, and this turn has been taken
back. -/
theorem exists_take_of_failure {bus : Peripherals ι σ} {turns : Nat} {first : Bool}
    {m m' : Machine ι σ} {e : DeviceFailure}
    (h : m.take bus turns first = .ended m' (.failure e)) :
    ∃ k < turns, ∃ x, m.take bus k first = .running x ∧ bus.Fails e x.devices m'.devices ∧
      m' = x.after .fetch m'.console m'.devices x.core := by
  induction turns generalizing first m with
  | zero => cases h
  | succ turns ih =>
    rw [take_succ] at h
    cases turned : m.turn bus first with
    | ended x cause =>
      rw [turned] at h
      cases h
      exact ⟨0, Nat.succ_pos turns, m, rfl, fails_of_turn turned⟩
    | running x =>
      rw [turned] at h
      obtain ⟨k, less, y, taken, failed⟩ := ih h
      refine ⟨k + 1, Nat.succ_lt_succ less, y, ?_, failed⟩
      rw [take_succ, turned]
      exact taken

end Machine

/-! ### Journals of failures -/

/-- **Continued journals.** Progress that has added accesses to a journal, and has ended because of
each of them that has failed, but because of no other failure. -/
def Progress.Continues (p : Progress ι (σ × List (DeviceAccess ι)))
    (journal : List (DeviceAccess ι)) : Prop :=
  ∃ l, p.machine.devices.2 = journal ++ l ∧
    ∀ e, (∃ a ∈ l, a.failure? = some e) ↔ p.cause? = some (.failure e)

/-- Without an access there is no failure. -/
theorem Progress.continues_of_eq {p : Progress ι (σ × List (DeviceAccess ι))}
    {journal : List (DeviceAccess ι)} (same : p.machine.devices.2 = journal)
    (h : ∀ e, p.cause? ≠ some (.failure e)) : p.Continues journal :=
  ⟨[], by rw [same, List.append_nil], fun e => by simp [h e]⟩

namespace Machine

variable (bus : Peripherals ι σ)

/-- The outcome of an effect is a failure exactly if the journal tells of one. -/
theorem exists_journal_outcome (m : Machine ι (σ × List (DeviceAccess ι))) (effect : Effect) :
    ∃ l, (m.outcome bus.journaled effect).state.2 = m.devices.2 ++ l ∧
      ∀ e, (∃ a ∈ l, a.failure? = some e) ↔
        (m.outcome bus.journaled effect).result = .error e := by
  cases effect with
  | done | halted => exact ⟨[], (List.append_nil _).symm, fun e => by simp [outcome]⟩
  | input c p store =>
    unfold outcome
    simp only [Access.use_result_eq_error]
    show ∃ l, (m.received bus.journaled p).state.2 = m.devices.2 ++ l ∧ _
    unfold received
    cases m.inputs.owner p with
    | none => exact ⟨[], (List.append_nil _).symm, fun e => by simp⟩
    | some d => exact ⟨[.read d p (bus.read d p m.devices.1).result], rfl,
        fun e => by simp [Peripherals.journaled]⟩
  | output c p b =>
    unfold outcome
    simp only [Access.use_result_eq_error]
    show ∃ l, (m.sent bus.journaled p b).state.2 = m.devices.2 ++ l ∧ _
    unfold sent
    cases m.outputs.owner p with
    | none => exact ⟨[], (List.append_nil _).symm, fun e => by simp⟩
    | some d => exact ⟨[.write d p b (bus.write d p b m.devices.1).result], rfl,
        fun e => by simp [Peripherals.journaled]⟩

theorem continues_advance (m : Machine ι (σ × List (DeviceAccess ι))) :
    (m.advance bus.journaled).Continues m.devices.2 := by
  have inversion := m.advances bus.journaled
  generalize m.advance bus.journaled = p at inversion ⊢
  cases inversion with
  | stops | passes => exact Progress.continues_of_eq rfl (by simp)
  | @completes i effect console c _ result =>
    obtain ⟨l, added, failures⟩ := exists_journal_outcome bus m effect
    refine ⟨l, ?_, fun e => (failures e).trans ?_⟩
    · rw [Progress.machine_stopIf]
      exact added
    · rw [result]
      cases (m.outcome bus.journaled effect).stop <;> simp [Progress.stopIf]
  | @fails effect console f result =>
    obtain ⟨l, added, failures⟩ := exists_journal_outcome bus m effect
    refine ⟨l, added, fun e => (failures e).trans ?_⟩
    rw [result]
    simp

theorem continues_turn (first : Bool) (m : Machine ι (σ × List (DeviceAccess ι))) :
    (m.turn bus.journaled first).Continues m.devices.2 := by
  cases proceeds : m.proceeds first with
  | false =>
    rw [turn_of_not_proceeds proceeds]
    exact Progress.continues_of_eq rfl (by simp)
  | true =>
    rw [turn_of_proceeds proceeds]
    exact continues_advance bus m

/-- **The journal of a run** tells of no failure but the one because of which the run has ended. -/
theorem continues_take (turns : Nat) (first : Bool)
    (m : Machine ι (σ × List (DeviceAccess ι))) :
    (m.take bus.journaled turns first).Continues m.devices.2 := by
  induction turns generalizing first m with
  | zero => exact Progress.continues_of_eq rfl (by simp)
  | succ turns ih =>
    rw [take_succ]
    have now := continues_turn bus first m
    cases turned : m.turn bus.journaled first with
    | ended x cause =>
      rw [turned] at now
      exact now
    | running x =>
      rw [turned] at now
      obtain ⟨l, added, failures⟩ := now
      obtain ⟨l', added', failures'⟩ := ih false x
      refine ⟨l ++ l', ?_, fun e => Iff.trans ?_ (failures' e)⟩
      · rw [Progress.andThen_running, added', ← List.append_assoc]
        exact congrArg (· ++ l') added
      · -- The machine goes on, so that nothing has failed so far.
        have none_before : ¬ ∃ a ∈ l, a.failure? = some e := by simp [failures e]
        simp only [List.mem_append, or_and_right, exists_or, none_before, false_or]

variable {bus}

/-- **Meeting a failure.** A run in which some access to a device fails. -/
def Meets (bus : Peripherals ι σ) (turns : Nat) (e : DeviceFailure) (m : Machine ι σ) : Prop :=
  ∃ a ∈ (m.recording.run bus.journaled turns).1.devices.2, a.failure? = some e

/-- **A run in which an access fails** ends because of that failure. -/
theorem meets_iff {turns : Nat} {e : DeviceFailure} {m : Machine ι σ} :
    m.Meets bus turns e ↔ (m.take bus turns true).cause? = some (.failure e) := by
  obtain ⟨l, added, failures⟩ := continues_take bus turns true m.recording
  have journal : (m.recording.run bus.journaled turns).1.devices.2 = l := by
    rw [run_eq, added]
    exact List.nil_append l
  have forgotten := take_mapDevices m.recording bus.refines_journaled turns true
  have same : (m.take bus turns true).cause? =
      (m.recording.take bus.journaled turns true).cause? := by
    rw [← Progress.cause?_mapDevices Prod.fst, ← forgotten]
    rfl
  rw [Meets, journal, same]
  exact failures e

end Machine

end Micro80
