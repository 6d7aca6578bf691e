import Micro80.Proofs.Machine.Turn

/-!
# Composition of runs

A run may be cut in two. If its first part ends for a reason of its own, that is how the whole run
ends. If the first part ends because its turns are used up, the second part begins where it ended,
but for a breakpoint there: it ends the whole run, while a run that is started at it passes over it.

A run without a limit ends as soon as some run with a limit ends for a reason of its own, and in the
same way. All of this is about devices that do not ask for a stop under the pretence that the turns
are used up.

## Main definitions

* `Machine.EndsFreely`: the ways in which a run without a limit ends.
* `Machine.RunEnds`: how a run ends that may have a limit.

## Main statements

* `Machine.take_add`: turns compose.
* `Machine.run_add_of_ne_finished`, `Machine.run_add_of_finished`: runs compose.
* `Machine.endsFreely_iff`: how a run without a limit ends.
* `Machine.runEnds_iff`: how a run ends if its turns have come to an end.
* `Machine.not_atBreakpoint_of_mem_tail_visited`: only the first instruction of a run can have a
  breakpoint.
-/

namespace Micro80

variable {ι σ : Type}

theorem Progress.andThen_assoc (p : Progress ι σ) (f g : Machine ι σ → Progress ι σ) :
    (p.andThen f).andThen g = p.andThen fun m => (f m).andThen g := by
  cases p <;> rfl

namespace Machine

/-! ### Turns -/

/-- **Turns compose.** The turns after the first ones pay attention to breakpoints. -/
theorem take_add (bus : Peripherals ι σ) (n k : Nat) (first : Bool) (m : Machine ι σ) :
    m.take bus (n + 1 + k) first = (m.take bus (n + 1) first).andThen (take bus k false) := by
  -- Both sides begin with the same turn, and from the second one on no breakpoint is passed over.
  induction n generalizing first m with
  | zero =>
    rw [Nat.add_right_comm, take_succ, take_succ, Progress.andThen_assoc]
    exact congrArg (m.turn bus first).andThen (funext fun m' => by simp)
  | succ n ih =>
    rw [Nat.add_right_comm, take_succ, take_succ, Progress.andThen_assoc]
    exact congrArg (m.turn bus first).andThen (funext fun m' => ih false m')

/-- **Turns go on** from where they have got to. If none has been taken yet, the next one is still
the first. -/
theorem take_of_running {bus : Peripherals ι σ} {k : Nat} {first : Bool} {m x : Machine ι σ}
    (h : m.take bus k first = .running x) (j : Nat) :
    m.take bus (k + (j + 1)) first = x.take bus (j + 1) (first && k == 0) := by
  cases k with
  | zero =>
    cases h
    rw [Nat.zero_add, beq_self_eq_true, Bool.and_true]
  | succ k =>
    have begun : (k + 1 == 0) = false := rfl
    rw [take_add, h, begun, Bool.and_false]
    rfl

/-- **An end is final,** however many turns more there are. -/
theorem take_of_ended {bus : Peripherals ι σ} {n : Nat} {first : Bool} {m x : Machine ι σ}
    {cause : Cause} (h : m.take bus n first = .ended x cause) (k : Nat) :
    m.take bus (n + k) first = .ended x cause := by
  cases n with
  | zero => cases h
  | succ n =>
    rw [take_add, h]
    rfl

/-- A machine that is ready in front of a breakpoint ends a run that has begun before. -/
theorem take_of_atBreakpoint (bus : Peripherals ι σ) (k : Nat) {m : Machine ι σ}
    (ready : m.phase = .fetch) (h : m.atBreakpoint = true) :
    m.take bus (k + 1) false = .ended m (.stop .breakpoint) := by
  rw [take_succ, turn_eq, h]
  simp [isHalted, ready]

/-- Without a breakpoint it makes no difference whether a turn is the first one. -/
theorem take_of_not_atBreakpoint (bus : Peripherals ι σ) (k : Nat) {m : Machine ι σ}
    (h : m.atBreakpoint = false) : m.take bus k false = m.take bus k true := by
  cases k with
  | zero => rfl
  | succ k => rw [take_succ, take_succ, turn_eq, turn_eq, h, Bool.and_false, Bool.and_false]

/-! ### Runs -/

/-- Turns that have not come to an end have got to where a run with their number gets to. -/
theorem take_eq_running {bus : Peripherals ι σ} {turns : Nat} {m : Machine ι σ}
    (h : (m.take bus turns true).cause? = none) :
    m.take bus turns true = .running (m.run bus turns).1 := by
  rw [run_eq]
  cases taken : m.take bus turns true with
  | running x => rfl
  | ended x cause => simp [taken] at h

section

variable {bus : Peripherals ι σ} (hb : ¬ bus.Requests .finished)

include hb

/-- A run is finished exactly if its turns are used up. -/
theorem run_finished_iff {turns : Nat} {m : Machine ι σ} :
    (m.run bus turns).2 = .stop .finished ↔
      m.take bus turns true = .running (m.run bus turns).1 := by
  cases turns with
  | zero => simp [run]
  | succ turns =>
    rw [run_eq]
    cases h : m.take bus (turns + 1) true with
    | running m' => simp
    | ended m' cause =>
      -- A run that has ended has done so for a cause of its own.
      have regular := isRegular_take bus turns true m
      rw [h] at regular
      cases regular with
      | ended ends => simp [ends.ne_finished hb]

/-- **A run that stops** stops in the same way however many turns more it may take. -/
theorem run_add_of_ne_finished {n : Nat} (k : Nat) {m : Machine ι σ}
    (h : (m.run bus n).2 ≠ .stop .finished) : m.run bus (n + k) = m.run bus n := by
  cases n with
  | zero => exact absurd rfl h
  | succ n =>
    rw [Ne, run_finished_iff hb] at h
    rw [run_eq, run_eq, take_add]
    rw [run_eq] at h
    cases same : m.take bus (n + 1) true with
    | running m' => exact absurd (by rw [same]; rfl) h
    | ended m' cause => rfl

/-- **A run that is finished** goes on as a new run from where it has ended, unless there is a
breakpoint. -/
theorem run_add_of_finished {n k : Nat} (hn : 0 < n) (hk : 0 < k) {m : Machine ι σ}
    (h : (m.run bus n).2 = .stop .finished) :
    m.run bus (n + k) =
      if (m.run bus n).1.atBreakpoint then ((m.run bus n).1, .stop .breakpoint)
      else (m.run bus n).1.run bus k := by
  obtain ⟨n, rfl⟩ := Nat.exists_eq_add_one.2 hn
  obtain ⟨k, rfl⟩ := Nat.exists_eq_add_one.2 hk
  have finished := (run_finished_iff hb).1 h
  have regular := isRegular_take bus n true m
  generalize (m.run bus (n + 1)).1 = m' at finished
  rw [finished] at regular
  cases regular with
  | running ready =>
    -- The machine is ready, so that only a breakpoint can end the next turn before it begins.
    rw [run_eq bus (n + 1 + (k + 1)), take_add, finished, Progress.andThen_running]
    cases marked : m'.atBreakpoint with
    | true => rw [take_of_atBreakpoint bus k ready marked]; rfl
    | false => rw [take_of_not_atBreakpoint bus (k + 1) marked, run_eq]; rfl

/-! ### Runs without a limit -/

omit hb in
/-- **Free ends.** A run without a limit ends with the given machine and cause. -/
def EndsFreely (bus : Peripherals ι σ) (m : Machine ι σ) (r : Machine ι σ × Cause) : Prop :=
  ∃ turns, m.runFree? bus turns = some r

/-- What a run without a limit comes to within some turns is what a run with that limit comes to,
unless its turns are used up. -/
theorem runFree?_eq_some_iff {turns : Nat} {m : Machine ι σ} {r : Machine ι σ × Cause} :
    m.runFree? bus turns = some r ↔ m.run bus turns = r ∧ r.2 ≠ .stop .finished := by
  have finished : (m.run bus turns).2 = .stop .finished ↔
      m.take bus turns true = .running (m.run bus turns).1 := run_finished_iff hb
  rw [run_eq] at finished ⊢
  rw [runFree?_eq]
  cases h : m.take bus turns true with
  | running m' =>
    simp only [Progress.cause?_running, Option.map_none, Option.getD_none, reduceCtorEq, false_iff]
    rintro ⟨rfl, unfinished⟩
    exact unfinished rfl
  | ended m' cause =>
    rw [h] at finished
    simp only [Progress.cause?_ended, Option.getD_some, reduceCtorEq, iff_false] at finished
    simp only [Progress.machine_ended, Progress.cause?_ended, Option.map_some, Option.some.injEq,
      Option.getD_some, iff_self_and]
    rintro rfl
    exact finished

/-- More turns do not change how a run has stopped. -/
theorem run_eq_of_le {n n' : Nat} (le : n ≤ n') {m : Machine ι σ}
    (h : (m.run bus n).2 ≠ .stop .finished) : m.run bus n' = m.run bus n := by
  obtain ⟨k, rfl⟩ := Nat.exists_eq_add_of_le le
  exact run_add_of_ne_finished hb k h

/-- **The free end.** If a run with a limit stops, a run without one ends with the same machine and
cause, and in no other way. -/
theorem endsFreely_iff {n : Nat} {m : Machine ι σ} (h : (m.run bus n).2 ≠ .stop .finished)
    (r : Machine ι σ × Cause) : m.EndsFreely bus r ↔ r = m.run bus n := by
  constructor
  · rintro ⟨turns, ended⟩
    obtain ⟨rfl, stopped⟩ := (runFree?_eq_some_iff hb).1 ended
    -- Both runs stop, so the one with more turns ends as the other.
    cases Nat.le_total n turns with
    | inl le => exact run_eq_of_le hb le h
    | inr le => exact (run_eq_of_le hb le stopped).symm
  · rintro rfl
    exact ⟨n, (runFree?_eq_some_iff hb).2 ⟨rfl, h⟩⟩

end

/-- **Runs with any limit.** How a run with the given limit ends, where zero stands for no limit. -/
def RunEnds (bus : Peripherals ι σ) (limit : Nat) (m : Machine ι σ) (r : Machine ι σ × Cause) :
    Prop :=
  if limit = 0 then m.EndsFreely bus r else m.run bus limit = r

/-- A run without a limit, too, ends as one with a limit. -/
theorem exists_run_of_runEnds {bus : Peripherals ι σ} {limit : Nat} {m : Machine ι σ}
    {r : Machine ι σ × Cause} (h : m.RunEnds bus limit r) : ∃ turns, m.run bus turns = r := by
  unfold RunEnds at h
  split at h
  · obtain ⟨turns, ended⟩ := h
    exact ⟨turns, run_of_runFree? ended⟩
  · exact ⟨limit, h⟩

/-- Turns that have come to an end tell how all runs end that may take as many turns. -/
theorem runEnds_iff {bus : Peripherals ι σ} {turns limit : Nat} {m x : Machine ι σ} {cause : Cause}
    (h : m.take bus turns true = .ended x cause) (enough : limit = 0 ∨ turns ≤ limit)
    (r : Machine ι σ × Cause) : m.RunEnds bus limit r ↔ r = (x, cause) := by
  have stays : ∀ n, turns ≤ n → m.take bus n true = .ended x cause := fun n le => by
    obtain ⟨k, rfl⟩ := Nat.exists_eq_add_of_le le
    exact take_of_ended h k
  obtain rfl | le := enough
  · rw [RunEnds, if_pos rfl]
    constructor
    · rintro ⟨n, ended⟩
      rw [runFree?_eq] at ended
      cases taken : m.take bus n true with
      | running y => simp [taken] at ended
      | ended y cause' =>
        -- Both are the end of a run with as many turns as both together.
        have same := (take_of_ended taken turns).symm.trans (stays (n + turns) (by omega))
        rw [taken] at ended
        cases ended
        cases same
        rfl
    · rintro rfl
      exact ⟨turns, by rw [runFree?_eq, h]; rfl⟩
  · rw [RunEnds]
    by_cases unlimited : limit = 0
    · -- No run ends without a turn.
      subst unlimited
      cases Nat.le_zero.1 le
      cases h
    · rw [if_neg unlimited, run_eq, stays limit le]
      exact eq_comm

/-- **What turns keep** is kept by runs, with or without a limit. -/
theorem keeps_runEnds {bus : Peripherals ι σ} {P : Machine ι σ → Prop}
    (turn : ∀ first m, P m → P (m.turn bus first).machine) {limit : Nat} {m : Machine ι σ}
    {r : Machine ι σ × Cause} (h : P m) (ends : m.RunEnds bus limit r) : P r.1 := by
  obtain ⟨turns, same⟩ := exists_run_of_runEnds ends
  rw [← same, run_eq]
  exact keeps_take turn turns true h

/-- **Runs through a function.** If the turns of a run, as far as it may take them and from some
number on, are those of another one looked at through a function, the one ends as the other
does. -/
theorem runEnds_map {τ : Type} {bus : Peripherals ι σ} {bus' : Peripherals ι τ}
    {f : Machine ι σ → Machine ι τ} {m : Machine ι σ} {m' : Machine ι τ} {n limit : Nat}
    (enough : limit = 0 ∨ n ≤ limit)
    (same : ∀ turns, n ≤ turns → limit = 0 ∨ turns ≤ limit →
      m'.take bus' turns true = (m.take bus turns true).map f) (r' : Machine ι τ × Cause) :
    m'.RunEnds bus' limit r' ↔ ∃ r, m.RunEnds bus limit r ∧ r' = (f r.1, r.2) := by
  by_cases unlimited : limit = 0
  · subst unlimited
    simp only [RunEnds, if_pos, EndsFreely, runFree?_eq]
    constructor
    · rintro ⟨turns, ended⟩
      -- With more turns the run ends in the same way, and then it is the other one.
      cases taken : m'.take bus' turns true with
      | running x => simp [taken] at ended
      | ended x cause =>
        have later := take_of_ended taken n
        rw [same (turns + n) (by omega) (.inl rfl)] at later
        cases taken' : m.take bus (turns + n) true with
        | running y => simp [taken'] at later
        | ended y cause' =>
          rw [taken', Progress.map_ended] at later
          cases later
          rw [taken] at ended
          cases ended
          exact ⟨(y, cause), ⟨turns + n, by rw [taken']; rfl⟩, rfl⟩
    · rintro ⟨r, ⟨turns, ended⟩, rfl⟩
      cases taken : m.take bus turns true with
      | running x => simp [taken] at ended
      | ended x cause =>
        refine ⟨turns + n, ?_⟩
        rw [same (turns + n) (by omega) (.inl rfl), take_of_ended taken n]
        rw [taken] at ended
        cases ended
        rfl
  · have le := enough.resolve_left unlimited
    simp only [RunEnds, if_neg unlimited, run_eq, same limit le (.inr (Nat.le_refl limit)),
      Progress.machine_map, Progress.cause?_map]
    exact ⟨fun ends => ⟨_, rfl, ends.symm⟩, by rintro ⟨r, rfl, rfl⟩; rfl⟩

/-! ### Instructions -/

/-- After the first turn no instruction that has a breakpoint is dealt with. -/
theorem not_atBreakpoint_of_mem_visited {bus : Peripherals ι σ} {turns : Nat} {m x : Machine ι σ}
    (h : x ∈ m.visited bus turns false) : x.atBreakpoint = false := by
  obtain ⟨f, only, proceeds⟩ := exists_proceeds_of_mem_visited h
  cases f with
  | false => exact (proceeds_iff.1 proceeds).2
  | true => exact absurd (only rfl) Bool.false_ne_true

/-- **Breakpoints.** No instruction of a run but the first one can have a breakpoint. -/
theorem not_atBreakpoint_of_mem_tail_visited {bus : Peripherals ι σ} {turns : Nat}
    {m x : Machine ι σ} (h : x ∈ (m.visited bus turns true).tail) : x.atBreakpoint = false := by
  cases turns with
  | zero => cases h
  | succ turns =>
    rw [visited] at h
    split at h
    · rw [List.tail_cons] at h
      split at h
      · exact not_atBreakpoint_of_mem_visited h
      · cases h
    · cases h

end Machine

end Micro80
