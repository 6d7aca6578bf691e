import Mathlib.Data.Nat.Digits.Defs
import Mathlib.Tactic.LinearCombination
import Micro80.Alu

/-!
# Chains of byte operations

A number of any length is worked on byte by byte. An operation takes a byte of each of two numbers,
from the low byte up, and the flags that it leaves go into the operation on the next two bytes. What
does not fit in a byte reaches the next one as the carry, so the carry after the last byte tells
what does not fit in the whole.

Nothing of this depends on what a byte stands for. It may be a digit of any base, as long as the
operation on two digits leaves a digit and a carry that add up. Binary and decimal numbers are two
instances.

## Main definitions

* `Alu.chain`: a chain of byte operations.
* `Alu.number`: the number with given bytes as its digits.
* `Alu.IsPositional`: an operation on digits that is exact up to its carry.

## Main statements

* `Alu.IsPositional.exact_chain`: a chain is exact up to the carry it leaves.
* `Alu.IsPositional.number_sum`, `Alu.IsPositional.number_difference`: what the bytes and the carry
  are.
-/

namespace Micro80

namespace Alu

/-! ### Chains -/

/-- **Chains.** An operation on the low bytes of two numbers, and then one on each two bytes further
up, each with the flags that the one before it has left. -/
def chain (first rest : UInt8 → UInt8 → UInt8 → AluResult UInt8) :
    List UInt8 → List UInt8 → UInt8 → AluResult (List UInt8)
  | x :: xs, y :: ys, f =>
    let low := first x y f
    let high := chain rest rest xs ys low.flags
    { value := low.value :: high.value, flags := high.flags }
  | _, _, f => { value := [], flags := f }

section Chain

variable {first rest op : UInt8 → UInt8 → UInt8 → AluResult UInt8}

@[simp] theorem chain_nil (ys : List UInt8) (f : UInt8) :
    chain first rest [] ys f = { value := [], flags := f } := by
  unfold chain
  rfl

theorem chain_cons (x y : UInt8) (xs ys : List UInt8) (f : UInt8) :
    chain first rest (x :: xs) (y :: ys) f =
      { value := (first x y f).value :: (chain rest rest xs ys (first x y f).flags).value
        flags := (chain rest rest xs ys (first x y f).flags).flags } := by
  rw [chain]

/-- A chain leaves as many bytes as it has been given. -/
theorem length_chain {xs ys : List UInt8} (same : xs.length = ys.length) (f : UInt8) :
    (chain op op xs ys f).value.length = xs.length := by
  induction xs generalizing ys f with
  | nil => rw [chain_nil]
  | cons x xs ih =>
    obtain _ | ⟨y, ys⟩ := ys
    · cases same
    · rw [chain_cons, List.length_cons, List.length_cons, ih (Nat.succ.inj same)]

end Chain

/-! ### Numbers -/

/-- **Numbers.** The number whose digits the given bytes stand for, the low one first. -/
def number (base : Nat) (digit : UInt8 → Nat) (xs : List UInt8) : Nat :=
  Nat.ofDigits base (xs.map digit)

section Number

variable {base : Nat} {digit : UInt8 → Nat}

@[simp] theorem number_nil : number base digit [] = 0 := rfl

theorem number_cons (x : UInt8) (xs : List UInt8) :
    number base digit (x :: xs) = digit x + base * number base digit xs := by
  unfold number
  rw [List.map_cons, Nat.ofDigits_cons]

/-- A number of some digits is below the power of the base. -/
theorem number_lt (positive : 1 < base) {xs : List UInt8} (digits : ∀ x ∈ xs, digit x < base) :
    number base digit xs < base ^ xs.length := by
  have bound : ∀ d ∈ xs.map digit, d < base := by
    intro d hd
    obtain ⟨x, hx, rfl⟩ := List.mem_map.1 hd
    exact digits x hx
  have below := Nat.ofDigits_lt_base_pow_length positive bound
  rwa [List.length_map] at below

end Number

/-! ### Exact chains -/

/-- **Positional operations.** An operation that adds digits, if `sign` is one, or subtracts them,
if it is minus one, and passes on as carry what does not fit in a digit. Bytes that are no digits
need not be worked on. -/
structure IsPositional (base : Nat) (digit : UInt8 → Nat) (isDigit : UInt8 → Prop) (sign : Int)
    (op : UInt8 → UInt8 → UInt8 → AluResult UInt8) : Prop where
  /-- A carry is worth more than nothing. -/
  one_lt_base : 1 < base
  /-- Digits have numbers below the base. -/
  digit_lt : ∀ x, isDigit x → digit x < base
  /-- What is left is a digit. -/
  isDigit_value : ∀ x y f, isDigit x → isDigit y → isDigit (op x y f).value
  /-- Nothing gets lost. -/
  exact : ∀ x y f, isDigit x → isDigit y →
    (digit x : Int) + sign * (digit y + (carryOf f).toNat) =
      digit (op x y f).value + sign * base * (carryOf (op x y f).flags).toNat

namespace IsPositional

variable {base : Nat} {digit : UInt8 → Nat} {isDigit : UInt8 → Prop} {sign : Int}
  {op : UInt8 → UInt8 → UInt8 → AluResult UInt8}

/-- A chain on digits leaves digits. -/
theorem isDigit_chain (h : IsPositional base digit isDigit sign op) {xs ys : List UInt8}
    (hx : ∀ x ∈ xs, isDigit x) (hy : ∀ y ∈ ys, isDigit y) (f : UInt8) :
    ∀ z ∈ (chain op op xs ys f).value, isDigit z := by
  induction xs generalizing ys f with
  | nil =>
    intro z hz
    rw [chain_nil] at hz
    cases hz
  | cons x xs ih =>
    obtain _ | ⟨y, ys⟩ := ys
    · intro z hz
      cases hz
    · intro z hz
      rw [chain_cons] at hz
      obtain rfl | hz := List.mem_cons.1 hz
      · exact h.isDigit_value x y f (hx x List.mem_cons_self) (hy y List.mem_cons_self)
      · have hx' : ∀ x ∈ xs, isDigit x := fun x hx' => hx x (List.mem_cons_of_mem _ hx')
        have hy' : ∀ y ∈ ys, isDigit y := fun y hy' => hy y (List.mem_cons_of_mem _ hy')
        exact ih hx' hy' _ z hz

/-- **Chains are exact** up to the carry that they leave. -/
theorem exact_chain (h : IsPositional base digit isDigit sign op) {xs ys : List UInt8}
    (same : xs.length = ys.length) (hx : ∀ x ∈ xs, isDigit x) (hy : ∀ y ∈ ys, isDigit y)
    (f : UInt8) :
    (number base digit xs : Int) + sign * (number base digit ys + (carryOf f).toNat) =
      number base digit (chain op op xs ys f).value
        + sign * base ^ xs.length * (carryOf (chain op op xs ys f).flags).toNat := by
  induction xs generalizing ys f with
  | nil =>
    have none : ys = [] := List.length_eq_zero_iff.1 same.symm
    subst none
    simp
  | cons x xs ih =>
    obtain _ | ⟨y, ys⟩ := ys
    · cases same
    · have hx' : ∀ x ∈ xs, isDigit x := fun x hx' => hx x (List.mem_cons_of_mem _ hx')
      have hy' : ∀ y ∈ ys, isDigit y := fun y hy' => hy y (List.mem_cons_of_mem _ hy')
      -- The carry of the low byte is what the digits above it are given.
      have low := h.exact x y f (hx x List.mem_cons_self) (hy y List.mem_cons_self)
      have high := ih (Nat.succ.inj same) hx' hy' (op x y f).flags
      rw [chain_cons, number_cons, number_cons, number_cons, List.length_cons, pow_succ]
      push_cast
      linear_combination low + (base : Int) * high

/-- A number that a chain leaves has no more digits than those it has been given. -/
theorem number_chain_lt (h : IsPositional base digit isDigit sign op) {xs ys : List UInt8}
    (same : xs.length = ys.length) (hx : ∀ x ∈ xs, isDigit x) (hy : ∀ y ∈ ys, isDigit y)
    (f : UInt8) : number base digit (chain op op xs ys f).value < base ^ xs.length := by
  have digits := h.isDigit_chain hx hy f
  have below := number_lt h.one_lt_base fun z hz => h.digit_lt z (digits z hz)
  rwa [length_chain same] at below

/-- **Sums.** A chain of additions leaves the sum as far as it fits, and a carry if it does not
fit. -/
theorem number_sum (h : IsPositional base digit isDigit 1 op) {xs ys : List UInt8}
    (same : xs.length = ys.length) (hx : ∀ x ∈ xs, isDigit x) (hy : ∀ y ∈ ys, isDigit y)
    (f : UInt8) :
    number base digit (chain op op xs ys f).value =
        (number base digit xs + number base digit ys + (carryOf f).toNat) % base ^ xs.length ∧
      (carryOf (chain op op xs ys f).flags = true ↔
        base ^ xs.length ≤ number base digit xs + number base digit ys + (carryOf f).toNat) := by
  have below := h.number_chain_lt same hx hy f
  have exact := h.exact_chain same hx hy f
  generalize number base digit (chain op op xs ys f).value = r at below exact ⊢
  rw [one_mul, one_mul] at exact
  norm_cast at exact
  rw [← Nat.add_assoc] at exact
  rw [exact]
  cases carryOf (chain op op xs ys f).flags with
  | false => simp [Nat.mod_eq_of_lt below, below]
  | true => simp [Nat.mod_eq_of_lt below]

/-- **Differences.** A chain of subtractions leaves the difference, wrapped around if it is
negative, and a carry if it is. -/
theorem number_difference (h : IsPositional base digit isDigit (-1) op) {xs ys : List UInt8}
    (same : xs.length = ys.length) (hx : ∀ x ∈ xs, isDigit x) (hy : ∀ y ∈ ys, isDigit y)
    (f : UInt8) :
    (number base digit (chain op op xs ys f).value : Int) =
        ((number base digit xs : Int) - number base digit ys - (carryOf f).toNat)
          % (base ^ xs.length : Nat) ∧
      (carryOf (chain op op xs ys f).flags = true ↔
        number base digit xs < number base digit ys + (carryOf f).toNat) := by
  have below := h.number_chain_lt same hx hy f
  have exact := h.exact_chain same hx hy f
  generalize number base digit (chain op op xs ys f).value = r at below exact ⊢
  have total : (number base digit xs : Int) - number base digit ys - (carryOf f).toNat =
      r - (base ^ xs.length : Nat) * (carryOf (chain op op xs ys f).flags).toNat := by
    push_cast
    linear_combination exact
  have fits : (r : Int) < (base ^ xs.length : Nat) := Int.ofNat_lt.2 below
  rw [total]
  generalize base ^ xs.length = m at below total fits ⊢
  cases hc : carryOf (chain op op xs ys f).flags with
  | false =>
    rw [hc] at total
    simp only [Bool.toNat_false, Nat.cast_zero, mul_zero, sub_zero] at total ⊢
    refine ⟨(Int.emod_eq_of_lt (Int.natCast_nonneg r) fits).symm, ?_⟩
    simp only [Bool.false_eq_true, false_iff]
    omega
  | true =>
    rw [hc] at total
    simp only [Bool.toNat_true, Nat.cast_one, mul_one] at total ⊢
    refine ⟨?_, ?_⟩
    · rw [Int.sub_emod_right, Int.emod_eq_of_lt (Int.natCast_nonneg r) fits]
    · simp only [true_iff]
      omega

end IsPositional

end Alu

end Micro80
