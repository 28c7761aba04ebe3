import Mathlib.Algebra.Group.Nat.Defs
import Mathlib.Data.Nat.Sqrt
import Mathlib.Order.Defs.LinearOrder

/-!
# Checked arithmetic on unsigned integers

Arithmetic of a language whose unsigned integers are unbounded but partial: a subtraction below
zero and a division by zero do not return. A computation is an `Option`, and `none` is the trap, so
`do` notation reads like the source and one trap ends the whole computation.

Every lemma reads a returning operation backwards (`… = some c ↔ …`), in the spelling that `omega`
takes: a subtraction that returned `c` is the equation `a = b + c`.
-/

namespace Checked

/-- `a - b`, which traps below zero. -/
def sub (a b : Nat) : Option Nat :=
  if b ≤ a then some (a - b) else none

/-- `a / b` rounded down, which traps at `b = 0`. -/
def div (a b : Nat) : Option Nat :=
  if b = 0 then none else some (a / b)

/-- An assertion: traps where the condition fails. -/
def require (p : Prop) [Decidable p] : Option Unit :=
  if p then some () else none

/-- A subtraction returns exactly the number that fills the gap. -/
theorem sub_eq_some {a b c : Nat} : sub a b = some c ↔ a = b + c := by
  unfold sub
  split <;> simp only [Option.some.injEq, reduceCtorEq, false_iff] <;> omega

/-- A subtraction in range is the truncated one. -/
theorem sub_of_le {a b : Nat} (h : b ≤ a) : sub a b = some (a - b) := if_pos h

/-- A computation that starts with a subtraction, as a case split on its range. -/
theorem sub_bind {α : Type*} (a b : Nat) (f : Nat → Option α) :
    (sub a b).bind f = if b ≤ a then f (a - b) else none := by
  unfold sub
  split <;> rfl

/-- A computation that starts with one that returns goes on with its value. -/
theorem bind_of_returns {α β : Type*} {x : Option α} {a : α} (h : x = some a) (f : α → Option β) :
    x.bind f = f a := by
  rw [h, Option.bind_some]

/-- A division returns the rounded quotient, at a divisor other than zero. -/
theorem div_eq_some {a b c : Nat} : div a b = some c ↔ b ≠ 0 ∧ a / b = c := by
  unfold div
  split
  next h => simp only [h, ne_eq, not_true_eq_false, false_and, reduceCtorEq]
  next h => simp only [h, Option.some.injEq, ne_eq, not_false_eq_true, true_and]

/-- A division at a positive divisor is the total one. -/
theorem div_of_pos {a b : Nat} (h : 0 < b) : div a b = some (a / b) :=
  if_neg (Nat.pos_iff_ne_zero.mp h)

/-- A division by zero traps. -/
@[simp] theorem div_zero (a : Nat) : div a 0 = none := rfl

/-- An assertion that holds returns. -/
@[simp] theorem require_of {p : Prop} [Decidable p] (h : p) : require p = some () := if_pos h

/-- An assertion that fails traps. -/
@[simp] theorem require_of_not {p : Prop} [Decidable p] (h : ¬ p) : require p = none := if_neg h

end Checked
