import Fomowell.Lib.Checked

/-!
# The market maker's arithmetic (`fomowell-icpex-lib/src/pmm.rs`)

The fixed-point helpers and the three integer solvers of the proactive market maker. A `Nat` of the
source is an unbounded unsigned integer whose subtraction and division trap, so a function that
subtracts or divides is an `Option`; one that only multiplies and divides by a constant is total.
The calls to `print` write a debug log and are not modelled.

The solvers are followed by the bounds that every later argument uses, and by nothing else of
theirs: a target is never below the reserve it is solved from
(`le_of_solveQuadraticFunctionForTarget`), and a trade never pays out more than the reserve it is
paid from (`solveQuadraticFunctionForTrade_le`).
-/

namespace Fomowell.Pmm

open Checked

/-! ## Constants and fixed-point helpers -/

/-- `nat_18`, the fixed-point one. -/
def nat18 : Nat := 10 ^ 18

/-- `nat_36`, the square of the fixed-point one. -/
def nat36 : Nat := 10 ^ 36

theorem nat18_pos : 0 < nat18 := by decide

theorem nat36_pos : 0 < nat36 := by decide

theorem nat36_eq : nat36 = nat18 * nat18 := rfl

/-- `d_div_ceil`. -/
def dDivCeil (a b : Nat) : Option Nat := do
  let quotient ← div a b
  let remainder ← sub a (quotient * b)
  return if remainder > 0 then quotient + 1 else quotient

/-- `mul_floor`. -/
def mulFloor (target d : Nat) : Nat := target * d / nat18

/-- `mul_floor36`. -/
def mulFloor36 (target d : Nat) : Nat := target * d / nat36

/-- `div_floor`. -/
def divFloor (target d : Nat) : Option Nat := div (target * nat18) d

/-- `div_ceil`. -/
def divCeil (target d : Nat) : Option Nat := dDivCeil (target * nat18) d

/-- `reciprocal_floor`. -/
def reciprocalFloor (target : Nat) : Option Nat := div nat36 target

/-- The reciprocal of a positive price is defined. -/
theorem reciprocalFloor_of_pos {i : Nat} (h : 0 < i) : reciprocalFloor i = some (nat36 / i) :=
  div_of_pos h

/-- Scaling by at least the fixed-point one does not go down. -/
theorem le_mulFloor {target d : Nat} (h : nat18 ≤ d) : target ≤ mulFloor target d :=
  (Nat.le_div_iff_mul_le nat18_pos).mpr (Nat.mul_le_mul_left target h)

/-- Rounding down does not go up. -/
theorem mulFloor_mul_le (target d : Nat) : mulFloor target d * nat18 ≤ target * d := by
  unfold mulFloor
  exact Nat.div_mul_le_self _ _

/-- Rounding down loses less than one. -/
theorem lt_mulFloor_succ_mul (target d : Nat) : target * d < (mulFloor target d + 1) * nat18 := by
  unfold mulFloor
  exact Nat.lt_mul_of_div_lt (Nat.lt_succ_self _) nat18_pos

/-! ## The solvers -/

/-- `_general_integrate`. -/
def generalIntegrate (v0 v1 v2 i k : Nat) : Option Nat := do
  require (v0 > 0)
  let fairAmount := i * (← sub v1 v2)
  if k = 0 then
    some (fairAmount / nat18)
  else
    let v0v0v1v2 ← divFloor (← div (v0 * v0) v1) v2
    let penalty := mulFloor k v0v0v1v2
    return ((← sub nat18 k) + penalty) * fairAmount / nat36

/-- The local `sqrt` of `_solve_quadratic_function_for_target`. The third branch is the source's
guard against an overflow of the product, which these integers do not have. -/
def targetSqrt (v1 delta ki : Nat) : Option Nat :=
  if ki = 0 then
    some nat18
  else if ki * delta / ki = delta then
    (div (ki * delta) v1).map fun t => Nat.sqrt (t + nat36)
  else
    (div ki v1).map fun t => Nat.sqrt (t * delta + nat36)

/-- `_solve_quadratic_function_for_target`. -/
def solveQuadraticFunctionForTarget (v1 delta i k : Nat) : Option Nat :=
  if k = 0 then
    some (v1 + mulFloor i delta)
  else do
    let ki := 4 * k * i
    let sqrt ← targetSqrt v1 delta ki
    let premium := (← divFloor (← sub sqrt nat18) (k * 2)) + nat18
    return mulFloor v1 premium

/-- The local `temp` of `_solve_quadratic_function_for_trade`, of its case `k == 1`. The third
branch is again a guard against an overflow. -/
def tradeTemp (v0 v1 delta i : Nat) : Option Nat :=
  let iDelta := i * delta
  if iDelta = 0 then
    some 0
  else if iDelta * v1 / iDelta = v1 then
    div (iDelta * v1) (v0 * v0)
  else do
    div ((← div (delta * v1) v0) * i) v0

/-- The local `v2` of `_solve_quadratic_function_for_trade`, of its quadratic case: the reserve that
stays. -/
def tradeV2 (v0 v1 delta i k : Nat) : Option Nat := do
  let part2 := (← div (k * v0) v1) * v0 + i * delta
  let bSide := (← sub nat18 k) * v1
  let bSig := decide (bSide < part2)
  let bAbs := (if bSide ≥ part2 then bSide - part2 else part2 - bSide) / nat18
  let squareRoot := mulFloor ((← sub nat18 k) * 4) (mulFloor k v0 * v0)
  let squareRoot := Nat.sqrt (bAbs * bAbs + squareRoot)
  let denominator := (← sub nat18 k) * 2
  let numerator ← (if bSig then sub squareRoot bAbs else some (bAbs + squareRoot))
  divCeil numerator denominator

/-- `_solve_quadratic_function_for_trade`. -/
def solveQuadraticFunctionForTrade (v0 v1 delta i k : Nat) : Option Nat := do
  require (v0 > 0)
  if delta = 0 then
    some 0
  else if k = 0 then
    let t := mulFloor i delta
    some (if t > v1 then v1 else t)
  else if k = nat18 then do
    let temp ← tradeTemp v0 v1 delta i
    div (v1 * temp) (temp + nat18)
  else do
    let v2 ← tradeV2 v0 v1 delta i k
    return if v2 > v1 then 0 else v1 - v2

/-! ## What a solver returns -/

/-- **A target is at least the reserve it is solved from**: the premium is the fixed-point one or
more. -/
theorem le_of_solveQuadraticFunctionForTarget {v1 delta i k v0 : Nat}
    (h : solveQuadraticFunctionForTarget v1 delta i k = some v0) : v1 ≤ v0 := by
  unfold solveQuadraticFunctionForTarget at h
  split at h
  · cases h
    exact Nat.le_add_right _ _
  · obtain ⟨sqrt, _, h⟩ := Option.bind_eq_some_iff.mp h
    obtain ⟨excess, _, h⟩ := Option.bind_eq_some_iff.mp h
    obtain ⟨quotient, _, h⟩ := Option.bind_eq_some_iff.mp h
    cases h
    exact le_mulFloor (Nat.le_add_left _ _)

/-- **A trade pays out at most the reserve it is paid from.** -/
theorem solveQuadraticFunctionForTrade_le {v0 v1 delta i k out : Nat}
    (h : solveQuadraticFunctionForTrade v0 v1 delta i k = some out) : out ≤ v1 := by
  unfold solveQuadraticFunctionForTrade at h
  obtain ⟨_, _, h⟩ := Option.bind_eq_some_iff.mp h
  split at h
  · cases h
    exact Nat.zero_le _
  split at h
  · cases h
    split <;> omega
  split at h
  · -- `k` is one: the reserve times `temp / (temp + 1)`
    obtain ⟨temp, _, h⟩ := Option.bind_eq_some_iff.mp h
    obtain ⟨_, rfl⟩ := div_eq_some.mp h
    refine Nat.div_le_of_le_mul ?_
    rw [Nat.mul_comm]
    exact Nat.mul_le_mul_right _ (Nat.le_add_right _ _)
  · -- the quadratic case: the reserve less what stays of it, or nothing
    obtain ⟨v2, _, h⟩ := Option.bind_eq_some_iff.mp h
    cases h
    split <;> omega

end Fomowell.Pmm
