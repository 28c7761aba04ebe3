import Fomowell.Lib.Powers
import Fomowell.Pmm.Math
import Mathlib.Data.Nat.BinaryRec

/-!
# Powers (`fomowell-icpex-lib/src/pmm.rs`)

`pow_floor` takes a power of a fixed-point number by repeated squaring and rounds every product down.
For a base up to one it is never above the power, below it by less than one unit a factor, and
monotone in the base (`powFloor_within`).
-/

namespace Fomowell.Pmm

open Powers

/-- `pow_floor`. -/
def powFloor (target e : Nat) : Nat :=
  if e = 0 then nat18
  else if e = 1 then target
  else
    let p := powFloor target (e / 2)
    let p := p * p / nat18
    if e % 2 = 1 then p * target / nat18 else p
termination_by e

@[simp] theorem powFloor_zero (target : Nat) : powFloor target 0 = nat18 := by
  rw [powFloor, if_pos rfl]

@[simp] theorem powFloor_one (target : Nat) : powFloor target 1 = target := by
  rw [powFloor, if_neg Nat.one_ne_zero, if_pos rfl]

/-- A further binary digit is a square, and a digit one is a further factor. -/
theorem powFloor_bit (target : Nat) (bit : Bool) {n : Nat} (hn : n ≠ 0) :
    powFloor target (Nat.bit bit n) =
      if bit then powFloor target n * powFloor target n / nat18 * target / nat18
      else powFloor target n * powFloor target n / nat18 := by
  have hhalf : Nat.bit bit n / 2 = n := Nat.bit_div_two bit n
  have hdigit : Nat.bit bit n % 2 = bit.toNat := Nat.bit_mod_two bit n
  have hlarge : 2 ≤ Nat.bit bit n := by omega
  rw [powFloor, if_neg (by omega), if_neg (by omega), hhalf, hdigit]
  cases bit <;> rfl

/-- A power is rounded at most once less than it has factors. -/
theorem powFloor_rounds {target : Nat} (h : target ≤ nat18) (e : Nat) :
    Within nat18 target e (powFloor target e) (e - 1) := by
  induction e using Nat.binaryRecFromOne with
  | zero =>
    rw [powFloor_zero]
    exact within_zero _ _
  | one =>
    rw [powFloor_one]
    exact within_one _ _
  | bit bit n hn ih =>
    have hsquare := ih.square nat18_pos h
    rw [powFloor_bit target bit hn]
    cases bit with
    | false =>
      have hcount : 2 * (n - 1) + 1 = 2 * n - 1 := by omega
      rw [hcount] at hsquare
      exact hsquare
    | true =>
      have htimes := hsquare.times nat18_pos h
      have hcount : 2 * (n - 1) + 1 + 1 = 2 * n + 1 - 1 := by omega
      rw [hcount] at htimes
      exact htimes

theorem powFloor_mono {target target' : Nat} (h : target ≤ target') (e : Nat) :
    powFloor target e ≤ powFloor target' e := by
  induction e using Nat.binaryRecFromOne with
  | zero => simp
  | one => simpa using h
  | bit bit n hn ih =>
    have hsquare : powFloor target n * powFloor target n / nat18 ≤
        powFloor target' n * powFloor target' n / nat18 :=
      Nat.div_le_div_right (Nat.mul_le_mul ih ih)
    rw [powFloor_bit target bit hn, powFloor_bit target' bit hn]
    cases bit with
    | false => exact hsquare
    | true => exact Nat.div_le_div_right (Nat.mul_le_mul hsquare h)

/-- **`pow_floor` of a base up to one** is never above the power, loses less than one unit a factor,
and is monotone in the base. -/
theorem powFloor_within {target : Nat} (h : target ≤ nat18) (e : Nat) :
    Within nat18 target e (powFloor target e) (e - 1) ∧
      ∀ target' ≤ target, powFloor target' e ≤ powFloor target e :=
  ⟨powFloor_rounds h e, fun _ h' => powFloor_mono h' e⟩

theorem powFloor_within_half : Within nat18 (5 * 10 ^ 17) 10 (powFloor (5 * 10 ^ 17) 10) 9 :=
  (powFloor_within (by decide) 10).1

end Fomowell.Pmm
