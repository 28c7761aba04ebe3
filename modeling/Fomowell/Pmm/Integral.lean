import Fomowell.Pmm.Math
import Mathlib.Algebra.Order.Floor.Semifield
import Mathlib.Data.Nat.Cast.Order.Field
import Mathlib.Data.Rat.Floor
import Mathlib.Tactic.FieldSimp
import Mathlib.Tactic.GCongr
import Mathlib.Tactic.Linarith
import Mathlib.Tactic.NormNum
import Mathlib.Tactic.Positivity
import Mathlib.Tactic.Ring

/-!
# The rounding of the integral

`_general_integrate` divides four times and rounds down each time: `V0²/V1`, that over `V2`, the
penalty, and the product with the fair amount. The first quotient is scaled up again before the second
division, so what it loses comes back magnified by `1/V2`. `penalty_bounds` follows the loss through the
first three divisions, against the exact penalty `kV0²/(V1V2)`; `generalIntegrate_rounds` adds the last.
-/

namespace Fomowell.Pmm

open Checked

/-! ## Exact values -/

/-- The integral before any rounding. -/
def exactIntegral (v0 v1 v2 i k : Nat) : ℚ :=
  i * (v1 - v2) * ((nat18 - k) + k * v0 ^ 2 / (v1 * v2)) / nat36

/-- What rounding may take away from the penalty. -/
def penaltySlack (v2 k : Nat) : ℚ := k / v2 + k / nat18 + 1

/-- The penalty of the integral, as it is computed. -/
def integralPenalty (v0 v1 v2 k : Nat) : Nat := mulFloor k (v0 * v0 / v1 * nat18 / v2)

/-! ## One rounding -/

/-- A quotient rounded down loses less than one. -/
theorem div_lt_natDiv_succ (a b : Nat) : (a / b : ℚ) < (a / b : Nat) + 1 := by
  rw [← Nat.floor_div_eq_div (K := ℚ)]
  exact Nat.lt_floor_add_one _

/-- What is computed of a returning integral: with `k` of zero the penalty is zero, and the early return
is the same quotient with one scale less. -/
theorem generalIntegrate_eq {v0 v1 v2 k : Nat} (i : Nat) (hv0 : 0 < v0) (hv2 : 0 < v2)
    (hle : v2 ≤ v1) (hk : k ≤ nat18) :
    generalIntegrate v0 v1 v2 i k =
      some ((nat18 - k + integralPenalty v0 v1 v2 k) * (i * (v1 - v2)) / nat36) := by
  have hv1 : 0 < v1 := Nat.lt_of_lt_of_le hv2 hle
  unfold generalIntegrate
  simp only [gt_iff_lt, hv0, require_of, sub_of_le hle, Option.bind_eq_bind, Option.bind_some]
  by_cases hzero : k = 0
  · have hpenalty : integralPenalty v0 v1 v2 k = 0 := by
      unfold integralPenalty mulFloor
      rw [hzero, Nat.zero_mul, Nat.zero_div]
    rw [if_pos hzero, hpenalty, hzero, Nat.add_zero, Nat.sub_zero, nat36_eq,
      Nat.mul_div_mul_left _ _ nat18_pos]
  · unfold divFloor
    simp only [if_neg hzero, div_of_pos hv1, div_of_pos hv2, sub_of_le hk, Option.bind_some]
    rfl

/-! ## The penalty -/

/-- **The penalty is rounded down**, by less than its slack. -/
theorem penalty_bounds (v0 : Nat) {v1 v2 : Nat} (k : Nat) (hv1 : 0 < v1) (hv2 : 0 < v2) :
    (integralPenalty v0 v1 v2 k : ℚ) ≤ k * v0 ^ 2 / (v1 * v2) ∧
      (k * v0 ^ 2 / (v1 * v2) : ℚ) < integralPenalty v0 v1 v2 k + penaltySlack v2 k := by
  have hv1' : (0 : ℚ) < v1 := Nat.cast_pos.mpr hv1
  have hv2' : (0 : ℚ) < v2 := Nat.cast_pos.mpr hv2
  have hone : (0 : ℚ) < nat18 := Nat.cast_pos.mpr nat18_pos
  have hk : (0 : ℚ) ≤ k := Nat.cast_nonneg k
  unfold penaltySlack integralPenalty mulFloor
  -- the three roundings, each against its exact quotient
  have square_le : ((v0 * v0 / v1 : Nat) : ℚ) ≤ (v0 * v0 : Nat) / v1 := Nat.cast_div_le
  have square_lt := div_lt_natDiv_succ (v0 * v0) v1
  generalize v0 * v0 / v1 = t at *
  have ratio_le : ((t * nat18 / v2 : Nat) : ℚ) ≤ (t * nat18 : Nat) / v2 := Nat.cast_div_le
  have ratio_lt := div_lt_natDiv_succ (t * nat18) v2
  generalize t * nat18 / v2 = u at *
  have share_le : ((k * u / nat18 : Nat) : ℚ) ≤ (k * u : Nat) / nat18 := Nat.cast_div_le
  have share_lt := div_lt_natDiv_succ (k * u) nat18
  generalize k * u / nat18 = p at *
  push_cast at square_le square_lt ratio_le ratio_lt share_le share_lt
  generalize ((nat18 : Nat) : ℚ) = one at *
  have exact_eq : (k * v0 ^ 2 / (v1 * v2) : ℚ) = k / v2 * (v0 * v0 / v1) := by
    field_simp
  have hweight : (0 : ℚ) ≤ k / v2 := div_nonneg hk hv2'.le
  rw [exact_eq]
  constructor
  · calc (p : ℚ) ≤ k * u / one := share_le
      _ ≤ k * (t * one / v2) / one := by gcongr
      _ = k / v2 * t := by field_simp
      _ ≤ k / v2 * (v0 * v0 / v1) := mul_le_mul_of_nonneg_left square_le hweight
  · have hsquare : k / v2 * (v0 * v0 / v1 : ℚ) ≤ k / v2 * (t + 1) :=
      mul_le_mul_of_nonneg_left square_lt.le hweight
    have hratio : k * (t * one / v2) / one ≤ k * (u + 1) / one := by gcongr
    calc k / v2 * (v0 * v0 / v1 : ℚ)
        ≤ k / v2 * (t + 1) := hsquare
      _ = k * (t * one / v2) / one + k / v2 := by field_simp
      _ ≤ k * (u + 1) / one + k / v2 := by linarith
      _ = k * u / one + k / one + k / v2 := by ring
      _ < p + (k / v2 + k / one + 1) := by linarith

/-! ## The integral -/

/-- **The integral rounds down by a bounded amount**: it returns, it is at most the exact integral, and
it is short of it by less than the slack of the penalty on the fair amount, and one. -/
theorem generalIntegrate_rounds {v0 v1 v2 i k : Nat} (hv0 : 0 < v0) (hv2 : 0 < v2) (hle : v2 ≤ v1)
    (hk : k ≤ nat18) :
    ∃ out, generalIntegrate v0 v1 v2 i k = some out ∧
      (out : ℚ) ≤ exactIntegral v0 v1 v2 i k ∧
      exactIntegral v0 v1 v2 i k - out < i * (v1 - v2) * penaltySlack v2 k / nat36 + 1 := by
  refine ⟨_, generalIntegrate_eq i hv0 hv2 hle hk, ?_⟩
  obtain ⟨hupper, hlower⟩ := penalty_bounds v0 k (Nat.lt_of_lt_of_le hv2 hle) hv2
  have hscale : (0 : ℚ) < nat36 := Nat.cast_pos.mpr nat36_pos
  have hfair : (0 : ℚ) ≤ i * (v1 - v2) :=
    mul_nonneg (Nat.cast_nonneg i) (sub_nonneg.mpr (Nat.cast_le.mpr hle))
  have hlast_le : (((nat18 - k + integralPenalty v0 v1 v2 k) * (i * (v1 - v2)) / nat36 : Nat) : ℚ) ≤
      _ := Nat.cast_div_le
  have hlast_lt := div_lt_natDiv_succ
    ((nat18 - k + integralPenalty v0 v1 v2 k) * (i * (v1 - v2))) nat36
  generalize (nat18 - k + integralPenalty v0 v1 v2 k) * (i * (v1 - v2)) / nat36 = out at *
  push_cast [Nat.cast_sub hle, Nat.cast_sub hk] at hlast_le hlast_lt
  unfold exactIntegral
  generalize (integralPenalty v0 v1 v2 k : ℚ) = p at *
  generalize (k * v0 ^ 2 / (v1 * v2) : ℚ) = exactPenalty at *
  generalize penaltySlack v2 k = slack at *
  generalize (nat18 - k : ℚ) = flat at *
  generalize ((nat36 : Nat) : ℚ) = scale at *
  generalize (i * (v1 - v2) : ℚ) = fair at *
  constructor
  · calc (out : ℚ) ≤ (flat + p) * fair / scale := hlast_le
      _ = fair * (flat + p) / scale := by rw [mul_comm]
      _ ≤ fair * (flat + exactPenalty) / scale := by gcongr
  · have hslack : fair * (flat + exactPenalty) / scale ≤ fair * (flat + (p + slack)) / scale := by
      gcongr
    calc fair * (flat + exactPenalty) / scale - out
        ≤ fair * (flat + (p + slack)) / scale - out := sub_le_sub_right hslack _
      _ = (flat + p) * fair / scale - out + fair * slack / scale := by ring
      _ < fair * slack / scale + 1 := by linarith

/-- An integral that is not whole: `11/6` is rounded down to one. -/
theorem generalIntegrate_rounds_short :
    exactIntegral 10 12 10 (10 ^ 18) (5 * 10 ^ 17) = 11 / 6 ∧
      ∃ out, generalIntegrate 10 12 10 (10 ^ 18) (5 * 10 ^ 17) = some out ∧
        (out : ℚ) ≤ exactIntegral 10 12 10 (10 ^ 18) (5 * 10 ^ 17) ∧
        exactIntegral 10 12 10 (10 ^ 18) (5 * 10 ^ 17) - out <
          (10 ^ 18 : Nat) * ((12 : Nat) - (10 : Nat)) * penaltySlack 10 (5 * 10 ^ 17) / nat36 + 1 := by
  refine ⟨?_, generalIntegrate_rounds (by decide) (by decide) (by decide) (by decide)⟩
  unfold exactIntegral nat18 nat36
  norm_num

end Fomowell.Pmm
