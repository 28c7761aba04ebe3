import Mathlib.Algebra.Order.Ring.Abs
import Mathlib.Data.Int.Order.Basic
import Mathlib.Data.Nat.Sqrt
import Mathlib.Tactic.Linarith
import Mathlib.Tactic.Ring

/-!
# Rounded roots and quotients

The positive root of `x² - 2mx = c` is `m + √(m² + c)`, for `m` of either sign. With the square root
rounded down it is an integer (`signedRoot`) and still monotone in `m`, although the two summands pull
in opposite directions where `m` is negative.

The equation `d(kd + wv) = cv` has its positive root where `(2kd + vw)²` is `v(4kc + w²v)`, so a bound on
the root of the radicand is a bound on `d` from the same side (`quadratic_le`, `le_quadratic`), however
the radicand and the root were rounded.

The rest are facts of the same kind about quotients: a share `v·t/(t + c)` is monotone in `t`, and the
quotient of a sum is at most the sum of the quotients and one.
-/

namespace Roots

/-- The positive root of `x² - 2mx = c`, rounded down. -/
def signedRoot (m : Int) (c : Nat) : Int := m + Nat.sqrt (m.natAbs * m.natAbs + c)

/-- Of a number that is not negative, the root is a sum. -/
theorem signedRoot_ofNat (m c : Nat) : signedRoot m c = ((m + Nat.sqrt (m * m + c) : Nat) : Int) := by
  unfold signedRoot
  rw [Int.natAbs_natCast]
  exact (Int.natCast_add _ _).symm

/-- Of a number that is not positive, it is a difference. -/
theorem signedRoot_neg (m c : Nat) :
    signedRoot (-m) c = ((Nat.sqrt (m * m + c) - m : Nat) : Int) := by
  have h : m ≤ Nat.sqrt (m * m + c) := Nat.le_sqrt.mpr (Nat.le_add_right _ _)
  unfold signedRoot
  rw [Int.natAbs_neg, Int.natAbs_natCast]
  omega

/-- **The root is monotone**: what the square root loses by rounding, it has lost already. -/
theorem signedRoot_mono {m m' : Int} (h : m ≤ m') (c : Nat) : signedRoot m c ≤ signedRoot m' c := by
  obtain ⟨d, rfl⟩ := Int.le.dest h
  -- the rounded root at `m + d` bounds the one at `m`, moved by `d`
  have hbound : m.natAbs * m.natAbs + c <
      (Nat.sqrt ((m + d).natAbs * (m + d).natAbs + c) + d + 1) *
        (Nat.sqrt ((m + d).natAbs * (m + d).natAbs + c) + d + 1) := by
    have hlt := Nat.sqrt_lt.mp (Nat.lt_succ_self (Nat.sqrt ((m + d).natAbs * (m + d).natAbs + c)))
    have hle : (m + d).natAbs ≤ Nat.sqrt ((m + d).natAbs * (m + d).natAbs + c) :=
      Nat.le_sqrt.mpr (Nat.le_add_right _ _)
    generalize Nat.sqrt ((m + d).natAbs * (m + d).natAbs + c) = r at hlt hle ⊢
    zify at hlt hle ⊢
    rw [abs_mul_abs_self] at hlt ⊢
    have hneg : -(m + d) ≤ r := (neg_le_abs (m + d)).trans hle
    have hd : (0 : Int) ≤ d := Int.natCast_nonneg d
    nlinarith [mul_nonneg hd (sub_nonneg.mpr hneg)]
  have hroot := Nat.sqrt_lt.mpr hbound
  unfold signedRoot
  omega

/-- The root is at least `n` exactly where the equation asks no more than `c` at `n`. -/
theorem le_signedRoot_iff {m n : Int} (hn : 0 ≤ n) (c : Nat) :
    n ≤ signedRoot m c ↔ n * (n - 2 * m) ≤ c := by
  have hroot : n ≤ signedRoot m c ↔ (n - m).toNat ≤ Nat.sqrt (m.natAbs * m.natAbs + c) := by
    unfold signedRoot
    omega
  have hsquare : ((m.natAbs * m.natAbs + c : Nat) : Int) = m * m + c := by
    rw [Int.natCast_add, Int.natCast_mul, Int.natAbs_mul_self' m]
  rw [hroot, Nat.le_sqrt, ← Int.ofNat_le, hsquare, Int.natCast_mul]
  obtain hm | hm := Int.le_total n m
  · -- the root of a number is not negative, and `n` is below the summand before it
    have hzero : (n - m).toNat = 0 := by omega
    rw [hzero, Int.natCast_zero, zero_mul]
    have hsum : (0 : Int) ≤ m * m + c := Int.add_nonneg (mul_self_nonneg m) (Int.natCast_nonneg c)
    have hproduct : n * (n - 2 * m) ≤ 0 := mul_nonpos_of_nonneg_of_nonpos hn (by omega)
    exact iff_of_true hsum (hproduct.trans (Int.natCast_nonneg c))
  · rw [Int.toNat_of_nonneg (Int.sub_nonneg_of_le hm)]
    have hexpand : (n - m) * (n - m) = n * (n - 2 * m) + m * m := by ring
    rw [hexpand]
    omega

section

variable {k d v w s c : Nat}

/-- Completing the square. -/
theorem square_eq (k d v w : Nat) :
    (2 * k * d + v * w) * (2 * k * d + v * w) = 4 * k * (d * (k * d + w * v)) + v * (w * w * v) := by
  ring

/-- What stays below the rounded root does not exceed the equation. -/
theorem quadratic_le (hk : 0 < k) (hroot : s * s * v ≤ 4 * k * c + w * w * v)
    (hd : 2 * k * d + v * w ≤ v * s) : d * (k * d + w * v) ≤ c * v := by
  have hsquare : 4 * k * (d * (k * d + w * v)) + v * (w * w * v) ≤
      4 * k * (c * v) + v * (w * w * v) := by
    calc 4 * k * (d * (k * d + w * v)) + v * (w * w * v)
        = (2 * k * d + v * w) * (2 * k * d + v * w) := (square_eq k d v w).symm
      _ ≤ v * s * (v * s) := Nat.mul_self_le_mul_self hd
      _ = v * (s * s * v) := by ring
      _ ≤ v * (4 * k * c + w * w * v) := Nat.mul_le_mul_left v hroot
      _ = 4 * k * (c * v) + v * (w * w * v) := by ring
  exact Nat.le_of_mul_le_mul_left (Nat.le_of_add_le_add_right hsquare) (Nat.mul_pos (by decide) hk)

/-- What reaches a bound of the root reaches the equation. -/
theorem le_quadratic (hk : 0 < k) (hroot : 4 * k * c + w * w * v ≤ s * s * v)
    (hd : v * s ≤ 2 * k * d + v * w) : c * v ≤ d * (k * d + w * v) := by
  have hsquare : 4 * k * (c * v) + v * (w * w * v) ≤
      4 * k * (d * (k * d + w * v)) + v * (w * w * v) := by
    calc 4 * k * (c * v) + v * (w * w * v)
        = v * (4 * k * c + w * w * v) := by ring
      _ ≤ v * (s * s * v) := Nat.mul_le_mul_left v hroot
      _ = v * s * (v * s) := by ring
      _ ≤ (2 * k * d + v * w) * (2 * k * d + v * w) := Nat.mul_self_le_mul_self hd
      _ = 4 * k * (d * (k * d + w * v)) + v * (w * w * v) := square_eq k d v w
  exact Nat.le_of_mul_le_mul_left (Nat.le_of_add_le_add_right hsquare) (Nat.mul_pos (by decide) hk)

end

/-- A share of `v` grows with `t`. -/
theorem mul_div_add_mono {v t t' c : Nat} (h : t ≤ t') (hc : 0 < c) :
    v * t / (t + c) ≤ v * t' / (t' + c) := by
  apply (Nat.le_div_iff_mul_le (Nat.add_pos_right t' hc)).mpr
  have hshare : v * t / (t + c) * (t + c) ≤ v * t := Nat.div_mul_le_self _ _
  have hpos : 0 < t + c := Nat.add_pos_right t hc
  apply Nat.le_of_mul_le_mul_right (c := t + c) _ hpos
  calc v * t / (t + c) * (t' + c) * (t + c)
      = v * t / (t + c) * (t + c) * (t' + c) := by ring
    _ ≤ v * t * (t' + c) := Nat.mul_le_mul_right _ hshare
    _ = v * (t * t' + t * c) := by ring
    _ ≤ v * (t * t' + t' * c) :=
      Nat.mul_le_mul_left v (Nat.add_le_add_left (Nat.mul_le_mul_right c h) _)
    _ = v * t' * (t + c) := by ring

/-- Two quotients lose at most one against the quotient of the sum. -/
theorem add_div_le (a b : Nat) {c : Nat} (hc : 0 < c) : (a + b) / c ≤ a / c + b / c + 1 := by
  rw [Nat.add_div hc]
  split <;> omega

end Roots
