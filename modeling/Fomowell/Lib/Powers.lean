import Mathlib.Algebra.Group.Nat.Defs
import Mathlib.Algebra.Order.Ring.Nat
import Mathlib.Tactic.Linarith
import Mathlib.Tactic.Ring

/-!
# Rounded powers

Powers of a fixed-point number `t/s`, in units of `1/s`. A product that is rounded down loses less
than one unit, and what its factors lost before it loses again, no more often than once for each
factor where `t` is at most one. So a power that took any products loses less than one unit a factor
(`Within`), squares included.
-/

namespace Powers

/-- `p` is the power `e` of `t/s`, or less by at most `d` units. -/
structure Within (s t e p d : Nat) : Prop where
  upper : p * s ^ e ≤ s * t ^ e
  lower : s * t ^ e ≤ (p + d) * s ^ e

variable {s t e p d : Nat}

theorem within_zero (s t : Nat) : Within s t 0 s 0 := ⟨Nat.le_refl _, Nat.le_refl _⟩

theorem within_one (s t : Nat) : Within s t 1 t 0 := by
  constructor
  · rw [pow_one, pow_one, Nat.mul_comm]
  · rw [pow_one, pow_one, Nat.add_zero, Nat.mul_comm]

/-- A power of a number up to one is at most one. -/
theorem Within.le_unit (h : Within s t e p d) (hs : 0 < s) (ht : t ≤ s) : p ≤ s := by
  refine Nat.le_of_mul_le_mul_right (h.upper.trans ?_) (Nat.pow_pos hs)
  exact Nat.mul_le_mul_left s (Nat.pow_le_pow_left ht e)

/-- **A square** loses what its root lost, twice, and the rounding. -/
theorem Within.square (h : Within s t e p d) (hs : 0 < s) (ht : t ≤ s) :
    Within s t (2 * e) (p * p / s) (2 * d + 1) := by
  have hp : p ≤ s := h.le_unit hs ht
  have hfloor : p * p / s * s ≤ p * p := Nat.div_mul_le_self _ _
  have hround : p * p ≤ s * (p * p / s + 1) := Nat.le_of_lt (Nat.lt_mul_div_succ _ hs)
  have hunit : s * t ^ e ≤ s * s ^ e := Nat.mul_le_mul_left s (Nat.pow_le_pow_left ht e)
  have hupper := h.upper
  have hlower := h.lower
  generalize p * p / s = q at hfloor hround ⊢
  have hpow : ∀ x : Nat, x ^ (2 * e) = x ^ e * x ^ e := fun x => by rw [Nat.two_mul, Nat.pow_add]
  constructor
  · rw [hpow, hpow]
    refine Nat.le_of_mul_le_mul_left ?_ hs
    calc s * (q * (s ^ e * s ^ e)) = q * s * (s ^ e * s ^ e) := by ring
      _ ≤ p * p * (s ^ e * s ^ e) := Nat.mul_le_mul_right _ hfloor
      _ = p * s ^ e * (p * s ^ e) := by ring
      _ ≤ s * t ^ e * (s * t ^ e) := Nat.mul_le_mul hupper hupper
      _ = s * (s * (t ^ e * t ^ e)) := by ring
  · rw [hpow, hpow]
    refine Nat.le_of_mul_le_mul_left ?_ hs
    calc s * (s * (t ^ e * t ^ e)) = s * t ^ e * (s * t ^ e) := by ring
      _ ≤ s * t ^ e * ((p + d) * s ^ e) := Nat.mul_le_mul_left _ hlower
      _ = s * t ^ e * (p * s ^ e) + s * t ^ e * (d * s ^ e) := by ring
      _ ≤ (p + d) * s ^ e * (p * s ^ e) + s * s ^ e * (d * s ^ e) :=
        Nat.add_le_add (Nat.mul_le_mul_right _ hlower) (Nat.mul_le_mul_right _ hunit)
      _ = (p * p + p * d + s * d) * (s ^ e * s ^ e) := by ring
      _ ≤ (s * (q + 1) + s * d + s * d) * (s ^ e * s ^ e) :=
        Nat.mul_le_mul_right _ (Nat.add_le_add_right
          (Nat.add_le_add hround (Nat.mul_le_mul_right d hp)) _)
      _ = s * ((q + (2 * d + 1)) * (s ^ e * s ^ e)) := by ring

/-- **A further factor** loses the rounding only. -/
theorem Within.times (h : Within s t e p d) (hs : 0 < s) (ht : t ≤ s) :
    Within s t (e + 1) (p * t / s) (d + 1) := by
  have hfloor : p * t / s * s ≤ p * t := Nat.div_mul_le_self _ _
  have hround : p * t ≤ s * (p * t / s + 1) := Nat.le_of_lt (Nat.lt_mul_div_succ _ hs)
  generalize p * t / s = q at hfloor hround ⊢
  constructor
  · calc q * s ^ (e + 1) = q * s * s ^ e := by rw [Nat.pow_succ]; ring
      _ ≤ p * t * s ^ e := Nat.mul_le_mul_right _ hfloor
      _ = p * s ^ e * t := by ring
      _ ≤ s * t ^ e * t := Nat.mul_le_mul_right _ h.upper
      _ = s * t ^ (e + 1) := by rw [Nat.pow_succ]; ring
  · calc s * t ^ (e + 1) = s * t ^ e * t := by rw [Nat.pow_succ]; ring
      _ ≤ (p + d) * s ^ e * t := Nat.mul_le_mul_right _ h.lower
      _ = (p * t + d * t) * s ^ e := by ring
      _ ≤ (s * (q + 1) + d * s) * s ^ e :=
        Nat.mul_le_mul_right _ (Nat.add_le_add hround (Nat.mul_le_mul_left d ht))
      _ = (q + (d + 1)) * s ^ (e + 1) := by rw [Nat.pow_succ]; ring

end Powers
