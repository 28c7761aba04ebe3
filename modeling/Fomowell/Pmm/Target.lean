import Fomowell.Lib.Roots
import Fomowell.Pmm.Market

/-!
# The rounding of a target

`_solve_quadratic_function_for_target` solves `d(kd + V1) = iΔV1` for the excess `d` of the target over
the reserve. Its three truncations all round `d` down: what is paid for never exceeds what is given
(`Backed`), and `d` is short of the exact excess by no more than `targetSlack` (`Reaches`). So
`adjusted_target` re-solves a target between its reserve and what the excess of the other reserve buys
back, and the guard of the product in the square root is never needed (`targetSqrt_eq`).
-/

namespace Fomowell.Pmm

open Checked Roots

/-- What a target exceeds its reserve by is paid for by `delta`. -/
def Backed (v1 delta i k v0 : Nat) : Prop :=
  if k = 0 then (v0 - v1) * nat18 ≤ i * delta
  else (v0 - v1) * (k * (v0 - v1) + nat18 * v1) ≤ i * delta * v1

/-- How far an excess may be below the exact one. -/
def targetSlack (v1 k : Nat) : Nat := v1 / k + v1 / nat18 + 3

/-- An excess that reaches what is paid for. -/
def Reaches (v1 delta i k d : Nat) : Prop := i * delta * v1 ≤ d * (k * d + nat18 * v1)

/-- What a solved target is, up to rounding and from both sides. -/
structure TargetWithin (v1 delta i k v0 : Nat) : Prop where
  le : v1 ≤ v0
  flat : k = 0 → v0 - v1 = i * delta / nat18
  backed : Backed v1 delta i k v0
  reaches : k ≠ 0 → Reaches v1 delta i k (v0 - v1 + targetSlack v1 k)

section

variable {v0 v1 delta i k ki sqrt : Nat}

/-! ## The square root -/

/-- **The guard is never taken**: a product divided by one factor is the other. -/
theorem targetSqrt_eq (v1 delta ki : Nat) :
    targetSqrt v1 delta ki =
      if ki = 0 then some nat18 else (div (ki * delta) v1).map fun t => Nat.sqrt (t + nat36) := by
  unfold targetSqrt
  split
  next => rfl
  next hki => rw [if_pos (Nat.mul_div_cancel_left delta (Nat.pos_of_ne_zero hki))]

theorem targetSqrt_returns (hv1 : 0 < v1) (delta ki : Nat) : ∃ r, targetSqrt v1 delta ki = some r := by
  rw [targetSqrt_eq, div_of_pos hv1]
  split
  · exact ⟨_, rfl⟩
  · exact ⟨_, rfl⟩

/-- The rounded root, between its radicand and the next square. -/
theorem targetSqrt_spec (h : targetSqrt v1 delta ki = some sqrt) :
    nat18 ≤ sqrt ∧ sqrt * sqrt * v1 ≤ ki * delta + nat18 * nat18 * v1 ∧
      ki * delta + nat18 * nat18 * v1 ≤ (sqrt + 1) * (sqrt + 1) * v1 := by
  rw [targetSqrt_eq] at h
  split at h
  next hki =>
    cases h
    rw [hki, Nat.zero_mul, Nat.zero_add]
    have hsucc : nat18 * nat18 ≤ (nat18 + 1) * (nat18 + 1) := Nat.mul_self_le_mul_self (Nat.le_succ _)
    exact ⟨Nat.le_refl _, Nat.le_refl _, Nat.mul_le_mul_right v1 hsucc⟩
  next hki =>
    obtain ⟨t, ht, rfl⟩ := Option.map_eq_some_iff.mp h
    obtain ⟨hv1, rfl⟩ := div_eq_some.mp ht
    have hlower := Nat.sqrt_le (ki * delta / v1 + nat36)
    have hupper := Nat.sqrt_lt.mp (Nat.lt_succ_self (Nat.sqrt (ki * delta / v1 + nat36)))
    have hone : nat18 ≤ Nat.sqrt (ki * delta / v1 + nat36) :=
      Nat.le_sqrt.mpr (Nat.le_add_left _ _)
    have hfloor : ki * delta / v1 * v1 ≤ ki * delta := Nat.div_mul_le_self _ _
    have hceil : ki * delta < (ki * delta / v1 + 1) * v1 :=
      Nat.lt_mul_of_div_lt (Nat.lt_succ_self _) (Nat.pos_of_ne_zero hv1)
    rw [nat36_eq] at *
    generalize Nat.sqrt (ki * delta / v1 + nat18 * nat18) = r at *
    generalize ki * delta / v1 = t at *
    refine ⟨hone, ?_, ?_⟩
    · calc r * r * v1
          ≤ (t + nat18 * nat18) * v1 := Nat.mul_le_mul_right v1 hlower
        _ = t * v1 + nat18 * nat18 * v1 := Nat.add_mul _ _ _
        _ ≤ ki * delta + nat18 * nat18 * v1 := Nat.add_le_add_right hfloor _
    · calc ki * delta + nat18 * nat18 * v1
          ≤ (t + 1) * v1 + nat18 * nat18 * v1 := Nat.add_le_add_right (Nat.le_of_lt hceil) _
        _ = (t + nat18 * nat18 + 1) * v1 := by ring
        _ ≤ (r + 1) * (r + 1) * v1 := Nat.mul_le_mul_right v1 hupper

/-! ## The excess -/

/-- The fixed-point one in the premium is the reserve itself. -/
theorem mulFloor_add_nat18 (v1 p : Nat) : mulFloor v1 (p + nat18) = mulFloor v1 p + v1 := by
  unfold mulFloor
  rw [Nat.mul_add, Nat.add_mul_div_right _ _ nat18_pos]

/-- With `k` not zero, the excess is the reserve's share of the premium. -/
theorem solveQuadraticFunctionForTarget_spec (hk : k ≠ 0)
    (h : solveQuadraticFunctionForTarget v1 delta i k = some v0) :
    ∃ sqrt, targetSqrt v1 delta (4 * k * i) = some sqrt ∧
      v0 - v1 = mulFloor v1 ((sqrt - nat18) * nat18 / (k * 2)) := by
  unfold solveQuadraticFunctionForTarget at h
  rw [if_neg hk] at h
  obtain ⟨sqrt, hsqrt, h⟩ := Option.bind_eq_some_iff.mp h
  obtain ⟨excess, hexcess, h⟩ := Option.bind_eq_some_iff.mp h
  obtain ⟨quotient, hquotient, h⟩ := Option.bind_eq_some_iff.mp h
  obtain ⟨_, rfl⟩ := div_eq_some.mp hquotient
  have hdifference : excess = sqrt - nat18 := (Nat.sub_eq_of_eq_add' (sub_eq_some.mp hexcess)).symm
  obtain rfl := Option.some.inj h
  refine ⟨sqrt, hsqrt, ?_⟩
  rw [hdifference, mulFloor_add_nat18, Nat.add_sub_cancel]

/-- The share of the premium is at most the exact one. -/
theorem share_le {r : Nat} (k : Nat) (hr : nat18 ≤ r) :
    2 * k * mulFloor v1 ((r - nat18) * nat18 / (k * 2)) + v1 * nat18 ≤ v1 * r := by
  have hshare := mulFloor_mul_le v1 ((r - nat18) * nat18 / (k * 2))
  have hpremium : (r - nat18) * nat18 / (k * 2) * (k * 2) ≤ (r - nat18) * nat18 :=
    Nat.div_mul_le_self _ _
  obtain ⟨x, rfl⟩ := Nat.exists_eq_add_of_le hr
  rw [Nat.add_sub_cancel_left] at *
  generalize x * nat18 / (k * 2) = p at *
  generalize mulFloor v1 p = d at *
  have hscaled : 2 * k * d ≤ v1 * x := by
    apply Nat.le_of_mul_le_mul_right (c := nat18) _ nat18_pos
    calc 2 * k * d * nat18
        = 2 * k * (d * nat18) := by ring
      _ ≤ 2 * k * (v1 * p) := Nat.mul_le_mul_left _ hshare
      _ = v1 * (p * (k * 2)) := by ring
      _ ≤ v1 * (x * nat18) := Nat.mul_le_mul_left _ hpremium
      _ = v1 * x * nat18 := by ring
  linarith

/-- With the slack it reaches the next one. -/
theorem le_share_add {r : Nat} (hk : 0 < k) (hr : nat18 ≤ r) :
    v1 * (r + 1) ≤
      2 * k * (mulFloor v1 ((r - nat18) * nat18 / (k * 2)) + targetSlack v1 k) + v1 * nat18 := by
  have hshare := lt_mulFloor_succ_mul v1 ((r - nat18) * nat18 / (k * 2))
  have hpremium : (r - nat18) * nat18 < ((r - nat18) * nat18 / (k * 2) + 1) * (k * 2) :=
    Nat.lt_mul_of_div_lt (Nat.lt_succ_self _) (Nat.mul_pos hk (by decide))
  have hreserve : v1 < (v1 / k + 1) * k := Nat.lt_mul_of_div_lt (Nat.lt_succ_self _) hk
  have hunits : v1 < (v1 / nat18 + 1) * nat18 := Nat.lt_mul_of_div_lt (Nat.lt_succ_self _) nat18_pos
  unfold targetSlack
  obtain ⟨x, rfl⟩ := Nat.exists_eq_add_of_le hr
  rw [Nat.add_sub_cancel_left] at *
  generalize x * nat18 / (k * 2) = p at *
  generalize mulFloor v1 p = d at *
  generalize v1 / k = a at *
  generalize v1 / nat18 = b at *
  -- one unit of the premium is `v1` over the fixed-point one, and one of the excess is one
  have hscaled : v1 * x ≤ 2 * k * (d + b + 2) := by
    apply Nat.le_of_mul_le_mul_right (c := nat18) _ nat18_pos
    calc v1 * x * nat18
        = v1 * (x * nat18) := by ring
      _ ≤ v1 * ((p + 1) * (k * 2)) := Nat.mul_le_mul_left _ (Nat.le_of_lt hpremium)
      _ = (v1 * p + v1) * (2 * k) := by ring
      _ ≤ ((d + 1) * nat18 + (b + 1) * nat18) * (2 * k) :=
        Nat.mul_le_mul_right _ (Nat.add_le_add (Nat.le_of_lt hshare) (Nat.le_of_lt hunits))
      _ = 2 * k * (d + b + 2) * nat18 := by ring
  have hrest : v1 ≤ 2 * k * (a + 1) := by
    calc v1
        ≤ (a + 1) * k := Nat.le_of_lt hreserve
      _ ≤ 2 * ((a + 1) * k) := Nat.le_mul_of_pos_left _ (by decide)
      _ = 2 * k * (a + 1) := by ring
  calc v1 * (nat18 + x + 1)
      = v1 * x + v1 + v1 * nat18 := by ring
    _ ≤ 2 * k * (d + b + 2) + 2 * k * (a + 1) + v1 * nat18 :=
      Nat.add_le_add_right (Nat.add_le_add hscaled hrest) _
    _ = 2 * k * (d + (a + b + 3)) + v1 * nat18 := by ring

/-! ## The target -/

/-- The target of a reserve that is not empty is solved. -/
theorem solveQuadraticFunctionForTarget_returns (hv1 : 0 < v1) (delta i k : Nat) :
    ∃ v0, solveQuadraticFunctionForTarget v1 delta i k = some v0 := by
  unfold solveQuadraticFunctionForTarget
  split
  · exact ⟨_, rfl⟩
  next hk =>
    obtain ⟨sqrt, hsqrt⟩ := targetSqrt_returns hv1 delta (4 * k * i)
    have hdenominator : 0 < k * 2 := Nat.mul_pos (Nat.pos_of_ne_zero hk) (by decide)
    obtain ⟨hone, _⟩ := targetSqrt_spec hsqrt
    dsimp only
    rw [hsqrt]
    dsimp only [Option.bind_eq_bind, Option.bind_some]
    rw [sub_of_le hone, Option.bind_some, divFloor, div_of_pos hdenominator]
    exact ⟨_, rfl⟩

/-- **A solved target**, from both sides. -/
theorem solveQuadraticFunctionForTarget_within
    (h : solveQuadraticFunctionForTarget v1 delta i k = some v0) :
    TargetWithin v1 delta i k v0 := by
  have hle := le_of_solveQuadraticFunctionForTarget h
  by_cases hk : k = 0
  · unfold solveQuadraticFunctionForTarget at h
    rw [if_pos hk] at h
    have hexcess : v0 - v1 = i * delta / nat18 := by
      rw [← Option.some.inj h]
      exact Nat.add_sub_cancel_left _ _
    refine ⟨hle, fun _ => hexcess, ?_, fun hne => absurd hk hne⟩
    unfold Backed
    rw [if_pos hk, hexcess]
    exact Nat.div_mul_le_self _ _
  · have hpos : 0 < k := Nat.pos_of_ne_zero hk
    obtain ⟨sqrt, hsqrt, hexcess⟩ := solveQuadraticFunctionForTarget_spec hk h
    obtain ⟨hone, hlower, hupper⟩ := targetSqrt_spec hsqrt
    have hassoc : 4 * k * i * delta = 4 * k * (i * delta) := Nat.mul_assoc _ _ _
    rw [hassoc] at hlower hupper
    refine ⟨hle, fun hzero => absurd hzero hk, ?_, fun _ => ?_⟩
    · unfold Backed
      rw [if_neg hk, hexcess]
      exact quadratic_le hpos hlower (share_le k hone)
    · unfold Reaches
      rw [hexcess]
      exact le_quadratic hpos hupper (le_share_add hpos hone)

end

/-- **A re-solved target** is at least its reserve, and backed by the excess of the other reserve. -/
def TargetSound (s s' : PMMState) : Prop :=
  match s.r with
  | .BelowOne => s.q ≤ s'.q0 ∧
    ∃ delta, DecimalAdjust.adjustDecimal ⟨s.baseDecimal, s.quoteDecimal⟩ (s.b - s.b0) = some delta ∧
      s' = { s with q0 := s'.q0 } ∧ Backed s.q delta s.i s.k s'.q0
  | .AboveOne => s.b ≤ s'.b0 ∧
    ∃ delta, DecimalAdjust.adjustDecimal ⟨s.quoteDecimal, s.baseDecimal⟩ (s.q - s.q0) = some delta ∧
      s' = { s with b0 := s'.b0 } ∧ Backed s.b delta (nat36 / s.i) s.k s'.b0
  | .ONE => s' = s

theorem adjustedTarget_sound {s s' : PMMState} (h : adjustedTarget s = some s') :
    TargetSound s s' := by
  unfold adjustedTarget at h
  unfold TargetSound
  split at h
  next hr =>
    obtain ⟨excess, hexcess, h⟩ := Option.bind_eq_some_iff.mp h
    obtain ⟨delta, hdelta, h⟩ := Option.bind_eq_some_iff.mp h
    obtain ⟨q0, hq0, h⟩ := Option.bind_eq_some_iff.mp h
    cases h
    rw [hr]
    dsimp only
    rw [Nat.sub_eq_of_eq_add' (sub_eq_some.mp hexcess)]
    have within := solveQuadraticFunctionForTarget_within hq0
    exact ⟨within.le, delta, hdelta, rfl, within.backed⟩
  next hr =>
    obtain ⟨excess, hexcess, h⟩ := Option.bind_eq_some_iff.mp h
    obtain ⟨delta, hdelta, h⟩ := Option.bind_eq_some_iff.mp h
    obtain ⟨price, hprice, h⟩ := Option.bind_eq_some_iff.mp h
    obtain ⟨b0, hb0, h⟩ := Option.bind_eq_some_iff.mp h
    cases h
    rw [hr]
    dsimp only
    rw [Nat.sub_eq_of_eq_add' (sub_eq_some.mp hexcess), (div_eq_some.mp hprice).2]
    have within := solveQuadraticFunctionForTarget_within hb0
    exact ⟨within.le, delta, hdelta, rfl, within.backed⟩
  next hr =>
    simpa only [hr] using (Option.some.inj h).symm

/-- **Targets are re-solved right up to rounding**: the solver answers an excess that is paid for and
within the slack of what is paid for, `adjusted_target` lowers no target below its reserve and
overstates none, and the square root never needs its guard. -/
theorem target_within {v1 : Nat} (hv1 : 0 < v1) (delta i k : Nat) :
    (∃ v0, solveQuadraticFunctionForTarget v1 delta i k = some v0 ∧ TargetWithin v1 delta i k v0) ∧
      (∀ s s' : PMMState, adjustedTarget s = some s' → TargetSound s s') ∧
      ∀ reserve delta ki : Nat, targetSqrt reserve delta ki =
        if ki = 0 then some nat18
        else (div (ki * delta) reserve).map fun t => Nat.sqrt (t + nat36) := by
  obtain ⟨v0, hv0⟩ := solveQuadraticFunctionForTarget_returns hv1 delta i k
  refine ⟨⟨v0, hv0, solveQuadraticFunctionForTarget_within hv0⟩, ?_, targetSqrt_eq⟩
  intro s s' h
  exact adjustedTarget_sound h

/-- A target of a thousand, with an excess of ten at parity. -/
theorem target_within_thousand :
    ∃ v0, solveQuadraticFunctionForTarget 1000 10 nat18 100000000000000000 = some v0 ∧
      TargetWithin 1000 10 nat18 100000000000000000 v0 :=
  (target_within (by decide) 10 nat18 100000000000000000).1

end Fomowell.Pmm
