import Fomowell.Pmm.Monotone

/-!
# The rounding of a trade

`_solve_quadratic_function_for_trade` is documented to round down: the pool is never paid less than
its curve asks (`RoundsDown`). With `k` of zero or one it does. Between them the reserve that stays is
the root of a quadratic equation, rounded up at the end; but before that both coefficients are
truncated, by up to one whole unit, and the division by `2(1 - k)` scales up what was lost.

`RootPast` says of a reserve that it is below the root of the truncated equation, as one comparison of
integers, so between zero and one the contract is kept where every reserve too small for the curve is also too
small for the truncated equation (`roundedDown_iff_rootPast`). That depends on each of the roundings. What the
inputs say is this: nothing paid, or a `k` of zero or of one, is enough; and with any other `k` the truncated
equation has no positive root once a sale is large, so that the whole reserve is paid out
(`trade_roundsDown_iff`).
-/

namespace Fomowell.Pmm

open Checked Roots

/-- The curve lets the reserve go down from `v1` to `v2` for what is paid. -/
def CurveAllows (v0 v1 delta i k v2 : Nat) : Prop :=
  (v1 - v2) * ((nat18 - k) * v1 * v2 + k * v0 * v0) ≤ i * delta * v1 * v2

/-- **The contract of the solver**: the pool is paid at least what its curve asks for `out`, and is not
drained while the price is not constant. -/
def RoundsDown (v0 v1 delta i k out : Nat) : Prop :=
  if k = 0 then out * nat18 ≤ i * delta
  else out * ((nat18 - k) * v1 * (v1 - out) + k * v0 * v0) ≤ i * delta * v1 * (v1 - out) ∧ out < v1

/-- The solver returns, and keeps its contract. -/
def RoundedDown (v0 v1 delta i k : Nat) : Prop :=
  ∃ out, solveQuadraticFunctionForTrade v0 v1 delta i k = some out ∧ RoundsDown v0 v1 delta i k out

/-- The linear coefficient of the trade, `(1 - k) V1 - k V0²/V1 - iΔ`, as the solver truncates it. -/
def truncatedLinear (v0 v1 delta i k : Nat) : Int :=
  ((((nat18 - k) * v1 : Nat) : Int) - ((k * v0 / v1 * v0 + i * delta : Nat) : Int)).tdiv nat18

/-- The constant coefficient of the trade, `4 (1 - k) k V0²`, as the solver truncates it. -/
def truncatedConstant (v0 k : Nat) : Nat :=
  mulFloor ((nat18 - k) * 4) (mulFloor k v0 * v0)

/-- A reserve `x` is below the root of the truncated equation. -/
def RootPast (v0 v1 delta i k x : Nat) : Prop :=
  let y : Int := ((x * ((nat18 - k) * 2) / nat18 + 1 : Nat) : Int)
  y * (y - 2 * truncatedLinear v0 v1 delta i k) ≤ truncatedConstant v0 k

instance (v0 v1 delta i k x : Nat) : Decidable (CurveAllows v0 v1 delta i k x) :=
  inferInstanceAs (Decidable (_ ≤ _))

instance (v0 v1 delta i k x : Nat) : Decidable (RootPast v0 v1 delta i k x) :=
  inferInstanceAs (Decidable (_ ≤ _))

/-! ## The curve -/

section

variable {v0 v1 delta i k : Nat}

/-- A larger reserve asks for less. -/
theorem CurveAllows.mono {x x' : Nat} (hx : x ≤ x') (hx0 : 0 < x)
    (h : CurveAllows v0 v1 delta i k x) : CurveAllows v0 v1 delta i k x' := by
  unfold CurveAllows at *
  apply Nat.le_of_mul_le_mul_right (c := x) _ hx0
  have hgap : v1 - x' ≤ v1 - x := Nat.sub_le_sub_left hx v1
  generalize (nat18 - k) * v1 = a at *
  generalize k * v0 * v0 = c at *
  generalize i * delta * v1 = d at *
  have hweight : (a * x' + c) * x ≤ (a * x + c) * x' := by
    have hc := Nat.mul_le_mul_left c hx
    linarith [Nat.mul_comm x x', Nat.mul_assoc a x' x, Nat.mul_assoc a x x']
  calc (v1 - x') * (a * x' + c) * x
      = (v1 - x') * ((a * x' + c) * x) := by ring
    _ ≤ (v1 - x) * ((a * x + c) * x') := Nat.mul_le_mul hgap hweight
    _ = (v1 - x) * (a * x + c) * x' := by ring
    _ ≤ d * x * x' := Nat.mul_le_mul_right x' h
    _ = d * x' * x := by ring

/-- The curve never lets the reserve go down to nothing. -/
theorem not_curveAllows_zero (hv0 : 0 < v0) (hv1 : 0 < v1) (hk : 0 < k) :
    ¬ CurveAllows v0 v1 delta i k 0 := by
  unfold CurveAllows
  rw [Nat.mul_zero, Nat.mul_zero, Nat.zero_add, Nat.sub_zero, Nat.not_le]
  exact Nat.mul_pos hv1 (Nat.mul_pos (Nat.mul_pos hk hv0) hv0)

/-- So a reserve is allowed exactly where it is above every reserve that is not. -/
theorem curveAllows_iff (hv0 : 0 < v0) (hv1 : 0 < v1) (hk : 0 < k) {v2 : Nat} :
    CurveAllows v0 v1 delta i k v2 ↔ ∀ x, ¬ CurveAllows v0 v1 delta i k x → x < v2 := by
  constructor
  · intro hv2 x hx
    by_contra hle
    refine hx (hv2.mono (Nat.not_lt.mp hle) (Nat.pos_of_ne_zero ?_))
    rintro rfl
    exact not_curveAllows_zero hv0 hv1 hk hv2
  · intro all
    by_contra hv2
    exact Nat.lt_irrefl v2 (all v2 hv2)

/-- What leaves the reserve keeps the contract where the curve allows what stays. -/
theorem roundsDown_iff (hv0 : 0 < v0) (hv1 : 0 < v1) (hk : 0 < k) {v2 : Nat} :
    RoundsDown v0 v1 delta i k (if v2 > v1 then 0 else v1 - v2) ↔
      CurveAllows v0 v1 delta i k v2 := by
  unfold RoundsDown
  rw [if_neg (Nat.pos_iff_ne_zero.mp hk)]
  split
  next hpast =>
    -- nothing leaves the reserve, and the curve asks for nothing
    have hallows : CurveAllows v0 v1 delta i k v2 := by
      unfold CurveAllows
      rw [Nat.sub_eq_zero_of_le (Nat.le_of_lt hpast), Nat.zero_mul]
      exact Nat.zero_le _
    rw [Nat.zero_mul]
    exact iff_of_true ⟨Nat.zero_le _, hv1⟩ hallows
  next hle =>
    have hstays : v1 - (v1 - v2) = v2 := Nat.sub_sub_self (Nat.not_lt.mp hle)
    rw [hstays]
    constructor
    · exact And.left
    · intro hallows
      refine ⟨hallows, Nat.sub_lt hv1 (Nat.pos_of_ne_zero ?_)⟩
      rintro rfl
      exact not_curveAllows_zero hv0 hv1 hk hallows

end

/-! ## The truncated equation -/

section

variable {v0 v1 delta i k : Nat}

theorem dDivCeil_returns (a : Nat) {b : Nat} (hb : 0 < b) : ∃ c, dDivCeil a b = some c := by
  unfold dDivCeil
  rw [div_of_pos hb]
  dsimp only [Option.bind_eq_bind, Option.bind_some]
  rw [sub_of_le (Nat.div_mul_le_self a b)]
  exact ⟨_, rfl⟩

/-- The quadratic case returns. -/
theorem tradeV2_returns (hv1 : 0 < v1) (hk : k < nat18) :
    ∃ v2, tradeV2 v0 v1 delta i k = some v2 := by
  unfold tradeV2
  rw [div_of_pos hv1, sub_of_le (Nat.le_of_lt hk)]
  dsimp only [Option.bind_eq_bind, Option.bind_some]
  have hdenominator : 0 < (nat18 - k) * 2 := Nat.mul_pos (Nat.sub_pos_of_lt hk) (by decide)
  generalize mulFloor ((nat18 - k) * 4) (mulFloor k v0 * v0) = c
  generalize (if (nat18 - k) * v1 ≥ k * v0 / v1 * v0 + i * delta
    then (nat18 - k) * v1 - (k * v0 / v1 * v0 + i * delta)
    else k * v0 / v1 * v0 + i * delta - (nat18 - k) * v1) / nat18 = m
  split
  · have hroot : m ≤ Nat.sqrt (m * m + c) := Nat.le_sqrt.mpr (Nat.le_add_right _ _)
    rw [sub_of_le hroot]
    exact dDivCeil_returns _ hdenominator
  · exact dDivCeil_returns _ hdenominator

/-- Between a `k` of zero and of one, what is paid out is the reserve less what stays of it. -/
theorem solveQuadraticFunctionForTrade_of_tradeV2 {v2 : Nat} (hv0 : 0 < v0) (hdelta : delta ≠ 0)
    (hzero : k ≠ 0) (hone : k ≠ nat18) (h : tradeV2 v0 v1 delta i k = some v2) :
    solveQuadraticFunctionForTrade v0 v1 delta i k = some (if v2 > v1 then 0 else v1 - v2) := by
  unfold solveQuadraticFunctionForTrade
  rw [require_of hv0]
  dsimp only [Option.bind_eq_bind, Option.bind_some]
  rw [if_neg hdelta, if_neg hzero, if_neg hone, h]
  rfl

/-- The reserves below the one that stays are those below the root. -/
theorem lt_tradeV2_iff {v2 x : Nat} (h : tradeV2 v0 v1 delta i k = some v2) :
    x < v2 ↔ RootPast v0 v1 delta i k x := by
  obtain ⟨q, flat, hq, hflat, h⟩ := tradeV2_spec h
  obtain ⟨_, rfl⟩ := div_eq_some.mp hq
  obtain rfl := Nat.sub_eq_of_eq_add' (sub_eq_some.mp hflat)
  have htoNat : ∀ (n : Nat) (t : Int), n < t.toNat ↔ ((n + 1 : Nat) : Int) ≤ t := by
    intro n t
    omega
  rw [← Nat.not_le, dDivCeil_le_iff h, Nat.not_le, ← Nat.div_lt_iff_lt_mul nat18_pos, htoNat]
  exact le_signedRoot_iff (Int.natCast_nonneg _) _

/-! ## The contract -/

/-- With `k` of zero the price is constant and the payout rounded down. -/
theorem roundsDown_of_zero (hv0 : 0 < v0) : RoundedDown v0 v1 delta i 0 := by
  unfold RoundedDown solveQuadraticFunctionForTrade RoundsDown
  rw [require_of hv0]
  dsimp only [Option.bind_eq_bind, Option.bind_some]
  by_cases hdelta : delta = 0
  · rw [if_pos hdelta]
    refine ⟨0, rfl, ?_⟩
    rw [if_pos rfl, Nat.zero_mul]
    exact Nat.zero_le _
  · rw [if_neg hdelta, if_pos rfl]
    refine ⟨_, rfl, ?_⟩
    rw [if_pos rfl]
    have hpaid := mulFloor_mul_le i delta
    split
    next hlt => exact (Nat.mul_le_mul_right nat18 (Nat.le_of_lt hlt)).trans hpaid
    next => exact hpaid

/-- Nothing paid, nothing out. -/
theorem roundsDown_of_nothing (hv0 : 0 < v0) (hv1 : 0 < v1) : RoundedDown v0 v1 0 i k := by
  unfold RoundedDown solveQuadraticFunctionForTrade RoundsDown
  rw [require_of hv0, if_pos rfl]
  refine ⟨0, rfl, ?_⟩
  rw [Nat.zero_mul, Nat.zero_mul]
  split
  · exact Nat.zero_le _
  · exact ⟨Nat.zero_le _, hv1⟩

/-- With `k` of one the share of the reserve is rounded down twice. -/
theorem roundsDown_of_one (hv0 : 0 < v0) (hv1 : 0 < v1) (hdelta : delta ≠ 0) :
    RoundedDown v0 v1 delta i nat18 := by
  have hsquare : 0 < v0 * v0 := Nat.mul_pos hv0 hv0
  obtain ⟨t, htemp, ht⟩ : ∃ t, tradeTemp v0 v1 delta i = some t ∧
      t * (v0 * v0) ≤ i * delta * v1 := by
    unfold tradeTemp
    dsimp only
    by_cases hpaid : i * delta = 0
    · rw [if_pos hpaid]
      refine ⟨0, rfl, ?_⟩
      rw [Nat.zero_mul]
      exact Nat.zero_le _
    · rw [if_neg hpaid, if_pos (Nat.mul_div_cancel_left v1 (Nat.pos_of_ne_zero hpaid)),
        div_of_pos hsquare]
      exact ⟨_, rfl, Nat.div_mul_le_self _ _⟩
  have hpos : 0 < t + nat18 := Nat.add_pos_right t nat18_pos
  refine ⟨v1 * t / (t + nat18), ?_, ?_⟩
  · unfold solveQuadraticFunctionForTrade
    rw [require_of hv0]
    dsimp only [Option.bind_eq_bind, Option.bind_some]
    rw [if_neg hdelta, if_neg (Nat.pos_iff_ne_zero.mp nat18_pos), if_pos rfl,
      bind_of_returns htemp, div_of_pos hpos]
  · have hshare : v1 * t / (t + nat18) * (t + nat18) ≤ v1 * t := Nat.div_mul_le_self _ _
    have hlt : v1 * t / (t + nat18) < v1 := by
      apply (Nat.div_lt_iff_lt_mul hpos).mpr
      exact Nat.mul_lt_mul_of_pos_left (Nat.lt_add_of_pos_right nat18_pos) hv1
    unfold RoundsDown
    rw [if_neg (Nat.pos_iff_ne_zero.mp nat18_pos), Nat.sub_self, Nat.zero_mul, Nat.zero_mul, Nat.zero_add]
    refine ⟨?_, hlt⟩
    generalize v1 * t / (t + nat18) = out at *
    obtain ⟨v2, rfl⟩ := Nat.exists_eq_add_of_le (Nat.le_of_lt hlt)
    rw [Nat.add_sub_cancel_left]
    -- the share that is paid out costs what stays times `t`
    have hcost : out * nat18 ≤ v2 * t := by linarith
    calc out * (nat18 * v0 * v0)
        = out * nat18 * (v0 * v0) := by ring
      _ ≤ v2 * t * (v0 * v0) := Nat.mul_le_mul_right _ hcost
      _ = t * (v0 * v0) * v2 := by ring
      _ ≤ i * delta * (out + v2) * v2 := Nat.mul_le_mul_right _ ht

/-- Between zero and one the contract is kept where every reserve too small for the curve is below the root
of the truncated equation. -/
theorem roundedDown_iff_rootPast (hv0 : 0 < v0) (hv1 : 0 < v1) (hk : k < nat18) (hdelta : delta ≠ 0)
    (hzero : k ≠ 0) :
    RoundedDown v0 v1 delta i k ↔
      ∀ x, ¬ CurveAllows v0 v1 delta i k x → RootPast v0 v1 delta i k x := by
  have hpos : 0 < k := Nat.pos_of_ne_zero hzero
  obtain ⟨v2, hv2⟩ : ∃ v2, tradeV2 v0 v1 delta i k = some v2 := tradeV2_returns hv1 hk
  have hsolve := solveQuadraticFunctionForTrade_of_tradeV2 hv0 hdelta hzero (Nat.ne_of_lt hk) hv2
  constructor
  · rintro ⟨out, hout, hdown⟩ x hx
    rw [hsolve] at hout
    obtain rfl := Option.some.inj hout
    have hallows := (curveAllows_iff hv0 hv1 hpos).mp ((roundsDown_iff hv0 hv1 hpos).mp hdown)
    exact (lt_tradeV2_iff hv2).mp (hallows x hx)
  · intro hpast
    refine ⟨_, hsolve, (roundsDown_iff hv0 hv1 hpos).mpr ?_⟩
    apply (curveAllows_iff hv0 hv1 hpos).mpr
    intro x hx
    exact (lt_tradeV2_iff hv2).mpr (hpast x hx)

/-- The constant coefficient is at most the square of the target. -/
theorem truncatedConstant_le (hk : k ≤ nat18) : truncatedConstant v0 k ≤ v0 * v0 := by
  obtain ⟨flat, hflat⟩ := Nat.exists_eq_add_of_le' hk
  have hshare : mulFloor k v0 * nat18 ≤ k * v0 := mulFloor_mul_le k v0
  have hsquare : 4 * flat * k ≤ nat18 * nat18 := by
    rw [hflat]
    nlinarith [sq_nonneg ((flat : Int) - k)]
  have hsub : nat18 - k = flat := by omega
  unfold truncatedConstant
  rw [hsub]
  generalize mulFloor k v0 = share at *
  refine Nat.le_of_mul_le_mul_right ?_ (Nat.mul_pos nat18_pos nat18_pos)
  calc mulFloor (flat * 4) (share * v0) * (nat18 * nat18)
      = mulFloor (flat * 4) (share * v0) * nat18 * nat18 := by ring
    _ ≤ flat * 4 * (share * v0) * nat18 := Nat.mul_le_mul_right _ (mulFloor_mul_le _ _)
    _ = 4 * flat * v0 * (share * nat18) := by ring
    _ ≤ 4 * flat * v0 * (k * v0) := Nat.mul_le_mul_left _ hshare
    _ = 4 * flat * k * (v0 * v0) := by ring
    _ ≤ nat18 * nat18 * (v0 * v0) := Nat.mul_le_mul_right _ hsquare
    _ = v0 * v0 * (nat18 * nat18) := Nat.mul_comm _ _

/-- A large sale makes the linear coefficient so negative that the root is not positive. -/
theorem not_rootPast_of_large (hk : k ≤ nat18) (hlarge : nat18 * (v1 + v0 * v0) ≤ i * delta) :
    ¬ RootPast v0 v1 delta i k 0 := by
  have hlinear : truncatedLinear v0 v1 delta i k ≤ -((v0 * v0 : Nat) : Int) := by
    have hflat : (nat18 - k) * v1 ≤ nat18 * v1 := Nat.mul_le_mul_right v1 (Nat.sub_le nat18 k)
    rw [Nat.mul_add] at hlarge
    obtain ⟨short, hshort⟩ := Nat.exists_eq_add_of_le
      (show (nat18 - k) * v1 ≤ k * v0 / v1 * v0 + i * delta by omega)
    have hneg : (((nat18 - k) * v1 : Nat) : Int) - ((k * v0 / v1 * v0 + i * delta : Nat) : Int) =
        -(short : Int) := by omega
    unfold truncatedLinear
    rw [hneg, Int.neg_tdiv, Int.natCast_tdiv_eq_ediv, ← Int.natCast_ediv]
    have hle : v0 * v0 ≤ short / nat18 := by
      rw [Nat.le_div_iff_mul_le nat18_pos, Nat.mul_comm]
      omega
    omega
  have hconstant : truncatedConstant v0 k ≤ v0 * v0 := truncatedConstant_le hk
  intro hpast
  unfold RootPast at hpast
  dsimp only at hpast
  rw [Nat.zero_mul, Nat.zero_div] at hpast
  omega

/-- With a `k` between zero and one a large sale is paid the whole reserve. -/
theorem not_roundedDown_of_large (hv0 : 0 < v0) (hv1 : 0 < v1) (hk : k ≤ nat18) (hzero : k ≠ 0)
    (hone : k ≠ nat18) (hlarge : nat18 * (v1 + v0 * v0) ≤ i * delta) :
    ¬ RoundedDown v0 v1 delta i k := by
  have hdelta : delta ≠ 0 := by
    rintro rfl
    have hpaid : 0 < nat18 * (v1 + v0 * v0) := Nat.mul_pos nat18_pos (Nat.add_pos_left hv1 _)
    omega
  rw [roundedDown_iff_rootPast hv0 hv1 (Nat.lt_of_le_of_ne hk hone) hdelta hzero]
  intro all
  exact not_rootPast_of_large hk hlarge
    (all 0 (not_curveAllows_zero hv0 hv1 (Nat.pos_of_ne_zero hzero)))

/-- Where nothing is paid, or `k` is zero or one, the solver keeps its contract. -/
theorem roundedDown_of_corner (hv0 : 0 < v0) (hv1 : k ≠ 0 → 0 < v1)
    (corner : delta = 0 ∨ k = 0 ∨ k = nat18) : RoundedDown v0 v1 delta i k := by
  by_cases hzero : k = 0
  · rw [hzero]
    exact roundsDown_of_zero hv0
  have hpos := hv1 hzero
  by_cases hdelta : delta = 0
  · rw [hdelta]
    exact roundsDown_of_nothing hv0 hpos
  · obtain rfl := (corner.resolve_left hdelta).resolve_left hzero
    exact roundsDown_of_one hv0 hpos hdelta

/-- **When a trade is rounded down.** The solver keeps its contract where nothing is paid and where `k` is
zero or one. With any other `k` it breaks it on every large sale. -/
theorem trade_roundsDown_iff (hv0 : 0 < v0) (hv1 : 0 < v1) (hk : k ≤ nat18) :
    (delta = 0 ∨ k = 0 ∨ k = nat18 → RoundedDown v0 v1 delta i k) ∧
      (nat18 * (v1 + v0 * v0) ≤ i * delta →
        (RoundedDown v0 v1 delta i k ↔ k = 0 ∨ k = nat18)) := by
  refine ⟨roundedDown_of_corner hv0 fun _ => hv1, fun hlarge => ⟨fun down => ?_, fun h => ?_⟩⟩
  · by_contra hbetween
    obtain ⟨hzero, hone⟩ := not_or.mp hbetween
    exact not_roundedDown_of_large hv0 hv1 hk hzero hone hlarge down
  · exact roundedDown_of_corner hv0 (fun _ => hv1) (.inr h)

/-- Ten units for a pool of ten at parity, priced by the reserves alone. -/
theorem trade_roundsDown_ten : RoundedDown 10 10 10 nat18 nat18 :=
  (trade_roundsDown_iff (by decide) (by decide) (by decide)).1 (.inr (.inr rfl))

/-- **A trade rounded up.** For one unit of a pool at parity five units are paid out. -/
theorem not_trade_roundsDown :
    ¬ ∀ v0 v1 delta i k out : Nat, 0 < v0 → 0 < v1 → k ≤ nat18 →
      solveQuadraticFunctionForTrade v0 v1 delta i k = some out →
      RoundsDown v0 v1 delta i k out := by
  intro all
  have h := all 100000000000000 100000000000000 1 nat18 900000000000000000 5 (by decide) (by decide)
    (by decide) (by decide +kernel)
  revert h
  unfold RoundsDown
  decide

end

end Fomowell.Pmm
