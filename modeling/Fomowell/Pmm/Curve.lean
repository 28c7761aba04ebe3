import Fomowell.Pmm.Coherence
import Fomowell.Pmm.Integral
import Fomowell.Pmm.Rounding
import Fomowell.Pmm.Target

/-!
# No run of sales beats the curve

What the market maker asks for a reserve that goes down from its target `v0` to `v` is `curveCost`, the
integral of its price in exact rationals. A state is on its curve (`PMMState.OnCurve`) where what was paid
into the one reserve covers the cost of what was taken out of the other. This does not say which sales led
there: the costs of two sales add up (`curveCost_sub`), the integral gives back no more than it costs, and a
re-solved target asks for no more than was paid. So every run of the plain sales and target adjustments
stays on the curve (`run_onCurve`), as long as the solver keeps its contract in it, which it always does
where `k` is zero or one.

On its curve a pool is worth what its targets are worth, at the reference price `i`. So no run of sales
takes value out of a pool that stands at its targets (`run_keepsValue`), the one sale that answers `ONE` off
target included: being on the curve asks for less than being coherent there.
-/

namespace Fomowell.Pmm

open Checked Runs

/-! ## The cost of a reserve -/

/-- What the curve asks for a reserve that goes down from its target `v0` to `v`, with the fixed-point one
as the price. -/
def curveCost (v0 v k : Nat) : ℚ := (nat18 - k) * (v0 - v) + k * (v0 ^ 2 / v - v0)

/-- What was paid in, `x` at the price `c`, covers what was taken out of a reserve, and does not empty it
while the price is not constant. -/
structure Priced (v0 v k c x : Nat) : Prop where
  stays : k ≠ 0 → 0 < v
  covered : curveCost v0 v k ≤ c * x

section

variable {v0 v v' k c x : Nat}

/-- **Costs add up**: the cost between two reserves depends on nothing but these. -/
theorem curveCost_sub (hv : k ≠ 0 → 0 < v) (hv' : k ≠ 0 → 0 < v') :
    curveCost v0 v' k - curveCost v0 v k =
      (v - v') * ((nat18 - k) + k * v0 ^ 2 / (v * v')) := by
  unfold curveCost
  by_cases hk : k = 0
  · rw [hk]
    push_cast
    ring
  · have hpos : (v : ℚ) ≠ 0 := Nat.cast_ne_zero.mpr (Nat.pos_iff_ne_zero.mp (hv hk))
    have hpos' : (v' : ℚ) ≠ 0 := Nat.cast_ne_zero.mpr (Nat.pos_iff_ne_zero.mp (hv' hk))
    field_simp
    ring

/-- A larger reserve costs less. -/
theorem curveCost_antitone (hk : k ≤ nat18) (hv : k ≠ 0 → 0 < v) (hle : v ≤ v') :
    curveCost v0 v' k ≤ curveCost v0 v k := by
  have hcost : curveCost v0 v k - curveCost v0 v' k =
      ((v' : ℚ) - v) * ((nat18 - k) + k * v0 ^ 2 / ((v' : ℚ) * v)) :=
    curveCost_sub (fun hne => Nat.lt_of_lt_of_le (hv hne) hle) hv
  have hflat : (0 : ℚ) ≤ nat18 - k := sub_nonneg.mpr (Nat.cast_le.mpr hk)
  have hgap : (0 : ℚ) ≤ v' - v := sub_nonneg.mpr (Nat.cast_le.mpr hle)
  have hslope : (0 : ℚ) ≤ (nat18 - k) + k * v0 ^ 2 / (v' * v) := by positivity
  nlinarith [mul_nonneg hgap hslope]

/-- At the constant price, the cost of a reserve is at most what the curve asks. -/
theorem flat_le_curveCost (hv : k ≠ 0 → 0 < v) :
    (nat18 : ℚ) * (v0 - v) ≤ curveCost v0 v k := by
  unfold curveCost
  by_cases hk : k = 0
  · rw [hk]
    push_cast
    linarith
  · have hpos : (0 : ℚ) < v := Nat.cast_pos.mpr (hv hk)
    have hexcess : (0 : ℚ) ≤ k * ((v0 - v) ^ 2 / v) := by positivity
    have heq : (v0 ^ 2 / v - v0 : ℚ) = (v0 - v) + (v0 - v) ^ 2 / v := by
      field_simp
      ring
    rw [heq]
    linarith

/-! ## What keeps a reserve priced -/

theorem Priced.mono (hk : k ≤ nat18) (h : Priced v0 v k c x) (hle : v ≤ v') {x' : Nat}
    (hx : x ≤ x') : Priced v0 v' k c x' := by
  refine ⟨fun hne => Nat.lt_of_lt_of_le (h.stays hne) hle, ?_⟩
  have hpaid : (c * x : ℚ) ≤ c * x' := by
    have := (Nat.cast_le (α := ℚ)).mpr hx
    gcongr
  exact ((curveCost_antitone hk h.stays hle).trans h.covered).trans hpaid

/-- A reserve at its target costs nothing. -/
theorem priced_at_target (k c : Nat) (hv0 : 0 < v0) : Priced v0 v0 k c 0 := by
  refine ⟨fun _ => hv0, ?_⟩
  have hpos : (v0 : ℚ) ≠ 0 := Nat.cast_ne_zero.mpr (Nat.pos_iff_ne_zero.mp hv0)
  unfold curveCost
  field_simp
  simp

/-- **A trade that rounds down** is paid for. -/
theorem Priced.trade (hk : k ≤ nat18) (h : Priced v0 v k c x) {delta out : Nat} (hout : out ≤ v)
    (down : RoundsDown v0 v delta c k out) : Priced v0 (v - out) k c (x + delta) := by
  have stays : k ≠ 0 → 0 < v - out := by
    intro hne
    unfold RoundsDown at down
    rw [if_neg hne] at down
    exact Nat.sub_pos_of_lt down.2
  refine ⟨stays, ?_⟩
  have hcost : curveCost v0 (v - out) k - curveCost v0 v k =
      ((v : ℚ) - (v - out : Nat)) * ((nat18 - k) + k * v0 ^ 2 / (v * (v - out : Nat))) :=
    curveCost_sub h.stays stays
  have paid : (out : ℚ) * ((nat18 - k) + k * v0 ^ 2 / (v * (v - out : Nat))) ≤ c * delta := by
    unfold RoundsDown at down
    by_cases hzero : k = 0
    · rw [if_pos hzero] at down
      rw [hzero, Nat.cast_zero, sub_zero, zero_mul, zero_div, add_zero]
      exact_mod_cast down
    · rw [if_neg hzero] at down
      have hpos : (0 : ℚ) < v := Nat.cast_pos.mpr (h.stays hzero)
      have hleft : (0 : ℚ) < (v - out : Nat) := Nat.cast_pos.mpr (stays hzero)
      have := (Nat.cast_le (α := ℚ)).mpr down.1
      push_cast [Nat.cast_sub hk] at this
      generalize ((v - out : Nat) : ℚ) = left at *
      have hscaled : (out : ℚ) * ((nat18 - k) + k * v0 ^ 2 / (v * left)) * (v * left) ≤
          c * delta * (v * left) := by
        have heq : (out : ℚ) * ((nat18 - k) + k * v0 ^ 2 / (v * left)) * (v * left) =
            out * ((nat18 - k) * v * left + k * v0 * v0) := by
          field_simp
        rw [heq]
        linarith
      exact le_of_mul_le_mul_right hscaled (mul_pos hpos hleft)
  have hgap : ((v : ℚ) - (v - out : Nat)) = out := by
    rw [Nat.cast_sub hout]
    ring
  rw [hgap] at hcost
  have := h.covered
  push_cast
  linarith

/-- The integral, before its last rounding. -/
theorem generalIntegrate_le {d j raw : Nat} (hk : k ≤ nat18) (hv : k ≠ 0 → 0 < v)
    (h : generalIntegrate v0 (v + d) v j k = some raw) :
    (nat36 : ℚ) * raw ≤ j * (curveCost v0 v k - curveCost v0 (v + d) k) := by
  have hcost : curveCost v0 v k - curveCost v0 (v + d) k =
      (((v + d : Nat) : ℚ) - v) * ((nat18 - k) + k * v0 ^ 2 / (((v + d : Nat) : ℚ) * v)) :=
    curveCost_sub (fun hne => Nat.lt_of_lt_of_le (hv hne) (Nat.le_add_right _ _)) hv
  have hgap : (((v + d : Nat) : ℚ) - v) = d := by
    push_cast
    ring
  rw [hgap] at hcost
  rw [hcost]
  by_cases hzero : k = 0
  · unfold generalIntegrate at h
    obtain ⟨_, _, h⟩ := Option.bind_eq_some_iff.mp h
    obtain ⟨gap, hsub, h⟩ := Option.bind_eq_some_iff.mp h
    rw [sub_eq_some] at hsub
    obtain rfl : gap = d := by omega
    rw [if_pos hzero] at h
    cases h
    rw [hzero, Nat.cast_zero, sub_zero, zero_mul, zero_div, add_zero, nat36_eq]
    have hdiv := Nat.div_mul_le_self (j * gap) nat18
    have hscaled : nat18 * nat18 * (j * gap / nat18) ≤ j * (gap * nat18) := by
      calc nat18 * nat18 * (j * gap / nat18) = j * gap / nat18 * nat18 * nat18 := by ring
        _ ≤ j * gap * nat18 := Nat.mul_le_mul_right _ hdiv
        _ = j * (gap * nat18) := by ring
    exact_mod_cast hscaled
  · have hpos : 0 < v0 := by
      unfold generalIntegrate at h
      obtain ⟨_, hrequire, _⟩ := Option.bind_eq_some_iff.mp h
      by_contra hnot
      rw [require_of_not hnot] at hrequire
      cases hrequire
    obtain ⟨out, hout, hle, _⟩ := generalIntegrate_rounds hpos (hv hzero) (Nat.le_add_right v d) hk
    rw [h] at hout
    cases hout
    unfold exactIntegral at hle
    have hscale : (0 : ℚ) < nat36 := Nat.cast_pos.mpr nat36_pos
    rw [le_div_iff₀ hscale, hgap] at hle
    linarith

/-- **A sale back towards the target** gives back no more than the curve asked for. -/
theorem Priced.integral (hk : k ≤ nat18) (h : Priced v0 v k c x) {d j raw out : Nat}
    (hraw : generalIntegrate v0 (v + d) v j k = some raw) (hcapped : out ≤ raw) (hout : out ≤ x)
    (reciprocal : c * j ≤ nat36) : Priced v0 (v + d) k c (x - out) := by
  refine ⟨fun hne => Nat.lt_of_lt_of_le (h.stays hne) (Nat.le_add_right _ _), ?_⟩
  have hintegral := generalIntegrate_le hk h.stays hraw
  have hgain : 0 ≤ curveCost v0 v k - curveCost v0 (v + d) k :=
    sub_nonneg.mpr (curveCost_antitone hk h.stays (Nat.le_add_right v d))
  generalize hgaineq : curveCost v0 v k - curveCost v0 (v + d) k = gain at *
  have hscale : (0 : ℚ) < nat36 := Nat.cast_pos.mpr nat36_pos
  have hrecip : (c : ℚ) * j ≤ nat36 := by exact_mod_cast reciprocal
  have hcap : (out : ℚ) ≤ raw := Nat.cast_le.mpr hcapped
  have hc : (0 : ℚ) ≤ c := Nat.cast_nonneg c
  -- what leaves the paid reserve was worth at most the gain
  have hworth : (c : ℚ) * out ≤ gain := by
    refine le_of_mul_le_mul_left ?_ hscale
    calc (nat36 : ℚ) * (c * out) = c * (nat36 * out) := by ring
      _ ≤ c * (nat36 * raw) := by gcongr
      _ ≤ c * (j * gain) := mul_le_mul_of_nonneg_left hintegral hc
      _ = c * j * gain := by ring
      _ ≤ nat36 * gain := mul_le_mul_of_nonneg_right hrecip hgain
  have hcovered := h.covered
  push_cast [Nat.cast_sub hout]
  linarith

/-- **A re-solved target** asks for no more than was paid. -/
theorem priced_of_target (hv : k ≠ 0 → 0 < v)
    (h : solveQuadraticFunctionForTarget v x c k = some v0) : Priced v0 v k c x := by
  refine ⟨hv, ?_⟩
  have within := solveQuadraticFunctionForTarget_within h
  obtain ⟨d, rfl⟩ := Nat.exists_eq_add_of_le within.le
  have backed := within.backed
  unfold Backed at backed
  rw [Nat.add_sub_cancel_left] at backed
  unfold curveCost
  by_cases hzero : k = 0
  · rw [if_pos hzero] at backed
    rw [hzero, Nat.cast_zero, sub_zero, zero_mul, add_zero]
    have := (Nat.cast_le (α := ℚ)).mpr backed
    push_cast at this ⊢
    linarith
  · rw [if_neg hzero] at backed
    have hpos : (0 : ℚ) < v := Nat.cast_pos.mpr (hv hzero)
    have hbacked := (Nat.cast_le (α := ℚ)).mpr backed
    push_cast at hbacked ⊢
    refine le_of_mul_le_mul_right ?_ hpos
    calc ((nat18 - k) * (v + d - v) + k * ((v + d) ^ 2 / v - (v + d))) * (v : ℚ)
        = d * (k * d + nat18 * v) := by
          field_simp
          ring
      _ ≤ c * x * v := hbacked

end

/-! ## States on their curve -/

/-- The state is on its curve: what was taken out of the reserve that is short was paid for by what the
other has in excess. At the targets neither is short. -/
def PMMState.OnCurve (s : PMMState) : Prop :=
  match s.r with
  | .ONE => s.b0 ≤ s.b ∧ s.q0 ≤ s.q
  | .BelowOne => s.b0 ≤ s.b ∧ Priced s.q0 s.q s.k s.i (s.b - s.b0)
  | .AboveOne => s.q0 ≤ s.q ∧ Priced s.b0 s.b s.k (nat36 / s.i) (s.q - s.q0)

/-- One operation in the plain version: the amount paid out and the state after it. -/
def PMMState.stepV1 (s : PMMState) : Op → Option (Nat × PMMState)
  | .sellBaseToken pay => (sellBaseTokenV1 s pay).map fun a => (a.1, s.afterBaseSale pay a)
  | .sellQuoteToken pay => (sellQuoteTokenV1 s pay).map fun a => (a.1, s.afterQuoteSale pay a)
  | .adjustedTarget => (adjustedTargetV1 s).map fun s' => (0, s')

/-- The state after an operation in the plain version; a trap leaves it as it was. -/
def PMMState.nextV1 (s : PMMState) (op : Op) : PMMState :=
  ((s.stepV1 op).map Prod.snd).getD s

/-- The trade that a sale has solved, if it has one: the target, the reserve, what is paid for it, and the
price. -/
def PMMState.solves (s : PMMState) : Op → Option (Nat × Nat × Nat × Nat)
  | .sellBaseToken pay =>
    match s.r with
    | .ONE => some (s.q0, s.q0, pay, s.i)
    | .BelowOne => some (s.q0, s.q, pay, s.i)
    | .AboveOne => if s.b0 - s.b < pay then some (s.q0, s.q0, pay - (s.b0 - s.b), s.i) else none
  | .sellQuoteToken pay =>
    match s.r with
    | .ONE => some (s.b0, s.b0, pay, nat36 / s.i)
    | .AboveOne => some (s.b0, s.b, pay, nat36 / s.i)
    | .BelowOne =>
      if s.q0 - s.q ≤ pay then some (s.b0, s.b0, pay - (s.q0 - s.q), nat36 / s.i) else none
  | .adjustedTarget => none

/-- The trade that a sale has solved is rounded down, as the solver's contract says. -/
def PMMState.KeepsContract (s : PMMState) (op : Op) : Prop :=
  ∀ v0 v1 delta i out, s.solves op = some (v0, v1, delta, i) →
    solveQuadraticFunctionForTrade v0 v1 delta i s.k = some out → RoundsDown v0 v1 delta i s.k out

section

variable {s : PMMState} {pay out : Nat} {r : RState}

/-- A solver that answers had a target. -/
theorem target_pos_of_trade {v0 v1 delta i k : Nat}
    (h : solveQuadraticFunctionForTrade v0 v1 delta i k = some out) : 0 < v0 := by
  obtain ⟨_, hrequire, _⟩ := Option.bind_eq_some_iff.mp h
  by_contra hnot
  rw [require_of_not hnot] at hrequire
  cases hrequire

/-- **What a sale answers**, with the functions that it calls, read as a quote sale. -/
theorem saleAt_cases {i returning : Nat} (h : saleAt some i s returning pay = some (out, r)) :
    match s.r with
    | .ONE => solveQuadraticFunctionForTrade s.b0 s.b0 pay i s.k = some out ∧ r = .AboveOne
    | .AboveOne => solveQuadraticFunctionForTrade s.b0 s.b pay i s.k = some out ∧ r = .AboveOne
    | .BelowOne => s.q ≤ s.q0 ∧ s.b0 ≤ s.b ∧
        ((s.q + pay < s.q0 ∧ r = .BelowOne ∧ out ≤ s.b - s.b0 ∧
            ∃ raw, generalIntegrate s.q0 (s.q + pay) s.q i s.k = some raw ∧ out ≤ raw) ∨
          (s.q0 ≤ s.q + pay ∧ pay = returning ∧ r = .ONE ∧ out = s.b - s.b0) ∨
          (s.q0 ≤ s.q + pay ∧ pay ≠ returning ∧ r = .AboveOne ∧ ∃ traded,
            solveQuadraticFunctionForTrade s.b0 s.b0 (pay - (s.q0 - s.q)) i s.k = some traded ∧
            out = s.b - s.b0 + traded)) := by
  unfold saleAt at h
  cases hr : s.r with
  | ONE =>
    simp only [hr, Option.bind_eq_bind, Option.bind_some] at h
    obtain ⟨_, hout, h⟩ := Option.bind_eq_some_iff.mp h
    cases h
    exact ⟨hout, rfl⟩
  | AboveOne =>
    simp only [hr, Option.bind_eq_bind, Option.bind_some] at h
    obtain ⟨_, hout, h⟩ := Option.bind_eq_some_iff.mp h
    cases h
    exact ⟨hout, rfl⟩
  | BelowOne =>
    simp only [hr, saleShort, salePast, Option.bind_eq_bind, Option.bind_some] at h
    obtain ⟨toPay, hpay, h⟩ := Option.bind_eq_some_iff.mp h
    obtain ⟨toReceive, hreceive, h⟩ := Option.bind_eq_some_iff.mp h
    rw [sub_eq_some] at hpay hreceive
    obtain rfl : toPay = s.q0 - s.q := by omega
    obtain rfl : toReceive = s.b - s.b0 := by omega
    refine ⟨by omega, by omega, ?_⟩
    split at h
    · obtain ⟨raw, hraw, h⟩ := Option.bind_eq_some_iff.mp h
      cases h
      refine .inl ⟨by omega, rfl, ?_, raw, hraw, ?_⟩ <;> split <;> omega
    split at h
    next hback =>
      cases h
      exact .inr (.inl ⟨by omega, hback, rfl, rfl⟩)
    next hpast =>
      obtain ⟨beyond, hbeyond, h⟩ := Option.bind_eq_some_iff.mp h
      obtain ⟨traded, htraded, h⟩ := Option.bind_eq_some_iff.mp h
      cases h
      rw [sub_eq_some] at hbeyond
      obtain rfl : beyond = pay - (s.q0 - s.q) := by omega
      exact .inr (.inr ⟨by omega, hpast, rfl, traded, htraded, rfl⟩)

/-- **What a base sale answers**, with the functions that it calls. -/
theorem sellBaseTokenV1_cases (h : sellBaseTokenV1 s pay = some (out, r)) :
    match s.r with
    | .ONE => solveQuadraticFunctionForTrade s.q0 s.q0 pay s.i s.k = some out ∧ r = .BelowOne
    | .BelowOne => solveQuadraticFunctionForTrade s.q0 s.q pay s.i s.k = some out ∧ r = .BelowOne
    | .AboveOne => s.b ≤ s.b0 ∧ s.q0 ≤ s.q ∧
        ((s.b + pay < s.b0 ∧ r = .AboveOne ∧ out ≤ s.q - s.q0 ∧
            ∃ raw, generalIntegrate s.b0 (s.b + pay) s.b s.i s.k = some raw ∧ out ≤ raw) ∨
          (s.b + pay = s.b0 ∧ r = .ONE ∧ out = s.q - s.q0) ∨
          (s.b0 < s.b + pay ∧ r = .BelowOne ∧ ∃ traded,
            solveQuadraticFunctionForTrade s.q0 s.q0 (pay - (s.b0 - s.b)) s.i s.k = some traded ∧
            out = s.q - s.q0 + traded)) := by
  rw [sellBaseTokenV1_eq_saleAt, map_mirrorAnswer_eq_some] at h
  have spec := saleAt_cases h
  cases hr : s.r with
  | ONE | BelowOne =>
    simp only [PMMState.mirror, hr, RState.mirror] at spec
    exact ⟨spec.1, RState.mirror_injective spec.2⟩
  | AboveOne =>
    simp only [PMMState.mirror, hr] at spec
    obtain ⟨hb, hq, ⟨hlt, hside, short⟩ | ⟨_, hback, hside, hout⟩ | ⟨_, hpast, hside, past⟩⟩ := spec
    · exact ⟨hb, hq, .inl ⟨hlt, RState.mirror_injective hside, short⟩⟩
    · exact ⟨hb, hq, .inr (.inl ⟨by omega, RState.mirror_injective hside, hout⟩)⟩
    · exact ⟨hb, hq, .inr (.inr ⟨by omega, RState.mirror_injective hside, past⟩)⟩

/-- **What a quote sale answers**, with the functions that it calls. -/
theorem sellQuoteTokenV1_cases (hi : 0 < s.i) (h : sellQuoteTokenV1 s pay = some (out, r)) :
    match s.r with
    | .ONE => solveQuadraticFunctionForTrade s.b0 s.b0 pay (nat36 / s.i) s.k = some out ∧ r = .AboveOne
    | .AboveOne =>
      solveQuadraticFunctionForTrade s.b0 s.b pay (nat36 / s.i) s.k = some out ∧ r = .AboveOne
    | .BelowOne => s.q ≤ s.q0 ∧ s.b0 ≤ s.b ∧
        ((s.q + pay < s.q0 ∧ r = .BelowOne ∧ out ≤ s.b - s.b0 ∧
            ∃ raw, generalIntegrate s.q0 (s.q + pay) s.q (nat36 / s.i) s.k = some raw ∧ out ≤ raw) ∨
          (s.q0 ≤ s.q + pay ∧ r = .ONE ∧ out = s.b - s.b0) ∨
          (s.q0 ≤ s.q + pay ∧ r = .AboveOne ∧ ∃ traded,
            solveQuadraticFunctionForTrade s.b0 s.b0 (pay - (s.q0 - s.q)) (nat36 / s.i) s.k =
              some traded ∧
            out = s.b - s.b0 + traded)) := by
  rw [sellQuoteTokenV1_eq_saleAt hi] at h
  have spec := saleAt_cases h
  cases hr : s.r with
  | ONE | AboveOne =>
    simp only [hr] at spec
    exact spec
  | BelowOne =>
    simp only [hr] at spec
    obtain ⟨hq, hb, short | ⟨hle, _, back⟩ | ⟨hle, _, past⟩⟩ := spec
    · exact ⟨hq, hb, .inl short⟩
    · exact ⟨hq, hb, .inr (.inl ⟨hle, back⟩)⟩
    · exact ⟨hq, hb, .inr (.inr ⟨hle, past⟩)⟩

/-! ## One operation -/

/-- A trade from the targets prices what it takes, whatever is there in excess. -/
theorem priced_of_trade {v0 v c delta x k : Nat} (hk : k ≤ nat18) (hv : v0 ≤ v) (hx : delta ≤ x)
    (h : solveQuadraticFunctionForTrade v0 v0 delta c k = some out)
    (down : RoundsDown v0 v0 delta c k out) : Priced v0 (v - out) k c x := by
  have hout := solveQuadraticFunctionForTrade_le h
  have traded := (priced_at_target k c (target_pos_of_trade h)).trade hk hout down
  rw [Nat.zero_add] at traded
  exact traded.mono hk (Nat.sub_le_sub_right hv out) hx

theorem baseSale_onCurve (hk : s.k ≤ nat18) (on : s.OnCurve)
    (keeps : s.KeepsContract (.sellBaseToken pay)) (h : sellBaseTokenV1 s pay = some (out, r)) :
    (s.afterBaseSale pay (out, r)).OnCurve := by
  have cases := sellBaseTokenV1_cases h
  cases hr : s.r with
  | ONE =>
    simp only [PMMState.OnCurve, PMMState.KeepsContract, PMMState.solves, hr] at on keeps cases
    obtain ⟨htrade, rfl⟩ := cases
    simp only [PMMState.OnCurve, PMMState.afterBaseSale]
    refine ⟨by omega, priced_of_trade hk on.2 ?_ htrade (keeps _ _ _ _ _ rfl htrade)⟩
    omega
  | BelowOne =>
    simp only [PMMState.OnCurve, PMMState.KeepsContract, PMMState.solves, hr] at on keeps cases
    obtain ⟨htrade, rfl⟩ := cases
    simp only [PMMState.OnCurve, PMMState.afterBaseSale]
    have traded := on.2.trade hk (solveQuadraticFunctionForTrade_le htrade)
      (keeps _ _ _ _ _ rfl htrade)
    refine ⟨by omega, traded.mono hk (Nat.le_refl _) ?_⟩
    omega
  | AboveOne =>
    simp only [PMMState.OnCurve, PMMState.KeepsContract, PMMState.solves, hr] at on keeps cases
    obtain ⟨hb, hq, ⟨hlt, rfl, hout, raw, hraw, hcapped⟩ | ⟨heq, rfl, rfl⟩ |
      ⟨hlt, rfl, traded, htrade, rfl⟩⟩ := cases
    · simp only [PMMState.OnCurve, PMMState.afterBaseSale]
      have priced := on.2.integral hk hraw hcapped hout (Nat.div_mul_le_self nat36 s.i)
      refine ⟨by omega, priced.mono hk (Nat.le_refl _) ?_⟩
      omega
    · simp only [PMMState.OnCurve, PMMState.afterBaseSale]
      omega
    · simp only [PMMState.OnCurve, PMMState.afterBaseSale]
      have hbeyond : s.b0 - s.b < pay := by omega
      have down := keeps _ _ _ _ _ (if_pos hbeyond) htrade
      have priced := priced_of_trade hk (Nat.le_refl _) (Nat.le_refl _) htrade down
      refine ⟨by omega, priced.mono hk ?_ ?_⟩ <;> omega

theorem quoteSale_onCurve (hk : s.k ≤ nat18) (hi : 0 < s.i) (on : s.OnCurve)
    (keeps : s.KeepsContract (.sellQuoteToken pay)) (h : sellQuoteTokenV1 s pay = some (out, r)) :
    (s.afterQuoteSale pay (out, r)).OnCurve := by
  have cases := sellQuoteTokenV1_cases hi h
  cases hr : s.r with
  | ONE =>
    simp only [PMMState.OnCurve, PMMState.KeepsContract, PMMState.solves, hr] at on keeps cases
    obtain ⟨htrade, rfl⟩ := cases
    simp only [PMMState.OnCurve, PMMState.afterQuoteSale]
    refine ⟨by omega, priced_of_trade hk on.1 ?_ htrade (keeps _ _ _ _ _ rfl htrade)⟩
    omega
  | AboveOne =>
    simp only [PMMState.OnCurve, PMMState.KeepsContract, PMMState.solves, hr] at on keeps cases
    obtain ⟨htrade, rfl⟩ := cases
    simp only [PMMState.OnCurve, PMMState.afterQuoteSale]
    have traded := on.2.trade hk (solveQuadraticFunctionForTrade_le htrade)
      (keeps _ _ _ _ _ rfl htrade)
    refine ⟨by omega, traded.mono hk (Nat.le_refl _) ?_⟩
    omega
  | BelowOne =>
    simp only [PMMState.OnCurve, PMMState.KeepsContract, PMMState.solves, hr] at on keeps cases
    obtain ⟨hq, hb, ⟨hlt, rfl, hout, raw, hraw, hcapped⟩ | ⟨hle, rfl, rfl⟩ |
      ⟨hle, rfl, traded, htrade, rfl⟩⟩ := cases
    · simp only [PMMState.OnCurve, PMMState.afterQuoteSale]
      have priced := on.2.integral hk hraw hcapped hout (Nat.mul_div_le nat36 s.i)
      refine ⟨by omega, priced.mono hk (Nat.le_refl _) ?_⟩
      omega
    · -- at the targets, or off them: the quote reserve has what it lacked, or more
      simp only [PMMState.OnCurve, PMMState.afterQuoteSale]
      omega
    · simp only [PMMState.OnCurve, PMMState.afterQuoteSale]
      have hbeyond : s.q0 - s.q ≤ pay := by omega
      have down := keeps _ _ _ _ _ (if_pos hbeyond) htrade
      have priced := priced_of_trade hk (Nat.le_refl _) (Nat.le_refl _) htrade down
      refine ⟨by omega, priced.mono hk ?_ ?_⟩ <;> omega

theorem adjustedTargetV1_onCurve {s' : PMMState} (hi : 0 < s.i) (on : s.OnCurve)
    (h : adjustedTargetV1 s = some s') : s'.OnCurve := by
  unfold adjustedTargetV1 at h
  cases hr : s.r with
  | ONE =>
    simp only [hr, Option.some.injEq] at h
    exact h ▸ on
  | BelowOne =>
    simp only [PMMState.OnCurve, hr] at on
    simp only [hr] at h
    obtain ⟨excess, hexcess, h⟩ := Option.bind_eq_some_iff.mp h
    obtain ⟨q0, hq0, h⟩ := Option.bind_eq_some_iff.mp h
    cases h
    rw [sub_eq_some] at hexcess
    obtain rfl : excess = s.b - s.b0 := by omega
    simp only [PMMState.OnCurve]
    exact ⟨on.1, priced_of_target on.2.stays hq0⟩
  | AboveOne =>
    simp only [PMMState.OnCurve, hr] at on
    simp only [hr, reciprocalFloor_of_pos hi, Option.bind_eq_bind, Option.bind_some] at h
    obtain ⟨excess, hexcess, h⟩ := Option.bind_eq_some_iff.mp h
    obtain ⟨b0, hb0, h⟩ := Option.bind_eq_some_iff.mp h
    cases h
    rw [sub_eq_some] at hexcess
    obtain rfl : excess = s.q - s.q0 := by omega
    simp only [PMMState.OnCurve]
    exact ⟨on.1, priced_of_target on.2.stays hb0⟩

/-- **A step stays on the curve**, where the trade that it has solved is rounded down. -/
theorem nextV1_onCurve (hk : s.k ≤ nat18) (hi : 0 < s.i) (on : s.OnCurve) {op : Op}
    (keeps : s.KeepsContract op) : (s.nextV1 op).OnCurve := by
  unfold PMMState.nextV1
  cases hstep : s.stepV1 op with
  | none => exact on
  | some answer =>
    cases op with
    | sellBaseToken pay =>
      obtain ⟨⟨out, r⟩, hsale, e⟩ := Option.map_eq_some_iff.mp hstep
      cases e
      exact baseSale_onCurve hk on keeps hsale
    | sellQuoteToken pay =>
      obtain ⟨⟨out, r⟩, hsale, e⟩ := Option.map_eq_some_iff.mp hstep
      cases e
      exact quoteSale_onCurve hk hi on keeps hsale
    | adjustedTarget =>
      obtain ⟨s', hadjust, e⟩ := Option.map_eq_some_iff.mp hstep
      cases e
      exact adjustedTargetV1_onCurve hi on hadjust

/-- The price and its slope are never changed, and the targets by a re-solved target alone. -/
theorem nextV1_fixed (s : PMMState) (op : Op) :
    (s.nextV1 op).i = s.i ∧ (s.nextV1 op).k = s.k ∧
      (op ≠ .adjustedTarget → (s.nextV1 op).b0 = s.b0 ∧ (s.nextV1 op).q0 = s.q0) := by
  unfold PMMState.nextV1
  cases hstep : s.stepV1 op with
  | none => exact ⟨rfl, rfl, fun _ => ⟨rfl, rfl⟩⟩
  | some answer =>
    cases op with
    | sellBaseToken pay =>
      obtain ⟨_, _, rfl⟩ := Option.map_eq_some_iff.mp hstep
      exact ⟨rfl, rfl, fun _ => ⟨rfl, rfl⟩⟩
    | sellQuoteToken pay =>
      obtain ⟨_, _, rfl⟩ := Option.map_eq_some_iff.mp hstep
      exact ⟨rfl, rfl, fun _ => ⟨rfl, rfl⟩⟩
    | adjustedTarget =>
      obtain ⟨s', hadjust, rfl⟩ := Option.map_eq_some_iff.mp hstep
      refine ⟨?_, ?_, fun hne => absurd rfl hne⟩
      all_goals
        unfold adjustedTargetV1 at hadjust
        split at hadjust
        · obtain ⟨_, _, hadjust⟩ := Option.bind_eq_some_iff.mp hadjust
          obtain ⟨_, _, hadjust⟩ := Option.bind_eq_some_iff.mp hadjust
          cases hadjust
          rfl
        · obtain ⟨_, _, hadjust⟩ := Option.bind_eq_some_iff.mp hadjust
          obtain ⟨_, _, hadjust⟩ := Option.bind_eq_some_iff.mp hadjust
          obtain ⟨_, _, hadjust⟩ := Option.bind_eq_some_iff.mp hadjust
          cases hadjust
          rfl
        · cases hadjust
          rfl

/-- With `k` of zero or one every trade is rounded down. -/
theorem roundsDown_of_corner {v0 v1 delta i k : Nat} (hk : k = 0 ∨ k = nat18)
    (hv1 : k ≠ 0 → 0 < v1) (h : solveQuadraticFunctionForTrade v0 v1 delta i k = some out) :
    RoundsDown v0 v1 delta i k out := by
  have hv0 := target_pos_of_trade h
  obtain ⟨out', h', down⟩ := roundedDown_of_corner hv0 hv1 (.inr hk)
  rw [h] at h'
  cases h'
  exact down

theorem keepsContract_of_corner (hk : s.k = 0 ∨ s.k = nat18) (on : s.OnCurve) (op : Op) :
    s.KeepsContract op := by
  intro v0 v1 delta i out hsolves h
  refine roundsDown_of_corner hk (fun hne => ?_) h
  -- a trade is solved from the target, or from a reserve that is priced
  have hv0 := target_pos_of_trade h
  unfold PMMState.solves at hsolves
  unfold PMMState.OnCurve at on
  cases op with
  | sellBaseToken pay =>
    cases hr : s.r <;> simp only [hr] at hsolves on
    · cases hsolves
      exact hv0
    · split at hsolves
      · cases hsolves
        exact hv0
      · cases hsolves
    · cases hsolves
      exact on.2.stays hne
  | sellQuoteToken pay =>
    cases hr : s.r <;> simp only [hr] at hsolves on
    · cases hsolves
      exact hv0
    · cases hsolves
      exact on.2.stays hne
    · split at hsolves
      · cases hsolves
        exact hv0
      · cases hsolves
  | adjustedTarget => cases hsolves

/-! ## Whole runs -/

/-- Every trade that a run has solved is rounded down, as it always is where `k` is zero or one. -/
def PMMState.RunKeepsContract (s : PMMState) (ops : List Op) : Prop :=
  s.k = 0 ∨ s.k = nat18 ∨ Along PMMState.nextV1 PMMState.KeepsContract s ops

/-- **Every run stays on the curve.** -/
theorem run_onCurve (hk : s.k ≤ nat18) (hi : 0 < s.i) (on : s.OnCurve) {ops : List Op}
    (keeps : s.RunKeepsContract ops) : (ops.foldl PMMState.nextV1 s).OnCurve := by
  induction ops generalizing s with
  | nil => exact on
  | cons op ops ih =>
    obtain ⟨hi', hk', _⟩ := nextV1_fixed s op
    have here : s.KeepsContract op := by
      obtain hzero | hone | along := keeps
      · exact keepsContract_of_corner (.inl hzero) on op
      · exact keepsContract_of_corner (.inr hone) on op
      · exact along.1
    refine ih (s := s.nextV1 op) ?_ ?_ (nextV1_onCurve hk hi on here) ?_
    · rw [hk']
      exact hk
    · rw [hi']
      exact hi
    · unfold PMMState.RunKeepsContract
      rw [hk']
      exact keeps.imp_right fun keeps => keeps.imp_right And.right

/-- A pool at parity, at its targets. -/
def parityPool (k : Nat) : PMMState where
  i := nat18
  k
  b := 10
  q := 10
  b0 := 10
  q0 := 10
  r := .ONE
  baseDecimal := 8
  quoteDecimal := 8

/-- A slope of a tenth, and a sale of ten units that is rounded down. -/
theorem run_onCurve_parity :
    ([Op.sellBaseToken 10, .adjustedTarget].foldl PMMState.nextV1
      (parityPool 100000000000000000)).OnCurve := by
  have down : ∀ out, solveQuadraticFunctionForTrade 10 10 10 nat18 100000000000000000 = some out →
      RoundsDown 10 10 10 nat18 100000000000000000 out := by
    intro out hout
    have hsold : solveQuadraticFunctionForTrade 10 10 10 nat18 100000000000000000 = some 7 := by
      decide +kernel
    rw [hsold] at hout
    cases hout
    unfold RoundsDown
    decide
  have keeps : Along PMMState.nextV1 PMMState.KeepsContract (parityPool 100000000000000000)
      [.sellBaseToken 10, .adjustedTarget] := by
    refine ⟨?_, ?_, trivial⟩
    · intro v0 v1 delta i out hsolves hout
      cases hsolves
      exact down out hout
    · intro v0 v1 delta i out hsolves
      cases hsolves
  exact run_onCurve (s := parityPool 100000000000000000) (by decide) (by decide)
    ⟨by decide, by decide⟩ (.inr (.inr keeps))

/-- **On its curve a pool is worth its targets**, at the reference price. -/
theorem PMMState.OnCurve.worth (on : s.OnCurve) (hi : 0 < s.i) :
    s.i * s.b0 + nat18 * s.q0 ≤ s.i * s.b + nat18 * s.q := by
  unfold PMMState.OnCurve at on
  cases hr : s.r <;> simp only [hr] at on
  · exact Nat.add_le_add (Nat.mul_le_mul_left _ on.1) (Nat.mul_le_mul_left _ on.2)
  · obtain ⟨hq, priced⟩ := on
    obtain ⟨y, hy⟩ := Nat.exists_eq_add_of_le hq
    have hcost := (flat_le_curveCost priced.stays).trans priced.covered
    rw [hy, Nat.add_sub_cancel_left] at hcost
    -- the price of a quote token in base tokens is rounded down
    have hrecip : ((nat36 / s.i : Nat) : ℚ) * s.i ≤ nat36 := by
      exact_mod_cast Nat.div_mul_le_self nat36 s.i
    have hpaid : (nat36 / s.i : Nat) * (y : ℚ) * s.i ≤ nat36 * y := by
      calc (nat36 / s.i : Nat) * (y : ℚ) * s.i = (nat36 / s.i : Nat) * s.i * (y : ℚ) := by ring
        _ ≤ nat36 * y := by gcongr
    have hone : (0 : ℚ) < nat18 := Nat.cast_pos.mpr nat18_pos
    have hvalue : (nat18 : ℚ) * (s.i * (s.b0 - s.b)) ≤ nat18 * (nat18 * y) := by
      calc (nat18 : ℚ) * (s.i * (s.b0 - s.b)) = nat18 * (s.b0 - s.b) * s.i := by ring
        _ ≤ (nat36 / s.i : Nat) * y * s.i := by gcongr
        _ ≤ nat36 * y := hpaid
        _ = nat18 * (nat18 * y) := by
          rw [nat36_eq]
          push_cast
          ring
    have hsum := le_of_mul_le_mul_left hvalue hone
    have : (s.i * s.b0 + nat18 * s.q0 : ℚ) ≤ s.i * s.b + nat18 * s.q := by
      rw [hy]
      push_cast
      linarith
    exact_mod_cast this
  · obtain ⟨hb, priced⟩ := on
    obtain ⟨x, hx⟩ := Nat.exists_eq_add_of_le hb
    have hcost := (flat_le_curveCost priced.stays).trans priced.covered
    rw [hx, Nat.add_sub_cancel_left] at hcost
    have : (s.i * s.b0 + nat18 * s.q0 : ℚ) ≤ s.i * s.b + nat18 * s.q := by
      rw [hx]
      push_cast
      linarith
    exact_mod_cast this

/-- Sales leave the targets alone. -/
theorem sales_targets (s : PMMState) {ops : List Op} (sales : ∀ op ∈ ops, op ≠ .adjustedTarget) :
    (ops.foldl PMMState.nextV1 s).i = s.i ∧ (ops.foldl PMMState.nextV1 s).b0 = s.b0 ∧
      (ops.foldl PMMState.nextV1 s).q0 = s.q0 := by
  induction ops generalizing s with
  | nil => exact ⟨rfl, rfl, rfl⟩
  | cons op ops ih =>
    obtain ⟨hi, _, targets⟩ := nextV1_fixed s op
    obtain ⟨hb0, hq0⟩ := targets (sales op List.mem_cons_self)
    obtain ⟨hi', hb0', hq0'⟩ := ih (s.nextV1 op) fun op hop => sales op (List.mem_cons_of_mem _ hop)
    exact ⟨hi'.trans hi, hb0'.trans hb0, hq0'.trans hq0⟩

/-- **No run of sales takes value out of a pool at its targets**: at the reference price it is worth no less
than before, and a run after which neither reserve is larger has left both as they were. -/
theorem run_keepsValue (hk : s.k ≤ nat18) (hi : 0 < s.i) (balanced : s.r = .ONE ∧ s.b = s.b0 ∧ s.q = s.q0)
    {ops : List Op} (sales : ∀ op ∈ ops, op ≠ .adjustedTarget) (keeps : s.RunKeepsContract ops) :
    s.i * s.b + nat18 * s.q ≤
        s.i * (ops.foldl PMMState.nextV1 s).b + nat18 * (ops.foldl PMMState.nextV1 s).q ∧
      ((ops.foldl PMMState.nextV1 s).b ≤ s.b → (ops.foldl PMMState.nextV1 s).q ≤ s.q →
        (ops.foldl PMMState.nextV1 s).b = s.b ∧ (ops.foldl PMMState.nextV1 s).q = s.q) := by
  have on : s.OnCurve := by
    simp only [PMMState.OnCurve, balanced.1]
    omega
  obtain ⟨hi', hb0, hq0⟩ := sales_targets s sales
  have worth := (run_onCurve hk hi on keeps).worth (hi' ▸ hi)
  rw [hi', hb0, hq0, ← balanced.2.1, ← balanced.2.2] at worth
  generalize ops.foldl PMMState.nextV1 s = final at *
  refine ⟨worth, fun hb hq => ?_⟩
  have hbase := Nat.mul_le_mul_left s.i hb
  have hquote := Nat.mul_le_mul_left nat18 hq
  refine ⟨Nat.eq_of_mul_eq_mul_left hi ?_, Nat.eq_of_mul_eq_mul_left nat18_pos ?_⟩ <;> omega

/-- A constant product, sold into from both sides. -/
theorem run_keepsValue_parity :
    nat18 * 10 + nat18 * 10 ≤
      nat18 * ([Op.sellBaseToken 10, .sellQuoteToken 9, .sellBaseToken 3].foldl PMMState.nextV1
          (parityPool nat18)).b +
        nat18 * ([Op.sellBaseToken 10, .sellQuoteToken 9, .sellBaseToken 3].foldl PMMState.nextV1
          (parityPool nat18)).q :=
  (run_keepsValue (s := parityPool nat18) (by decide) (by decide) ⟨rfl, rfl, rfl⟩ (by decide)
    (.inr (.inl rfl))).1

end

end Fomowell.Pmm
