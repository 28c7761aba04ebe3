import Fomowell.Lib.Roots
import Fomowell.Pmm.Coherence

/-!
# Paying more

A sale should never pay out less for more. The solver of trades is monotone in the amount paid for all
its cases, rounding included (`solveQuadraticFunctionForTrade_mono`). `_general_integrate` is not: it
rounds `V0²/V1` down before it divides by `V2`, and where `V2` is small the rounding is scaled up with
the amount. What it may lose is at most the dust of `integralDust`.

A sale that leads away from the targets is one call of the solver (`Solved`), one that leads back to
them one of three pieces: short of the way back, at the targets, or past them (`Piece`). The cap on the
first keeps the joint in order, so the dust is all there is to lose, and only between two amounts short
of the way back (`sales_monotone`). `not_sales_monotone` is such a pair of amounts. A quote sale past
the targets that pays exactly the excess of base is left out: it answers as if it were at the targets.
-/

namespace Fomowell.Pmm

open Checked Roots

/-! ## The integral -/

/-- What the integral may pay out less for a larger amount `delta`, from a reserve `v2`. -/
def integralDust (v2 delta i k : Nat) : Nat :=
  if k = 0 then 0 else (k / v2 + 3) * (i * delta) / nat36 + 1

/-- The penalty is at most the exact one. -/
theorem penalty_mul_le (v0 v1 v2 k : Nat) :
    mulFloor k (v0 * v0 / v1 * nat18 / v2) * v2 * v1 ≤ k * (v0 * v0) := by
  have hpenalty := mulFloor_mul_le k (v0 * v0 / v1 * nat18 / v2)
  have hquotient : v0 * v0 / v1 * nat18 / v2 * v2 ≤ v0 * v0 / v1 * nat18 := Nat.div_mul_le_self _ _
  have hsquare : v0 * v0 / v1 * v1 ≤ v0 * v0 := Nat.div_mul_le_self _ _
  generalize v0 * v0 / v1 = t at *
  generalize t * nat18 / v2 = u at *
  generalize mulFloor k u = p at *
  apply Nat.le_of_mul_le_mul_right (c := nat18) _ nat18_pos
  calc p * v2 * v1 * nat18
      = p * nat18 * v2 * v1 := by ring
    _ ≤ k * u * v2 * v1 := Nat.mul_le_mul_right _ (Nat.mul_le_mul_right _ hpenalty)
    _ = k * (u * v2) * v1 := by ring
    _ ≤ k * (t * nat18) * v1 := Nat.mul_le_mul_right _ (Nat.mul_le_mul_left _ hquotient)
    _ = k * (t * v1) * nat18 := by ring
    _ ≤ k * (v0 * v0) * nat18 := Nat.mul_le_mul_right _ (Nat.mul_le_mul_left _ hsquare)

/-- The exact penalty is less than the rounded one and `k / v2 + 3`. -/
theorem le_penalty_add_mul {v1 v2 k : Nat} (v0 : Nat) (hk : k ≤ nat18) (hv1 : 0 < v1) (hv2 : 0 < v2) :
    k * (v0 * v0) ≤ (mulFloor k (v0 * v0 / v1 * nat18 / v2) + (k / v2 + 3)) * v2 * v1 := by
  have hpenalty := lt_mulFloor_succ_mul k (v0 * v0 / v1 * nat18 / v2)
  have hquotient : v0 * v0 / v1 * nat18 < (v0 * v0 / v1 * nat18 / v2 + 1) * v2 :=
    Nat.lt_mul_of_div_lt (Nat.lt_succ_self _) hv2
  have hsquare : v0 * v0 ≤ (v0 * v0 / v1 + 1) * v1 :=
    Nat.le_of_lt (Nat.lt_mul_of_div_lt (Nat.lt_succ_self _) hv1)
  have hshare : k ≤ (k / v2 + 1) * v2 :=
    Nat.le_of_lt (Nat.lt_mul_of_div_lt (Nat.lt_succ_self _) hv2)
  generalize v0 * v0 / v1 = t at *
  generalize t * nat18 / v2 = u at *
  generalize mulFloor k u = p at *
  generalize k / v2 = r at *
  -- the penalty before its last rounding, which loses less than two
  have hrounded : k * t ≤ (p + 2) * v2 := by
    apply Nat.le_of_mul_le_mul_right (c := nat18) _ nat18_pos
    calc k * t * nat18
        = k * (t * nat18) := by ring
      _ ≤ k * ((u + 1) * v2) := Nat.mul_le_mul_left _ (Nat.le_of_lt hquotient)
      _ = k * u * v2 + k * v2 := by ring
      _ ≤ (p + 1) * nat18 * v2 + nat18 * v2 :=
        Nat.add_le_add (Nat.mul_le_mul_right _ (Nat.le_of_lt hpenalty)) (Nat.mul_le_mul_right _ hk)
      _ = (p + 2) * v2 * nat18 := by ring
  calc k * (v0 * v0)
      ≤ k * ((t + 1) * v1) := Nat.mul_le_mul_left _ hsquare
    _ = (k * t + k) * v1 := by ring
    _ ≤ ((p + 2) * v2 + (r + 1) * v2) * v1 :=
      Nat.mul_le_mul_right _ (Nat.add_le_add hrounded hshare)
    _ = (p + (r + 3)) * v2 * v1 := by ring

/-- The penalty on a smaller amount is at most the one on a larger amount, and the dust. -/
theorem penalty_mul_mono {v2 d d' k : Nat} (v0 : Nat) (hk : k ≤ nat18) (hv2 : 0 < v2) (hd : d ≤ d') :
    mulFloor k (v0 * v0 / (v2 + d) * nat18 / v2) * d ≤
      (mulFloor k (v0 * v0 / (v2 + d') * nat18 / v2) + (k / v2 + 3)) * d' := by
  have hupper := penalty_mul_le v0 (v2 + d) v2 k
  have hlower := le_penalty_add_mul v0 hk (Nat.add_pos_left hv2 d') hv2
  generalize mulFloor k (v0 * v0 / (v2 + d) * nat18 / v2) = p at *
  generalize mulFloor k (v0 * v0 / (v2 + d') * nat18 / v2) + (k / v2 + 3) = p' at *
  have hcross : p * (v2 + d) ≤ p' * (v2 + d') := by
    apply Nat.le_of_mul_le_mul_right (c := v2) _ hv2
    calc p * (v2 + d) * v2
        = p * v2 * (v2 + d) := by ring
      _ ≤ p' * v2 * (v2 + d') := hupper.trans hlower
      _ = p' * (v2 + d') * v2 := by ring
  have hmix : (v2 + d') * d ≤ d' * (v2 + d) := by
    have := Nat.mul_le_mul_left v2 hd
    linarith [Nat.mul_comm d d']
  apply Nat.le_of_mul_le_mul_right (c := v2 + d) _ (Nat.add_pos_left hv2 d)
  calc p * d * (v2 + d)
      = p * (v2 + d) * d := by ring
    _ ≤ p' * (v2 + d') * d := Nat.mul_le_mul_right _ hcross
    _ = p' * ((v2 + d') * d) := by ring
    _ ≤ p' * (d' * (v2 + d)) := Nat.mul_le_mul_left _ hmix
    _ = p' * d' * (v2 + d) := by ring

/-- What the integral answers, from a reserve `v2` that grows by `d`. -/
theorem generalIntegrate_spec {v0 v2 d i k out : Nat}
    (h : generalIntegrate v0 (v2 + d) v2 i k = some out) :
    if k = 0 then out = i * d / nat18
    else k ≤ nat18 ∧ 0 < v2 ∧
      out = (nat18 - k + mulFloor k (v0 * v0 / (v2 + d) * nat18 / v2)) * (i * d) / nat36 := by
  unfold generalIntegrate at h
  obtain ⟨_, _, h⟩ := Option.bind_eq_some_iff.mp h
  obtain ⟨grown, hgrown, h⟩ := Option.bind_eq_some_iff.mp h
  obtain rfl : d = grown := Nat.add_left_cancel (sub_eq_some.mp hgrown)
  by_cases hzero : k = 0
  · rw [if_pos hzero] at h ⊢
    exact (Option.some.inj h).symm
  · rw [if_neg hzero] at h ⊢
    obtain ⟨t, ht, h⟩ := Option.bind_eq_some_iff.mp h
    obtain ⟨u, hu, h⟩ := Option.bind_eq_some_iff.mp h
    obtain ⟨flat, hflat, h⟩ := Option.bind_eq_some_iff.mp h
    obtain ⟨_, rfl⟩ := div_eq_some.mp ht
    obtain ⟨hv2, rfl⟩ := div_eq_some.mp hu
    have hk := sub_eq_some.mp hflat
    refine ⟨Nat.le.intro hk.symm, Nat.pos_of_ne_zero hv2, ?_⟩
    rw [Nat.sub_eq_of_eq_add' hk]
    exact (Option.some.inj h).symm

/-- **The integral is monotone up to its dust.** -/
theorem generalIntegrate_mono {v0 v2 d d' i k out out' : Nat} (hd : d ≤ d')
    (h : generalIntegrate v0 (v2 + d) v2 i k = some out)
    (h' : generalIntegrate v0 (v2 + d') v2 i k = some out') :
    out ≤ out' + integralDust v2 d' i k := by
  have spec := generalIntegrate_spec h
  have spec' := generalIntegrate_spec h'
  unfold integralDust
  by_cases hzero : k = 0
  · rw [if_pos hzero] at spec spec' ⊢
    rw [spec, spec']
    exact Nat.div_le_div_right (Nat.mul_le_mul_left i hd)
  rw [if_neg hzero] at spec spec' ⊢
  obtain ⟨hk, hv2, hout⟩ := spec
  obtain ⟨_, _, hout'⟩ := spec'
  have hpenalty := penalty_mul_mono v0 hk hv2 hd
  generalize mulFloor k (v0 * v0 / (v2 + d) * nat18 / v2) = p at *
  generalize mulFloor k (v0 * v0 / (v2 + d') * nat18 / v2) = p' at *
  generalize k / v2 + 3 = dust at *
  generalize nat18 - k = flat at *
  have hsum : (flat + p) * (i * d) ≤ (flat + p') * (i * d') + dust * (i * d') := by
    calc (flat + p) * (i * d)
        = i * (flat * d + p * d) := by ring
      _ ≤ i * (flat * d' + (p' + dust) * d') :=
        Nat.mul_le_mul_left _ (Nat.add_le_add (Nat.mul_le_mul_left _ hd) hpenalty)
      _ = (flat + p') * (i * d') + dust * (i * d') := by ring
  rw [hout, hout']
  exact (Nat.div_le_div_right hsum).trans (add_div_le _ _ nat36_pos)

/-! ## The solver of trades -/

/-- A quotient rounded up is at most `n` where `n` divisors suffice. -/
theorem dDivCeil_le_iff {a b c n : Nat} (h : dDivCeil a b = some c) : c ≤ n ↔ a ≤ n * b := by
  obtain ⟨q, hq, h⟩ := Option.bind_eq_some_iff.mp h
  obtain ⟨remainder, hremainder, h⟩ := Option.bind_eq_some_iff.mp h
  obtain ⟨hb, rfl⟩ := div_eq_some.mp hq
  have hpos : 0 < b := Nat.pos_of_ne_zero hb
  have ha := sub_eq_some.mp hremainder
  have hlt : a / b < n ↔ a < n * b := Nat.div_lt_iff_lt_mul hpos
  obtain rfl := Option.some.inj h
  split
  next hrest =>
    rw [Nat.succ_le_iff, hlt]
    constructor
    · exact Nat.le_of_lt
    · intro hle
      refine Nat.lt_of_le_of_ne hle ?_
      intro hn
      -- a multiple of the divisor has no remainder
      rw [hn, Nat.mul_div_cancel n hpos] at ha
      omega
  next hrest =>
    have hzero : remainder = 0 := Nat.le_zero.mp (Nat.not_lt.mp hrest)
    rw [hzero, Nat.add_zero] at ha
    constructor
    · intro hle
      rw [ha]
      exact Nat.mul_le_mul_right b hle
    · intro hle
      rw [ha] at hle
      exact Nat.le_of_mul_le_mul_right hle hpos

theorem divCeil_mono {a a' d c c' : Nat} (ha : a ≤ a') (h : divCeil a d = some c)
    (h' : divCeil a' d = some c') : c ≤ c' := by
  apply (dDivCeil_le_iff h).mpr
  exact (Nat.mul_le_mul_right nat18 ha).trans ((dDivCeil_le_iff h').mp (Nat.le_refl c'))

/-- **The quadratic case**: the reserve that stays is a root, rounded, of the linear coefficient with
its sign. -/
theorem tradeV2_spec {v0 v1 delta i k v2 : Nat} (h : tradeV2 v0 v1 delta i k = some v2) :
    ∃ q flat, div (k * v0) v1 = some q ∧ sub nat18 k = some flat ∧
      divCeil (signedRoot ((((flat * v1 : Nat) : Int) - ((q * v0 + i * delta : Nat) : Int)).tdiv nat18)
        (mulFloor (flat * 4) (mulFloor k v0 * v0))).toNat (flat * 2) = some v2 := by
  obtain ⟨q, hq, h⟩ := Option.bind_eq_some_iff.mp h
  obtain ⟨flat, hflat, h⟩ := Option.bind_eq_some_iff.mp h
  refine ⟨q, flat, hq, hflat, ?_⟩
  rw [hflat] at h
  dsimp only [Option.bind_eq_bind, Option.bind_some] at h
  obtain ⟨numerator, hnumerator, h⟩ := Option.bind_eq_some_iff.mp h
  rw [← h]
  apply congrArg fun n => divCeil n (flat * 2)
  generalize mulFloor (flat * 4) (mulFloor k v0 * v0) = c at *
  generalize q * v0 + i * delta = part2 at *
  generalize flat * v1 = bSide at *
  by_cases hside : part2 ≤ bSide
  · have hdifference : (bSide : Int) - part2 = ((bSide - part2 : Nat) : Int) := by omega
    rw [decide_eq_false (Nat.not_lt.mpr hside), if_pos hside] at hnumerator
    rw [hdifference, ← Int.ofNat_tdiv, signedRoot_ofNat, Int.toNat_natCast]
    exact Option.some.inj hnumerator
  · have hdifference : (bSide : Int) - part2 = -((part2 - bSide : Nat) : Int) := by omega
    rw [decide_eq_true (Nat.not_le.mp hside), if_neg hside] at hnumerator
    rw [hdifference, Int.neg_tdiv, ← Int.ofNat_tdiv, signedRoot_neg, Int.toNat_natCast]
    exact Nat.sub_eq_of_eq_add' (sub_eq_some.mp hnumerator)

/-- The more is paid, the less of the reserve stays. -/
theorem tradeV2_antitone {v0 v1 delta delta' i k v2 v2' : Nat} (hdelta : delta ≤ delta')
    (h : tradeV2 v0 v1 delta i k = some v2) (h' : tradeV2 v0 v1 delta' i k = some v2') :
    v2' ≤ v2 := by
  obtain ⟨q, flat, hq, hflat, h⟩ := tradeV2_spec h
  obtain ⟨q', flat', hq', hflat', h'⟩ := tradeV2_spec h'
  rw [hq, Option.some.injEq] at hq'
  rw [hflat, Option.some.injEq] at hflat'
  subst hq' hflat'
  refine divCeil_mono (Int.toNat_le_toNat (signedRoot_mono ?_ _)) h' h
  apply Int.tdiv_le_tdiv (by decide)
  have hpaid : i * delta ≤ i * delta' := Nat.mul_le_mul_left i hdelta
  omega

/-- With `k` of one the amount is a share of the reserve. -/
theorem tradeTemp_mono {v0 v1 delta delta' i t t' : Nat} (hdelta : delta ≤ delta')
    (h : tradeTemp v0 v1 delta i = some t) (h' : tradeTemp v0 v1 delta' i = some t') : t ≤ t' := by
  have spec : ∀ {delta t}, tradeTemp v0 v1 delta i = some t →
      t = if i * delta = 0 then 0 else i * delta * v1 / (v0 * v0) := by
    intro delta t h
    unfold tradeTemp at h
    dsimp only at h
    by_cases hzero : i * delta = 0
    · rw [if_pos hzero] at h ⊢
      exact (Option.some.inj h).symm
    · rw [if_neg hzero, if_pos (Nat.mul_div_cancel_left v1 (Nat.pos_of_ne_zero hzero))] at h
      rw [if_neg hzero]
      exact (div_eq_some.mp h).2.symm
  have hpaid : i * delta ≤ i * delta' := Nat.mul_le_mul_left i hdelta
  rw [spec h, spec h']
  by_cases hzero : i * delta = 0
  · rw [if_pos hzero]
    exact Nat.zero_le _
  · rw [if_neg hzero, if_neg (by omega)]
    exact Nat.div_le_div_right (Nat.mul_le_mul_right v1 hpaid)

/-- **The solver of trades is monotone in the amount paid.** -/
theorem solveQuadraticFunctionForTrade_mono {v0 v1 delta delta' i k out out' : Nat}
    (hdelta : delta ≤ delta') (h : solveQuadraticFunctionForTrade v0 v1 delta i k = some out)
    (h' : solveQuadraticFunctionForTrade v0 v1 delta' i k = some out') : out ≤ out' := by
  unfold solveQuadraticFunctionForTrade at h h'
  obtain ⟨_, _, h⟩ := Option.bind_eq_some_iff.mp h
  obtain ⟨_, _, h'⟩ := Option.bind_eq_some_iff.mp h'
  by_cases hzero : delta = 0
  · rw [if_pos hzero] at h
    cases h
    exact Nat.zero_le _
  rw [if_neg hzero] at h
  rw [if_neg (by omega)] at h'
  by_cases hflat : k = 0
  · -- a constant price, up to the reserve
    rw [if_pos hflat] at h h'
    have hpaid : mulFloor i delta ≤ mulFloor i delta' :=
      Nat.div_le_div_right (Nat.mul_le_mul_left i hdelta)
    obtain rfl := Option.some.inj h
    obtain rfl := Option.some.inj h'
    split_ifs <;> omega
  rw [if_neg hflat] at h h'
  by_cases hone : k = nat18
  · rw [if_pos hone] at h h'
    obtain ⟨t, ht, h⟩ := Option.bind_eq_some_iff.mp h
    obtain ⟨t', ht', h'⟩ := Option.bind_eq_some_iff.mp h'
    rw [← (div_eq_some.mp h).2, ← (div_eq_some.mp h').2]
    exact mul_div_add_mono (tradeTemp_mono hdelta ht ht') nat18_pos
  · rw [if_neg hone] at h h'
    obtain ⟨v2, hv2, h⟩ := Option.bind_eq_some_iff.mp h
    obtain ⟨v2', hv2', h'⟩ := Option.bind_eq_some_iff.mp h'
    have hstays := tradeV2_antitone hdelta hv2 hv2'
    obtain rfl := Option.some.inj h
    obtain rfl := Option.some.inj h'
    split_ifs <;> omega

/-! ## The pieces of a sale -/

theorem adjustDecimal_mono {ad : DecimalAdjust} {x y x' y' : Nat} (hxy : x ≤ y)
    (hx : ad.adjustDecimal x = some x') (hy : ad.adjustDecimal y = some y') : x' ≤ y' := by
  unfold DecimalAdjust.adjustDecimal at hx hy
  split at hx
  next hle =>
    rw [if_pos hle] at hy
    obtain rfl := Option.some.inj hx
    obtain rfl := Option.some.inj hy
    exact Nat.mul_le_mul_right _ hxy
  next hle =>
    rw [if_neg hle] at hy
    rw [← (div_eq_some.mp hx).2, ← (div_eq_some.mp hy).2]
    exact Nat.div_le_div_right hxy

/-- What the first piece of a sale may pay out less for a larger amount. -/
def pieceDust (ad : DecimalAdjust) (reserve toPay i k pay : Nat) : Nat :=
  if pay < toPay then
    integralDust ((ad.adjustDecimal reserve).getD 0) ((ad.adjustDecimal pay).getD 0) i k
  else 0

/-- What a sale away from its targets answers: `toPay` leads back to them and is answered by `cap`, and
`returning` is the payment that is taken to be the way back. -/
inductive Piece (ad : DecimalAdjust) (goal reserve toPay returning cap target i k pay out : Nat) : Prop
  | short {v0 v2 d raw} (lt : pay < toPay) (hreserve : ad.adjustDecimal reserve = some v2)
      (hpay : ad.adjustDecimal pay = some d)
      (integrates : generalIntegrate v0 (v2 + d) v2 i k = some raw)
      (hgoal : ad.adjustDecimal goal = some v0) (hout : out = if raw > cap then cap else raw)
  | back (le : toPay ≤ pay) (hpay : pay = returning) (hout : out = cap)
  | past {d way beyond extra} (le : toPay ≤ pay) (hpay : pay ≠ returning)
      (hd : ad.adjustDecimal pay = some d) (hway : ad.adjustDecimal toPay = some way)
      (hbeyond : d = way + beyond)
      (solves : solveQuadraticFunctionForTrade target target beyond i k = some extra)
      (hout : out = cap + extra)

section

variable {ad : DecimalAdjust} {goal reserve toPay returning cap target i k : Nat}

/-- Short of the way back, the answer is at most the cap. -/
theorem capped_le (raw cap : Nat) : (if raw > cap then cap else raw) ≤ cap := by
  split <;> omega

/-- **Paying more yields no less, up to the dust of the first piece**, where the payment that is taken
to be the way back does not lie past it. -/
theorem Piece.mono {x y out out' : Nat} (hxy : x ≤ y)
    (hx : Piece ad goal reserve toPay returning cap target i k x out)
    (hy : Piece ad goal reserve toPay returning cap target i k y out')
    (honest : y = returning → y ≤ toPay) : out ≤ out' + pieceDust ad reserve toPay i k y := by
  cases hy with
  | @short v0' v2' d' raw' lt' hreserve' hpay' integrates' hgoal' hout' =>
    cases hx with
    | @short v0 v2 d raw lt hreserve hpay integrates hgoal hout =>
      rw [hreserve, Option.some.injEq] at hreserve'
      rw [hgoal, Option.some.injEq] at hgoal'
      subst hreserve' hgoal'
      have hd : d ≤ d' := adjustDecimal_mono hxy hpay hpay'
      have hraw := generalIntegrate_mono hd integrates integrates'
      unfold pieceDust
      rw [if_pos lt', hreserve, hpay', Option.getD_some, Option.getD_some, hout, hout']
      split_ifs <;> omega
    | back le hpay hout => omega
    | past le hpay hd hway hbeyond solves hout => omega
  | back le' hpay' hout' =>
    cases hx with
    | short lt hreserve hpay integrates hgoal hout =>
      rw [hout, hout']
      exact (capped_le _ cap).trans (Nat.le_add_right _ _)
    | back le hpay hout =>
      rw [hout, hout']
      exact Nat.le_add_right _ _
    | past le hpay hd hway hbeyond solves hout =>
      -- the two amounts are the way back, which only the larger is taken to be
      have hback := honest hpay'
      omega
  | @past d' way' beyond' extra' le' hpay' hd' hway' hbeyond' solves' hout' =>
    cases hx with
    | @short v0 v2 d raw lt hreserve hpay integrates hgoal hout =>
      have hcap := capped_le raw cap
      omega
    | back le hpay hout => omega
    | @past d way beyond extra le hpay hd hway hbeyond solves hout =>
      rw [hway, Option.some.injEq] at hway'
      have hpaid : d ≤ d' := adjustDecimal_mono hxy hd hd'
      have hextra : extra ≤ extra' :=
        solveQuadraticFunctionForTrade_mono (by omega) solves solves'
      omega

end

/-- Long of base, a sale is one of the pieces. -/
theorem saleAt_piece {ad : DecimalAdjust} {i : Nat} {s : PMMState} {returning pay out : Nat} {r : RState}
    (hr : s.r = .BelowOne) (h : saleAt ad.adjustDecimal i s returning pay = some (out, r)) :
    Piece ad s.q0 s.q (s.q0 - s.q) returning (s.b - s.b0) s.b0 i s.k pay out := by
  unfold saleAt at h
  simp only [hr] at h
  obtain ⟨toPay, htoPay, h⟩ := Option.bind_eq_some_iff.mp h
  obtain ⟨cap, hcap, h⟩ := Option.bind_eq_some_iff.mp h
  rw [Nat.sub_eq_of_eq_add' (sub_eq_some.mp htoPay), Nat.sub_eq_of_eq_add' (sub_eq_some.mp hcap)]
  by_cases hlt : pay < toPay
  · rw [if_pos hlt] at h
    obtain ⟨v0, hv0, h⟩ := Option.bind_eq_some_iff.mp h
    obtain ⟨v2, hv2, h⟩ := Option.bind_eq_some_iff.mp h
    obtain ⟨d, hd, h⟩ := Option.bind_eq_some_iff.mp h
    rw [hv2, Option.bind_eq_bind, Option.bind_some] at h
    obtain ⟨raw, hraw, h⟩ := Option.bind_eq_some_iff.mp h
    cases h
    exact .short hlt hv2 hd hraw hv0 rfl
  rw [if_neg hlt] at h
  by_cases hpay : pay = returning
  · rw [if_pos hpay] at h
    cases h
    exact .back (Nat.not_lt.mp hlt) hpay rfl
  · rw [if_neg hpay] at h
    obtain ⟨d, hd, h⟩ := Option.bind_eq_some_iff.mp h
    obtain ⟨way, hway, h⟩ := Option.bind_eq_some_iff.mp h
    obtain ⟨beyond, hbeyond, h⟩ := Option.bind_eq_some_iff.mp h
    obtain ⟨extra, hextra, h⟩ := Option.bind_eq_some_iff.mp h
    cases h
    exact .past (Nat.not_lt.mp hlt) hpay hd hway (sub_eq_some.mp hbeyond) hextra rfl

/-- A sale that is one call of the solver. -/
def Solved (ad : DecimalAdjust) (v0 v1 i k pay out : Nat) : Prop :=
  ∃ d, ad.adjustDecimal pay = some d ∧ solveQuadraticFunctionForTrade v0 v1 d i k = some out

theorem Solved.mono {ad : DecimalAdjust} {v0 v1 i k x y out out' : Nat} (hxy : x ≤ y)
    (hx : Solved ad v0 v1 i k x out) (hy : Solved ad v0 v1 i k y out') : out ≤ out' := by
  obtain ⟨d, hd, solves⟩ := hx
  obtain ⟨d', hd', solves'⟩ := hy
  exact solveQuadraticFunctionForTrade_mono (adjustDecimal_mono hxy hd hd') solves solves'

/-- Where it is not long of base, a sale is one call of the solver, from one reserve. -/
theorem saleAt_solved {s : PMMState} (hr : s.r ≠ .BelowOne) :
    ∃ reserve, ∀ {ad : DecimalAdjust} {i returning pay out r},
      saleAt ad.adjustDecimal i s returning pay = some (out, r) →
        Solved ad s.b0 reserve i s.k pay out := by
  cases hside : s.r with
  | BelowOne => exact absurd hside hr
  | ONE =>
    refine ⟨s.b0, ?_⟩
    intro ad i returning pay out r h
    simp only [saleAt, hside] at h
    obtain ⟨d, hd, h⟩ := Option.bind_eq_some_iff.mp h
    obtain ⟨received, hreceived, h⟩ := Option.bind_eq_some_iff.mp h
    cases h
    exact ⟨d, hd, hreceived⟩
  | AboveOne =>
    refine ⟨s.b, ?_⟩
    intro ad i returning pay out r h
    simp only [saleAt, hside] at h
    obtain ⟨d, hd, h⟩ := Option.bind_eq_some_iff.mp h
    obtain ⟨received, hreceived, h⟩ := Option.bind_eq_some_iff.mp h
    cases h
    exact ⟨d, hd, hreceived⟩

/-- The dust of a sale: there is some long of base, up to the way back. -/
def saleDust (ad : DecimalAdjust) (i : Nat) (s : PMMState) (pay : Nat) : Nat :=
  if s.r = .BelowOne then pieceDust ad s.q (s.q0 - s.q) i s.k pay else 0

/-- **A sale yields no less for more, up to its dust**, where the payment that is taken to be the way back does
not lie past it. -/
theorem saleAt_mono {ad : DecimalAdjust} {i : Nat} {s : PMMState} {returning x y out out' : Nat}
    {r r' : RState} (hxy : x ≤ y) (h : saleAt ad.adjustDecimal i s returning x = some (out, r))
    (h' : saleAt ad.adjustDecimal i s returning y = some (out', r'))
    (honest : s.r = .BelowOne → y = returning → y ≤ s.q0 - s.q) : out ≤ out' + saleDust ad i s y := by
  unfold saleDust
  by_cases hr : s.r = .BelowOne
  · rw [if_pos hr]
    exact (saleAt_piece hr h).mono hxy (saleAt_piece hr h') (honest hr)
  · rw [if_neg hr]
    obtain ⟨reserve, solved⟩ := saleAt_solved hr
    exact (solved h).mono hxy (solved h')

/-! ## Both sales -/

/-- The dust of a base sale: there is some short of base, up to the way back. -/
def PMMState.baseDust (s : PMMState) (pay : Nat) : Nat :=
  if s.r = .AboveOne then
    pieceDust ⟨s.baseDecimal, s.quoteDecimal⟩ s.b (s.b0 - s.b) s.i s.k pay
  else 0

/-- The dust of a quote sale: there is some long of base, up to the way back. -/
def PMMState.quoteDust (s : PMMState) (pay : Nat) : Nat :=
  if s.r = .BelowOne then
    pieceDust ⟨s.quoteDecimal, s.baseDecimal⟩ s.q (s.q0 - s.q) (nat36 / s.i) s.k pay
  else 0

/-- The dust of a base sale is the one of the mirrored pool. -/
theorem PMMState.baseDust_eq (s : PMMState) (pay : Nat) :
    s.baseDust pay = saleDust ⟨s.baseDecimal, s.quoteDecimal⟩ s.i s.mirror pay := by
  unfold PMMState.baseDust saleDust PMMState.mirror
  cases s.r <;> rfl

/-- Where a sale returns for both of two amounts, the first yields at most the second and the dust. -/
def YieldsNoLess (sale : Nat → Option (Nat × RState)) (dust x y : Nat) : Prop :=
  ∀ out out' r r', sale x = some (out, r) → sale y = some (out', r') → out ≤ out' + dust

theorem sellBaseToken_mono (s : PMMState) {x y : Nat} (hxy : x ≤ y) :
    YieldsNoLess (sellBaseToken s) (s.baseDust y) x y := by
  intro out out' r r' h h'
  rw [sellBaseToken_eq_saleAt, map_mirrorAnswer_eq_some] at h h'
  have hle := saleAt_mono hxy h h' fun _ => Nat.le_of_eq
  rwa [← s.baseDust_eq] at hle

theorem sellQuoteToken_mono {s : PMMState} {x y : Nat} (hxy : x ≤ y)
    (honest : ¬ s.ReturnsOffTarget (.sellQuoteToken y)) :
    YieldsNoLess (sellQuoteToken s) (s.quoteDust y) x y := by
  intro out out' r r' h h'
  refine saleAt_mono hxy (saleAt_of_sellQuoteToken h) (saleAt_of_sellQuoteToken h') fun hr hback => ?_
  exact Nat.not_lt.mp fun hlt => honest ⟨hr, hback, hlt⟩

/-- **Paying more never yields less than the dust**, and there is none unless the larger amount is short
of the way back to the targets. -/
theorem sales_monotone (s : PMMState) {x y : Nat} (hxy : x ≤ y) :
    YieldsNoLess (sellBaseToken s) (s.baseDust y) x y ∧
      (¬ s.ReturnsOffTarget (.sellQuoteToken y) →
        YieldsNoLess (sellQuoteToken s) (s.quoteDust y) x y) :=
  ⟨sellBaseToken_mono s hxy, sellQuoteToken_mono hxy⟩

/-- A pool with a single base token left of a hundred. -/
def drainedPool : PMMState where
  i := 1000000000000000000
  k := 1000000000000000000
  b := 1
  q := 10000
  b0 := 100
  q0 := 100
  r := .AboveOne
  baseDecimal := 8
  quoteDecimal := 8

/-- In `drainedPool` sixty base tokens yield no less than fifty, but for the dust. -/
theorem sales_monotone_drainedPool :
    YieldsNoLess (sellBaseToken drainedPool) (drainedPool.baseDust 60) 50 60 ∧
      YieldsNoLess (sellQuoteToken drainedPool) (drainedPool.quoteDust 60) 50 60 := by
  obtain ⟨base, quote⟩ := sales_monotone drainedPool (x := 50) (y := 60) (by decide)
  exact ⟨base, quote fun off => nomatch off.1⟩

/-- **A smaller yield for more.** Fifty base tokens yield 9800, fifty-one yield 9792. -/
theorem not_sales_monotone :
    ¬ ∀ (s : PMMState) (x y : Nat), s.Coherent → s.k ≤ nat18 → 0 < s.i → x ≤ y →
      YieldsNoLess (sellBaseToken s) 0 x y ∧ YieldsNoLess (sellQuoteToken s) 0 x y := by
  intro all
  have base := (all drainedPool 50 51 (by decide) (by decide) (by decide) (by decide)).1
  have hle := base 9800 9792 .AboveOne .AboveOne (by decide) (by decide)
  revert hle
  decide

end Fomowell.Pmm
