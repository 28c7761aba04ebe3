import Fomowell.Pmm.Market

/-!
# Sales with decimals and plain sales

The functions with decimals convert their amounts where the plain versions (`_v1`) take them as they
are. A base sale converts from the decimals of base to those of quote. Where quote has at least as
many, the conversion multiplies by a power of ten (`adjustDecimal_of_le`), and a sale is the plain
sale of the pool whose base amounts were multiplied before (`sellBaseToken_eq_scaled`): the
comparisons and differences, which the source leaves unconverted, are scaled with everything else.

With equal decimals the factor is one, and the other two functions agree as well.
-/

namespace Fomowell.Pmm

open Checked

/-! ## The conversion as a factor -/

/-- Up to nineteen decimals the power of ten fits in 64 bits, and the conversion multiplies by it. -/
theorem adjustDecimal_of_le {before after : UInt8} (hle : before.toNat ≤ after.toNat)
    (hfits : after.toNat ≤ before.toNat + 19) (amount : Nat) :
    (DecimalAdjust.mk before after).adjustDecimal amount =
      some (amount * 10 ^ (after.toNat - before.toNat)) := by
  have hge : before ≤ after := UInt8.le_iff_toNat_le.mpr hle
  have hpow : 10 ^ (after.toNat - before.toNat) ≤ 10 ^ 19 :=
    Nat.pow_le_pow_right (by decide) (by omega)
  have hmod : 10 ^ (after.toNat - before.toNat) % 2 ^ 64 = 10 ^ (after.toNat - before.toNat) :=
    Nat.mod_eq_of_lt (Nat.lt_of_le_of_lt hpow (by decide))
  unfold DecimalAdjust.adjustDecimal
  simp only [ge_iff_le, hge, if_true, UInt8.toNat_sub_of_le _ _ hge, hmod]

/-- With equal decimals the conversion changes nothing. -/
theorem adjustDecimal_self (decimals : UInt8) (amount : Nat) :
    (DecimalAdjust.mk decimals decimals).adjustDecimal amount = some amount := by
  rw [adjustDecimal_of_le (Nat.le_refl _) (Nat.le_add_right _ _), Nat.sub_self, Nat.pow_zero,
    Nat.mul_one]

/-- A subtraction of scaled amounts is the scaled subtraction, in range and below zero. -/
theorem sub_mul_right {c : Nat} (hc : 0 < c) (x y : Nat) :
    sub (x * c) (y * c) = (sub x y).map (· * c) := by
  unfold sub
  by_cases h : y ≤ x
  · rw [if_pos (Nat.mul_le_mul_right c h), if_pos h, Option.map_some, Nat.sub_mul]
  · rw [if_neg (fun hle => h (Nat.le_of_mul_le_mul_right hle hc)), if_neg h, Option.map_none]

/-! ## The scaled pool -/

/-- The pool with its base amounts multiplied. -/
def PMMState.scaleBase (s : PMMState) (c : Nat) : PMMState := { s with b := s.b * c, b0 := s.b0 * c }

/-- **A base sale is the plain sale of the scaled pool**, whatever the conversion multiplies by. -/
theorem sellBaseToken_eq_scaled {s : PMMState} {c : Nat} (hc : 0 < c)
    (scale : ∀ amount, (DecimalAdjust.mk s.baseDecimal s.quoteDecimal).adjustDecimal amount =
      some (amount * c)) (pay : Nat) :
    sellBaseToken s pay = sellBaseTokenV1 (s.scaleBase c) (pay * c) := by
  unfold sellBaseToken sellBaseTokenV1 PMMState.scaleBase
  cases hr : s.r with
  | ONE => simp only [scale, Option.bind_eq_bind, Option.bind_some]
  | BelowOne => simp only [scale, Option.bind_eq_bind, Option.bind_some]
  | AboveOne =>
    simp only [scale, sub_mul_right hc, Option.bind_eq_bind, Option.bind_some]
    cases hpay : sub s.b0 s.b with
    | none => rfl
    | some toPay =>
      -- the amount paid is compared before the conversion here, and after it there
      have hlt : pay * c < toPay * c ↔ pay < toPay := Nat.mul_lt_mul_right hc
      have heq : pay * c = toPay * c ↔ pay = toPay := Nat.mul_right_cancel_iff hc
      simp only [Option.map_some, Option.bind_some, hlt, heq, sub_mul_right hc]

theorem sellQuoteToken_eq_plain {s : PMMState} (h : s.baseDecimal = s.quoteDecimal) (pay : Nat) :
    sellQuoteToken s pay = sellQuoteTokenV1 s pay := by
  unfold sellQuoteToken sellQuoteTokenV1
  simp only [h, adjustDecimal_self, Option.bind_eq_bind, Option.bind_some]

theorem adjustedTarget_eq_plain {s : PMMState} (h : s.baseDecimal = s.quoteDecimal) :
    adjustedTarget s = adjustedTargetV1 s := by
  unfold adjustedTarget adjustedTargetV1
  simp only [h, adjustDecimal_self, Option.bind_eq_bind]
  cases s.r with
  | ONE => rfl
  | AboveOne => cases sub s.q s.q0 <;> rfl
  | BelowOne => cases sub s.b s.b0 <;> rfl

/-! ## Agreement -/

/-- The power of ten between the decimals of base and of quote. -/
def PMMState.decimalFactor (s : PMMState) : Nat := 10 ^ (s.quoteDecimal.toNat - s.baseDecimal.toNat)

/-- **The functions with decimals agree with the plain ones**: a base sale with the plain sale of the
scaled pool, where quote has up to nineteen decimals more than base; and all three functions where
the decimals are equal. -/
theorem decimals_agree (s : PMMState) :
    (s.baseDecimal ≤ s.quoteDecimal → s.quoteDecimal.toNat - s.baseDecimal.toNat ≤ 19 →
      ∀ x y r, sellBaseToken s x = some (y, r) ↔
        sellBaseTokenV1 (s.scaleBase s.decimalFactor) (x * s.decimalFactor) = some (y, r)) ∧
    (s.baseDecimal = s.quoteDecimal →
      (∀ x, sellQuoteToken s x = sellQuoteTokenV1 s x) ∧ adjustedTarget s = adjustedTargetV1 s) := by
  constructor
  · intro hle hfits x y r
    have hle : s.baseDecimal.toNat ≤ s.quoteDecimal.toNat := UInt8.le_iff_toNat_le.mp hle
    have scale := adjustDecimal_of_le hle (Nat.sub_le_iff_le_add'.mp hfits)
    have hpos : 0 < s.decimalFactor := Nat.pow_pos (by decide)
    rw [sellBaseToken_eq_scaled hpos scale]
  · intro h
    exact ⟨sellQuoteToken_eq_plain h, adjustedTarget_eq_plain h⟩

/-- A pool with six and with eight decimals, short of base. -/
def unevenDecimals : PMMState where
  i := 10 ^ 18
  k := 5 * 10 ^ 17
  b := 5
  q := 900
  b0 := 10
  q0 := 500
  r := .AboveOne
  baseDecimal := 6
  quoteDecimal := 8

/-- The same pool with eight decimals on both sides. -/
def evenDecimals : PMMState := { unevenDecimals with baseDecimal := 8 }

theorem decimals_agree_short :
    (∀ x y r, sellBaseToken unevenDecimals x = some (y, r) ↔
      sellBaseTokenV1 (unevenDecimals.scaleBase unevenDecimals.decimalFactor)
        (x * unevenDecimals.decimalFactor) = some (y, r)) ∧
    (∀ x, sellQuoteToken evenDecimals x = sellQuoteTokenV1 evenDecimals x) ∧
    adjustedTarget evenDecimals = adjustedTargetV1 evenDecimals :=
  ⟨(decimals_agree unevenDecimals).1 (by decide) (by decide), (decimals_agree evenDecimals).2 rfl⟩

end Fomowell.Pmm
