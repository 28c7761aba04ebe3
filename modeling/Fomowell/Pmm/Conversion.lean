import Fomowell.Pmm.Decimals
import Fomowell.Pmm.Monotone

/-!
# The conversion of decimals

`adjust_decimal` multiplies or divides an unbounded amount by a power of ten, which is computed in 64
bits. Up to a distance of nineteen decimals the power is a word, and the conversion is exact scaling:
it is monotone, and there and back loses nothing but what a division rounds away. From twenty decimals
on the power wraps, and is zero from sixty-four decimals on, where the division traps;
`adjustDecimal_exact_iff` says for which amounts the answer is still right.
-/

namespace Fomowell.Pmm

open Checked

/-! ## Exact scaling -/

/-- How many decimals apart the two numbers of decimals are. -/
def DecimalAdjust.distance (ad : DecimalAdjust) : Nat :=
  (ad.beforeDecimals.toNat - ad.afterDecimals.toNat) +
    (ad.afterDecimals.toNat - ad.beforeDecimals.toNat)

/-- The amount in the new decimals, rounded down. -/
def DecimalAdjust.scaled (ad : DecimalAdjust) (amount : Nat) : Nat :=
  amount * 10 ^ ad.afterDecimals.toNat / 10 ^ ad.beforeDecimals.toNat

/-- The conversion back. -/
def DecimalAdjust.back (ad : DecimalAdjust) : DecimalAdjust := ⟨ad.afterDecimals, ad.beforeDecimals⟩

/-- The conversion is exact scaling, without a trap and without a wrap. -/
structure DecimalAdjust.Exact (ad : DecimalAdjust) : Prop where
  fits : 10 ^ ad.distance < 2 ^ 64
  returns : ∀ amount, ad.adjustDecimal amount = some (ad.scaled amount)
  mono : ∀ {x y x' y'}, x ≤ y → ad.adjustDecimal x = some x' → ad.adjustDecimal y = some y' → x' ≤ y'
  roundTrip : ∀ x, ∃ y z, ad.adjustDecimal x = some y ∧ ad.back.adjustDecimal y = some z ∧ z ≤ x ∧
    (ad.beforeDecimals ≤ ad.afterDecimals → z = x)

/-- The amount comes out right although the power wraps: nothing is multiplied, or the quotient is zero
either way. -/
def DecimalAdjust.Spares (ad : DecimalAdjust) (amount : Nat) : Prop :=
  if ad.beforeDecimals ≤ ad.afterDecimals then amount = 0 else amount < 10 ^ ad.distance % 2 ^ 64

/-- Nineteen is the largest power of ten in 64 bits. -/
theorem pow_lt_word_iff {n : Nat} : 10 ^ n < 2 ^ 64 ↔ n ≤ 19 := by
  constructor
  · intro hlt
    by_contra hgt
    have hpow : 10 ^ 20 ≤ 10 ^ n := Nat.pow_le_pow_right (by decide) (Nat.lt_of_not_le hgt)
    exact absurd (Nat.lt_of_le_of_lt hpow hlt) (by decide)
  · intro hle
    exact Nat.lt_of_le_of_lt (Nat.pow_le_pow_right (by decide) hle) (by decide)

section

variable {ad : DecimalAdjust}

theorem DecimalAdjust.distance_back (ad : DecimalAdjust) : ad.back.distance = ad.distance :=
  Nat.add_comm _ _

theorem DecimalAdjust.distance_of_le (h : ad.beforeDecimals ≤ ad.afterDecimals) :
    ad.distance = ad.afterDecimals.toNat - ad.beforeDecimals.toNat := by
  have hle : ad.beforeDecimals.toNat ≤ ad.afterDecimals.toNat := UInt8.le_iff_toNat_le.mp h
  unfold DecimalAdjust.distance
  omega

theorem DecimalAdjust.distance_of_not_le (h : ¬ ad.beforeDecimals ≤ ad.afterDecimals) :
    ad.distance = ad.beforeDecimals.toNat - ad.afterDecimals.toNat := by
  rw [UInt8.le_iff_toNat_le] at h
  unfold DecimalAdjust.distance
  omega

theorem DecimalAdjust.pow_after (h : ad.beforeDecimals ≤ ad.afterDecimals) :
    10 ^ ad.afterDecimals.toNat = 10 ^ ad.distance * 10 ^ ad.beforeDecimals.toNat := by
  have hle : ad.beforeDecimals.toNat ≤ ad.afterDecimals.toNat := UInt8.le_iff_toNat_le.mp h
  rw [← Nat.pow_add, distance_of_le h, Nat.sub_add_cancel hle]

/-- Into more decimals the scaled amount is a multiple. -/
theorem DecimalAdjust.scaled_of_le (h : ad.beforeDecimals ≤ ad.afterDecimals) (amount : Nat) :
    ad.scaled amount = amount * 10 ^ ad.distance := by
  unfold DecimalAdjust.scaled
  rw [pow_after h, ← Nat.mul_assoc, Nat.mul_div_cancel _ (Nat.pow_pos (by decide))]

/-- Into fewer decimals it is a quotient. -/
theorem DecimalAdjust.scaled_of_not_le (h : ¬ ad.beforeDecimals ≤ ad.afterDecimals) (amount : Nat) :
    ad.scaled amount = amount / 10 ^ ad.distance := by
  have hdistance := distance_of_not_le h
  rw [UInt8.le_iff_toNat_le] at h
  have hsplit : 10 ^ ad.beforeDecimals.toNat = 10 ^ ad.distance * 10 ^ ad.afterDecimals.toNat := by
    rw [← Nat.pow_add, hdistance]
    congr 1
    omega
  unfold DecimalAdjust.scaled
  rw [hsplit, Nat.mul_div_mul_right _ _ (Nat.pow_pos (by decide))]

/-! ## What is computed -/

theorem adjustDecimal_up (h : ad.beforeDecimals ≤ ad.afterDecimals) (amount : Nat) :
    ad.adjustDecimal amount = some (amount * (10 ^ ad.distance % 2 ^ 64)) := by
  unfold DecimalAdjust.adjustDecimal
  rw [if_pos h, UInt8.toNat_sub_of_le _ _ h, DecimalAdjust.distance_of_le h]

theorem adjustDecimal_down (h : ¬ ad.beforeDecimals ≤ ad.afterDecimals) (amount : Nat) :
    ad.adjustDecimal amount = div amount (10 ^ ad.distance % 2 ^ 64) := by
  have hle : ad.afterDecimals ≤ ad.beforeDecimals := by
    rw [UInt8.le_iff_toNat_le] at h ⊢
    omega
  unfold DecimalAdjust.adjustDecimal
  rw [if_neg h, UInt8.toNat_sub_of_le _ _ hle, DecimalAdjust.distance_of_not_le h]

/-- **Where the power is a word, the conversion is exact scaling.** -/
theorem adjustDecimal_of_distance_le (h : ad.distance ≤ 19) (amount : Nat) :
    ad.adjustDecimal amount = some (ad.scaled amount) := by
  have hword : 10 ^ ad.distance % 2 ^ 64 = 10 ^ ad.distance :=
    Nat.mod_eq_of_lt (pow_lt_word_iff.mpr h)
  by_cases hle : ad.beforeDecimals ≤ ad.afterDecimals
  · rw [adjustDecimal_up hle, hword, DecimalAdjust.scaled_of_le hle]
  · rw [adjustDecimal_down hle, hword, div_of_pos (Nat.pow_pos (by decide)),
      DecimalAdjust.scaled_of_not_le hle]

/-- Divided by a number and by its double or more, an amount gives the same quotient only if it is below
the number. -/
theorem div_eq_div_iff_lt {x f g : Nat} (hf : 0 < f) (hfg : 2 * f ≤ g) : x / f = x / g ↔ x < f := by
  constructor
  · intro hdiv
    by_contra hge
    have hquotient : 0 < x / f := Nat.div_pos (Nat.le_of_not_lt hge) hf
    have hlow : x / f * (2 * f) ≤ x := by
      calc x / f * (2 * f) ≤ x / f * g := Nat.mul_le_mul_left _ hfg
        _ = x / g * g := by rw [hdiv]
        _ ≤ x := Nat.div_mul_le_self x g
    have hhigh : x < (x / f + 1) * f := Nat.lt_mul_of_div_lt (Nat.lt_succ_self _) hf
    have htwice : (x / f + 1) * f ≤ x / f * (2 * f) := by
      calc (x / f + 1) * f ≤ (x / f * 2) * f := Nat.mul_le_mul_right f (by omega)
        _ = x / f * (2 * f) := Nat.mul_assoc _ _ _
    omega
  · intro hlt
    rw [Nat.div_eq_of_lt hlt, Nat.div_eq_of_lt (by omega)]

/-- Where the power wraps, the amounts that come out right are the spared ones. -/
theorem adjustDecimal_wrapped_iff (h : ¬ ad.distance ≤ 19) (amount : Nat) :
    ad.adjustDecimal amount = some (ad.scaled amount) ↔ ad.Spares amount := by
  have hpow : 10 ^ 20 ≤ 10 ^ ad.distance :=
    Nat.pow_le_pow_right (by decide) (Nat.lt_of_not_le h)
  have hword : 10 ^ ad.distance % 2 ^ 64 < 2 ^ 64 := Nat.mod_lt _ (by decide)
  unfold DecimalAdjust.Spares
  by_cases hle : ad.beforeDecimals ≤ ad.afterDecimals
  · rw [adjustDecimal_up hle, DecimalAdjust.scaled_of_le hle, if_pos hle, Option.some.injEq,
      mul_eq_mul_left_iff]
    refine or_iff_right ?_
    omega
  · rw [adjustDecimal_down hle, DecimalAdjust.scaled_of_not_le hle, if_neg hle, div_eq_some]
    generalize 10 ^ ad.distance % 2 ^ 64 = f at *
    generalize 10 ^ ad.distance = g at *
    have hfg : 2 * f ≤ g := by omega
    constructor
    · rintro ⟨hf, hdiv⟩
      exact (div_eq_div_iff_lt (Nat.pos_of_ne_zero hf) hfg).mp hdiv
    · intro hlt
      have hf : 0 < f := Nat.lt_of_le_of_lt (Nat.zero_le _) hlt
      exact ⟨Nat.ne_of_gt hf, (div_eq_div_iff_lt hf hfg).mpr hlt⟩

/-- The power of ten itself comes out right only if it is a word. -/
theorem distance_le_of_returns (returns : ∀ amount, ad.adjustDecimal amount = some (ad.scaled amount)) :
    ad.distance ≤ 19 := by
  by_contra h
  have hpow : 0 < 10 ^ ad.distance := Nat.pow_pos (by decide)
  have spares := (adjustDecimal_wrapped_iff h (10 ^ ad.distance)).mp (returns _)
  unfold DecimalAdjust.Spares at spares
  split at spares
  · exact Nat.ne_of_gt hpow spares
  · exact Nat.not_lt.mpr (Nat.mod_le _ _) spares

/-- **There and back**: a multiple is divided again, and a quotient is multiplied by no more than it was
divided by. -/
theorem adjustDecimal_roundTrip (h : ad.distance ≤ 19) (x : Nat) :
    ∃ y z, ad.adjustDecimal x = some y ∧ ad.back.adjustDecimal y = some z ∧ z ≤ x ∧
      (ad.beforeDecimals ≤ ad.afterDecimals → z = x) := by
  have hback : ad.back.distance ≤ 19 := ad.distance_back ▸ h
  refine ⟨_, _, adjustDecimal_of_distance_le h x, adjustDecimal_of_distance_le hback _, ?_⟩
  unfold DecimalAdjust.back DecimalAdjust.scaled
  dsimp only
  constructor
  · refine Nat.div_le_of_le_mul ?_
    rw [Nat.mul_comm _ x]
    exact Nat.div_mul_le_self _ _
  · intro hle
    have hpos : 0 < 10 ^ ad.beforeDecimals.toNat := Nat.pow_pos (by decide)
    have hpos' : 0 < 10 ^ ad.distance * 10 ^ ad.beforeDecimals.toNat :=
      Nat.mul_pos (Nat.pow_pos (by decide)) hpos
    rw [DecimalAdjust.pow_after hle, ← Nat.mul_assoc, Nat.mul_div_cancel _ hpos, Nat.mul_assoc,
      Nat.mul_div_cancel _ hpos']

end

/-- **When the conversion of decimals is exact**: for numbers of decimals at most nineteen apart, which is
also when every amount comes out right; and where they are further apart, for the amounts that are spared
alone. -/
theorem adjustDecimal_exact_iff (ad : DecimalAdjust) :
    (ad.Exact ↔ ad.distance ≤ 19) ∧
      ((∀ amount, ad.adjustDecimal amount = some (ad.scaled amount)) ↔ ad.distance ≤ 19) ∧
      ∀ amount, ad.adjustDecimal amount = some (ad.scaled amount) ↔
        ad.distance ≤ 19 ∨ ad.Spares amount := by
  refine ⟨⟨fun exact => distance_le_of_returns exact.returns, fun h => ?_⟩,
    ⟨distance_le_of_returns, adjustDecimal_of_distance_le⟩, fun amount => ?_⟩
  · exact ⟨pow_lt_word_iff.mpr h, adjustDecimal_of_distance_le h, adjustDecimal_mono,
      adjustDecimal_roundTrip h⟩
  · by_cases h : ad.distance ≤ 19
    · exact iff_of_true (adjustDecimal_of_distance_le h amount) (.inl h)
    · rw [adjustDecimal_wrapped_iff h]
      exact (or_iff_right h).symm

/-- **A wrapped power**: one unit of a token without decimals, in twenty decimals; and a conversion from
sixty-four decimals to none, which divides by zero. -/
theorem not_adjustDecimal_exact :
    (DecimalAdjust.mk 0 20).adjustDecimal 1 = some 7766279631452241920 ∧
      (DecimalAdjust.mk 64 0).adjustDecimal 1 = none ∧ ¬ ∀ ad : DecimalAdjust, ad.Exact := by
  have hwraps : (DecimalAdjust.mk 0 20).adjustDecimal 1 = some 7766279631452241920 := by decide
  refine ⟨hwraps, by decide, fun all => ?_⟩
  have hreturns := (all (DecimalAdjust.mk 0 20)).returns 1
  rw [hwraps] at hreturns
  revert hreturns
  decide

end Fomowell.Pmm
