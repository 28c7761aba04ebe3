import Fomowell.Pmm.Sale

/-!
# Base and quote sales as mirror images

`PMMState.mirror` exchanges the two tokens of a pool. A quote sale should answer what a base sale of
the mirrored pool answers, side mirrored (`MirrorSale`).

It does, except in one branch. Long of base, `sell_quote_token` recognises the return to the targets
by the amount to receive, `sell_base_token` by the amount to pay (`PMMState.MirrorBreaks`). The
comparison is the only difference, so `mirror_sale_iff` decides every amount; the plain versions
differ in the same way.
-/

namespace Fomowell.Pmm

open Checked

/-- The two sales return on the same amounts, with the same payout and mirrored sides. -/
def MirrorSale (quoteSale baseSale : Option (Nat × RState)) : Prop :=
  ∀ y r, quoteSale = some (y, r) ↔ baseSale = some (y, r.mirror)

/-- Long of base, with a missing quote that differs from the excess of base, the amount paid is at
least the missing quote and is one of the two. -/
def PMMState.MirrorBreaks (s : PMMState) (pay : Nat) : Prop :=
  s.r = .BelowOne ∧ s.q ≤ s.q0 ∧ s.b0 ≤ s.b ∧ s.q0 - s.q ≠ s.b - s.b0 ∧ s.q0 - s.q ≤ pay ∧
    (pay = s.q0 - s.q ∨ pay = s.b - s.b0)

/-- Sales that mirror each other are equal after mirroring one. -/
theorem mirrorSale_map (sale : Option (Nat × RState)) : MirrorSale sale (sale.map mirrorAnswer) := by
  intro y r
  rw [map_mirrorAnswer_eq_some, RState.mirror_mirror]

/-- **The branch where the sales differ.** A quote sale takes the way back to the targets by the
amount to receive, a base sale by the amount to pay; past the targets neither answers `ONE`. The
answers mirror each other unless the two amounts differ and the amount paid is one of them. -/
theorem mirrorSale_branch {toPay toReceive pay : Nat} {short past : Option (Nat × RState)}
    (hpast : ∀ y, past ≠ some (y, .ONE)) :
    MirrorSale
        (if pay < toPay then short else if pay = toReceive then some (toReceive, .ONE) else past)
        (if pay < toPay then short.map mirrorAnswer
          else if pay = toPay then some (toReceive, .ONE) else past.map mirrorAnswer) ↔
      ¬ (toPay ≠ toReceive ∧ toPay ≤ pay ∧ (pay = toPay ∨ pay = toReceive)) := by
  by_cases hlt : pay < toPay
  · simp only [if_pos hlt, mirrorSale_map, true_iff]
    omega
  · simp only [if_neg hlt]
    by_cases hpay : pay = toPay <;> by_cases hreceive : pay = toReceive
    · -- both amounts at once: the same answer
      simp only [if_pos hpay, if_pos hreceive]
      exact iff_of_true (mirrorSale_map _) (by omega)
    · -- the amount to pay only: the quote sale goes past the targets
      simp only [if_pos hpay, if_neg hreceive]
      exact iff_of_false (fun h => hpast _ ((h toReceive .ONE).mpr rfl)) (by omega)
    · -- the amount to receive only: the base sale goes past the targets
      simp only [if_neg hpay, if_pos hreceive]
      refine iff_of_false (fun h => ?_) (by omega)
      obtain ⟨⟨y, r⟩, hr, e⟩ := Option.map_eq_some_iff.mp ((h toReceive .ONE).mp rfl)
      cases r with
      | ONE => exact hpast y hr
      | AboveOne => cases e
      | BelowOne => cases e
    · simp only [if_neg hpay, if_neg hreceive]
      exact iff_of_true (mirrorSale_map _) (by omega)

/-- `sell_base_token` of the mirrored pool compares with the amount to pay. -/
theorem sellBaseToken_mirror_eq_saleAt (s : PMMState) (pay : Nat) :
    sellBaseToken s.mirror pay =
      (saleAt (DecimalAdjust.mk s.quoteDecimal s.baseDecimal).adjustDecimal (nat36 / s.i) s
        (s.q0 - s.q) pay).map mirrorAnswer := by
  rw [sellBaseToken_eq_saleAt, saleAt_mirror_mirror]
  rfl

theorem sellBaseTokenV1_mirror_eq_saleAt (s : PMMState) (pay : Nat) :
    sellBaseTokenV1 s.mirror pay =
      (saleAt some (nat36 / s.i) s (s.q0 - s.q) pay).map mirrorAnswer := by
  rw [sellBaseTokenV1_eq_saleAt, saleAt_mirror_mirror]
  rfl

/-! ## Where the two comparisons agree -/

/-- Past the targets no sale answers `ONE`. -/
theorem salePast_ne {scale : Nat → Option Nat} {i : Nat} {s : PMMState} {toPay toReceive pay : Nat}
    (y : Nat) : salePast scale i s toPay toReceive pay ≠ some (y, .ONE) := by
  intro h
  obtain ⟨_, _, h⟩ := Option.bind_eq_some_iff.mp h
  obtain ⟨_, _, h⟩ := Option.bind_eq_some_iff.mp h
  obtain ⟨_, _, h⟩ := Option.bind_eq_some_iff.mp h
  obtain ⟨_, _, h⟩ := Option.bind_eq_some_iff.mp h
  cases h

/-- **The sales with the two comparisons mirror each other exactly where `MirrorBreaks` fails**,
whatever scales the amounts. -/
theorem mirrorSale_saleAt_iff (scale : Nat → Option Nat) (i : Nat) (s : PMMState) (pay : Nat) :
    MirrorSale (saleAt scale i s (s.b - s.b0) pay)
        ((saleAt scale i s (s.q0 - s.q) pay).map mirrorAnswer) ↔
      ¬ s.MirrorBreaks pay := by
  cases hr : s.r with
  | ONE =>
    have e : ∀ x, saleAt scale i s x pay = saleAt scale i s 0 pay := by
      simp only [saleAt, hr, implies_true]
    rw [e, e (s.q0 - s.q)]
    exact iff_of_true (mirrorSale_map _) (fun h => RState.noConfusion (hr.symm.trans h.1))
  | AboveOne =>
    have e : ∀ x, saleAt scale i s x pay = saleAt scale i s 0 pay := by
      simp only [saleAt, hr, implies_true]
    rw [e, e (s.q0 - s.q)]
    exact iff_of_true (mirrorSale_map _) (fun h => RState.noConfusion (hr.symm.trans h.1))
  | BelowOne =>
    simp only [saleAt, hr, Option.bind_eq_bind, sub_bind, PMMState.MirrorBreaks, true_and]
    by_cases hq : s.q ≤ s.q0
    swap
    · -- no quote is missing: both sales trap on the first difference
      simp only [hq, if_false, false_and, not_false_eq_true, iff_true]
      exact mirrorSale_map none
    by_cases hb : s.b0 ≤ s.b
    swap
    · -- no base is in excess: both trap on the second
      simp only [hq, hb, if_true, if_false, false_and, and_false, not_false_eq_true, iff_true]
      exact mirrorSale_map none
    simp only [hq, hb, if_true, true_and, apply_ite (Option.map mirrorAnswer)]
    exact mirrorSale_branch salePast_ne

/-- **Quote sales mirror base sales exactly where `MirrorBreaks` fails**, with decimals and in the
plain versions. -/
theorem mirror_sale_iff {s : PMMState} (hi : 0 < s.i) (pay : Nat) :
    (MirrorSale (sellQuoteToken s pay) (sellBaseToken s.mirror pay) ↔ ¬ s.MirrorBreaks pay) ∧
      (MirrorSale (sellQuoteTokenV1 s pay) (sellBaseTokenV1 s.mirror pay) ↔
        ¬ s.MirrorBreaks pay) := by
  rw [sellQuoteToken_eq_saleAt hi, sellBaseToken_mirror_eq_saleAt, sellQuoteTokenV1_eq_saleAt hi,
    sellBaseTokenV1_mirror_eq_saleAt]
  exact ⟨mirrorSale_saleAt_iff _ _ s pay, mirrorSale_saleAt_iff _ _ s pay⟩

/-- A pool that holds three base tokens too many and lacks five quote tokens. -/
def unevenPool : PMMState where
  i := 1000000000000000000
  k := 500000000000000000
  b := 13
  q := 5
  b0 := 10
  q0 := 10
  r := .BelowOne
  baseDecimal := 8
  quoteDecimal := 8

/-- In `unevenPool` a payment of six quote tokens, one more than is missing, is mirrored. -/
theorem mirror_sale_unevenPool :
    MirrorSale (sellQuoteToken unevenPool 6) (sellBaseToken unevenPool.mirror 6) ∧
      MirrorSale (sellQuoteTokenV1 unevenPool 6) (sellBaseTokenV1 unevenPool.mirror 6) := by
  have h : ¬ unevenPool.MirrorBreaks 6 := fun h => absurd h.2.2.2.2.2 (by decide)
  obtain ⟨withDecimals, plain⟩ := mirror_sale_iff (s := unevenPool) (by decide) 6
  exact ⟨withDecimals.mpr h, plain.mpr h⟩

/-- **A sale that is not mirrored.** Paying the five quote tokens that `unevenPool` lacks leads back
to the targets, but only the base sale of the mirrored pool says so. -/
theorem not_mirror_sale :
    ¬ ∀ s : PMMState, 0 < s.i → ∀ pay,
      MirrorSale (sellQuoteToken s pay) (sellBaseToken s.mirror pay) ∧
        MirrorSale (sellQuoteTokenV1 s pay) (sellBaseTokenV1 s.mirror pay) := by
  intro all
  have h := (all unevenPool (by decide) 5).1 3 .ONE
  exact absurd (h.mpr (by decide)) (by decide)

end Fomowell.Pmm
