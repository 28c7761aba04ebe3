import Fomowell.Pmm.Market

/-!
# One sale for both tokens

The source writes the two sales out separately. Here is one, `saleAt`, with the way the amounts are scaled,
the price and the payment that is taken to be the way back as parameters: a quote sale is `saleAt` at the
reciprocal price, a base sale is `saleAt` of the pool with base and quote exchanged (`PMMState.mirror`).
What both sales do is proved of `saleAt`.
-/

namespace Fomowell.Pmm

open Checked

/-! ## The other side -/

/-- The side with base and quote exchanged. -/
def RState.mirror : RState → RState
  | .ONE => .ONE
  | .AboveOne => .BelowOne
  | .BelowOne => .AboveOne

/-- The pool with base and quote exchanged. The price is `reciprocal_floor` of a positive one. -/
def PMMState.mirror (s : PMMState) : PMMState where
  i := nat36 / s.i
  k := s.k
  b := s.q
  q := s.b
  b0 := s.q0
  q0 := s.b0
  r := s.r.mirror
  baseDecimal := s.quoteDecimal
  quoteDecimal := s.baseDecimal

/-- An answer with its side mirrored. -/
def mirrorAnswer (answer : Nat × RState) : Nat × RState := (answer.1, answer.2.mirror)

theorem RState.mirror_mirror (r : RState) : r.mirror.mirror = r := by cases r <;> rfl

theorem RState.mirror_injective : Function.Injective RState.mirror :=
  Function.LeftInverse.injective RState.mirror_mirror

/-- A mirrored answer is the answer of the mirrored side. -/
theorem map_mirrorAnswer_eq_some {sale : Option (Nat × RState)} {out : Nat} {r : RState} :
    sale.map mirrorAnswer = some (out, r) ↔ sale = some (out, r.mirror) := by
  rw [Option.map_eq_some_iff]
  constructor
  · rintro ⟨⟨out, r⟩, h, e⟩
    cases e
    rw [RState.mirror_mirror]
    exact h
  · intro h
    refine ⟨_, h, ?_⟩
    unfold mirrorAnswer
    rw [RState.mirror_mirror]

/-! ## One sale with its comparison as a parameter -/

/-- The answer of a quote sale that leaves the pool long of base. -/
def saleShort (scale : Nat → Option Nat) (i : Nat) (s : PMMState) (toReceive pay : Nat) :
    Option (Nat × RState) := do
  let receive ← generalIntegrate (← scale s.q0) ((← scale s.q) + (← scale pay)) (← scale s.q) i s.k
  return (if receive > toReceive then toReceive else receive, .BelowOne)

/-- The answer of a quote sale that leaves the pool short of base. -/
def salePast (scale : Nat → Option Nat) (i : Nat) (s : PMMState) (toPay toReceive pay : Nat) :
    Option (Nat × RState) := do
  let beyond ← sub (← scale pay) (← scale toPay)
  return (toReceive + (← solveQuadraticFunctionForTrade s.b0 s.b0 beyond i s.k), .AboveOne)

/-- A quote sale at a price `i` that takes the return to the targets to be a payment of `returning`, with
amounts scaled by `scale`. -/
def saleAt (scale : Nat → Option Nat) (i : Nat) (s : PMMState) (returning pay : Nat) :
    Option (Nat × RState) :=
  match s.r with
  | .ONE => do
    let receive ← solveQuadraticFunctionForTrade s.b0 s.b0 (← scale pay) i s.k
    return (receive, .AboveOne)
  | .AboveOne => do
    let receive ← solveQuadraticFunctionForTrade s.b0 s.b (← scale pay) i s.k
    return (receive, .AboveOne)
  | .BelowOne => do
    let toPay ← sub s.q0 s.q
    let toReceive ← sub s.b s.b0
    if pay < toPay then saleShort scale i s toReceive pay
    else if pay = returning then some (toReceive, .ONE)
    else salePast scale i s toPay toReceive pay

/-- `sell_quote_token` compares with the amount to receive. -/
theorem sellQuoteToken_eq_saleAt {s : PMMState} (hi : 0 < s.i) (pay : Nat) :
    sellQuoteToken s pay =
      saleAt (DecimalAdjust.mk s.quoteDecimal s.baseDecimal).adjustDecimal (nat36 / s.i) s (s.b - s.b0)
        pay := by
  cases hr : s.r <;>
    simp only [sellQuoteToken, saleAt, saleShort, salePast, hr, reciprocalFloor_of_pos hi, sub_bind,
      Option.bind_eq_bind, Option.bind_some, Option.pure_def]

/-- `sell_base_token` compares with the amount to pay. -/
theorem sellBaseToken_eq_saleAt (s : PMMState) (pay : Nat) :
    sellBaseToken s pay =
      (saleAt (DecimalAdjust.mk s.baseDecimal s.quoteDecimal).adjustDecimal s.i s.mirror (s.b0 - s.b)
        pay).map mirrorAnswer := by
  cases hr : s.r <;>
    simp only [sellBaseToken, saleAt, saleShort, salePast, PMMState.mirror, RState.mirror, hr,
      sub_bind, apply_ite (Option.map mirrorAnswer), Option.bind_eq_bind, Option.map_bind,
      Function.comp_def, Option.pure_def, Option.map_some, Option.map_none, mirrorAnswer]

/-- `sell_quote_token_v1` compares with the amount to receive. -/
theorem sellQuoteTokenV1_eq_saleAt {s : PMMState} (hi : 0 < s.i) (pay : Nat) :
    sellQuoteTokenV1 s pay = saleAt some (nat36 / s.i) s (s.b - s.b0) pay := by
  cases hr : s.r <;>
    simp only [sellQuoteTokenV1, saleAt, saleShort, salePast, hr, reciprocalFloor_of_pos hi,
      sub_bind, Option.bind_eq_bind, Option.bind_some, Option.pure_def]

/-- `sell_base_token_v1` compares with the amount to pay. -/
theorem sellBaseTokenV1_eq_saleAt (s : PMMState) (pay : Nat) :
    sellBaseTokenV1 s pay = (saleAt some s.i s.mirror (s.b0 - s.b) pay).map mirrorAnswer := by
  cases hr : s.r <;>
    simp only [sellBaseTokenV1, saleAt, saleShort, salePast, PMMState.mirror, RState.mirror, hr,
      sub_bind, apply_ite (Option.map mirrorAnswer), Option.bind_eq_bind, Option.bind_some,
      Option.map_bind, Function.comp_def, Option.pure_def, Option.map_some, Option.map_none,
      mirrorAnswer]

/-- A pool that is mirrored twice is sold to as it is: the price is not read of it. -/
theorem saleAt_mirror_mirror (scale : Nat → Option Nat) (i : Nat) (s : PMMState) (returning pay : Nat) :
    saleAt scale i s.mirror.mirror returning pay = saleAt scale i s returning pay := by
  unfold saleAt
  rw [show s.mirror.mirror.r = s.r from s.r.mirror_mirror]
  rfl

/-- `reciprocal_floor` traps at a price of zero. -/
theorem reciprocalFloor_eq_none {i : Nat} (h : ¬ 0 < i) : reciprocalFloor i = none := by
  rw [Nat.eq_zero_of_not_pos h]
  rfl

/-- What a quote sale answers, `saleAt` answers, whatever the price: at a price of zero only the return to the
targets does not trap. -/
theorem saleAt_of_sellQuoteToken {s : PMMState} {pay : Nat} {answer : Nat × RState}
    (h : sellQuoteToken s pay = some answer) :
    saleAt (DecimalAdjust.mk s.quoteDecimal s.baseDecimal).adjustDecimal (nat36 / s.i) s (s.b - s.b0) pay =
      some answer := by
  by_cases hi : 0 < s.i
  · rw [← sellQuoteToken_eq_saleAt hi]
    exact h
  cases hr : s.r with
  | ONE => simp [sellQuoteToken, hr, reciprocalFloor_eq_none hi] at h
  | AboveOne => simp [sellQuoteToken, hr, reciprocalFloor_eq_none hi] at h
  | BelowOne =>
    simp only [sellQuoteToken, hr, reciprocalFloor_eq_none hi, Option.bind_eq_bind, Option.bind_none,
      Option.bind_fun_none, sub_bind] at h
    simp only [saleAt, hr, Option.bind_eq_bind, sub_bind]
    split at h
    next hq =>
      rw [if_pos hq]
      split at h
      next hb =>
        rw [if_pos hb]
        split at h
        next => cases h
        next hle =>
          rw [if_neg hle]
          split at h
          next hback =>
            rw [if_pos hback]
            exact h
          next => cases h
      next => cases h
    next => cases h

end Fomowell.Pmm
