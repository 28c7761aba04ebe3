import Fomowell.Pmm.Math
import Mathlib.Data.UInt

/-!
# The market state and its sales (`fomowell-icpex-lib/src/pmm.rs`)

`PMMState` with the functions the router asks for a price: a sale of base or of quote tokens, the
re-solving of the regression target, and the mid price, each in the version with decimals and in the
plain version (`_v1`). `RState` says on which side of its regression targets `b0`, `q0` the pool
stands: at them (`ONE`), short of base (`AboveOne`), or long of base (`BelowOne`).

A sale answers the amount to pay out and the new `RState`; the caller moves the reserves. The two
sales are written out separately in the source, as here: they do not compare the same amounts in the
branch that returns the pool to `ONE`.
-/

namespace Fomowell.Pmm

open Checked

/-- The side of its regression targets on which the pool stands. -/
inductive RState
  | ONE
  | AboveOne
  | BelowOne
  deriving DecidableEq, Repr

/-- The state of one pool. -/
structure PMMState where
  i : Nat
  k : Nat
  b : Nat
  q : Nat
  b0 : Nat
  q0 : Nat
  r : RState
  baseDecimal : UInt8
  quoteDecimal : UInt8
  deriving DecidableEq, Repr

/-- `DecimalAdjust`: a conversion of amounts between two numbers of decimals. -/
structure DecimalAdjust where
  beforeDecimals : UInt8
  afterDecimals : UInt8

/-- `adjust_decimal`. The power of ten is a 64-bit one, which wraps in a release build. -/
def DecimalAdjust.adjustDecimal (ad : DecimalAdjust) (amount : Nat) : Option Nat :=
  if ad.afterDecimals ≥ ad.beforeDecimals then
    some (amount * (10 ^ (ad.afterDecimals - ad.beforeDecimals).toNat % 2 ^ 64))
  else
    div amount (10 ^ (ad.beforeDecimals - ad.afterDecimals).toNat % 2 ^ 64)

/-! ## Sales -/

/-- `sell_base_token`. -/
def sellBaseToken (state : PMMState) (payBaseAmount : Nat) : Option (Nat × RState) :=
  let adjust : DecimalAdjust := ⟨state.baseDecimal, state.quoteDecimal⟩
  match state.r with
  | .ONE => do
    let receiveQuoteAmount ← solveQuadraticFunctionForTrade state.q0 state.q0
      (← adjust.adjustDecimal payBaseAmount) state.i state.k
    return (receiveQuoteAmount, .BelowOne)
  | .AboveOne => do
    let backToOnePayBase ← sub state.b0 state.b
    let backToOneReceiveQuote ← sub state.q state.q0
    if payBaseAmount < backToOnePayBase then do
      let receiveQuoteAmount ← generalIntegrate (← adjust.adjustDecimal state.b0)
        ((← adjust.adjustDecimal state.b) + (← adjust.adjustDecimal payBaseAmount))
        (← adjust.adjustDecimal state.b) state.i state.k
      return (if receiveQuoteAmount > backToOneReceiveQuote then backToOneReceiveQuote
        else receiveQuoteAmount, .AboveOne)
    else if payBaseAmount = backToOnePayBase then
      return (backToOneReceiveQuote, .ONE)
    else do
      let beyond ← sub (← adjust.adjustDecimal payBaseAmount)
        (← adjust.adjustDecimal backToOnePayBase)
      return (backToOneReceiveQuote +
        (← solveQuadraticFunctionForTrade state.q0 state.q0 beyond state.i state.k), .BelowOne)
  | .BelowOne => do
    let receiveQuoteAmount ← solveQuadraticFunctionForTrade state.q0 state.q
      (← adjust.adjustDecimal payBaseAmount) state.i state.k
    return (receiveQuoteAmount, .BelowOne)

/-- `sell_quote_token`. In `BelowOne` the second comparison is with the amount to receive, where
`sell_base_token` compares with the amount to pay. -/
def sellQuoteToken (state : PMMState) (payQuoteAmount : Nat) : Option (Nat × RState) :=
  let adjust : DecimalAdjust := ⟨state.quoteDecimal, state.baseDecimal⟩
  match state.r with
  | .ONE => do
    let receiveBaseAmount ← solveQuadraticFunctionForTrade state.b0 state.b0
      (← adjust.adjustDecimal payQuoteAmount) (← reciprocalFloor state.i) state.k
    return (receiveBaseAmount, .AboveOne)
  | .AboveOne => do
    let receiveBaseAmount ← solveQuadraticFunctionForTrade state.b0 state.b
      (← adjust.adjustDecimal payQuoteAmount) (← reciprocalFloor state.i) state.k
    return (receiveBaseAmount, .AboveOne)
  | .BelowOne => do
    let backToOnePayQuote ← sub state.q0 state.q
    let backToOneReceiveBase ← sub state.b state.b0
    if payQuoteAmount < backToOnePayQuote then do
      let receiveBaseAmount ← generalIntegrate (← adjust.adjustDecimal state.q0)
        ((← adjust.adjustDecimal state.q) + (← adjust.adjustDecimal payQuoteAmount))
        (← adjust.adjustDecimal state.q) (← reciprocalFloor state.i) state.k
      return (if receiveBaseAmount > backToOneReceiveBase then backToOneReceiveBase
        else receiveBaseAmount, .BelowOne)
    else if payQuoteAmount = backToOneReceiveBase then
      return (backToOneReceiveBase, .ONE)
    else do
      let beyond ← sub (← adjust.adjustDecimal payQuoteAmount)
        (← adjust.adjustDecimal backToOnePayQuote)
      return (backToOneReceiveBase + (← solveQuadraticFunctionForTrade state.b0 state.b0 beyond
        (← reciprocalFloor state.i) state.k), .AboveOne)

/-- `adjusted_target`. -/
def adjustedTarget (state : PMMState) : Option PMMState :=
  match state.r with
  | .BelowOne => do
    let ad : DecimalAdjust := ⟨state.baseDecimal, state.quoteDecimal⟩
    let q0 ← solveQuadraticFunctionForTarget state.q
      (← ad.adjustDecimal (← sub state.b state.b0)) state.i state.k
    return { state with q0 }
  | .AboveOne => do
    let ad : DecimalAdjust := ⟨state.quoteDecimal, state.baseDecimal⟩
    let b0 ← solveQuadraticFunctionForTarget state.b
      (← ad.adjustDecimal (← sub state.q state.q0)) (← reciprocalFloor state.i) state.k
    return { state with b0 }
  | .ONE => some state

/-! ## Mid price -/

/-- The local `r` of both versions of the mid price, at a reserve and its target. -/
def midPriceR (k target reserve : Nat) : Option Nat := do
  let r ← divFloor (← div (target * target) reserve) reserve
  return (← sub nat18 k) + mulFloor k r

/-- `get_mid_price`. Both branches multiply by the slope `r`. -/
def getMidPrice (state : PMMState) (decimals : UInt8) : Option Nat :=
  match state.r with
  | .BelowOne =>
    if state.q = 0 then
      some 0
    else do
      let r ← midPriceR state.k state.q0 state.q
      return mulFloor36 (10 ^ decimals.toNat % 2 ^ 128 * state.i) r
  | _ =>
    if state.b = 0 then
      some 0
    else do
      let r ← midPriceR state.k state.b0 state.b
      return mulFloor36 (10 ^ decimals.toNat % 2 ^ 128 * state.i) r

/-! ## The plain versions, without decimals -/

/-- `sell_base_token_v1`. -/
def sellBaseTokenV1 (state : PMMState) (payBaseAmount : Nat) : Option (Nat × RState) :=
  match state.r with
  | .ONE => do
    let receiveQuoteAmount ← solveQuadraticFunctionForTrade state.q0 state.q0 payBaseAmount
      state.i state.k
    return (receiveQuoteAmount, .BelowOne)
  | .AboveOne => do
    let backToOnePayBase ← sub state.b0 state.b
    let backToOneReceiveQuote ← sub state.q state.q0
    if payBaseAmount < backToOnePayBase then do
      let receiveQuoteAmount ← generalIntegrate state.b0 (state.b + payBaseAmount) state.b
        state.i state.k
      return (if receiveQuoteAmount > backToOneReceiveQuote then backToOneReceiveQuote
        else receiveQuoteAmount, .AboveOne)
    else if payBaseAmount = backToOnePayBase then
      return (backToOneReceiveQuote, .ONE)
    else do
      let beyond ← sub payBaseAmount backToOnePayBase
      return (backToOneReceiveQuote +
        (← solveQuadraticFunctionForTrade state.q0 state.q0 beyond state.i state.k), .BelowOne)
  | .BelowOne => do
    let receiveQuoteAmount ← solveQuadraticFunctionForTrade state.q0 state.q payBaseAmount
      state.i state.k
    return (receiveQuoteAmount, .BelowOne)

/-- `sell_quote_token_v1`, with the comparison of `sell_quote_token`. -/
def sellQuoteTokenV1 (state : PMMState) (payQuoteAmount : Nat) : Option (Nat × RState) :=
  match state.r with
  | .ONE => do
    let receiveBaseAmount ← solveQuadraticFunctionForTrade state.b0 state.b0 payQuoteAmount
      (← reciprocalFloor state.i) state.k
    return (receiveBaseAmount, .AboveOne)
  | .AboveOne => do
    let receiveBaseAmount ← solveQuadraticFunctionForTrade state.b0 state.b payQuoteAmount
      (← reciprocalFloor state.i) state.k
    return (receiveBaseAmount, .AboveOne)
  | .BelowOne => do
    let backToOnePayQuote ← sub state.q0 state.q
    let backToOneReceiveBase ← sub state.b state.b0
    if payQuoteAmount < backToOnePayQuote then do
      let receiveBaseAmount ← generalIntegrate state.q0 (state.q + payQuoteAmount) state.q
        (← reciprocalFloor state.i) state.k
      return (if receiveBaseAmount > backToOneReceiveBase then backToOneReceiveBase
        else receiveBaseAmount, .BelowOne)
    else if payQuoteAmount = backToOneReceiveBase then
      return (backToOneReceiveBase, .ONE)
    else do
      let beyond ← sub payQuoteAmount backToOnePayQuote
      return (backToOneReceiveBase + (← solveQuadraticFunctionForTrade state.b0 state.b0 beyond
        (← reciprocalFloor state.i) state.k), .AboveOne)

/-- `adjusted_target_v1`. -/
def adjustedTargetV1 (state : PMMState) : Option PMMState :=
  match state.r with
  | .BelowOne => do
    let q0 ← solveQuadraticFunctionForTarget state.q (← sub state.b state.b0) state.i state.k
    return { state with q0 }
  | .AboveOne => do
    let b0 ← solveQuadraticFunctionForTarget state.b (← sub state.q state.q0)
      (← reciprocalFloor state.i) state.k
    return { state with b0 }
  | .ONE => some state

/-- `get_mid_price_v1`. In `BelowOne` it divides by the slope `r`. The sum of the decimals is an
8-bit one. -/
def getMidPriceV1 (state : PMMState) (decimals : UInt8) : Option Nat :=
  let ten := 10 ^ (state.baseDecimal + decimals).toNat % 2 ^ 128
  match state.r with
  | .BelowOne =>
    if state.q = 0 then
      some 0
    else do
      let r ← midPriceR state.k state.q0 state.q
      return (← divFloor (ten * state.i) r) / nat18
  | _ =>
    if state.b = 0 then
      some 0
    else do
      let r ← midPriceR state.k state.b0 state.b
      return mulFloor (ten * state.i) r / nat18

/-- A pool that holds ten base tokens too many and lacks five quote tokens. -/
def longOfBase : PMMState where
  i := 33333333333
  k := 500000000000000000
  b := 20
  q := 5
  b0 := 10
  q0 := 10
  r := .BelowOne
  baseDecimal := 8
  quoteDecimal := 8

end Fomowell.Pmm
