import Fomowell.Token.IToken
import Fomowell.Token.Transfer

/-!
# Amounts net of the fee (`fomowell-icpex-lib/src/interface/itoken.rs`)

A caller that wants to send a whole balance first asks what amount is left once the token has taken
its fees. `cal_fee_with_full_amount` answers it from a token's `FeeInfo`, and
`getAmountWithoutFeeQuery` from the cached `TokenInfo`; the formula is written out in each. A fixed
fee is subtracted from the amount, and a proportional one divides it.

`feeCopies_agree` compares the copies: the query answers `Err` where the function panics. What the
ledger takes from the quoted amount is not the same formula: it rounds the two fees down one by one,
on the net amount. `quote_affordable` says that the ledger's fees still fit in the balance, and that
a quote three above would not.
-/

namespace Fomowell.Token

open Checked Pmm

/-! ## The formula -/

/-- `FeeInfo`. -/
structure FeeInfo where
  flatFee : Bool
  flatBurnFee : Bool
  feeRate : Nat
  burnRate : Nat
  totalSupply : Nat
  decimals : UInt8
  deriving DecidableEq

/-- `get_fee_info`. It does not say whether the burn fee is on. -/
def DIP20.getFeeInfo (self : DIP20) : FeeInfo where
  flatFee := self.flatFee
  flatBurnFee := self.flatBurnFee
  feeRate := self.feeRate
  burnRate := self.burnRate
  totalSupply := self.totalSupply
  decimals := self.decimals

/-- `nat_to_u8`, which traps above 255. -/
def natToU8 (value : Nat) : Option UInt8 := if value < 256 then some (.ofNat value) else none

/-- `getFeeInfoDto`. -/
def getFeeInfoDto (tokenInfo : TokenInfo) : Option FeeInfo := do
  return {
    flatFee := tokenInfo.flatFee
    flatBurnFee := tokenInfo.flatBurnFee
    feeRate := tokenInfo.feeRate
    burnRate := tokenInfo.burnRate
    totalSupply := tokenInfo.totalSupply
    decimals := ← natToU8 tokenInfo.decimals }

/-- The burn fee in `cal_fee_with_full_amount`. -/
def calBurnFee (feeInfo : FeeInfo) (molecular denominator : Nat) : Option (Nat × Nat) :=
  if feeInfo.burnRate > 0 then
    if feeInfo.flatBurnFee then
      if molecular ≤ feeInfo.burnRate then none
      else (sub molecular feeInfo.burnRate).map fun molecular => (molecular, denominator)
    else some (molecular, denominator + feeInfo.burnRate)
  else some (molecular, denominator)

/-- `cal_fee_with_full_amount`: a fixed fee is subtracted above, a rate is added below. -/
def calFeeWithFullAmount (fullAmount : Nat) (feeInfo : FeeInfo) : Option Nat := do
  let (molecular, denominator) ←
    (if feeInfo.flatFee then
      if fullAmount ≤ feeInfo.feeRate then none
      else (sub fullAmount feeInfo.feeRate).map fun molecular => (molecular, nat18)
    else some (fullAmount, nat18 + feeInfo.feeRate) : Option (Nat × Nat))
  let (molecular, denominator) ← calBurnFee feeInfo molecular denominator
  divFloor molecular denominator

/-! ## The query -/

/-- `getTokenBaseInfo`, which traps where the token is not cached. -/
def getTokenBaseInfo (cache : TokenCache) (tokenAddr : Principal) : Option TokenInfo :=
  cache.tokensInfo[tokenAddr]?

/-- The end of all three branches of `getAmountWithoutFeeQuery`: the fee is subtracted again. -/
def receiveAmount (name : String) (amount fee : Nat) : Option (CallResult Nat) :=
  if amount ≤ fee then
    some (.error (.CanisterError, name ++ " Receive not have enough amount! cause: amount[" ++
      displayNat amount ++ "] <= fee[" ++ displayNat fee ++ "]"))
  else
    (sub amount fee).map .ok

/-- The transfer fee in `getAmountWithoutFeeQuery`, for DIP20 and for ICRC-2. -/
def queryTransferFee (feeInfo : FeeInfo) (fullAmount : Nat) : Option (CallResult (Nat × Nat)) :=
  if feeInfo.flatFee then
    if fullAmount ≤ feeInfo.feeRate then
      some (.error (.CanisterError, "full_amount :" ++ displayNat fullAmount ++ ",fee_rate:" ++
        displayNat feeInfo.feeRate ++ " ,transfer fee is above transfer amount"))
    else
      (sub fullAmount feeInfo.feeRate).map fun molecular => .ok (molecular, nat18)
  else
    some (.ok (fullAmount, nat18 + feeInfo.feeRate))

/-- The burn fee in `getAmountWithoutFeeQuery`, for DIP20 and for ICRC-2. -/
def queryBurnFee (feeInfo : FeeInfo) (molecular denominator : Nat) :
    Option (CallResult (Nat × Nat)) :=
  if feeInfo.burnRate > 0 then
    if feeInfo.flatBurnFee then
      if molecular ≤ feeInfo.burnRate then
        some (.error (.CanisterError, "molecular :" ++ displayNat molecular ++ ",burn_rate:" ++
          displayNat feeInfo.burnRate ++ " ,burn fee is above transfer amount"))
      else
        (sub molecular feeInfo.burnRate).map fun molecular => .ok (molecular, denominator)
    else
      some (.ok (molecular, denominator + feeInfo.burnRate))
  else
    some (.ok (molecular, denominator))

/-- The branches of `getAmountWithoutFeeQuery` for DIP20 and for ICRC-2, with the name that one of
its errors gives the token. -/
def amountWithoutFee (name : String) (token : TokenInfo) (amount : Nat) :
    Option (CallResult Nat) := do
  let feeInfo ← getFeeInfoDto token
  match ← queryTransferFee feeInfo amount with
  | .error e => some (.error e)
  | .ok (molecular, denominator) =>
    match ← queryBurnFee feeInfo molecular denominator with
    | .error e => some (.error e)
    | .ok (molecular, denominator) =>
      let actualAmount ← divFloor molecular denominator
      receiveAmount name amount (← sub amount actualAmount)

/-- `getAmountWithoutFeeQuery`. -/
def getAmountWithoutFeeQuery (cache : TokenCache) (cid : Principal) (amount : Nat) :
    Option (CallResult Nat) :=
  if amount = 0 then
    some (.ok 0)
  else
    match cache.tokenType cid with
    | .DIP20 => do amountWithoutFee "dip20" (← getTokenBaseInfo cache cid) amount
    | .ICRC1 => do
      let tokenInfo ← getTokenBaseInfo cache cid
      receiveAmount "ICRC1" amount tokenInfo.feeRate
    | .ICRC2 => do amountWithoutFee "ICRC2" (← getTokenBaseInfo cache cid) amount
    | _ => none

/-! ## The copies agree -/

/-- A query that succeeds exactly where the function returns a positive amount, and with that
amount. -/
def Matches (query : Option (CallResult Nat)) (quote : Option Nat) : Prop :=
  ∃ res, query = some res ∧ ∀ a, res = .ok a ↔ quote = some a ∧ 0 < a

/-- A refusal matches a panic. -/
theorem matches_error (e : Rejection) : Matches (some (.error e)) none := by
  refine ⟨_, rfl, ?_⟩
  intro a
  simp only [reduceCtorEq, false_and]

/-- A share of at most the whole is at most the whole. -/
theorem net_le {amount molecular denominator : Nat} (hle : molecular ≤ amount)
    (hone : nat18 ≤ denominator) : molecular * nat18 / denominator ≤ amount := by
  apply Nat.div_le_of_le_mul
  rw [Nat.mul_comm denominator]
  exact Nat.mul_le_mul hle hone

theorem divFloor_of_le {denominator : Nat} (hone : nat18 ≤ denominator) (molecular : Nat) :
    divFloor molecular denominator = some (molecular * nat18 / denominator) :=
  div_of_pos (Nat.lt_of_lt_of_le nat18_pos hone)

/-- The fee, subtracted from the amount, gives the net amount back. -/
theorem receiveAmount_matches (name : String) {amount net : Nat} (hnet : net ≤ amount) :
    Matches (receiveAmount name amount (amount - net)) (some net) := by
  unfold receiveAmount
  by_cases hzero : net = 0
  · -- nothing is left: the fee is the whole amount
    rw [if_pos (by omega)]
    refine ⟨_, rfl, ?_⟩
    intro a
    simp only [reduceCtorEq, Option.some.injEq, false_iff, not_and]
    omega
  · rw [if_neg (by omega), sub_of_le (Nat.sub_le _ _), Nat.sub_sub_self hnet]
    refine ⟨_, rfl, ?_⟩
    intro a
    simp only [Except.ok.injEq, Option.some.injEq]
    omega

/-- The end of the query matches the end of the function, whatever the division answers. -/
theorem matches_net (name : String) {amount net : Nat} {quote : Option Nat}
    (hquote : quote = some net) (hnet : net ≤ amount) :
    Matches
      (do
        let actualAmount ← quote
        receiveAmount name amount (← sub amount actualAmount))
      quote := by
  subst hquote
  simp only [Option.bind_eq_bind, Option.bind_some, sub_of_le hnet]
  exact receiveAmount_matches name hnet

/-- The two ends divide by at least one. -/
theorem matches_divFloor (name : String) {amount molecular denominator : Nat}
    (hle : molecular ≤ amount) (hone : nat18 ≤ denominator) :
    Matches
      (do
        let actualAmount ← divFloor molecular denominator
        receiveAmount name amount (← sub amount actualAmount))
      (divFloor molecular denominator) :=
  matches_net name (divFloor_of_le hone molecular) (net_le hle hone)

/-- The query's branches from the burn fee on. -/
theorem queryBurnFee_matches (name : String) (feeInfo : FeeInfo) {amount molecular denominator : Nat}
    (hle : molecular ≤ amount) (hone : nat18 ≤ denominator) :
    Matches
      (do
        match ← queryBurnFee feeInfo molecular denominator with
        | .error e => some (.error e)
        | .ok (molecular, denominator) =>
          let actualAmount ← divFloor molecular denominator
          receiveAmount name amount (← sub amount actualAmount))
      (do
        let (molecular, denominator) ← calBurnFee feeInfo molecular denominator
        divFloor molecular denominator) := by
  unfold queryBurnFee calBurnFee
  split
  · split
    · split
      · exact matches_error _
      next hburn =>
        rw [sub_of_le (Nat.le_of_not_le hburn)]
        exact matches_divFloor name (Nat.le_trans (Nat.sub_le _ _) hle) hone
    · exact matches_divFloor name hle (Nat.le_trans hone (Nat.le_add_right _ _))
  · exact matches_divFloor name hle hone

/-- **The branches for DIP20 and for ICRC-2 match the function**, whatever mix of fixed and
proportional fees the token has. -/
theorem amountWithoutFee_matches (name : String) {token : TokenInfo} {feeInfo : FeeInfo}
    (hinfo : getFeeInfoDto token = some feeInfo) (amount : Nat) :
    Matches (amountWithoutFee name token amount) (calFeeWithFullAmount amount feeInfo) := by
  unfold amountWithoutFee calFeeWithFullAmount queryTransferFee
  rw [hinfo]
  simp only [Option.bind_eq_bind, Option.bind_some]
  split
  · split
    · exact matches_error _
    next hfee =>
      rw [sub_of_le (Nat.le_of_not_le hfee)]
      exact queryBurnFee_matches name feeInfo (Nat.sub_le _ _) (Nat.le_refl _)
  · exact queryBurnFee_matches name feeInfo (Nat.le_refl _) (Nat.le_add_right _ _)

/-- A query about a cached token of one of the two kinds. -/
theorem query_matches (cache : TokenCache) {cid : Principal} {info : TokenInfo} {feeInfo : FeeInfo}
    (hinfo : cache.tokensInfo[cid]? = some info) (hfee : getFeeInfoDto info = some feeInfo)
    (htype : info.tokenType = "DIP20" ∨ info.tokenType = "ICRC-2") {amount : Nat}
    (hpos : 0 < amount) :
    Matches (getAmountWithoutFeeQuery cache cid amount) (calFeeWithFullAmount amount feeInfo) := by
  unfold getAmountWithoutFeeQuery TokenCache.tokenType getTokenBaseInfo
  rw [if_neg (Nat.pos_iff_ne_zero.mp hpos)]
  simp only [hinfo]
  obtain htype | htype := htype
  · rw [htype]
    exact amountWithoutFee_matches "dip20" hfee amount
  · rw [htype]
    exact amountWithoutFee_matches "ICRC2" hfee amount

/-- With a fixed fee and no burn, the function subtracts the fee. -/
theorem calFeeWithFullAmount_flat {feeInfo : FeeInfo} (hflat : feeInfo.flatFee = true)
    (hburn : feeInfo.burnRate = 0) (amount : Nat) :
    calFeeWithFullAmount amount feeInfo =
      if amount ≤ feeInfo.feeRate then none else some (amount - feeInfo.feeRate) := by
  have burn : ∀ molecular denominator,
      calBurnFee feeInfo molecular denominator = some (molecular, denominator) := by
    intro molecular denominator
    unfold calBurnFee
    rw [hburn, if_neg (Nat.lt_irrefl 0)]
  unfold calFeeWithFullAmount
  rw [if_pos hflat]
  split
  · rfl
  next hfee =>
    rw [sub_of_le (Nat.le_of_not_le hfee)]
    simp only [Option.map_some, Option.bind_eq_bind, Option.bind_some, burn]
    rw [divFloor_of_le (Nat.le_refl _), Nat.mul_div_cancel _ nat18_pos]

/-- The end of the query for ICRC-1, read backwards. -/
theorem receiveAmount_eq_ok {name : String} {amount fee a : Nat} :
    receiveAmount name amount fee = some (.ok a) ↔ fee < amount ∧ a = amount - fee := by
  unfold receiveAmount
  split
  next hfee =>
    simp only [Option.some.injEq, reduceCtorEq, false_iff, not_and]
    omega
  next hfee =>
    rw [sub_of_le (Nat.le_of_not_le hfee)]
    simp only [Option.map_some, Option.some.injEq, Except.ok.injEq]
    omega

/-- **The copies of the fee computation agree.** For DIP20 and ICRC-2 the query answers without a
trap, and with `Ok` exactly where the function returns a positive amount; for ICRC-1 with a fixed fee
and no burn it succeeds as it does for DIP20. -/
theorem feeCopies_agree (cache : TokenCache) (cid : Principal) (info : TokenInfo)
    (hinfo : cache.tokensInfo[cid]? = some info) (hdecimals : info.decimals ≤ 255) :
    (info.tokenType = "DIP20" ∨ info.tokenType = "ICRC-2" →
      ∃ feeInfo, getFeeInfoDto info = some feeInfo ∧ ∀ amount, 0 < amount →
        Matches (getAmountWithoutFeeQuery cache cid amount)
          (calFeeWithFullAmount amount feeInfo)) ∧
    (info.tokenType = "ICRC-1" → info.flatFee = true → info.burnRate = 0 →
      ∀ asDIP20 : TokenCache,
        asDIP20.tokensInfo[cid]? = some { info with tokenType := "DIP20" } →
        ∀ amount a, getAmountWithoutFeeQuery cache cid amount = some (.ok a) ↔
          getAmountWithoutFeeQuery asDIP20 cid amount = some (.ok a)) := by
  have dto (token : TokenInfo) (h : token.decimals ≤ 255) :
      ∃ feeInfo, getFeeInfoDto token = some feeInfo ∧ feeInfo.flatFee = token.flatFee ∧
        feeInfo.feeRate = token.feeRate ∧ feeInfo.burnRate = token.burnRate := by
    unfold getFeeInfoDto natToU8
    rw [if_pos (Nat.lt_succ_of_le h)]
    exact ⟨_, rfl, rfl, rfl, rfl⟩
  constructor
  · intro htype
    obtain ⟨feeInfo, hfee, -⟩ := dto info hdecimals
    refine ⟨feeInfo, hfee, ?_⟩
    intro amount hpos
    exact query_matches cache hinfo hfee htype hpos
  · intro htype hflat hburn asDIP20 hother amount a
    obtain ⟨feeInfo, hfee, hflat', hrate, hburn'⟩ := dto { info with tokenType := "DIP20" } hdecimals
    by_cases hzero : amount = 0
    · unfold getAmountWithoutFeeQuery
      rw [if_pos hzero, if_pos hzero]
    · have hpos : 0 < amount := Nat.pos_of_ne_zero hzero
      obtain ⟨res, hres, hmatch⟩ := query_matches asDIP20 hother hfee (.inl rfl) hpos
      have hquote := calFeeWithFullAmount_flat (hflat'.trans hflat) (hburn'.trans hburn) amount
      rw [hres, Option.some.injEq, hmatch, hquote, hrate]
      have hquery : getAmountWithoutFeeQuery cache cid amount =
          receiveAmount "ICRC1" amount info.feeRate := by
        unfold getAmountWithoutFeeQuery TokenCache.tokenType getTokenBaseInfo
        rw [if_neg hzero]
        simp only [hinfo, htype]
        rfl
      rw [hquery, receiveAmount_eq_ok]
      dsimp only
      split
      · simp only [reduceCtorEq, false_and, iff_false, not_and]
        omega
      · simp only [Option.some.injEq]
        omega

/-- A token with a fixed fee of ten. -/
def flatToken (tokenType : String) : TokenInfo where
  address := Principal.anonymous
  tokenType := tokenType
  symbol := "FLT"
  name := "Flat"
  decimals := 8
  owner := Principal.anonymous
  logo := ""
  platformTokenType := ""
  flatFee := true
  burnRate := 0
  feeRate := 10
  flatBurnFee := false
  totalSupply := 1000
  mintOn := false

/-- A cache that holds one token. -/
def TokenCache.single (info : TokenInfo) : TokenCache where
  tokensInfo := (∅ : PrincipalMap TokenInfo).insert info.address info
  tokensTimeOut := ∅

theorem feeCopies_agree_flat :
    (∃ feeInfo, getFeeInfoDto (flatToken "DIP20") = some feeInfo ∧
      Matches (getAmountWithoutFeeQuery (.single (flatToken "DIP20")) Principal.anonymous 12)
        (calFeeWithFullAmount 12 feeInfo)) ∧
    ∀ a, getAmountWithoutFeeQuery (.single (flatToken "ICRC-1")) Principal.anonymous 12 =
        some (.ok a) ↔
      getAmountWithoutFeeQuery (.single (flatToken "DIP20")) Principal.anonymous 12 =
        some (.ok a) := by
  have stored (tokenType : String) :
      (TokenCache.single (flatToken tokenType)).tokensInfo[Principal.anonymous]? =
        some (flatToken tokenType) := Std.ExtTreeMap.getElem?_insert_self
  constructor
  · obtain ⟨feeInfo, hfee, hmatch⟩ :=
      (feeCopies_agree _ _ _ (stored "DIP20") (by decide)).1 (.inl rfl)
    exact ⟨feeInfo, hfee, hmatch 12 (by decide)⟩
  · exact (feeCopies_agree _ _ _ (stored "ICRC-1") (by decide)).2 rfl rfl rfl _ (stored "DIP20") 12

/-! ## The quote against the ledger -/

/-- What the fees take off the amount before it is divided. -/
def FeeInfo.fixedPart (feeInfo : FeeInfo) : Nat :=
  (if feeInfo.flatFee then feeInfo.feeRate else 0) +
    if feeInfo.flatBurnFee then feeInfo.burnRate else 0

/-- What the fees add to the fixed-point one below. -/
def FeeInfo.ratePart (feeInfo : FeeInfo) : Nat :=
  (if feeInfo.flatFee then 0 else feeInfo.feeRate) +
    if feeInfo.flatBurnFee then 0 else feeInfo.burnRate

/-- The burn fee comes off above or is added below, by the kind of the token. -/
theorem calBurnFee_eq_some {feeInfo : FeeInfo} {molecular denominator net total : Nat}
    (h : calBurnFee feeInfo molecular denominator = some (net, total)) :
    net + (if feeInfo.flatBurnFee then feeInfo.burnRate else 0) = molecular ∧
      total = denominator + if feeInfo.flatBurnFee then 0 else feeInfo.burnRate := by
  unfold calBurnFee at h
  split at h
  · split at h
    next hflat =>
      rw [if_pos hflat, if_pos hflat]
      split at h
      · cases h
      · obtain ⟨left, hleft, h⟩ := Option.map_eq_some_iff.mp h
        rw [sub_eq_some] at hleft
        cases h
        exact ⟨by omega, rfl⟩
    next hflat =>
      rw [if_neg hflat, if_neg hflat]
      cases h
      exact ⟨rfl, rfl⟩
  next hnone =>
    -- a token without a burn fee: both parts are zero, whatever its kind
    have hzero : feeInfo.burnRate = 0 := Nat.eq_zero_of_not_pos hnone
    cases h
    rw [hzero, ite_self]
    exact ⟨rfl, rfl⟩

/-- **The formula in one line**, for every mix of the two kinds of fees. -/
theorem calFeeWithFullAmount_eq_some {fullAmount a : Nat} {feeInfo : FeeInfo}
    (h : calFeeWithFullAmount fullAmount feeInfo = some a) :
    feeInfo.fixedPart ≤ fullAmount ∧
      a = (fullAmount - feeInfo.fixedPart) * nat18 / (nat18 + feeInfo.ratePart) := by
  unfold FeeInfo.fixedPart FeeInfo.ratePart
  unfold calFeeWithFullAmount at h
  obtain ⟨⟨molecular, denominator⟩, hfee, h⟩ := Option.bind_eq_some_iff.mp h
  obtain ⟨⟨net, total⟩, hburn, h⟩ := Option.bind_eq_some_iff.mp h
  have hquotient := (div_eq_some.mp h).2
  have fee : molecular + (if feeInfo.flatFee then feeInfo.feeRate else 0) = fullAmount ∧
      denominator = nat18 + if feeInfo.flatFee then 0 else feeInfo.feeRate := by
    split at hfee
    next hflat =>
      rw [if_pos hflat, if_pos hflat]
      split at hfee
      · cases hfee
      · obtain ⟨left, hleft, hfee⟩ := Option.map_eq_some_iff.mp hfee
        rw [sub_eq_some] at hleft
        cases hfee
        exact ⟨by omega, rfl⟩
    next hflat =>
      rw [if_neg hflat, if_neg hflat]
      cases hfee
      exact ⟨rfl, rfl⟩
  obtain ⟨hnet, htotal⟩ := calBurnFee_eq_some hburn
  obtain ⟨hmolecular, hdenominator⟩ := fee
  constructor
  · omega
  · rw [← hquotient, htotal, hdenominator, Nat.add_assoc]
    congr 2
    omega

namespace DIP20

/-- The fee of the ledger against the two parts: each of its roundings goes down. The fixed-point one
is a variable here, so that no proof looks inside it. -/
theorem calFee_mul_le (t : DIP20) {amount one : Nat}
    (hfee : mulFloor t.feeRate amount * one ≤ t.feeRate * amount)
    (hburn : mulFloor t.burnRate amount * one ≤ t.burnRate * amount) :
    t.calFee amount * one ≤ t.getFeeInfo.fixedPart * one + t.getFeeInfo.ratePart * amount := by
  unfold calFee calBurn FeeInfo.fixedPart FeeInfo.ratePart getFeeInfo
  dsimp only
  split_ifs <;> simp only [Nat.add_mul, Nat.zero_mul, Nat.zero_add, Nat.add_zero] <;> omega

/-- The two roundings lose less than two units, where a burn fee that is set is also taken. -/
theorem lt_calFee_mul (t : DIP20) {amount one : Nat} (hone : 0 < one)
    (hfee : t.feeRate * amount < (mulFloor t.feeRate amount + 1) * one)
    (hburn : t.burnRate * amount < (mulFloor t.burnRate amount + 1) * one)
    (htaken : t.burnOn = true ∨ t.burnRate = 0) :
    t.getFeeInfo.fixedPart * one + t.getFeeInfo.ratePart * amount <
      (t.calFee amount + 2) * one := by
  rw [Nat.add_mul, Nat.one_mul] at hfee hburn
  unfold calFee calBurn FeeInfo.fixedPart FeeInfo.ratePart getFeeInfo
  dsimp only
  obtain hon | hnone := htaken
  · rw [if_pos hon]
    split_ifs <;> simp only [Nat.add_mul, Nat.zero_mul, Nat.zero_add, Nat.add_zero] <;> omega
  · rw [hnone] at hburn ⊢
    simp only [Nat.zero_mul, ite_self] at hburn ⊢
    split_ifs <;> simp only [Nat.add_mul, Nat.zero_mul, Nat.zero_add, Nat.add_zero] <;> omega

/-- An amount that, divided by the fees, fits in the rest of the balance, is affordable with them. -/
theorem quote_le {full fixed rate fee a one : Nat} (hone : 0 < one) (hfixed : fixed ≤ full)
    (hfee : fee * one ≤ fixed * one + rate * a)
    (ha : a * (one + rate) ≤ (full - fixed) * one) : a + fee ≤ full := by
  rw [Nat.sub_mul] at ha
  have hmul : (a + fee) * one ≤ full * one := by
    have hfixed : fixed * one ≤ full * one := Nat.mul_le_mul_right one hfixed
    rw [Nat.add_mul]
    rw [Nat.mul_add, Nat.mul_comm a rate] at ha
    omega
  exact Nat.le_of_mul_le_mul_right hmul hone

/-- An amount above the quotient by two more than the roundings lose is not. -/
theorem lt_quote {full fixed rate fee a one : Nat} (hfixed : fixed ≤ full)
    (hfee : fixed * one + rate * (a + 3) < (fee + 2) * one)
    (ha : (full - fixed) * one < (a + 1) * (one + rate)) : full < a + 3 + fee := by
  rw [Nat.sub_mul] at ha
  have hmul : full * one < (a + 3 + fee) * one := by
    have hfixed : fixed * one ≤ full * one := Nat.mul_le_mul_right one hfixed
    rw [Nat.mul_add, Nat.add_mul, Nat.add_mul, Nat.mul_comm a rate] at ha
    rw [Nat.mul_add, Nat.add_mul] at hfee
    rw [Nat.add_mul, Nat.add_mul]
    omega
  exact Nat.lt_of_mul_lt_mul_right hmul

/-- **The quote is affordable on the ledger, and nearly the largest amount that is.** Whatever the
kinds of the fees, a transfer of the quoted amount succeeds; where a burn fee that is set is also
taken, a transfer of three units more is refused. -/
theorem quote_affordable (t : DIP20) (u recipient : Principal) (a : Nat)
    (h : calFeeWithFullAmount (t.balanceOf u) t.getFeeInfo = some a) :
    a + t.calFee a ≤ t.balanceOf u ∧
    (∃ t', t.transfer u recipient a = some (.ok (), t')) ∧
    (t.burnOn = true ∨ t.burnRate = 0 →
      ∃ e t', t.transfer u recipient (a + 3) = some (.error e, t')) := by
  obtain ⟨hfixed, hquote⟩ := calFeeWithFullAmount_eq_some h
  have hpos : 0 < nat18 + t.getFeeInfo.ratePart := Nat.add_pos_left nat18_pos _
  have hle : a + t.calFee a ≤ t.balanceOf u := by
    apply quote_le nat18_pos hfixed
    · exact calFee_mul_le t (mulFloor_mul_le _ _) (mulFloor_mul_le _ _)
    · rw [hquote]
      exact Nat.div_mul_le_self _ _
  obtain ⟨t', htransfer, _⟩ := transfer_pays hle recipient
  refine ⟨hle, ⟨t', htransfer⟩, ?_⟩
  intro htaken
  have hlt : t.balanceOf u < a + 3 + t.calFee (a + 3) := by
    apply lt_quote hfixed
    · exact lt_calFee_mul t nat18_pos (lt_mulFloor_succ_mul _ _) (lt_mulFloor_succ_mul _ _) htaken
    · exact Nat.lt_mul_of_div_lt (by rw [hquote]; exact Nat.lt_succ_self _) hpos
  exact ⟨_, _, transfer_of_lt hlt recipient⟩

/-- A token with a fixed fee of one and a proportional burn fee of a tenth, and its only holder. -/
def burning : DIP20 :=
  { DIP20.default with
    balances := (∅ : Balances).insert Principal.anonymous 100
    totalSupply := 100
    burnOn := true
    feeRate := 1
    burnRate := 10 ^ 17
    flatFee := true }

theorem quote_affordable_burning :
    calFeeWithFullAmount 100 burning.getFeeInfo = some 90 ∧
    90 + burning.calFee 90 ≤ 100 ∧
    (∃ t', burning.transfer Principal.anonymous Principal.managementCanister 90 =
      some (.ok (), t')) ∧
    ∃ e t', burning.transfer Principal.anonymous Principal.managementCanister 93 =
      some (.error e, t') := by
  have hbalance : burning.balanceOf Principal.anonymous = 100 := by
    unfold balanceOf burning
    dsimp only
    rw [Std.ExtTreeMap.getElem?_insert_self]
  have hquote : calFeeWithFullAmount 100 burning.getFeeInfo = some 90 := by decide
  obtain ⟨hle, htransfer, hmore⟩ := quote_affordable burning Principal.anonymous
    Principal.managementCanister 90 (by rw [hbalance, hquote])
  rw [hbalance] at hle
  exact ⟨hquote, hle, htransfer, hmore (.inl rfl)⟩

end DIP20

end Fomowell.Token
