import Fomowell.Launcher.TopupRuns

/-!
# Collecting a quoted fee

`get_icp_platform_fee` quotes a hundredth above its fee, the fee itself, or a hundredth below it, as the
allowance suffices for, and its callers charge what it quotes. A ledger takes its own fee from the
allowance and the balance as well (`LedgerCovers`). The quote has ten thousand for it added to the fee,
but charges them to the user as a part of the amount: so the comparisons up front leave the ledger's fee
uncovered where the allowance or the balance is less than ten thousand above the quote.
-/

namespace Fomowell.Launcher

open Canister Token Checked

/-- The fee that `get_icp_platform_fee` computes from an amount and a price. -/
def quotedFee (usdAmount price : Nat) : Nat := usdAmount * 10 ^ 8 / price + 10000

/-- The allowance and the balance cover a transfer with the fee of the ledger. -/
def LedgerCovers (balance allowance amount : Nat) : Prop :=
  amount + 10000 ≤ allowance ∧ amount + 10000 ≤ balance

/-- A quote, if there is one, is covered by the ledger's count, and within a hundredth of the fee. -/
def QuoteCollected (balance allowance usdAmount price : Nat) : Prop :=
  ∀ f, platformFee balance allowance usdAmount price = some (.ok f) →
    LedgerCovers balance allowance f ∧
      quotedFee usdAmount price - quotedFee usdAmount price / 100 ≤ f ∧
      f ≤ quotedFee usdAmount price + quotedFee usdAmount price / 100

/-- Allowances and balances that are too small for a quote: the allowance for every one of them, or the
balance for the one that such an allowance is large enough for. -/
def TooSmall (balance allowance fee : Nat) : Prop :=
  allowance < fee - fee / 100 ∨
    (allowance ≤ fee ∧ balance < fee - fee / 100) ∨
    (fee < allowance ∧ allowance ≤ fee + fee / 100 ∧ balance < fee) ∨
    (fee + fee / 100 < allowance ∧ balance < fee + fee / 100)

/-- Allowances and balances that are both ten thousand above the same one of the three, with the
allowance up to the next. -/
def HasRoom (balance allowance fee : Nat) : Prop :=
  (fee - fee / 100 + 10000 ≤ allowance ∧ allowance ≤ fee ∧ fee - fee / 100 + 10000 ≤ balance) ∨
    (fee + 10000 ≤ allowance ∧ allowance ≤ fee + fee / 100 ∧ fee + 10000 ≤ balance) ∨
    (fee + fee / 100 + 10000 ≤ allowance ∧ fee + fee / 100 + 10000 ≤ balance)

/-- The condition on the allowance and the balance. -/
def Collectible (balance allowance fee : Nat) : Prop :=
  TooSmall balance allowance fee ∨ HasRoom balance allowance fee

section

variable {balance allowance usdAmount price f : Nat}

/-- What is quoted, where the allowance and the balance have it. -/
theorem platformFee_ok_iff (hprice : 0 < price) :
    platformFee balance allowance usdAmount price = some (.ok f) ↔
      quotedFee usdAmount price - quotedFee usdAmount price / 100 ≤ allowance ∧ f ≤ balance ∧
        f = if quotedFee usdAmount price + quotedFee usdAmount price / 100 < allowance then
            quotedFee usdAmount price + quotedFee usdAmount price / 100
          else if quotedFee usdAmount price < allowance then quotedFee usdAmount price
          else quotedFee usdAmount price - quotedFee usdAmount price / 100 := by
  -- the fee becomes a variable first: its literal is too long to be unfolded
  have hfee : usdAmount * 10 ^ 8 / price + 10000 = quotedFee usdAmount price := rfl
  unfold platformFee
  rw [div_of_pos hprice, Option.bind_eq_bind, Option.bind_some, hfee]
  generalize quotedFee usdAmount price = fee
  dsimp only
  rw [sub_of_le (Nat.div_le_self fee 100), Option.bind_some]
  split
  next hshort =>
    refine iff_of_false (fun h => nomatch h) ?_
    omega
  next hmin =>
    generalize (if allowance > fee + fee / 100 then fee + fee / 100
      else if allowance > fee then fee else fee - fee / 100) = picked at *
    split
    next hlt =>
      refine iff_of_false (fun h => nomatch h) ?_
      rintro ⟨_, hle, rfl⟩
      omega
    next hle =>
      constructor
      · intro h
        cases h
        exact ⟨by omega, by omega, rfl⟩
      · rintro ⟨_, _, rfl⟩
        rfl

/-- **When a quote is covered.** -/
theorem quoteCollected_iff (hprice : 0 < price) :
    QuoteCollected balance allowance usdAmount price ↔
      Collectible balance allowance (quotedFee usdAmount price) := by
  unfold QuoteCollected
  simp only [platformFee_ok_iff hprice]
  unfold LedgerCovers
  generalize quotedFee usdAmount price = fee
  constructor
  · intro all
    by_cases hmin : allowance < fee - fee / 100
    · exact .inl (.inl hmin)
    -- the allowance selects one of three quotes, which the balance has or has not
    unfold Collectible TooSmall HasRoom
    by_cases hmax : fee + fee / 100 < allowance
    · have quoted := all (fee + fee / 100)
      rw [if_pos hmax] at quoted
      omega
    by_cases hfee : fee < allowance
    · have quoted := all fee
      rw [if_neg hmax, if_pos hfee] at quoted
      omega
    · have quoted := all (fee - fee / 100)
      rw [if_neg hmax, if_neg hfee] at quoted
      omega
  · rintro collectible f ⟨hallowance, hbalance, rfl⟩
    unfold Collectible TooSmall HasRoom at collectible
    split_ifs at hbalance ⊢ <;> omega

end

/-- The charge that follows a quote is of what was quoted. -/
theorem feeReturn_charges {env : Env} {time : Nat} {fee : Fee} {quote : Except String Nat}
    {st st' : State} {next : Next Frame Answer} {charge : Charge}
    (h : feeReturn env time fee quote st = some (st', next))
    (hcharge : next.frame?.bind Frame.charge? = some charge) : quote = .ok charge.value := by
  have charged : ∀ {value memo k}, chargeFee env time fee value memo k st = some (st', next) →
      charge.value = value := by
    intro value memo k hcall
    obtain ⟨rfl, rfl | ⟨type, rfl⟩⟩ := callToken_cases hcall
    · cases hcharge
      rfl
    · cases hcharge
      rfl
  obtain ⟨_, value, _, rfl, hcall⟩ | ⟨_, value, _, rfl, hcall⟩ | ⟨_, ⟨_, rfl⟩ | ⟨_, rfl⟩⟩ :=
    feeReturn_cases h
  · rw [charged hcall]
  · rw [charged hcall]
  · cases hcharge
  · cases hcharge

/-- **When a quoted fee can be collected**: exactly where the allowance or the balance is too small for a
quote, or both have room for the ledger's fee; and then the ledger covers every charge that a method
goes on to make, while the balance and the allowance are what they were. -/
theorem quote_collected_iff {price : Nat} (hprice : 0 < price) (balance allowance usdAmount : Nat) :
    (QuoteCollected balance allowance usdAmount price ↔
        Collectible balance allowance (quotedFee usdAmount price)) ∧
      ∀ (env : Env) (time : Nat) (fee : Fee) (prices : PrincipalMap Nat) (st st' : State)
        (next : Next Frame Answer) (charge : Charge),
        fee.usdAmount = usdAmount → prices[fee.tokenId]? = some price →
        Collectible balance allowance (quotedFee usdAmount price) →
        getIcpPlatformFeePrices env time fee balance allowance (.ok prices) st = some (st', next) →
        next.frame?.bind Frame.charge? = some charge → LedgerCovers balance allowance charge.value := by
  refine ⟨quoteCollected_iff hprice, ?_⟩
  rintro env time fee prices st st' next charge rfl hget collectible h hcharge
  unfold getIcpPlatformFeePrices at h
  obtain ⟨res, hres, h⟩ := Option.bind_eq_some_iff.mp h
  obtain rfl := Option.some.inj hres
  obtain ⟨price', hprice', h⟩ := Option.bind_eq_some_iff.mp h
  obtain ⟨quote, hquote, hreturn⟩ := Option.bind_eq_some_iff.mp h
  rw [hget] at hprice'
  cases hprice'
  rw [feeReturn_charges hreturn hcharge] at hquote
  exact ((quoteCollected_iff hprice).mpr collectible _ hquote).1

/-- Six dollars at ten dollars for one ICP, with one ICP at hand: a hundredth more is quoted, and the
ledger covers it. -/
theorem quote_collected_sample :
    platformFee 100000000 100000000 6000000000000000000 10000000000000000000 =
        some (.ok 60610100) ∧
      LedgerCovers 100000000 100000000 60610100 := by
  have hquote : platformFee 100000000 100000000 6000000000000000000 10000000000000000000 =
      some (.ok 60610100) := by decide
  have hfee : quotedFee 6000000000000000000 10000000000000000000 = 60010000 := by decide
  have collectible : Collectible 100000000 100000000
      (quotedFee 6000000000000000000 10000000000000000000) := by
    rw [hfee]
    exact .inr (.inr (.inr ⟨by decide, by decide⟩))
  have hprice : 0 < 10000000000000000000 := by decide
  have collected :=
    (quote_collected_iff hprice 100000000 100000000 6000000000000000000).1.mpr collectible
  exact ⟨hquote, (collected 60610100 hquote).1⟩

/-- **A quote that cannot be collected**: six dollars, with an allowance of exactly what is quoted. -/
theorem not_quote_collected :
    ¬ ∀ balance allowance usdAmount price : Nat, 0 < price →
      QuoteCollected balance allowance usdAmount price := by
  intro all
  have collected := all 100000000 59409900 6000000000000000000 10000000000000000000 (by decide)
  have covers := (collected 59409900 (by decide)).1
  unfold LedgerCovers at covers
  omega

end Fomowell.Launcher
