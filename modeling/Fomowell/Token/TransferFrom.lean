import Fomowell.Token.Allowances
import Fomowell.Token.Transfer

/-!
# When `transfer_from` returns

`transfer_from` moves the balances first and looks up the allowance last, where an absent entry is a
failed `unwrap` or a failed `assert!`. The check up front compares the allowance as a number, and an
absent entry reads as zero: so the tail is reached without an entry exactly where the value and its fee
are both zero (`transferFrom_behaves_iff`). Everywhere else it answers, and what it does to the balances
is what `transfer` by the owner does.
-/

namespace Fomowell.Token.DIP20

open Checked

/-- The entry that the end of `transfer_from` unwraps. -/
def allowanceEntry (self : DIP20) (owner spender : Principal) : Option Nat :=
  self.allowances[owner]?.bind fun inner => inner[spender]?

/-- `transfer_from` answers, and agrees with the `transfer` of the owner. -/
structure Behaves (s : DIP20) (caller sender recipient : Principal) (value : Nat) : Prop where
  total : ∃ result s', s.transferFrom caller sender recipient value = some (result, s')
  ok_iff : (∃ s', s.transferFrom caller sender recipient value = some (.ok (), s')) ↔
    value + s.calFee value ≤ s.allowance sender caller ∧
      value + s.calFee value ≤ s.balanceOf sender
  err : ∀ e s', s.transferFrom caller sender recipient value = some (.error e, s') → s' = s
  moves : ∀ s', s.transferFrom caller sender recipient value = some (.ok (), s') →
    ∃ t, s.transfer sender recipient value = some (.ok (), t) ∧ s'.balances = t.balances

section

variable {s s' : DIP20} {caller sender recipient owner spender : Principal} {value fee : Nat}

/-! ## The tail -/

theorem allowance_eq_getD (s : DIP20) (owner spender : Principal) :
    s.allowance owner spender = (s.allowanceEntry owner spender).getD 0 := by
  unfold allowanceEntry
  cases hinner : s.allowances[owner]? with
  | none => exact allowance_of_none hinner spender
  | some inner => exact allowance_of_inner hinner spender

theorem SameAllowances.entry (same : SameAllowances s s') (owner spender : Principal) :
    s'.allowanceEntry owner spender = s.allowanceEntry owner spender := by
  unfold allowanceEntry
  rw [same]

/-- An entry that suffices pays, and the balances stay. -/
theorem payAllowance_returns {granted : Nat} (hentry : s.allowanceEntry owner spender = some granted)
    (hle : value + fee ≤ granted) :
    ∃ s', s.payAllowance owner spender value fee = some s' ∧ s'.balances = s.balances := by
  obtain ⟨inner, hinner, hgranted⟩ := Option.bind_eq_some_iff.mp hentry
  have hvalue : sub granted value = some (granted - value) := sub_of_le (by omega)
  have hfee : sub (granted - value) fee = some (granted - value - fee) := sub_of_le (by omega)
  unfold payAllowance
  rw [hinner]
  dsimp only
  rw [hgranted]
  dsimp only [Option.bind_eq_bind, Option.bind_some]
  rw [hvalue, Option.bind_some, hfee]
  exact ⟨_, rfl, rfl⟩

/-- Without an entry the tail traps. -/
theorem payAllowance_eq_none (hentry : s.allowanceEntry owner spender = none) (value fee : Nat) :
    s.payAllowance owner spender value fee = none := by
  unfold payAllowance
  split
  next inner hinner =>
    unfold allowanceEntry at hentry
    rw [hinner, Option.bind_some] at hentry
    rw [hentry]
    rfl
  next => rfl

/-! ## The whole -/

/-- A success of `transfer` is a charge of the fee and a move, neither of which writes an allowance. -/
theorem transfer_steps {t : DIP20} (h : s.transfer sender recipient value = some (.ok (), t)) :
    ∃ charged, s._chargeFee sender s.feeTo (s.calFee value) value = some charged ∧
      charged._transfer sender recipient value = some t ∧ SameAllowances s t := by
  obtain ⟨refused, _⟩ | ⟨_, charged, hcharge, hmove⟩ := transfer_cases h
  · exact absurd rfl refused
  · exact ⟨charged, hcharge, hmove, transfer_sameAllowances h⟩

/-- Where the allowance or the balance is short, `transfer_from` is refused. -/
theorem transferFrom_of_short (caller sender recipient : Principal)
    (h : s.allowance sender caller < value + s.calFee value ∨
      s.balanceOf sender < value + s.calFee value) :
    ∃ e, s.transferFrom caller sender recipient value = some (.error e, s) := by
  unfold transferFrom
  dsimp only
  split
  · exact ⟨_, rfl⟩
  next hallowance =>
    split
    · exact ⟨_, rfl⟩
    next hbalance =>
      obtain hshort | hshort := h
      · exact absurd hshort hallowance
      · exact absurd hshort hbalance

/-- Where both suffice it is `transfer` and then the payment of the allowance. -/
theorem transferFrom_of_covered
    (hallowance : value + s.calFee value ≤ s.allowance sender caller)
    (hbalance : value + s.calFee value ≤ s.balanceOf sender) (recipient : Principal) :
    ∃ t, s.transfer sender recipient value = some (.ok (), t) ∧ SameAllowances s t ∧
      s.transferFrom caller sender recipient value =
        (t.payAllowance sender caller value (s.calFee value)).map fun paid => (.ok (), paid) := by
  obtain ⟨t, htransfer, _⟩ := transfer_pays hbalance recipient
  obtain ⟨charged, hcharge, hmove, same⟩ := transfer_steps htransfer
  refine ⟨t, htransfer, same, ?_⟩
  unfold transferFrom
  dsimp only
  rw [if_neg (Nat.not_lt.mpr hallowance), if_neg (Nat.not_lt.mpr hbalance), hcharge]
  dsimp only [Option.bind_eq_bind, Option.bind_some]
  rw [hmove]
  dsimp only [Option.bind_some]
  cases t.payAllowance sender caller value (s.calFee value) <;> rfl

/-! ## When it behaves -/

/-- It behaves where it is refused. -/
theorem behaves_of_short
    (hshort : s.allowance sender caller < value + s.calFee value ∨
      s.balanceOf sender < value + s.calFee value) : Behaves s caller sender recipient value := by
  obtain ⟨e, hrefused⟩ := transferFrom_of_short caller sender recipient hshort
  refine ⟨⟨_, _, hrefused⟩, iff_of_false ?_ (by omega), ?_, ?_⟩
  · rintro ⟨s', h⟩
    rw [hrefused] at h
    cases h
  · intro e' s' h
    rw [hrefused] at h
    cases h
    rfl
  · intro s' h
    rw [hrefused] at h
    cases h

/-- It behaves where it is covered and finds an entry. -/
theorem behaves_of_entry {granted : Nat} (hentry : s.allowanceEntry sender caller = some granted)
    (hallowance : value + s.calFee value ≤ s.allowance sender caller)
    (hbalance : value + s.calFee value ≤ s.balanceOf sender) :
    Behaves s caller sender recipient value := by
  obtain ⟨t, htransfer, same, hfrom⟩ := transferFrom_of_covered hallowance hbalance recipient
  have hgranted : value + s.calFee value ≤ granted := by
    rwa [allowance_eq_getD, hentry] at hallowance
  rw [← same.entry] at hentry
  obtain ⟨paid, hpay, hbalances⟩ := payAllowance_returns hentry hgranted
  rw [hpay, Option.map_some] at hfrom
  refine ⟨⟨_, _, hfrom⟩, iff_of_true ⟨_, hfrom⟩ ⟨hallowance, hbalance⟩, ?_, ?_⟩
  · intro e s' h
    rw [hfrom] at h
    cases h
  · intro s' h
    rw [hfrom] at h
    cases h
    exact ⟨t, htransfer, hbalances⟩

/-- It traps where it is covered without an entry. -/
theorem not_behaves_of_missing (hentry : s.allowanceEntry sender caller = none)
    (hallowance : value + s.calFee value ≤ s.allowance sender caller)
    (hbalance : value + s.calFee value ≤ s.balanceOf sender) :
    ¬ Behaves s caller sender recipient value := by
  obtain ⟨t, _, same, hfrom⟩ := transferFrom_of_covered hallowance hbalance recipient
  rw [← same.entry] at hentry
  rw [payAllowance_eq_none hentry] at hfrom
  rintro ⟨⟨result, s', h⟩, _⟩
  rw [hfrom] at h
  cases h

end

/-- **When `transfer_from` behaves**: exactly where something is asked for, or there is an allowance to
look up. -/
theorem transferFrom_behaves_iff (s : DIP20) (caller sender recipient : Principal) (value : Nat) :
    Behaves s caller sender recipient value ↔
      (0 < value + s.calFee value ∨ (s.allowanceEntry sender caller).isSome) := by
  by_cases hshort : s.allowance sender caller < value + s.calFee value ∨
      s.balanceOf sender < value + s.calFee value
  · -- it is refused, so something was asked for
    exact iff_of_true (behaves_of_short hshort) (.inl (by omega))
  · obtain ⟨hallowance, hbalance⟩ := not_or.mp hshort
    rw [Nat.not_lt] at hallowance hbalance
    cases hentry : s.allowanceEntry sender caller with
    | none =>
      -- no entry reads as zero, so nothing was asked for
      refine iff_of_false (not_behaves_of_missing hentry hallowance hbalance) ?_
      rw [allowance_eq_getD, hentry, Option.getD_none] at hallowance
      rintro (hpos | h)
      · omega
      · cases h
    | some granted => exact iff_of_true (behaves_of_entry hentry hallowance hbalance) (.inr rfl)

/-- **A trap of `transfer_from`**: nothing is asked of an owner who has allowed nothing. -/
theorem not_transferFrom_behaves :
    ¬ ∀ (s : DIP20) (caller sender recipient : Principal) (value : Nat),
      Behaves s caller sender recipient value := by
  intro all
  obtain ⟨result, s', h⟩ :=
    (all default Principal.anonymous Principal.managementCanister Principal.anonymous 0).total
  have htraps : (transferFrom default Principal.anonymous Principal.managementCanister
      Principal.anonymous 0).isSome = false := by
    decide
  rw [h] at htraps
  cases htraps

end Fomowell.Token.DIP20
