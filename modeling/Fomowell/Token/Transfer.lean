import Fomowell.Token.Supply

/-!
# The exact effect of a transfer

A transfer is a chain of up to three moves out of one account: the burn fee to the management
canister, the rest of the fee to `fee_to`, and the value to the recipient. A chain `Pays` a value out
of the payer's account into others, and two chains with one payer compose, whoever the receivers are,
the payer included. The one check of the balance up front covers the three subtractions, because a
move takes no more from the payer than its value (`Pays.covers`).

`transfer_exact` is the whole effect: when the transfer answers `Err`, and every balance when it does
not.
-/

namespace Fomowell.Token.DIP20

open Checked Table

/-- A value, for one party only. -/
def due (party : Principal) (value : Nat) (id : Principal) : Nat := if id = party then value else 0

/-- A value leaves the payer's account, and each account gets what is given to it. Nothing but
balances changes. -/
structure Pays (s s' : DIP20) (payer : Principal) (value : Nat) (given : Principal → Nat) : Prop where
  frame : s' = { s with balances := s'.balances }
  balances : ∀ id, s'.balanceOf id + due payer value id = s.balanceOf id + given id

section

variable {s s' s'' : DIP20} {payer : Principal} {value value' : Nat} {given given' : Principal → Nat}

/-- Nothing is paid to anybody. -/
theorem Pays.refl (s : DIP20) (payer : Principal) : Pays s s payer 0 fun _ => 0 := by
  refine ⟨rfl, ?_⟩
  intro id
  unfold due
  rw [ite_self]

theorem Pays.trans (h : Pays s s' payer value given) (h' : Pays s' s'' payer value' given') :
    Pays s s'' payer (value + value') fun id => given id + given' id := by
  refine ⟨?_, ?_⟩
  · rw [h'.frame, h.frame]
  · intro id
    have hfirst := h.balances id
    have hsecond := h'.balances id
    have hdue : due payer (value + value') id = due payer value id + due payer value' id := by
      unfold due
      split <;> rfl
    omega

/-- After a payment the payer has what is left, at least. -/
theorem Pays.covers (h : Pays s s' payer value given)
    (hle : value + value' ≤ s.balanceOf payer) : value' ≤ s'.balanceOf payer := by
  have hbalance := h.balances payer
  unfold due at hbalance
  rw [if_pos rfl] at hbalance
  omega

end

/-! ## One move -/

theorem balanceOf_eq_getD (s : DIP20) (id : Principal) :
    s.balanceOf id = s.balances[id]?.getD 0 := by
  unfold balanceOf
  cases s.balances[id]? <;> rfl

/-- A debit within the balance returns. -/
theorem debit_spec {s : DIP20} {sender : Principal} {value : Nat} (h : value ≤ s.balanceOf sender) :
    ∃ s', s.debit sender value = some s' ∧ s' = { s with balances := s'.balances } ∧
      ∀ id, s'.balanceOf id + due sender value id = s.balanceOf id := by
  unfold debit
  rw [sub_of_le h]
  refine ⟨_, rfl, rfl, ?_⟩
  intro id
  unfold due
  by_cases hid : id = sender
  · subst hid
    rw [if_pos rfl, balanceOf_eq_getD]
    dsimp only
    split_ifs with hzero
    · rw [Std.ExtTreeMap.getElem?_insert_self, Option.getD_some]
      omega
    · rw [Std.ExtTreeMap.getElem?_erase_self, Option.getD_none]
      omega
  · rw [if_neg hid, Nat.add_zero, balanceOf_eq_getD _ id, balanceOf_eq_getD s id]
    dsimp only
    split_ifs
    · rw [get_insert_of_ne _ _ hid]
    · rw [get_erase_of_ne _ hid]

theorem credit_spec (s : DIP20) (recipient : Principal) (value : Nat) (id : Principal) :
    (s.credit recipient value).balanceOf id = s.balanceOf id + due recipient value id := by
  unfold credit due
  dsimp only
  by_cases hid : id = recipient
  · subst hid
    rw [if_pos rfl, balanceOf_eq_getD]
    dsimp only
    split_ifs with hzero
    · rw [Std.ExtTreeMap.getElem?_insert_self, Option.getD_some]
    · -- nothing is stored where nothing was and nothing comes
      rw [← balanceOf_eq_getD]
      omega
  · rw [if_neg hid, Nat.add_zero, balanceOf_eq_getD _ id, balanceOf_eq_getD s id]
    dsimp only
    split_ifs
    · rw [get_insert_of_ne _ _ hid]
    · rfl

/-- **A move within the balance** pays its value to the recipient. -/
theorem _transfer_pays {s : DIP20} {sender : Principal} {value : Nat}
    (h : value ≤ s.balanceOf sender) (recipient : Principal) :
    ∃ s', s._transfer sender recipient value = some s' ∧
      Pays s s' sender value (due recipient value) := by
  obtain ⟨debited, hdebit, hframe, hbalances⟩ := debit_spec h
  refine ⟨debited.credit recipient value, ?_, ?_, ?_⟩
  · unfold _transfer
    rw [hdebit]
    rfl
  · rw [hframe]
    rfl
  · intro id
    rw [credit_spec, ← hbalances id]
    omega

/-! ## The fee -/

/-- The part of the fee on an amount that is burnt. -/
def burnPart (self : DIP20) (amount : Nat) : Nat := if self.burnOn then self.calBurn amount else 0

theorem burnPart_le_calFee (s : DIP20) (amount : Nat) : s.burnPart amount ≤ s.calFee amount := by
  unfold burnPart calFee
  dsimp only
  by_cases hon : s.burnOn
  · rw [if_pos hon, if_pos hon]
    exact Nat.le_add_left _ _
  · rw [if_neg hon]
    exact Nat.zero_le _

/-- A move that is left out where there is nothing to move. -/
theorem optional_pays {s : DIP20} {payer : Principal} {value : Nat} (h : value ≤ s.balanceOf payer)
    (recipient : Principal) :
    ∃ s', (if value > 0 then s._transfer payer recipient value else some s) = some s' ∧
      Pays s s' payer value (due recipient value) := by
  split_ifs with hpos
  · exact _transfer_pays h recipient
  · obtain rfl := Nat.le_zero.mp (Nat.not_lt.mp hpos)
    have hnothing : due recipient 0 = fun _ => 0 := by
      funext id
      unfold due
      rw [ite_self]
    rw [hnothing]
    exact ⟨s, rfl, .refl s payer⟩

theorem chargeBurnFee_pays {s : DIP20} {user : Principal} {fee amount : Nat}
    (h : fee ≤ s.balanceOf user) (hburn : s.burnPart amount ≤ fee) :
    ∃ s', s.chargeBurnFee user fee amount = some (s', fee - s.burnPart amount) ∧
      Pays s s' user (s.burnPart amount)
        (due Principal.managementCanister (s.burnPart amount)) := by
  obtain ⟨burnt, hmove, pays⟩ := optional_pays (hburn.trans h) Principal.managementCanister
  refine ⟨burnt, ?_, pays⟩
  clear pays
  unfold chargeBurnFee
  dsimp only
  by_cases hon : s.burnOn
  · have hpart : s.burnPart amount = s.calBurn amount := if_pos hon
    rw [hpart] at hburn hmove ⊢
    rw [if_pos hon]
    by_cases hpos : s.calBurn amount > 0
    · rw [if_pos hpos] at hmove ⊢
      rw [hmove, sub_of_le hburn]
      rfl
    · rw [if_neg hpos] at hmove ⊢
      cases hmove
      rw [Nat.le_zero.mp (Nat.not_lt.mp hpos), Nat.sub_zero]
  · have hpart : s.burnPart amount = 0 := if_neg hon
    rw [hpart, if_neg (Nat.lt_irrefl 0)] at hmove
    cases hmove
    rw [hpart, if_neg hon, Nat.sub_zero]

/-- **Charging a fee** pays the burn fee to the management canister and the rest to `fee_to`. -/
theorem _chargeFee_pays {s : DIP20} {user : Principal} {fee amount : Nat}
    (h : fee ≤ s.balanceOf user) (hburn : s.burnPart amount ≤ fee) (feeTo : Principal) :
    ∃ s', s._chargeFee user feeTo fee amount = some s' ∧
      Pays s s' user (s.burnPart amount + (fee - s.burnPart amount))
        fun id => due Principal.managementCanister (s.burnPart amount) id +
          due feeTo (fee - s.burnPart amount) id := by
  obtain ⟨burnt, hcharge, burns⟩ := chargeBurnFee_pays h hburn
  have hleft : fee - s.burnPart amount ≤ burnt.balanceOf user := burns.covers (by omega)
  obtain ⟨paid, hpay, pays⟩ := optional_pays hleft feeTo
  refine ⟨paid, ?_, burns.trans pays⟩
  unfold _chargeFee
  rw [hcharge]
  exact hpay

/-! ## The transfer -/

/-- A transfer that the balance covers pays the value, the fee and the burn fee. -/
theorem transfer_pays {s : DIP20} {caller : Principal} {value : Nat}
    (h : value + s.calFee value ≤ s.balanceOf caller) (recipient : Principal) :
    ∃ s', s.transfer caller recipient value = some (.ok (), s') ∧
      Pays s s' caller (s.burnPart value + (s.calFee value - s.burnPart value) + value)
        fun id => due Principal.managementCanister (s.burnPart value) id +
          due s.feeTo (s.calFee value - s.burnPart value) id + due recipient value id := by
  have hburn := burnPart_le_calFee s value
  obtain ⟨charged, hcharge, fees⟩ :=
    _chargeFee_pays (Nat.le_trans (Nat.le_add_left _ _) h) hburn s.feeTo
  have hleft : value ≤ charged.balanceOf caller := fees.covers (by omega)
  obtain ⟨moved, hmove, pays⟩ := _transfer_pays hleft recipient
  refine ⟨moved, ?_, fees.trans pays⟩
  unfold transfer
  dsimp only
  rw [if_neg (Nat.not_lt.mpr h), hcharge]
  simp only [Option.bind_eq_bind, Option.bind_some, hmove]
  rfl

/-- A transfer that the balance does not cover is refused. -/
theorem transfer_of_lt {s : DIP20} {caller : Principal} {value : Nat}
    (h : s.balanceOf caller < value + s.calFee value) (recipient : Principal) :
    s.transfer caller recipient value = some (.error "InsufficientBalance", s) := by
  unfold transfer
  exact if_pos h

/-- What a transfer does to the balance of one account, with `b` burnt and a fee of `f`. -/
def EffectOn (s s' : DIP20) (caller recipient : Principal) (value f b : Nat) (id : Principal) :
    Prop :=
  (s'.balanceOf id : Int) = s.balanceOf id - due caller (value + f + b) id + due recipient value id +
    due s.feeTo f id + due Principal.managementCanister b id

/-- **The exact effect of a transfer.** It answers `Err` exactly where the balance does not cover the
value and the two fees, and then changes nothing. Otherwise it returns, and every balance is what the
three moves make it, whoever the four parties are; nothing but balances changes. -/
theorem transfer_exact (s : DIP20) (caller recipient : Principal) (value : Nat) :
    let b := s.burnPart value
    let f := s.calFee value - b
    ((∃ e s', s.transfer caller recipient value = some (.error e, s')) ↔
        s.balanceOf caller < value + f + b) ∧
      (∀ e s', s.transfer caller recipient value = some (.error e, s') → s' = s) ∧
      (¬ s.balanceOf caller < value + f + b →
        ∃ s', s.transfer caller recipient value = some (.ok (), s') ∧
          s' = { s with balances := s'.balances } ∧
          ∀ id, EffectOn s s' caller recipient value f b id) := by
  intro b f
  have hfee : f + b = s.calFee value := Nat.sub_add_cancel (burnPart_le_calFee s value)
  have hsum : value + f + b = value + s.calFee value := by omega
  rw [hsum]
  by_cases hlt : s.balanceOf caller < value + s.calFee value
  · rw [transfer_of_lt hlt recipient]
    refine ⟨iff_of_true ⟨_, _, rfl⟩ hlt, ?_, fun h => absurd hlt h⟩
    intro e s' h
    cases h
    rfl
  · obtain ⟨s', hanswer, pays⟩ := transfer_pays (Nat.not_lt.mp hlt) recipient
    rw [hanswer]
    refine ⟨iff_of_false ?_ hlt, ?_, fun _ => ⟨s', rfl, pays.frame, ?_⟩⟩
    · rintro ⟨e, s'', h⟩
      cases h
    · intro e s'' h
      cases h
    · intro id
      have hbalance := pays.balances id
      have hpaid : s.burnPart value + (s.calFee value - s.burnPart value) + value = value + f + b := by
        omega
      rw [hpaid] at hbalance
      unfold EffectOn
      change s'.balanceOf id + due caller (value + f + b) id = s.balanceOf id +
        (due Principal.managementCanister b id + due s.feeTo f id + due recipient value id)
        at hbalance
      omega

end Fomowell.Token.DIP20
