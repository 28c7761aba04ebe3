import Fomowell.Lib.Runs
import Fomowell.Lib.Table
import Fomowell.Token.Dip20

/-!
# Conservation of the token supply

The sum of all balances equals the supply, over every run of the methods (`supply_conserved`). A run
is a list of calls; a call that traps leaves the token as it was (`DIP20.next`).

Every balance move is a debit followed by a credit, and each of the two changes the sum by the value
it moves, whoever the two parties are (`debit_balanceSum`, `credit_balanceSum`): the credit reads the
map that the debit left. Transfers chain up to three such moves and never touch the supply
(`SameSupply`); minting is a credit alone, burning a debit alone, and each changes the supply with it.
-/

namespace Fomowell.Token.DIP20

open Checked Runs Table

/-- The sum of all balances. -/
def balanceSum (self : DIP20) : Nat := sumOf (fun _ balance => balance) self.balances

/-- The sum of all balances is the supply. -/
def Conserved (self : DIP20) : Prop := self.balanceSum = self.totalSupply

/-- Two states with the same sum of balances and the same supply. -/
def SameSupply (s s' : DIP20) : Prop :=
  s'.balanceSum = s.balanceSum ∧ s'.totalSupply = s.totalSupply

theorem SameSupply.refl (s : DIP20) : SameSupply s s := ⟨rfl, rfl⟩

theorem SameSupply.trans {s s' s'' : DIP20} (h : SameSupply s s') (h' : SameSupply s' s'') :
    SameSupply s s'' := ⟨h'.1.trans h.1, h'.2.trans h.2⟩

theorem SameSupply.conserved {s s' : DIP20} (h : SameSupply s s') (hs : s.Conserved) :
    s'.Conserved := h.1.trans (hs.trans h.2.symm)

/-! ## Calls -/

/-- A call of one of the methods that move balances. -/
inductive Call
  | transfer (caller recipient : Principal) (value : Nat)
  | transferFrom (caller sender recipient : Principal) (value : Nat)
  | approve (caller spender : Principal) (value : Nat)
  | mint (caller recipient : Principal) (value : Nat)
  | burn (sender : Principal) (value : Nat)

/-- The answer to a call and the state after it. -/
def call (self : DIP20) : Call → Option (Except String Unit × DIP20)
  | .transfer caller recipient value => self.transfer caller recipient value
  | .transferFrom caller sender recipient value => self.transferFrom caller sender recipient value
  | .approve caller spender value => some (.ok (), self.approve caller spender value)
  | .mint caller recipient value => some (self.mint caller recipient value)
  | .burn sender value => (self._burn sender value).map fun s => (.ok (), s)

/-- The state after a call; a trap leaves it as it was. -/
def next (self : DIP20) (c : Call) : DIP20 := ((self.call c).map Prod.snd).getD self

/-- The calls that may change the supply. -/
def Call.ChangesSupply : Call → Prop
  | .mint .. => True
  | .burn .. => True
  | _ => False

/-- A call that returns conserves the supply, and changes it only if it is a mint or a burn; a burn
traps only for lack of balance. -/
structure SupplySound (s : DIP20) (c : Call) : Prop where
  conserved : ∀ answer s', s.call c = some (answer, s') → s'.Conserved
  unchanged : ∀ answer s', s.call c = some (answer, s') → s'.totalSupply ≠ s.totalSupply →
    c.ChangesSupply
  burns : ∀ sender value, c = .burn sender value → value ≤ s.balanceOf sender →
    (s.call c).isSome

/-! ## One balance -/

theorem balanceOf_eq_weightAt (s : DIP20) (id : Principal) :
    s.balanceOf id = weightAt (fun _ balance => balance) s.balances id := by
  unfold balanceOf weightAt
  cases s.balances[id]? <;> rfl

/-- The sum of all balances, split at one of them. -/
theorem balanceSum_split (s : DIP20) (id : Principal) :
    s.balanceSum = s.balanceOf id + sumOf (fun _ balance => balance) (s.balances.erase id) := by
  rw [balanceOf_eq_weightAt]
  exact sumOf_erase _ _ id

theorem balanceOf_le_balanceSum (s : DIP20) (id : Principal) : s.balanceOf id ≤ s.balanceSum := by
  rw [balanceSum_split s id]
  exact Nat.le_add_right _ _

/-- **A debit** takes its value from the sum, and touches the balances only. -/
theorem debit_balanceSum {s s' : DIP20} {sender : Principal} {value : Nat}
    (h : s.debit sender value = some s') :
    s.balanceSum = s'.balanceSum + value ∧ s' = { s with balances := s'.balances } := by
  obtain ⟨rest, hrest, h⟩ := Option.bind_eq_some_iff.mp h
  rw [sub_eq_some] at hrest
  cases h
  refine ⟨?_, rfl⟩
  rw [balanceSum_split s sender, hrest]
  by_cases hzero : rest = 0
  · simp only [balanceSum, hzero, ne_eq, not_true_eq_false, if_false]
    omega
  · simp only [balanceSum, hzero, ne_eq, not_false_eq_true, if_true, sumOf_insert]
    omega

/-- **A credit** adds its value to the sum. -/
theorem credit_balanceSum (s : DIP20) (recipient : Principal) (value : Nat) :
    (s.credit recipient value).balanceSum = s.balanceSum + value := by
  unfold credit
  by_cases hzero : s.balanceOf recipient + value = 0
  · simp only [balanceSum, hzero, ne_eq, not_true_eq_false, if_false]
    omega
  · have hsplit := balanceSum_split s recipient
    simp only [balanceSum, hzero, ne_eq, not_false_eq_true, if_true, sumOf_insert] at hsplit ⊢
    omega

/-! ## What the methods are made of -/

/-- **A rule for the fee**: what every move keeps, the fee keeps. It is a move of what is burnt and a
move of the rest. -/
theorem _chargeFee_invariant {I : DIP20 → Prop}
    (move : ∀ {s s' : DIP20} {sender recipient value},
      s._transfer sender recipient value = some s' → I s → I s')
    {s s' : DIP20} {user feeTo : Principal} {fee amount : Nat}
    (h : s._chargeFee user feeTo fee amount = some s') (start : I s) : I s' := by
  obtain ⟨⟨burnt, rest⟩, hburn, h⟩ := Option.bind_eq_some_iff.mp h
  have hburnt : I burnt := by
    unfold chargeBurnFee at hburn
    dsimp only at hburn
    split at hburn
    · split at hburn
      · obtain ⟨moved, hmove, hburn⟩ := Option.bind_eq_some_iff.mp hburn
        obtain ⟨_, _, hburn⟩ := Option.bind_eq_some_iff.mp hburn
        cases hburn
        exact move hmove start
      · cases hburn
        exact start
    · cases hburn
      exact start
  dsimp only at h
  split at h
  · exact move h hburnt
  · cases h
    exact hburnt

/-- `transfer` is refused and does nothing, or it charges the fee and moves the value. -/
theorem transfer_cases {s s' : DIP20} {caller recipient : Principal} {value : Nat}
    {answer : Except String Unit} (h : s.transfer caller recipient value = some (answer, s')) :
    (answer ≠ .ok () ∧ s' = s) ∨
      (answer = .ok () ∧ ∃ charged,
        s._chargeFee caller s.feeTo (s.calFee value) value = some charged ∧
          charged._transfer caller recipient value = some s') := by
  unfold transfer at h
  dsimp only at h
  split at h
  · cases h
    exact .inl ⟨(fun h => nomatch h), rfl⟩
  · obtain ⟨charged, hcharge, h⟩ := Option.bind_eq_some_iff.mp h
    obtain ⟨moved, hmove, h⟩ := Option.bind_eq_some_iff.mp h
    cases h
    exact .inr ⟨rfl, charged, hcharge, hmove⟩

/-- `transfer_from` takes both from the allowance after that. -/
theorem transferFrom_cases {s s' : DIP20} {caller sender recipient : Principal} {value : Nat}
    {answer : Except String Unit}
    (h : s.transferFrom caller sender recipient value = some (answer, s')) :
    (answer ≠ .ok () ∧ s' = s) ∨
      (answer = .ok () ∧ ∃ charged moved,
        s._chargeFee sender s.feeTo (s.calFee value) value = some charged ∧
          charged._transfer sender recipient value = some moved ∧
            moved.payAllowance sender caller value (s.calFee value) = some s') := by
  unfold transferFrom at h
  dsimp only at h
  split at h
  · cases h
    exact .inl ⟨(fun h => nomatch h), rfl⟩
  split at h
  · cases h
    exact .inl ⟨(fun h => nomatch h), rfl⟩
  · obtain ⟨charged, hcharge, h⟩ := Option.bind_eq_some_iff.mp h
    obtain ⟨moved, hmove, h⟩ := Option.bind_eq_some_iff.mp h
    obtain ⟨paid, hpay, h⟩ := Option.bind_eq_some_iff.mp h
    cases h
    exact .inr ⟨rfl, charged, moved, hcharge, hmove, hpay⟩

/-! ## Transfers and fees -/

/-- A move keeps the sum, for any two parties. -/
theorem _transfer_sameSupply {s s' : DIP20} {sender recipient : Principal} {value : Nat}
    (h : s._transfer sender recipient value = some s') : SameSupply s s' := by
  obtain ⟨debited, hdebit, h⟩ := Option.bind_eq_some_iff.mp h
  cases h
  obtain ⟨hsum, hframe⟩ := debit_balanceSum hdebit
  refine ⟨?_, ?_⟩
  · rw [credit_balanceSum, hsum]
  · rw [hframe]
    rfl

/-- Charging a fee keeps the sum. -/
theorem _chargeFee_sameSupply {s s' : DIP20} {user feeTo : Principal} {fee amount : Nat}
    (h : s._chargeFee user feeTo fee amount = some s') : SameSupply s s' :=
  _chargeFee_invariant (I := SameSupply s) (fun hmove same => same.trans (_transfer_sameSupply hmove)) h
    (.refl s)

/-- **What the end of `transfer_from` writes**: the entry of the pair, which held the value and the
fee, with what is left of it. -/
theorem payAllowance_eq_some {s s' : DIP20} {owner spender : Principal} {value fee : Nat}
    (h : s.payAllowance owner spender value fee = some s') :
    ∃ inner rest, s.allowances[owner]? = some inner ∧ inner[spender]? = some (value + (fee + rest)) ∧
      s' = { s with allowances := setInner s.allowances owner inner spender rest } := by
  unfold payAllowance at h
  split at h
  next inner hinner =>
    obtain ⟨result, hresult, h⟩ := Option.bind_eq_some_iff.mp h
    obtain ⟨net, hnet, h⟩ := Option.bind_eq_some_iff.mp h
    obtain ⟨rest, hrest, h⟩ := Option.bind_eq_some_iff.mp h
    rw [sub_eq_some] at hnet hrest
    refine ⟨inner, rest, hinner, ?_, (Option.some.inj h).symm⟩
    rw [hresult, hnet, hrest]
  next => cases h

theorem payAllowance_sameSupply {s s' : DIP20} {owner spender : Principal} {value fee : Nat}
    (h : s.payAllowance owner spender value fee = some s') : SameSupply s s' := by
  obtain ⟨_, _, _, _, rfl⟩ := payAllowance_eq_some h
  exact ⟨rfl, rfl⟩

/-! ## The methods -/

theorem transfer_sameSupply {s s' : DIP20} {caller recipient : Principal} {value : Nat}
    {answer : Except String Unit} (h : s.transfer caller recipient value = some (answer, s')) :
    SameSupply s s' := by
  obtain ⟨_, rfl⟩ | ⟨_, charged, hcharge, hmove⟩ := transfer_cases h
  · exact .refl _
  · exact (_chargeFee_sameSupply hcharge).trans (_transfer_sameSupply hmove)

theorem transferFrom_sameSupply {s s' : DIP20} {caller sender recipient : Principal} {value : Nat}
    {answer : Except String Unit}
    (h : s.transferFrom caller sender recipient value = some (answer, s')) : SameSupply s s' := by
  obtain ⟨_, rfl⟩ | ⟨_, charged, moved, hcharge, hmove, hpay⟩ := transferFrom_cases h
  · exact .refl _
  · exact ((_chargeFee_sameSupply hcharge).trans (_transfer_sameSupply hmove)).trans
      (payAllowance_sameSupply hpay)

theorem approve_sameSupply (s : DIP20) (caller spender : Principal) (value : Nat) :
    SameSupply s (s.approve caller spender value) := by
  unfold approve _approve
  split
  · exact ⟨rfl, rfl⟩
  · split <;> exact ⟨rfl, rfl⟩

/-- A mint adds its value to both the sum and the supply, or changes nothing. -/
theorem mint_conserved {s : DIP20} (hs : s.Conserved) (caller recipient : Principal) (value : Nat) :
    (s.mint caller recipient value).2.Conserved := by
  unfold mint
  split
  · exact hs
  split
  · exact hs
  · unfold Conserved _mint
    rw [credit_balanceSum]
    exact congrArg (· + value) hs

/-- A burn takes its value from both. -/
theorem _burn_conserved {s s' : DIP20} {sender : Principal} {value : Nat}
    (h : s._burn sender value = some s') (hs : s.Conserved) : s'.Conserved := by
  obtain ⟨debited, hdebit, h⟩ := Option.bind_eq_some_iff.mp h
  obtain ⟨supply, hsupply, h⟩ := Option.bind_eq_some_iff.mp h
  cases h
  obtain ⟨hsum, hframe⟩ := debit_balanceSum hdebit
  have hsame : debited.totalSupply = s.totalSupply := by rw [hframe]
  rw [sub_eq_some, hsame] at hsupply
  have htotal : s.balanceSum = s.totalSupply := hs
  change debited.balanceSum = supply
  omega

/-- **A burn traps only for lack of balance**: the supply covers every balance. -/
theorem _burn_isSome {s : DIP20} (hs : s.Conserved) {sender : Principal} {value : Nat}
    (h : value ≤ s.balanceOf sender) : (s._burn sender value).isSome := by
  have hsupply : value ≤ s.totalSupply := hs ▸ h.trans (balanceOf_le_balanceSum s sender)
  simp only [_burn, debit, sub_of_le h, sub_of_le hsupply, Option.bind_eq_bind, Option.bind_some,
    Option.pure_def, Option.isSome_some]

/-! ## Runs -/

/-- One call on a token whose supply is conserved. -/
theorem supplySound_of_conserved {s : DIP20} (hs : s.Conserved) (c : Call) : SupplySound s c := by
  cases c with
  | transfer caller recipient value =>
    refine ⟨fun _ _ h => (transfer_sameSupply h).conserved hs,
      fun _ _ h hne => absurd (transfer_sameSupply h).2 hne, fun _ _ h => nomatch h⟩
  | transferFrom caller sender recipient value =>
    refine ⟨fun _ _ h => (transferFrom_sameSupply h).conserved hs,
      fun _ _ h hne => absurd (transferFrom_sameSupply h).2 hne, fun _ _ h => nomatch h⟩
  | approve caller spender value =>
    refine ⟨fun _ _ h => ?_, fun _ _ h hne => ?_, fun _ _ h => nomatch h⟩
    · cases h
      exact (approve_sameSupply s caller spender value).conserved hs
    · cases h
      exact absurd (approve_sameSupply s caller spender value).2 hne
  | mint caller recipient value =>
    refine ⟨fun _ _ h => ?_, fun _ _ _ _ => trivial, fun _ _ h => nomatch h⟩
    have hmint := mint_conserved hs caller recipient value
    rw [show s.mint caller recipient value = _ from Option.some.inj h] at hmint
    exact hmint
  | burn sender value =>
    refine ⟨fun _ _ h => ?_, fun _ _ _ _ => trivial, fun _ _ h hle => ?_⟩
    · obtain ⟨burnt, hburn, h⟩ := Option.map_eq_some_iff.mp h
      cases h
      exact _burn_conserved hburn hs
    · cases h
      exact Option.isSome_map.trans (_burn_isSome hs hle)

/-- A call conserves the supply, trap or not. -/
theorem next_conserved {s : DIP20} (hs : s.Conserved) (c : Call) : (s.next c).Conserved := by
  unfold next
  cases h : s.call c with
  | none => exact hs
  | some answer => exact (supplySound_of_conserved hs c).conserved answer.1 answer.2 h

/-- **Conservation of the supply.** On a token whose balances sum to its supply, every call of every
run that returns leaves them so, only mints and burns change the supply, and a burn traps only for
lack of balance. -/
theorem supply_conserved {s : DIP20} (hs : s.Conserved) (calls : List Call) :
    Along next SupplySound s calls :=
  Along.of_invariant (I := Conserved) (fun _ c h => next_conserved h c) (fun _ c h => supplySound_of_conserved h c)
    hs calls

/-- A fresh token on which anybody may mint, with a flat fee and a proportional burn fee that both
go to the management canister. -/
def mintable : DIP20 :=
  { DIP20.default with
    owner := Principal.anonymous
    feeTo := Principal.managementCanister
    mintOn := true
    burnOn := true
    feeRate := 1
    burnRate := 10 ^ 17
    flatFee := true }

/-- Minting on a fresh token, paying oneself with fees, and burning. -/
theorem supply_conserved_mintable :
    Along next SupplySound mintable
      [.mint Principal.anonymous Principal.anonymous 100,
        .transfer Principal.anonymous Principal.anonymous 50, .burn Principal.anonymous 94] :=
  supply_conserved (s := mintable) rfl _

end Fomowell.Token.DIP20
