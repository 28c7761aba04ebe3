import Fomowell.Lib.Refinement
import Fomowell.Token.Canonical
import Fomowell.Token.TransferFrom

/-!
# What the token is for

A ledger is a supply, a balance for every account and an allowance for every pair: functions, which say
nothing about maps, entries or the order of the moves. A payment is one update of it, in which the payer gives
the sum of the parts and each party gets its own, the payer and the same party twice included.

`token_is_ledger`: a token from empty maps answers any calls as the ledger does, traps included, and its
maps say what the ledger says. As the maps are canonical, nothing else is in them: two tokens with the same
ledger have the same maps (`maps_eq_of_ledger`).
-/

namespace Fomowell.Token

/-! ## The ledger -/

/-- What a token keeps about its accounts. -/
@[ext] structure Ledger (A : Type) where
  supply : Nat
  balance : A → Nat
  allowance : A → A → Nat

namespace Ledger

variable {A : Type} [DecidableEq A]

/-- The amount of a payment that goes to an account. -/
def received (parts : List (A × Nat)) (id : A) : Nat :=
  ((parts.filter fun part => part.1 = id).map Prod.snd).sum

/-- The parts of a payment leave the account of the payer, and each one arrives. -/
def pay (l : Ledger A) (payer : A) (parts : List (A × Nat)) : Ledger A :=
  { l with
    balance := fun id =>
      (if id = payer then l.balance id - (parts.map Prod.snd).sum else l.balance id) + received parts id }

/-- The allowance of one pair. -/
def allow (l : Ledger A) (owner spender : A) (value : Nat) : Ledger A :=
  { l with
    allowance := Function.update l.allowance owner (Function.update (l.allowance owner) spender value) }

/-- An amount comes into being. -/
def mint (l : Ledger A) (recipient : A) (value : Nat) : Ledger A :=
  { l with
    supply := l.supply + value
    balance := Function.update l.balance recipient (l.balance recipient + value) }

/-- An amount goes out of being. -/
def burn (l : Ledger A) (sender : A) (value : Nat) : Ledger A :=
  { l with
    supply := l.supply - value
    balance := Function.update l.balance sender (l.balance sender - value) }

end Ledger

/-- What calls do not change: who may mint, and the fees on a value. -/
structure Terms where
  owner : Principal
  mintOn : Bool
  feeTo : Principal
  fee : Nat → Nat
  burnt : Nat → Nat

/-- The parts of a transfer. -/
def Terms.parts (t : Terms) (recipient : Principal) (value : Nat) : List (Principal × Nat) :=
  [(Principal.managementCanister, t.burnt value), (t.feeTo, t.fee value - t.burnt value),
    (recipient, value)]

open DIP20 in
/-- What a call does to the ledger, and what it answers. -/
def Terms.step (t : Terms) (l : Ledger Principal) :
    Call → Option (Except String Unit × Ledger Principal)
  | .transfer caller recipient value =>
    if l.balance caller < value + t.fee value then
      some (.error "InsufficientBalance", l)
    else
      some (.ok (), l.pay caller (t.parts recipient value))
  | .transferFrom caller sender recipient value =>
    let granted := l.allowance sender caller
    if granted < value + t.fee value then
      some (.error ("InsufficientAllowance form_allowance:" ++ displayNat granted ++ ",value:" ++
        displayNat value ++ ",fee:" ++ displayNat (t.fee value)), l)
    else if l.balance sender < value + t.fee value then
      some (.error ("InsufficientBalance from_balance:" ++ displayNat (l.balance sender) ++ ",value:" ++
        displayNat value ++ ",fee:" ++ displayNat (t.fee value)), l)
    else if granted = 0 then
      none
    else
      some (.ok (), (l.pay sender (t.parts recipient value)).allow sender caller
        (granted - (value + t.fee value)))
  | .approve caller spender value => some (.ok (), l.allow caller spender value)
  | .mint caller recipient value =>
    if !t.mintOn then some (.error "MintNotOn", l)
    else if caller ≠ t.owner then some (.error "NotOwner", l)
    else some (.ok (), l.mint recipient value)
  | .burn sender value =>
    if l.balance sender < value ∨ l.supply < value then none else some (.ok (), l.burn sender value)

namespace DIP20

open Checked Runs Table Refinement

/-- The ledger that a token keeps. -/
def ledger (self : DIP20) : Ledger Principal := ⟨self.totalSupply, self.balanceOf, self.allowance⟩

/-- The terms of a token. -/
def terms (self : DIP20) : Terms where
  owner := self.owner
  mintOn := self.mintOn
  feeTo := self.feeTo
  fee := self.calFee
  burnt := self.burnPart

section

variable {s s' : DIP20} {answer : Except String Unit}

/-! ## The parts of a call -/

theorem received_parts (t : Terms) (recipient : Principal) (value : Nat) (id : Principal) :
    Ledger.received (t.parts recipient value) id = due Principal.managementCanister (t.burnt value) id +
      due t.feeTo (t.fee value - t.burnt value) id + due recipient value id := by
  have part : ∀ (party : Principal) (amount : Nat) (parts : List (Principal × Nat)),
      Ledger.received ((party, amount) :: parts) id = due party amount id + Ledger.received parts id := by
    intro party amount parts
    unfold Ledger.received due
    by_cases hid : id = party
    · rw [List.filter_cons_of_pos (by simpa using hid.symm), if_pos hid]
      rfl
    · rw [List.filter_cons_of_neg (by simpa using fun e => hid e.symm), if_neg hid, Nat.zero_add]
  unfold Terms.parts
  rw [part, part, part]
  show _ + (_ + (_ + 0)) = _
  omega

/-- What a chain of moves pays is one payment. -/
theorem Pays.ledger {caller recipient : Principal} {value : Nat}
    (h : value + s.calFee value ≤ s.balanceOf caller) (same : SameAllowances s s')
    (pays : Pays s s' caller (s.burnPart value + (s.calFee value - s.burnPart value) + value)
      fun id => due Principal.managementCanister (s.burnPart value) id +
        due s.feeTo (s.calFee value - s.burnPart value) id + due recipient value id) :
    s'.ledger = s.ledger.pay caller (s.terms.parts recipient value) := by
  have hburn := burnPart_le_calFee s value
  apply Ledger.ext
  · show s'.totalSupply = s.totalSupply
    rw [pays.frame]
  · funext id
    have hbalance := pays.balances id
    have htotal : ((s.terms.parts recipient value).map Prod.snd).sum = value + s.calFee value := by
      show s.burnPart value + (s.calFee value - s.burnPart value + (value + 0)) = _
      omega
    show s'.balanceOf id = (if id = caller then s.balanceOf id - _ else s.balanceOf id) + _
    rw [received_parts, htotal]
    show s'.balanceOf id = _ + (due Principal.managementCanister (s.burnPart value) id +
      due s.feeTo (s.calFee value - s.burnPart value) id + due recipient value id)
    by_cases hid : id = caller
    · have hpaid : due caller (s.burnPart value + (s.calFee value - s.burnPart value) + value) id =
          value + s.calFee value := by
        unfold due
        rw [if_pos hid]
        omega
      rw [hpaid] at hbalance
      rw [if_pos hid]
      rw [← hid] at h
      omega
    · have hpaid : due caller (s.burnPart value + (s.calFee value - s.burnPart value) + value) id = 0 :=
        if_neg hid
      rw [hpaid] at hbalance
      rw [if_neg hid]
      exact hbalance
  · funext owner spender
    exact same.allowance owner spender

theorem Pays.terms {payer : Principal} {value : Nat} {given : Principal → Nat}
    (pays : Pays s s' payer value given) : s'.terms = s.terms := by
  rw [pays.frame]
  rfl

/-- What sets an allowance sets it in the ledger. -/
theorem SetsAllowance.ledger {owner spender : Principal} {value : Nat}
    (sets : SetsAllowance s s' owner spender value) (supply : s'.totalSupply = s.totalSupply)
    (balances : s'.balances = s.balances) : s'.ledger = s.ledger.allow owner spender value := by
  apply Ledger.ext
  · exact supply
  · funext id
    show s'.balanceOf id = s.balanceOf id
    unfold balanceOf
    rw [balances]
  · funext o p
    show s'.allowance o p = Function.update s.allowance owner _ o p
    rw [sets o p]
    by_cases ho : o = owner
    · rw [ho, Function.update_self]
      by_cases hp : p = spender
      · rw [hp, Function.update_self, if_pos ⟨rfl, rfl⟩]
      · rw [Function.update_of_ne hp, if_neg fun both => hp both.2]
        rfl
    · rw [Function.update_of_ne ho, if_neg fun both => ho both.1]

/-- An approval and the payment of an allowance write the allowances only. -/
theorem approve_frame (s : DIP20) (owner spender : Principal) (value : Nat) :
    s.approve owner spender value =
      { s with allowances := (s.approve owner spender value).allowances } := by
  unfold approve _approve
  split
  · rfl
  · split <;> rfl

theorem payAllowance_frame {owner spender : Principal} {value fee : Nat}
    (h : s.payAllowance owner spender value fee = some s') :
    s' = { s with allowances := s'.allowances } := by
  obtain ⟨_, _, _, _, rfl⟩ := payAllowance_eq_some h
  rfl

/-! ## One call -/

/-- An answer, and what the ledger is after it. -/
def seen (result : Except String Unit × DIP20) : Except String Unit × Ledger Principal :=
  (result.1, result.2.ledger)

/-- A transfer that the balance covers is one payment. -/
theorem transfer_ledger {caller : Principal} {value : Nat}
    (h : value + s.calFee value ≤ s.balanceOf caller) (recipient : Principal) :
    ∃ s', s.transfer caller recipient value = some (.ok (), s') ∧
      s'.ledger = s.ledger.pay caller (s.terms.parts recipient value) := by
  obtain ⟨s', htransfer, pays⟩ := transfer_pays h recipient
  exact ⟨s', htransfer, Pays.ledger h (transfer_sameAllowances htransfer) pays⟩

theorem transfer_refines (s : DIP20) (caller recipient : Principal) (value : Nat) :
    (s.transfer caller recipient value).map seen =
      s.terms.step s.ledger (.transfer caller recipient value) := by
  unfold Terms.step
  show _ = if s.balanceOf caller < value + s.calFee value then _ else _
  by_cases hshort : s.balanceOf caller < value + s.calFee value
  · rw [transfer_of_lt hshort, if_pos hshort]
    rfl
  · obtain ⟨s', htransfer, hledger⟩ := transfer_ledger (Nat.not_lt.mp hshort) recipient
    rw [htransfer, if_neg hshort, ← hledger]
    rfl

/-- In canonical maps there is an entry where there is an allowance. -/
theorem Canonical.entry_eq_none (canonical : Canonical s) (owner spender : Principal) :
    s.allowanceEntry owner spender = none ↔ s.allowance owner spender = 0 := by
  rw [allowance_eq_getD]
  cases hentry : s.allowanceEntry owner spender with
  | none => exact iff_of_true rfl rfl
  | some value =>
    obtain ⟨inner, hinner, hvalue⟩ := Option.bind_eq_some_iff.mp hentry
    obtain ⟨_, entries⟩ := not_blankInner.mp (canonical.allowances owner inner hinner)
    exact iff_of_false (Option.some_ne_none value) (entries spender value hvalue)

theorem transferFrom_refines (canonical : Canonical s) (caller sender recipient : Principal)
    (value : Nat) :
    (s.transferFrom caller sender recipient value).map seen =
      s.terms.step s.ledger (.transferFrom caller sender recipient value) := by
  unfold Terms.step
  show _ = if s.allowance sender caller < value + s.calFee value then _ else
    if s.balanceOf sender < value + s.calFee value then _ else
      if s.allowance sender caller = 0 then none else _
  by_cases hallowance : s.allowance sender caller < value + s.calFee value
  · unfold transferFrom
    dsimp only
    rw [if_pos hallowance, if_pos hallowance]
    rfl
  rw [if_neg hallowance]
  by_cases hbalance : s.balanceOf sender < value + s.calFee value
  · unfold transferFrom
    dsimp only
    rw [if_neg hallowance, if_pos hbalance, if_pos hbalance]
    rfl
  rw [if_neg hbalance]
  -- both suffice, so what is left to do is the transfer and the payment of the allowance
  obtain ⟨t, htransfer, same, heq⟩ := transferFrom_of_covered (Nat.not_lt.mp hallowance)
    (Nat.not_lt.mp hbalance) recipient
  obtain ⟨t', htransfer', hledger⟩ := transfer_ledger (Nat.not_lt.mp hbalance) recipient
  obtain rfl : t = t' := by
    have hsame := htransfer.symm.trans htransfer'
    cases hsame
    rfl
  rw [heq]
  by_cases hzero : s.allowance sender caller = 0
  · have hentry : t.allowanceEntry sender caller = none := by
      rw [same.entry]
      exact (canonical.entry_eq_none sender caller).mpr hzero
    rw [if_pos hzero, payAllowance_eq_none hentry]
    rfl
  · rw [if_neg hzero]
    cases hentry : t.allowanceEntry sender caller with
    | none =>
      rw [same.entry] at hentry
      exact absurd ((canonical.entry_eq_none sender caller).mp hentry) hzero
    | some granted =>
      have hgranted : t.allowance sender caller = granted := by
        rw [allowance_eq_getD, hentry]
        rfl
      have hcovered : value + s.calFee value ≤ granted := by
        rw [← hgranted, same.allowance]
        exact Nat.not_lt.mp hallowance
      obtain ⟨paid, hpay, hbalances⟩ := payAllowance_returns hentry hcovered
      have sets := (payAllowance_sets hpay).2
      rw [hpay]
      have hsupply : paid.totalSupply = t.totalSupply := by
        rw [payAllowance_frame hpay]
      have hpaid : paid.ledger = _ := sets.ledger hsupply hbalances
      rw [hledger, same.allowance] at hpaid
      exact congrArg (fun l => some (Except.ok (), l)) hpaid

theorem mint_refines (s : DIP20) (caller recipient : Principal) (value : Nat) :
    some (seen (s.mint caller recipient value)) =
      s.terms.step s.ledger (.mint caller recipient value) := by
  unfold Terms.step mint
  show _ = if !s.mintOn then _ else if caller ≠ s.owner then _ else _
  split
  · rfl
  split
  · rfl
  · refine congrArg (fun l => some (Except.ok (), l)) (Ledger.ext rfl ?_ rfl)
    funext id
    show (credit { s with totalSupply := s.totalSupply + value } recipient value).balanceOf id =
      Function.update s.balanceOf recipient _ id
    rw [credit_spec]
    unfold due
    by_cases hid : id = recipient
    · rw [if_pos hid, hid, Function.update_self]
      rfl
    · rw [if_neg hid, Function.update_of_ne hid]
      rfl

theorem burn_refines (s : DIP20) (sender : Principal) (value : Nat) :
    (s._burn sender value).map (fun burnt => seen (.ok (), burnt)) =
      s.terms.step s.ledger (.burn sender value) := by
  unfold Terms.step
  show _ = if s.balanceOf sender < value ∨ s.totalSupply < value then none else _
  by_cases hbalance : s.balanceOf sender < value
  · have htrap : sub (s.balanceOf sender) value = none := if_neg (Nat.not_le.mpr hbalance)
    rw [if_pos (.inl hbalance)]
    unfold _burn debit
    rw [htrap]
    rfl
  obtain ⟨debited, hdebit, hframe, hbalances⟩ := debit_spec (Nat.not_lt.mp hbalance)
  have hsupply : debited.totalSupply = s.totalSupply := by
    rw [hframe]
  unfold _burn
  rw [hdebit]
  dsimp only [Option.bind_eq_bind, Option.bind_some]
  rw [hsupply]
  by_cases hlow : s.totalSupply < value
  · have htrap : sub s.totalSupply value = none := if_neg (Nat.not_le.mpr hlow)
    rw [if_pos (.inr hlow), htrap]
    rfl
  · rw [if_neg (fun either => either.elim hbalance hlow), sub_of_le (Nat.not_lt.mp hlow)]
    refine congrArg (fun l => some (Except.ok (), l)) (Ledger.ext rfl ?_ ?_)
    · funext id
      have hid := hbalances id
      show debited.balanceOf id = Function.update s.balanceOf sender _ id
      unfold due at hid
      by_cases hsender : id = sender
      · rw [if_pos hsender] at hid
        rw [hsender, Function.update_self]
        rw [hsender] at hid
        show debited.balanceOf sender = s.balanceOf sender - value
        omega
      · rw [if_neg hsender] at hid
        rw [Function.update_of_ne hsender]
        exact hid
    · funext owner spender
      exact (debit_sameAllowances hdebit).allowance owner spender

/-- **A call does what the ledger does**, where the maps are canonical. -/
theorem call_refines (canonical : Canonical s) (c : Call) :
    (s.call c).map seen = s.terms.step s.ledger c := by
  cases c with
  | transfer caller recipient value => exact transfer_refines s caller recipient value
  | transferFrom caller sender recipient value =>
    exact transferFrom_refines canonical caller sender recipient value
  | approve caller spender value =>
    have hframe := approve_frame s caller spender value
    refine congrArg (fun l => some (Except.ok (), l)) ?_
    refine (approve_sets s caller spender value).ledger ?_ ?_
    · rw [hframe]
    · rw [hframe]
  | mint caller recipient value => exact mint_refines s caller recipient value
  | burn sender value =>
    rw [← burn_refines s sender value]
    exact Option.map_map ..

/-- No call changes the terms. -/
theorem call_terms {c : Call} (h : s.call c = some (answer, s')) : s'.terms = s.terms := by
  have move : ∀ {x x' : DIP20} {sender recipient : Principal} {value : Nat},
      x._transfer sender recipient value = some x' → x.terms = s.terms → x'.terms = s.terms := by
    intro x x' sender recipient value hmove same
    obtain ⟨debited, hdebit, hmove⟩ := Option.bind_eq_some_iff.mp hmove
    cases hmove
    rw [← same]
    show debited.terms = x.terms
    rw [(debit_balanceSum hdebit).2]
    rfl
  cases c with
  | transfer caller recipient value =>
    obtain ⟨_, rfl⟩ | ⟨_, charged, hcharge, hmove⟩ := transfer_cases h
    · rfl
    · exact move hmove (_chargeFee_invariant (I := fun x => x.terms = s.terms) move hcharge rfl)
  | transferFrom caller sender recipient value =>
    obtain ⟨_, rfl⟩ | ⟨_, charged, moved, hcharge, hmove, hpay⟩ := transferFrom_cases h
    · rfl
    · have hmoved : moved.terms = s.terms :=
        move hmove (_chargeFee_invariant (I := fun x => x.terms = s.terms) move hcharge rfl)
      rw [payAllowance_frame hpay]
      exact hmoved
  | approve caller spender value =>
    cases h
    rw [approve_frame]
    rfl
  | mint caller recipient value =>
    replace h : s.mint caller recipient value = (answer, s') := Option.some.inj h
    unfold mint at h
    split at h
    · cases h
      rfl
    split at h
    · cases h
      rfl
    · cases h
      rfl
  | burn sender value =>
    obtain ⟨burnt, hburn, h⟩ := Option.map_eq_some_iff.mp h
    cases h
    obtain ⟨debited, hdebit, hburn⟩ := Option.bind_eq_some_iff.mp hburn
    obtain ⟨supply, _, hburn⟩ := Option.bind_eq_some_iff.mp hburn
    cases hburn
    show debited.terms = s.terms
    rw [(debit_balanceSum hdebit).2]
    rfl

end

/-! ## Runs -/

/-- **The token refines the ledger** under its own terms. -/
theorem call_refinement (t : Terms) :
    Refines call t.step (fun s => Canonical s ∧ s.terms = t) ledger := by
  refine ⟨?_, ?_⟩
  · rintro s c answer s' h ⟨canonical, hterms⟩
    exact ⟨call_canonical h canonical, (call_terms h).trans hterms⟩
  · rintro s c ⟨canonical, rfl⟩
    exact call_refines canonical c

/-- An owner with an inner map allows something to somebody. -/
theorem Canonical.exists_allowance {s : DIP20} (canonical : Canonical s) {owner : Principal}
    {inner : PrincipalMap Nat} (hinner : s.allowances[owner]? = some inner) :
    ∃ spender, s.allowance owner spender ≠ 0 := by
  obtain ⟨hne, entries⟩ := not_blankInner.mp (canonical.allowances owner inner hinner)
  by_contra hnone
  push Not at hnone
  apply hne
  apply entries.eq_of_getD sparse_empty
  intro spender
  rw [← allowance_of_inner hinner, hnone spender, Std.ExtTreeMap.getElem?_empty]
  rfl

/-- Canonical maps are what their ledger says. -/
theorem maps_eq_of_ledger {s s' : DIP20} (canonical : Canonical s) (canonical' : Canonical s')
    (h : s.ledger = s'.ledger) : s.balances = s'.balances ∧ s.allowances = s'.allowances := by
  have hbalance : s.balanceOf = s'.balanceOf := congrArg Ledger.balance h
  have hallowance : s.allowance = s'.allowance := congrArg Ledger.allowance h
  constructor
  · apply canonical.balances.eq_of_getD canonical'.balances
    intro id
    rw [← balanceOf_eq_getD, ← balanceOf_eq_getD, hbalance]
  · apply Std.ExtTreeMap.ext_getElem?
    intro owner
    cases hinner : s.allowances[owner]? with
    | none =>
      cases hinner' : s'.allowances[owner]? with
      | none => rfl
      | some inner' =>
        obtain ⟨spender, hne⟩ := canonical'.exists_allowance hinner'
        rw [← hallowance, allowance_of_none hinner] at hne
        exact absurd rfl hne
    | some inner =>
      cases hinner' : s'.allowances[owner]? with
      | none =>
        obtain ⟨spender, hne⟩ := canonical.exists_allowance hinner
        rw [hallowance, allowance_of_none hinner'] at hne
        exact absurd rfl hne
      | some inner' =>
        obtain ⟨_, entries⟩ := not_blankInner.mp (canonical.allowances owner inner hinner)
        obtain ⟨_, entries'⟩ := not_blankInner.mp (canonical'.allowances owner inner' hinner')
        refine congrArg some (entries.eq_of_getD entries' ?_)
        intro spender
        rw [← allowance_of_inner hinner, ← allowance_of_inner hinner', hallowance]

/-- **The token is the ledger**: from empty maps, any calls are answered as the ledger answers them, traps
included, and leave canonical maps of what the ledger is after them; and any canonical token that keeps
this ledger has these maps. -/
theorem token_is_ledger (s : DIP20) (hbalances : s.balances = ∅) (hallowances : s.allowances = ∅)
    (calls : List Call) :
    answers call s calls = answers s.terms.step s.ledger calls ∧
      (calls.foldl DIP20.next s).ledger = calls.foldl (Refinement.next s.terms.step) s.ledger ∧
      Canonical (calls.foldl DIP20.next s) ∧
      ∀ s' : DIP20, Canonical s' → s'.ledger = (calls.foldl DIP20.next s).ledger →
        s'.balances = (calls.foldl DIP20.next s).balances ∧
          s'.allowances = (calls.foldl DIP20.next s).allowances := by
  have start : Canonical s := by
    refine ⟨?_, ?_⟩
    · rw [hbalances]
      exact sparse_empty
    · rw [hallowances]
      exact sparse_empty
  obtain ⟨same, final, canonical, _⟩ := (call_refinement s.terms).run ⟨start, rfl⟩ calls
  exact ⟨same, final, canonical, fun s' canonical' h => maps_eq_of_ledger canonical' canonical h⟩

/-- Some mints and transfers of a token with both fees. -/
theorem token_is_ledger_mintable :
    let calls := [Call.mint Principal.anonymous Principal.anonymous 100,
      .approve Principal.anonymous Principal.managementCanister 50,
      .transferFrom Principal.managementCanister Principal.anonymous Principal.anonymous 20]
    answers call mintable calls = answers mintable.terms.step mintable.ledger calls ∧
      (calls.foldl DIP20.next mintable).ledger =
        calls.foldl (Refinement.next mintable.terms.step) mintable.ledger ∧
      Canonical (calls.foldl DIP20.next mintable) ∧
      ∀ s' : DIP20, Canonical s' → s'.ledger = (calls.foldl DIP20.next mintable).ledger →
        s'.balances = (calls.foldl DIP20.next mintable).balances ∧
          s'.allowances = (calls.foldl DIP20.next mintable).allowances :=
  token_is_ledger mintable rfl rfl _

end DIP20

end Fomowell.Token
