import Fomowell.Lib.Runs
import Fomowell.Lib.Table
import Fomowell.Token.Supply

/-!
# Spending under an allowance

An allowance is what is left of the latest approval: the approved value less every value and fee
that the spender took from the owner since (`allowance_ledger`). A run carries the list of the calls
that returned, newest first (`recordCall`), and the two sides of the law are read from it: `approved`
stops at the latest approval of the pair, `spent` sums the charges before it.

Two methods write allowances, and both write the entry of one pair through a copy of the owner's
inner map (`setInner_sets`); every other pair reads as before, although entries of zero and empty
inner maps are removed.
-/

namespace Fomowell.Token.DIP20

open Checked Runs Table

/-! ## History -/

/-- The value that a call names. -/
def Call.value : Call → Nat
  | .transfer _ _ value => value
  | .transferFrom _ _ _ value => value
  | .approve _ _ value => value
  | .mint _ _ value => value
  | .burn _ value => value

/-- The pair whose allowance a call is about. -/
def Call.pair : Call → Option (Principal × Principal)
  | .approve caller spender _ => some (caller, spender)
  | .transferFrom caller sender _ _ => some (sender, caller)
  | _ => none

/-- A call that returned: its answer, and the fee on its value at the time. -/
structure Event where
  call : Call
  answer : Except String Unit
  fee : Nat

/-- The value of an approval of the pair. -/
def Event.approval (owner spender : Principal) (e : Event) : Option Nat :=
  match e.call with
  | .approve caller spender' value =>
    if caller = owner ∧ spender' = spender then some value else none
  | _ => none

/-- What a successful `transfer_from` of the pair takes. -/
def Event.charge (owner spender : Principal) (e : Event) : Nat :=
  match e.call, e.answer with
  | .transferFrom caller sender _ value, .ok () =>
    if sender = owner ∧ caller = spender then value + e.fee else 0
  | _, _ => 0

/-- The value of the latest approval of the pair, zero if there is none. -/
def approved (owner spender : Principal) (history : List Event) : Nat :=
  (history.findSome? (Event.approval owner spender)).getD 0

/-- What the pair's transfers took since the latest approval. -/
def spent (owner spender : Principal) (history : List Event) : Nat :=
  ((history.takeWhile fun e => (e.approval owner spender).isNone).map
    (Event.charge owner spender)).sum

/-- One call on a token and its history. A call that traps is not recorded. -/
def recordCall (m : DIP20 × List Event) (c : Call) : DIP20 × List Event :=
  match m.1.call c with
  | some (answer, s') => (s', ⟨c, answer, m.1.calFee c.value⟩ :: m.2)
  | none => m

theorem approved_cons_of_some {owner spender : Principal} {e : Event} {value : Nat}
    (h : e.approval owner spender = some value) (history : List Event) :
    approved owner spender (e :: history) = value := by
  unfold approved
  rw [List.findSome?_cons, h]
  rfl

theorem approved_cons_of_none {owner spender : Principal} {e : Event}
    (h : e.approval owner spender = none) (history : List Event) :
    approved owner spender (e :: history) = approved owner spender history := by
  unfold approved
  rw [List.findSome?_cons, h]

theorem spent_cons_of_some {owner spender : Principal} {e : Event} {value : Nat}
    (h : e.approval owner spender = some value) (history : List Event) :
    spent owner spender (e :: history) = 0 := by
  unfold spent
  rw [List.takeWhile_cons_of_neg (by rw [h]; exact Bool.false_ne_true)]
  rfl

theorem spent_cons_of_none {owner spender : Principal} {e : Event}
    (h : e.approval owner spender = none) (history : List Event) :
    spent owner spender (e :: history) = e.charge owner spender + spent owner spender history := by
  unfold spent
  rw [List.takeWhile_cons_of_pos (by rw [h]; rfl), List.map_cons, List.sum_cons]

/-! ## One entry -/

/-- The allowance of one pair becomes a value, and no other pair's changes. -/
def SetsAllowance (s s' : DIP20) (owner spender : Principal) (value : Nat) : Prop :=
  ∀ o p, s'.allowance o p = if o = owner ∧ p = spender then value else s.allowance o p

/-- The allowance of an owner who has an inner map. -/
theorem allowance_of_inner {s : DIP20} {owner : Principal} {inner : PrincipalMap Nat}
    (h : s.allowances[owner]? = some inner) (spender : Principal) :
    s.allowance owner spender = inner[spender]?.getD 0 := by
  unfold allowance
  simp only [h]
  cases inner[spender]? <;> rfl

/-- An owner without an inner map allows nothing. -/
theorem allowance_of_none {s : DIP20} {owner : Principal} (h : s.allowances[owner]? = none)
    (spender : Principal) : s.allowance owner spender = 0 := by
  unfold allowance
  rw [h]

/-- An allowance depends on the owner's inner map only. -/
theorem allowance_congr {s s' : DIP20} {owner : Principal}
    (h : s'.allowances[owner]? = s.allowances[owner]?) (spender : Principal) :
    s'.allowance owner spender = s.allowance owner spender := by
  unfold allowance
  rw [h]

/-- An insertion of a new inner map sets what the inner map sets. -/
theorem sets_of_insert {s s' : DIP20} {owner spender : Principal} {inner : PrincipalMap Nat}
    {value : Nat} (h : s'.allowances = s.allowances.insert owner inner)
    (hinner : ∀ p, inner[p]?.getD 0 = if p = spender then value else s.allowance owner p) :
    SetsAllowance s s' owner spender value := by
  intro o p
  by_cases ho : o = owner
  · subst ho
    have hstored : s'.allowances[o]? = some inner := by
      rw [h, Std.ExtTreeMap.getElem?_insert_self]
    rw [allowance_of_inner hstored, hinner p]
    simp only [true_and]
  · rw [if_neg (fun hpair => ho hpair.1)]
    exact allowance_congr (by rw [h, get_insert_of_ne _ _ ho]) p

/-- **Writing one entry** sets the allowance of its pair alone, whether the entry is stored, removed,
or removed with the inner map it leaves empty. -/
theorem setInner_sets {s s' : DIP20} {owner : Principal} {inner : PrincipalMap Nat}
    (hinner : s.allowances[owner]? = some inner) (spender : Principal) (value : Nat)
    (h : s'.allowances = setInner s.allowances owner inner spender value) :
    SetsAllowance s s' owner spender value := by
  unfold setInner at h
  dsimp only at h
  split at h
  · apply sets_of_insert h
    intro p
    rw [get_insert, allowance_of_inner hinner]
    split <;> rfl
  next hzero =>
    rw [not_not] at hzero
    have herase : ∀ p, (inner.erase spender)[p]?.getD 0 =
        if p = spender then value else s.allowance owner p := by
      intro p
      by_cases hp : p = spender
      · rw [hp, Std.ExtTreeMap.getElem?_erase_self, if_pos rfl, hzero]
        rfl
      · rw [get_erase_of_ne _ hp, if_neg hp, allowance_of_inner hinner]
    split at h
    next hempty =>
      -- the inner map is gone: no spender of this owner had another entry
      rw [← Std.ExtTreeMap.eq_empty_iff_size_eq_zero] at hempty
      intro o p
      by_cases ho : o = owner
      · subst ho
        rw [allowance_of_none (by rw [h, Std.ExtTreeMap.getElem?_erase_self])]
        have hp := herase p
        rw [hempty, Std.ExtTreeMap.getElem?_empty] at hp
        simp only [true_and]
        exact hp
      · rw [if_neg (fun hpair => ho hpair.1)]
        exact allowance_congr (by rw [h, get_erase_of_ne _ ho]) p
    · exact sets_of_insert h herase

/-! ## The methods that write allowances -/

/-- An approval sets the allowance of its pair. -/
theorem approve_sets (s : DIP20) (owner spender : Principal) (value : Nat) :
    SetsAllowance s (s.approve owner spender value) owner spender value := by
  unfold approve _approve
  split
  next inner hinner => exact setInner_sets hinner spender value rfl
  next hnone =>
    split
    · apply sets_of_insert rfl
      intro p
      rw [get_insert, allowance_of_none hnone, Std.ExtTreeMap.getElem?_empty]
      split <;> rfl
    next hzero =>
      intro o p
      split
      next hpair => rw [hpair.1, allowance_of_none hnone, not_not.mp hzero]
      · rfl

/-- The end of `transfer_from` takes the value and the fee from the allowance of its pair, which
holds both. -/
theorem payAllowance_sets {s s' : DIP20} {owner spender : Principal} {value fee : Nat}
    (h : s.payAllowance owner spender value fee = some s') :
    value + fee ≤ s.allowance owner spender ∧
      SetsAllowance s s' owner spender (s.allowance owner spender - (value + fee)) := by
  obtain ⟨inner, rest, hinner, hentry, rfl⟩ := payAllowance_eq_some h
  have hallowance : s.allowance owner spender = value + (fee + rest) := by
    rw [allowance_of_inner hinner, hentry]
    rfl
  constructor
  · omega
  · rw [show s.allowance owner spender - (value + fee) = rest by omega]
    exact setInner_sets hinner spender rest rfl

/-! ## The methods that do not -/

/-- Two states that differ in balances and supply at most. -/
def SameAllowances (s s' : DIP20) : Prop := s'.allowances = s.allowances

theorem SameAllowances.allowance {s s' : DIP20} (h : SameAllowances s s')
    (owner spender : Principal) : s'.allowance owner spender = s.allowance owner spender := by
  apply allowance_congr
  rw [h]

theorem debit_sameAllowances {s s' : DIP20} {sender : Principal} {value : Nat}
    (h : s.debit sender value = some s') : SameAllowances s s' := by
  unfold SameAllowances
  rw [(debit_balanceSum h).2]

theorem _transfer_sameAllowances {s s' : DIP20} {sender recipient : Principal} {value : Nat}
    (h : s._transfer sender recipient value = some s') : SameAllowances s s' := by
  obtain ⟨debited, hdebit, h⟩ := Option.bind_eq_some_iff.mp h
  cases h
  have hsame := debit_sameAllowances hdebit
  exact hsame

/-- Charging a fee leaves every allowance. -/
theorem _chargeFee_sameAllowances {s s' : DIP20} {user feeTo : Principal} {fee amount : Nat}
    (h : s._chargeFee user feeTo fee amount = some s') : SameAllowances s s' :=
  _chargeFee_invariant (I := SameAllowances s)
    (fun hmove same => (_transfer_sameAllowances hmove).trans same) h rfl

theorem transfer_sameAllowances {s s' : DIP20} {caller recipient : Principal} {value : Nat}
    {answer : Except String Unit} (h : s.transfer caller recipient value = some (answer, s')) :
    SameAllowances s s' := by
  obtain ⟨_, rfl⟩ | ⟨_, charged, hcharge, hmove⟩ := transfer_cases h
  · rfl
  · exact (_transfer_sameAllowances hmove).trans (_chargeFee_sameAllowances hcharge)

theorem mint_sameAllowances (s : DIP20) (caller recipient : Principal) (value : Nat) :
    SameAllowances s (s.mint caller recipient value).2 := by
  unfold mint
  split
  · rfl
  · split <;> rfl

theorem _burn_sameAllowances {s s' : DIP20} {sender : Principal} {value : Nat}
    (h : s._burn sender value = some s') : SameAllowances s s' := by
  obtain ⟨debited, hdebit, h⟩ := Option.bind_eq_some_iff.mp h
  obtain ⟨supply, _, h⟩ := Option.bind_eq_some_iff.mp h
  cases h
  have hsame := debit_sameAllowances hdebit
  exact hsame

/-- **What `transfer_from` does to the allowances**: an error leaves them, and a success takes the
value and the fee from the allowance of its pair. -/
theorem transferFrom_allowance {s s' : DIP20} {caller sender recipient : Principal} {value : Nat}
    {answer : Except String Unit}
    (h : s.transferFrom caller sender recipient value = some (answer, s')) :
    (answer ≠ .ok () ∧ s' = s) ∨
      (answer = .ok () ∧ value + s.calFee value ≤ s.allowance sender caller ∧
        SetsAllowance s s' sender caller (s.allowance sender caller - (value + s.calFee value))) := by
  obtain refused | ⟨rfl, charged, moved, hcharge, hmove, hpay⟩ := transferFrom_cases h
  · exact .inl refused
  · have hsame : SameAllowances s moved :=
      (_transfer_sameAllowances hmove).trans (_chargeFee_sameAllowances hcharge)
    obtain ⟨hle, hset⟩ := payAllowance_sets hpay
    rw [hsame.allowance] at hle hset
    refine .inr ⟨rfl, hle, ?_⟩
    intro o p
    rw [hset o p, hsame.allowance]

/-! ## Runs -/

/-- **One call**: an approval of a pair sets its allowance; any other call takes its charge from it,
which is nothing for the calls of other pairs. -/
theorem call_allowance {s s' : DIP20} {c : Call} {answer : Except String Unit}
    (h : s.call c = some (answer, s')) (owner spender : Principal) :
    let e : Event := ⟨c, answer, s.calFee c.value⟩
    (∃ value, e.approval owner spender = some value ∧ s'.allowance owner spender = value) ∨
      (e.approval owner spender = none ∧
        s.allowance owner spender = s'.allowance owner spender + e.charge owner spender) := by
  cases c with
  | transfer caller recipient value =>
    right
    exact ⟨rfl, ((transfer_sameAllowances h).allowance owner spender).symm⟩
  | transferFrom caller sender recipient value =>
    right
    refine ⟨rfl, ?_⟩
    obtain ⟨hanswer, rfl⟩ | ⟨rfl, hle, hset⟩ := transferFrom_allowance h
    · cases answer with
      | error => rfl
      | ok => exact absurd rfl hanswer
    · unfold Event.charge Call.value
      rw [hset owner spender]
      dsimp only
      by_cases hpair : sender = owner ∧ caller = spender
      · obtain ⟨rfl, rfl⟩ := hpair
        simp only [and_self, if_true]
        omega
      · rw [if_neg hpair, if_neg (fun h => hpair ⟨h.1.symm, h.2.symm⟩)]
        rfl
  | approve caller spender' value =>
    have hset := approve_sets s caller spender' value owner spender
    cases h
    unfold Event.approval
    by_cases hpair : caller = owner ∧ spender' = spender
    · left
      obtain ⟨rfl, rfl⟩ := hpair
      rw [hset]
      simp only [and_self, if_true]
      exact ⟨value, rfl, rfl⟩
    · right
      rw [hset, if_neg (fun h => hpair ⟨h.1.symm, h.2.symm⟩)]
      exact ⟨if_neg hpair, rfl⟩
  | mint caller recipient value =>
    right
    have hsame := mint_sameAllowances s caller recipient value
    rw [show s.mint caller recipient value = _ from Option.some.inj h] at hsame
    exact ⟨rfl, (hsame.allowance owner spender).symm⟩
  | burn sender value =>
    right
    obtain ⟨burnt, hburn, h⟩ := Option.map_eq_some_iff.mp h
    cases h
    exact ⟨rfl, ((_burn_sameAllowances hburn).allowance owner spender).symm⟩

/-- The law of the allowances, for every pair. -/
def AllowanceLaw (m : DIP20 × List Event) : Prop :=
  ∀ owner spender,
    m.1.allowance owner spender + spent owner spender m.2 = approved owner spender m.2

theorem recordCall_allowanceLaw {m : DIP20 × List Event} (h : AllowanceLaw m) (c : Call) :
    AllowanceLaw (recordCall m c) := by
  unfold recordCall
  split
  next answer s' hcall =>
    intro owner spender
    have hbefore := h owner spender
    obtain ⟨value, happroval, hvalue⟩ | ⟨happroval, hcharge⟩ := call_allowance hcall owner spender
    · rw [approved_cons_of_some happroval, spent_cons_of_some happroval]
      exact hvalue
    · rw [approved_cons_of_none happroval, spent_cons_of_none happroval, ← hbefore, hcharge]
      exact (Nat.add_assoc _ _ _).symm
  · exact h

/-- A call that is about another pair, or about none, leaves the allowance of this one. -/
theorem call_frame {s s' : DIP20} {c : Call} {answer : Except String Unit}
    (h : s.call c = some (answer, s')) {owner spender : Principal}
    (hpair : c.pair ≠ some (owner, spender)) :
    s'.allowance owner spender = s.allowance owner spender := by
  obtain ⟨value, happroval, -⟩ | ⟨-, hcharge⟩ := call_allowance h owner spender
  · unfold Event.approval at happroval
    split at happroval
    next caller spender' value' hc =>
      split at happroval
      next hown =>
        dsimp only at hc
        rw [hc, Call.pair, hown.1, hown.2] at hpair
        exact absurd rfl hpair
      · cases happroval
    · cases happroval
  · rw [hcharge, Event.charge]
    split
    next caller sender recipient value hc _ =>
      split
      next hown =>
        dsimp only at hc
        rw [hc, Call.pair, hown.1, hown.2] at hpair
        exact absurd rfl hpair
      · rfl
    · rfl

/-- After a call that returns, every allowance is the latest approval less what was spent since, and
only the allowance of the call's own pair may have changed. -/
structure AllowanceSound (m : DIP20 × List Event) (c : Call) : Prop where
  law : ∀ answer s', m.1.call c = some (answer, s') → ∀ owner spender,
    spent owner spender (recordCall m c).2 ≤ approved owner spender (recordCall m c).2 ∧
    s'.allowance owner spender =
      approved owner spender (recordCall m c).2 - spent owner spender (recordCall m c).2
  frame : ∀ answer s', m.1.call c = some (answer, s') → ∀ owner spender,
    c.pair ≠ some (owner, spender) → s'.allowance owner spender = m.1.allowance owner spender

theorem allowanceSound_of_law {m : DIP20 × List Event} (h : AllowanceLaw m) (c : Call) :
    AllowanceSound m c := by
  constructor
  · intro answer s' hcall owner spender
    have hafter := recordCall_allowanceLaw h c owner spender
    have hstate : (recordCall m c).1 = s' := by
      unfold recordCall
      rw [hcall]
    rw [hstate] at hafter
    omega
  · intro answer s' hcall owner spender hpair
    exact call_frame hcall hpair

/-- **Spending under an allowance is bounded.** In every run on a token that starts without
allowances, after each call that returns, the allowance of every pair is the value of the latest
approval less what the spender took since, fees included; and a call changes the allowance of its own
pair at most. -/
theorem allowance_ledger (s : DIP20) (hfresh : s.allowances = ∅) (calls : List Call) :
    Along recordCall AllowanceSound (s, []) calls := by
  have hlaw : AllowanceLaw (s, []) := by
    intro owner spender
    exact allowance_of_none (by rw [hfresh, Std.ExtTreeMap.getElem?_empty]) spender
  exact Along.of_invariant (I := AllowanceLaw) (fun _ c h => recordCall_allowanceLaw h c)
    (fun _ c h => allowanceSound_of_law h c) hlaw calls

theorem allowance_ledger_mintable :
    Along recordCall AllowanceSound (mintable, [])
      [.mint Principal.anonymous Principal.anonymous 100,
        .approve Principal.anonymous Principal.managementCanister 50,
        .transferFrom Principal.managementCanister Principal.anonymous Principal.anonymous 20,
        .approve Principal.anonymous Principal.managementCanister 0] :=
  allowance_ledger mintable rfl _

end Fomowell.Token.DIP20
