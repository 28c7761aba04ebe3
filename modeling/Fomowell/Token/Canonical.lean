import Fomowell.Lib.Sparse
import Fomowell.Token.Allowances
import Fomowell.Token.Transfer

/-!
# The token's maps are canonical

No balance of zero is stored, no allowance of zero, and no owner without allowances. Every debit,
credit and approval decides on its own whether it stores an entry or removes one; what they have in
common is that a map is only ever inserted a value that is not blank into, or erased from
(`Table.Sparse`). `maps_canonical` carries the invariant over every run, and with it the three
methods that count entries count what they say.
-/

namespace Fomowell.Token.DIP20

open Checked Runs Table

/-! ## The methods that count -/

/-- `get_holders_num`. -/
def getHoldersNum (self : DIP20) : Nat := self.balances.size

/-- `get_allowance_size`. -/
def getAllowanceSize (self : DIP20) : Nat := sumOf (fun _ v => v.size) self.allowances

/-- `get_user_approvals`. The source's order is that of a hash map. -/
def getUserApprovals (self : DIP20) (who : Principal) : List (Principal × Nat) :=
  match self.allowances[who]? with
  | some allow => allow.toList
  | none => []

/-! ## Canonical maps -/

/-- An inner map of allowances that should not be stored: an empty one, or one with a zero. -/
def BlankInner (inner : PrincipalMap Nat) : Prop := inner = ∅ ∨ ¬ Sparse (· = 0) inner

/-- No entry is stored that says the same as no entry. -/
structure Canonical (s : DIP20) : Prop where
  balances : Sparse (· = 0) s.balances
  allowances : Sparse BlankInner s.allowances

/-- An inner map that is kept has entries, none of them zero. -/
theorem not_blankInner {inner : PrincipalMap Nat} :
    ¬ BlankInner inner ↔ inner ≠ ∅ ∧ Sparse (· = 0) inner := by
  unfold BlankInner
  rw [not_or, not_not]

section

variable {s s' : DIP20}

/-! ## Balances -/

/-- A balance that falls to zero is removed. -/
theorem debit_sparse {sender : Principal} {value : Nat} (h : s.debit sender value = some s')
    (sparse : Sparse (· = 0) s.balances) : Sparse (· = 0) s'.balances := by
  obtain ⟨rest, _, h⟩ := Option.bind_eq_some_iff.mp h
  cases h
  dsimp only
  split_ifs with hzero
  · exact sparse.insert sender hzero
  · exact sparse.erase sender

/-- A balance that is not zero is inserted, and a zero one removed. -/
theorem credit_sparse (sparse : Sparse (· = 0) s.balances) (recipient : Principal) (value : Nat) :
    Sparse (· = 0) (s.credit recipient value).balances := by
  unfold credit
  dsimp only
  split_ifs with hzero
  · exact sparse.insert recipient hzero
  · exact sparse

/-- A transfer is a debit and a credit. -/
theorem _transfer_sparse {sender recipient : Principal} {value : Nat}
    (h : s._transfer sender recipient value = some s') (sparse : Sparse (· = 0) s.balances) :
    Sparse (· = 0) s'.balances := by
  obtain ⟨debited, hdebit, h⟩ := Option.bind_eq_some_iff.mp h
  cases h
  exact credit_sparse (debit_sparse hdebit sparse) recipient value

theorem _chargeFee_sparse {user feeTo : Principal} {fee amount : Nat}
    (h : s._chargeFee user feeTo fee amount = some s') (sparse : Sparse (· = 0) s.balances) :
    Sparse (· = 0) s'.balances :=
  _chargeFee_invariant (I := fun s => Sparse (· = 0) s.balances) _transfer_sparse h sparse

/-! ## Allowances -/

/-- An allowance of zero is removed, and its owner with the last one. -/
theorem setInner_sparse {allowances : Allowances} {owner : Principal} {inner : PrincipalMap Nat}
    (hinner : allowances[owner]? = some inner) (sparse : Sparse BlankInner allowances)
    (spender : Principal) (value : Nat) :
    Sparse BlankInner (setInner allowances owner inner spender value) := by
  obtain ⟨_, entries⟩ := not_blankInner.mp (sparse owner inner hinner)
  unfold setInner
  dsimp only
  split_ifs with hzero hempty
  · apply sparse.insert owner
    rw [not_blankInner]
    refine ⟨?_, entries.insert spender hzero⟩
    intro hempty
    have hget : (inner.insert spender value)[spender]? = some value :=
      Std.ExtTreeMap.getElem?_insert_self
    rw [hempty, Std.ExtTreeMap.getElem?_empty] at hget
    cases hget
  · exact sparse.erase owner
  · apply sparse.insert owner
    rw [not_blankInner]
    exact ⟨fun h => hempty (Std.ExtTreeMap.eq_empty_iff_size_eq_zero.mp h), entries.erase spender⟩

/-- An approval of zero by an owner without allowances inserts nothing. -/
theorem approve_sparse (sparse : Sparse BlankInner s.allowances) (caller spender : Principal)
    (value : Nat) : Sparse BlankInner (s.approve caller spender value).allowances := by
  unfold approve _approve
  split
  next inner hinner => exact setInner_sparse hinner sparse spender value
  next hnone =>
    split_ifs with hzero
    · apply sparse.insert caller
      rw [not_blankInner]
      refine ⟨?_, sparse_empty.insert spender hzero⟩
      intro hempty
      have hget : ((∅ : PrincipalMap Nat).insert spender value)[spender]? = some value :=
        Std.ExtTreeMap.getElem?_insert_self
      rw [hempty, Std.ExtTreeMap.getElem?_empty] at hget
      cases hget
    · exact sparse

/-- The end of `transfer_from` writes one allowance. -/
theorem payAllowance_canonical {owner spender : Principal} {value fee : Nat}
    (h : s.payAllowance owner spender value fee = some s') (canonical : Canonical s) :
    Canonical s' := by
  obtain ⟨inner, rest, hinner, _, rfl⟩ := payAllowance_eq_some h
  exact ⟨canonical.balances, setInner_sparse hinner canonical.allowances spender rest⟩

/-! ## The methods -/

/-- A method that leaves the allowances keeps the maps canonical where it keeps the balances so. -/
theorem SameAllowances.canonical (same : SameAllowances s s') (canonical : Canonical s)
    (sparse : Sparse (· = 0) s'.balances) : Canonical s' := by
  refine ⟨sparse, ?_⟩
  rw [same]
  exact canonical.allowances

theorem transfer_canonical {caller recipient : Principal} {value : Nat}
    {answer : Except String Unit} (h : s.transfer caller recipient value = some (answer, s'))
    (canonical : Canonical s) : Canonical s' := by
  refine (transfer_sameAllowances h).canonical canonical ?_
  obtain ⟨_, rfl⟩ | ⟨_, charged, hcharge, hmove⟩ := transfer_cases h
  · exact canonical.balances
  · exact _transfer_sparse hmove (_chargeFee_sparse hcharge canonical.balances)

theorem transferFrom_canonical {caller sender recipient : Principal} {value : Nat}
    {answer : Except String Unit}
    (h : s.transferFrom caller sender recipient value = some (answer, s'))
    (canonical : Canonical s) : Canonical s' := by
  obtain ⟨_, rfl⟩ | ⟨_, charged, moved, hcharge, hmove, hpay⟩ := transferFrom_cases h
  · exact canonical
  · have same : SameAllowances s moved :=
      (_transfer_sameAllowances hmove).trans (_chargeFee_sameAllowances hcharge)
    apply payAllowance_canonical hpay
    apply same.canonical canonical
    exact _transfer_sparse hmove (_chargeFee_sparse hcharge canonical.balances)

theorem mint_canonical (canonical : Canonical s) (caller recipient : Principal) (value : Nat) :
    Canonical (s.mint caller recipient value).2 := by
  refine (mint_sameAllowances s caller recipient value).canonical canonical ?_
  unfold mint
  split
  · exact canonical.balances
  split
  · exact canonical.balances
  · exact credit_sparse (s := { s with totalSupply := s.totalSupply + value }) canonical.balances
      recipient value

theorem _burn_canonical {sender : Principal} {value : Nat} (h : s._burn sender value = some s')
    (canonical : Canonical s) : Canonical s' := by
  refine (_burn_sameAllowances h).canonical canonical ?_
  obtain ⟨debited, hdebit, h⟩ := Option.bind_eq_some_iff.mp h
  obtain ⟨supply, _, h⟩ := Option.bind_eq_some_iff.mp h
  cases h
  have sparse := debit_sparse hdebit canonical.balances
  exact sparse

/-- **Every method** keeps the maps canonical. -/
theorem call_canonical {c : Call} {answer : Except String Unit}
    (h : s.call c = some (answer, s')) (canonical : Canonical s) : Canonical s' := by
  cases c with
  | transfer caller recipient value => exact transfer_canonical h canonical
  | transferFrom caller sender recipient value => exact transferFrom_canonical h canonical
  | approve caller spender value =>
    cases h
    refine ⟨?_, approve_sparse canonical.allowances caller spender value⟩
    have hbalances : (s.approve caller spender value).balances = s.balances := by
      unfold approve _approve
      split
      · rfl
      · split <;> rfl
    rw [hbalances]
    exact canonical.balances
  | mint caller recipient value =>
    have hmint := mint_canonical canonical caller recipient value
    rw [show s.mint caller recipient value = _ from Option.some.inj h] at hmint
    exact hmint
  | burn sender value =>
    obtain ⟨burnt, hburn, h⟩ := Option.map_eq_some_iff.mp h
    cases h
    exact _burn_canonical hburn canonical

/-- A call that traps leaves the maps as they were. -/
theorem next_canonical (canonical : Canonical s) (c : Call) : Canonical (s.next c) := by
  unfold next
  cases h : s.call c with
  | none => exact canonical
  | some result => exact call_canonical h canonical

end

/-! ## What the counts mean -/

/-- What the three methods count. -/
structure CountsRight (s : DIP20) : Prop where
  holders : {id | s.balanceOf id ≠ 0}.encard = s.getHoldersNum
  allowances : {pair : Principal × Principal | s.allowance pair.1 pair.2 ≠ 0}.encard =
    s.getAllowanceSize
  distinct : ∀ owner, ((s.getUserApprovals owner).map Prod.fst).Nodup
  approvals : ∀ owner spender value, (spender, value) ∈ s.getUserApprovals owner ↔
    value ≠ 0 ∧ s.allowance owner spender = value

/-- In a sparse table of numbers, a key has an entry where it does not read zero. -/
theorem Sparse.isSome_iff {t : PrincipalMap Nat} (sparse : Sparse (· = 0) t) (id : Principal) :
    t[id]?.isSome ↔ t[id]?.getD 0 ≠ 0 := by
  cases h : t[id]? with
  | none => simp only [Option.isSome_none, Bool.false_eq_true, Option.getD_none, ne_eq,
      not_true_eq_false]
  | some value => simpa only [Option.isSome_some, Option.getD_some, true_iff] using sparse id value h

theorem Canonical.countsRight {s : DIP20} (canonical : Canonical s) : CountsRight s := by
  have allowanceOf : ∀ owner spender, s.allowance owner spender ≠ 0 ↔
      (s.allowances[owner]?.bind fun inner => inner[spender]?).isSome := by
    intro owner spender
    cases hinner : s.allowances[owner]? with
    | none =>
      rw [allowance_of_none hinner]
      simp only [ne_eq, not_true_eq_false, Option.bind_none, Option.isSome_none,
        Bool.false_eq_true]
    | some inner =>
      obtain ⟨_, entries⟩ := not_blankInner.mp (canonical.allowances owner inner hinner)
      rw [allowance_of_inner hinner, Option.bind_some]
      exact (Sparse.isSome_iff entries spender).symm
  refine ⟨?_, ?_, ?_, ?_⟩
  · unfold getHoldersNum
    rw [← encard_keys]
    congr 1
    ext id
    rw [Set.mem_ofPred_eq, Set.mem_ofPred_eq, balanceOf_eq_getD]
    exact (Sparse.isSome_iff canonical.balances id).symm
  · unfold getAllowanceSize
    rw [← encard_pairs]
    congr 1
    ext pair
    exact allowanceOf pair.1 pair.2
  · intro owner
    unfold getUserApprovals
    split
    next allow hallow =>
      rw [Std.ExtTreeMap.map_fst_toList_eq_keys]
      exact Std.ExtTreeMap.nodup_keys
    next => exact List.nodup_nil
  · intro owner spender value
    unfold getUserApprovals
    split
    next allow hallow =>
      obtain ⟨_, entries⟩ := not_blankInner.mp (canonical.allowances owner allow hallow)
      rw [Std.ExtTreeMap.mem_toList_iff_getElem?_eq_some, allowance_of_inner hallow]
      constructor
      · intro hvalue
        rw [hvalue]
        exact ⟨entries spender value hvalue, rfl⟩
      · rintro ⟨hne, rfl⟩
        obtain ⟨value, hvalue⟩ :=
          Option.isSome_iff_exists.mp ((Sparse.isSome_iff entries spender).mpr hne)
        rw [hvalue]
        rfl
    next hnone =>
      rw [allowance_of_none hnone]
      simp only [List.not_mem_nil, false_iff, not_and]
      intro hne hzero
      exact hne hzero.symm

/-- **The maps stay canonical** over every run from empty maps, and the methods that count entries
count the holders, the pairs with an allowance, and an owner's spenders. -/
theorem maps_canonical (s : DIP20) (hbalances : s.balances = ∅) (hallowances : s.allowances = ∅)
    (calls : List Call) :
    Canonical (calls.foldl next s) ∧ CountsRight (calls.foldl next s) := by
  have empty : Canonical s := by
    refine ⟨?_, ?_⟩
    · rw [hbalances]
      exact sparse_empty
    · rw [hallowances]
      exact sparse_empty
  have canonical : Canonical (calls.foldl next s) :=
    foldl_invariant (I := Canonical) (fun _ c h => next_canonical h c) empty calls
  exact ⟨canonical, canonical.countsRight⟩

/-- Everything that was minted is paid away, and an approval is taken back. -/
theorem maps_canonical_mintable :
    let s := [Call.mint Principal.anonymous Principal.anonymous 100,
      .approve Principal.anonymous Principal.managementCanister 5,
      .transfer Principal.anonymous Principal.managementCanister 90,
      .approve Principal.anonymous Principal.managementCanister 0].foldl next mintable
    Canonical s ∧ CountsRight s :=
  maps_canonical mintable rfl rfl _

end Fomowell.Token.DIP20
