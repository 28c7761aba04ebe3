import Fomowell.Candid
import Fomowell.Pmm.Math

/-!
# The DIP20 token (`fomowell-icpex-lib/src/token/dip20.rs`)

The token state and the methods that move balances. A method that takes the token by mutable
reference answers its new state; `none` is a trap, which a subtraction below zero, a failed `unwrap`
or a failed `assert!` raises. A method that answers `Result` returns it beside the state, because an
`Err` does not undo what was written before it.

A transfer makes up to three moves: the burn fee to the management canister, the rest of the fee to
`fee_to`, and the value. Each move reads its two balances from the map that the move before left.
The calls to `print` write a debug log and are not modelled.
-/

namespace Fomowell.Token

open Checked Pmm

/-- `Balances`. -/
abbrev Balances : Type := PrincipalMap Nat

/-- `Allowances`, by owner and then by spender. -/
abbrev Allowances : Type := PrincipalMap (PrincipalMap Nat)

/-- The state of a token. -/
structure DIP20 where
  logo : String
  name : String
  symbol : String
  decimals : UInt8
  totalSupply : Nat
  owner : Principal
  feeTo : Principal
  feeRate : Nat
  burnRate : Nat
  burnOn : Bool
  mintOn : Bool
  balances : Balances
  allowances : Allowances
  flatFee : Bool
  flatBurnFee : Bool

namespace DIP20

/-- `default`. -/
def default : DIP20 where
  logo := ""
  name := ""
  symbol := ""
  decimals := 0
  burnOn := false
  mintOn := false
  owner := Principal.managementCanister
  feeTo := Principal.anonymous
  totalSupply := 0
  feeRate := 0
  burnRate := 0
  balances := ∅
  allowances := ∅
  flatFee := false
  flatBurnFee := false

/-- `balance_of`. -/
def balanceOf (self : DIP20) (id : Principal) : Nat :=
  match self.balances[id]? with
  | some balance => balance
  | none => 0

/-- `allowance`. -/
def allowance (self : DIP20) (owner spender : Principal) : Nat :=
  match self.allowances[owner]? with
  | some inner =>
    match inner[spender]? with
    | some value => value
    | none => 0
  | none => 0

/-- The debit of `_transfer` and of `_burn`: a balance that falls to zero is removed. -/
def debit (self : DIP20) (sender : Principal) (value : Nat) : Option DIP20 := do
  let fromBalanceNew ← sub (self.balanceOf sender) value
  return { self with balances :=
    if fromBalanceNew ≠ 0 then self.balances.insert sender fromBalanceNew
    else self.balances.erase sender }

/-- The credit of `_transfer` and of `_mint`: a balance that stays zero is not stored. -/
def credit (self : DIP20) (recipient : Principal) (value : Nat) : DIP20 :=
  let toBalanceNew := self.balanceOf recipient + value
  { self with balances :=
    if toBalanceNew ≠ 0 then self.balances.insert recipient toBalanceNew else self.balances }

/-- `_transfer`. -/
def _transfer (self : DIP20) (sender recipient : Principal) (value : Nat) : Option DIP20 := do
  let self ← self.debit sender value
  return self.credit recipient value

/-- `cal_burn`. -/
def calBurn (self : DIP20) (amount : Nat) : Nat :=
  if self.flatBurnFee then self.burnRate else mulFloor self.burnRate amount

/-- `cal_fee`, which includes the burn fee. -/
def calFee (self : DIP20) (amount : Nat) : Nat :=
  let fee := if self.flatFee then self.feeRate else mulFloor self.feeRate amount
  if self.burnOn then fee + self.calBurn amount else fee

/-- The burn fee of `_charge_fee`, with the part of the fee that is left for `fee_to`. -/
def chargeBurnFee (self : DIP20) (user : Principal) (fee amount : Nat) : Option (DIP20 × Nat) :=
  if self.burnOn then
    let burnFee := self.calBurn amount
    if burnFee > 0 then do
      let self ← self._transfer user Principal.managementCanister burnFee
      return (self, ← sub fee burnFee)
    else
      some (self, fee)
  else
    some (self, fee)

/-- `_charge_fee`. -/
def _chargeFee (self : DIP20) (user feeTo : Principal) (fee amount : Nat) : Option DIP20 := do
  let (self, feeToUser) ← self.chargeBurnFee user fee amount
  if feeToUser > 0 then self._transfer user feeTo feeToUser else some self

/-- `_mint`. -/
def _mint (self : DIP20) (recipient : Principal) (value : Nat) : DIP20 :=
  { self with totalSupply := self.totalSupply + value }.credit recipient value

/-- `_burn`. The balance is reduced before the supply is. -/
def _burn (self : DIP20) (sender : Principal) (value : Nat) : Option DIP20 := do
  let self ← self.debit sender value
  return { self with totalSupply := ← sub self.totalSupply value }

/-- What `_approve` and the end of `transfer_from` leave of an owner's allowances: an allowance of
zero is removed, and so is an owner without allowances. -/
def setInner (allowances : Allowances) (owner : Principal) (inner : PrincipalMap Nat)
    (spender : Principal) (value : Nat) : Allowances :=
  if value ≠ 0 then
    allowances.insert owner (inner.insert spender value)
  else
    let temp := inner.erase spender
    if temp.size = 0 then allowances.erase owner else allowances.insert owner temp

/-- `_approve`. -/
def _approve (self : DIP20) (owner spender : Principal) (value : Nat) : DIP20 :=
  match self.allowances[owner]? with
  | some inner =>
    { self with allowances := setInner self.allowances owner inner spender value }
  | none =>
    if value ≠ 0 then
      let inner : PrincipalMap Nat := (∅ : PrincipalMap Nat).insert spender value
      { self with allowances := self.allowances.insert owner inner }
    else
      self

/-- `approve`. -/
def approve (self : DIP20) (caller spender : Principal) (value : Nat) : DIP20 :=
  self._approve caller spender value

/-- `transfer`. -/
def transfer (self : DIP20) (caller recipient : Principal) (value : Nat) :
    Option (Except String Unit × DIP20) :=
  let fee := self.calFee value
  if self.balanceOf caller < value + fee then
    some (.error "InsufficientBalance", self)
  else do
    let self ← self._chargeFee caller self.feeTo fee value
    let self ← self._transfer caller recipient value
    return (.ok (), self)

/-- The end of `transfer_from`: the allowance pays the value and the fee. -/
def payAllowance (self : DIP20) (owner spender : Principal) (value fee : Nat) : Option DIP20 :=
  match self.allowances[owner]? with
  | some inner => do
    let result ← inner[spender]?
    let rest ← sub (← sub result value) fee
    return { self with allowances := setInner self.allowances owner inner spender rest }
  | none => none

/-- `transfer_from`. -/
def transferFrom (self : DIP20) (caller sender recipient : Principal) (value : Nat) :
    Option (Except String Unit × DIP20) :=
  let fromAllowance := self.allowance sender caller
  let fee := self.calFee value
  if fromAllowance < value + fee then
    some (.error ("InsufficientAllowance form_allowance:" ++ displayNat fromAllowance ++ ",value:" ++
      displayNat value ++ ",fee:" ++ displayNat fee), self)
  else
    let fromBalance := self.balanceOf sender
    if fromBalance < value + fee then
      some (.error ("InsufficientBalance from_balance:" ++ displayNat fromBalance ++ ",value:" ++
        displayNat value ++ ",fee:" ++ displayNat fee), self)
    else do
      let self ← self._chargeFee sender self.feeTo fee value
      let self ← self._transfer sender recipient value
      let self ← self.payAllowance sender caller value fee
      return (.ok (), self)

/-- `mint`. -/
def mint (self : DIP20) (caller recipient : Principal) (value : Nat) : Except String Unit × DIP20 :=
  if !self.mintOn then
    (.error "MintNotOn", self)
  else if caller ≠ self.owner then
    (.error "NotOwner", self)
  else
    (.ok (), self._mint recipient value)

end DIP20

end Fomowell.Token
