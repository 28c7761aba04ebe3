import Fomowell.Launcher.Frames
import Fomowell.Pmm.Math

/-!
# Fees, charges and uploads (`fomowell-launcher/src/main.rs`)

The functions that several methods await: `get_icp_platform_fee`, which quotes a fee in ICP from the
caller's balance, its allowance and the oracle's price; the charge that follows a quote; and
`upload_file`. What a method does with a quote that fails differs: `topup_points` answers the error,
the other two trap.
-/

namespace Fomowell.Launcher

open Canister Token Checked Pmm

/-! ## The platform fee -/

/-- `get_icp_platform_fee` up to its first await. -/
def getIcpPlatformFee (time : Nat) (fee : Fee) (st : State) : Segment :=
  callToken time (.balanceOf fee) st

/-- The arithmetic of `get_icp_platform_fee`: the fee is one per cent above or below the price, as
the allowance suffices for. -/
def platformFee (totalBalance allowanceBalance usdAmount price : Nat) :
    Option (Except String Nat) := do
  let fee := (← div (usdAmount * 10 ^ 8) price) + 10000
  let maxFee := fee + fee / 100
  let minFee ← sub fee (fee / 100)
  if allowanceBalance < minFee then
    return .error ("allowance balance " ++ displayNat allowanceBalance ++ " not enough " ++
      displayNat minFee)
  else
    let resultFee :=
      if allowanceBalance > maxFee then maxFee
      else if allowanceBalance > fee then fee
      else minFee
    if totalBalance < resultFee then
      return .error ("total balance " ++ displayNat totalBalance ++ " not enough " ++
        displayNat resultFee)
    else
      return .ok resultFee

/-- The charge that follows the quote of a fee. -/
def chargeFee (env : Env) (time : Nat) (fee : Fee) (value : Nat) (memo : String) (k : ChargeCont)
    (st : State) : Segment :=
  callToken time
    (.transferFrom { tokenId := fee.tokenId, sender := fee.caller, recipient := env.id, value, memo, k })
    st

/-- What the method that asked for a quote does with it. -/
def feeReturn (env : Env) (time : Nat) (fee : Fee) (quote : Except String Nat) (st : State) :
    Segment :=
  match fee.k, quote with
  | .topupPoints pointsAmount, .ok value =>
    chargeFee env time fee value "points" (.topupPoints pointsAmount) st
  | .topupPoints _, .error e => some (st, .returned (.topupPoints (.error e)))
  | .createFomo fomoCreate, .ok value =>
    chargeFee env time fee value "fomo" (.createFomo fomoCreate) st
  | .createFomo _, .error _ => none
  | .ownershipTransfer tokenPid toNewControllerPid, .ok value =>
    some (st, .awaits (.icrc2Approve
      { caller := fee.caller, tokenPid, toNewControllerPid, fee := value }))
  | .ownershipTransfer .., .error _ => none

/-- The end of `get_icp_platform_fee`. -/
def getIcpPlatformFeePrices (env : Env) (time : Nat) (fee : Fee)
    (totalBalance allowanceBalance : Nat) (prices : CallResult (PrincipalMap Nat)) (st : State) :
    Segment := do
  let res ← unwrap prices
  let price ← res[fee.tokenId]?
  let quote ← platformFee totalBalance allowanceBalance fee.usdAmount price
  feeReturn env time fee quote st

/-! ## Uploads -/

/-- `upload_file` up to its await. -/
def uploadFile (imageUrl : String) (k : UploadCont) (st : State) : Segment :=
  some (st, .awaits (.httpRequest
    ("https://image.fomowell.com/api/files/replace?file=" ++ imageUrl) k))

/-- The end of `upload_file`. -/
def uploadReference (env : Env) (reply : CallResult HttpResponse) : Option String := do
  let response ← unwrap reply
  if response.status ≠ 200 then none else env.beeRes response.body

end Fomowell.Launcher
