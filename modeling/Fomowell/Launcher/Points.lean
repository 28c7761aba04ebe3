import Fomowell.Launcher.State

/-!
# Points (`fomowell-launcher/src/main.rs`)

The functions that grant, add and deduct a user's points, each with its record in
`POINT_HISTORY_MAP`, and the two methods that call them without awaiting. A user's points are `None`
until the first grant; what is added before that is kept as a pre-reward and paid out with it. The
calls to `print` write a debug log and are not modelled.
-/

namespace Fomowell.Launcher

open Token

section

variable (env : Env) (time : Nat)

/-- The record that ends each of the three functions, under the next index. -/
def recordPoints (userPid : Principal) (opType : OpType) (busiName : String) (amount : Nat)
    (st : State) : Option State :=
  let (st, pointIdx) := st.countPoint
  st.insertHistory env pointIdx
    { time, idx := pointIdx, userPid, opType, busiName, amount := some amount }

/-- The profile that `init_points` writes: without points yet, it gets twenty and its pre-reward. -/
def UserProfile.initPoints (userProfile : UserProfile) : UserProfile :=
  if userProfile.userPoints.isNone then
    { userProfile with userPoints := some (20 + userProfile.userPreRewardPoints.getD 0) }
  else
    userProfile

/-- `init_points`. -/
def initPoints (userPid : Principal) (st : State) : Option State := do
  let userProfile ← st.userProfileMap[userPid]?
  let st ← st.insertProfile env userPid userProfile.initPoints
  recordPoints env time userPid .INIT "INIT" 20 st

/-- The profile that `add_points` writes. -/
def UserProfile.addPoints (userProfile : UserProfile) (amount : Nat) : UserProfile :=
  match userProfile.userPoints with
  | some userAmount => { userProfile with userPoints := some (userAmount + amount) }
  | none =>
    match userProfile.userPreRewardPoints with
    | some preReward => { userProfile with userPreRewardPoints := some (preReward + amount) }
    | none => { userProfile with userPreRewardPoints := some amount }

/-- `add_points`. -/
def addPoints (amount : Nat) (userPid : Principal) (busiName : String) (st : State) :
    Option State := do
  let userProfile ← st.userProfileMap[userPid]?
  let st ← st.insertProfile env userPid (userProfile.addPoints amount)
  recordPoints env time userPid .ADD busiName amount st

/-- The profile that `deduct_points` writes; it traps where the points do not suffice. -/
def UserProfile.deductPoints (userProfile : UserProfile) (amount : Nat) : Option UserProfile := do
  let userPointsAmount ← userProfile.userPoints
  if userPointsAmount < amount then
    none
  else
    some { userProfile with
      userPoints := some (userPointsAmount - amount)
      userAllSpendPoints := some (userProfile.userAllSpendPoints.getD 0 + amount) }

/-- `deduct_points`. -/
def deductPoints (amount : Nat) (userPid : Principal) (busiName : String) (st : State) :
    Option State := do
  let userProfile ← st.userProfileMap[userPid]?
  let userProfile ← userProfile.deductPoints amount
  let st ← st.insertProfile env userPid userProfile
  recordPoints env time userPid .DEDUCT busiName amount st

/-- The price list of `spending_points`. -/
def spendingAmount : String → Option Nat
  | "COMMENT" => some 6
  | "IMAGE_COMMENT" => some 6
  | "EDIT_AVATAR" => some 8
  | _ => none

/-- `spending_points`, for the launcher itself and for the canisters of its projects. -/
def spendingPoints (caller userPid : Principal) (busiName : String) (st : State) :
    Option State := do
  if caller ≠ env.id ∧ (st.getFomoByFomoPid caller).isNone then
    none
  else
    let amount ← spendingAmount busiName
    deductPoints env time amount userPid busiName st

/-- `airdrop_points`, for the owner. -/
def airdropPoints (caller userPid : Principal) (amount : Nat) (busiName : String) (st : State) :
    Option State :=
  if caller ≠ st.context.owner then none else addPoints env time amount userPid busiName st

end

end Fomowell.Launcher
