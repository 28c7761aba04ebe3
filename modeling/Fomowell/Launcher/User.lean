import Fomowell.Launcher.Fee

/-!
# Profiles and top-ups (`fomowell-launcher/src/main.rs`)

`edit_user` and `topup_points`, by their segments. `edit_user` creates the caller's profile where
there is none; an edit of an existing profile is paid for by a call of `spending_points`, which the
launcher sends to itself. It reads the profile before that call and again after it.
-/

namespace Fomowell.Launcher

open Canister Token Checked Pmm

section

variable (env : Env) (time : Nat)

/-- What `edit_user` answers, to its caller or to `topup_points`. -/
def editUserReturn (e : Edit) (result : Except String Principal) (st : State) : Segment :=
  match e.k with
  | .editUser => some (st, .returned (.editUser result))
  | .topupPoints pointsAmount =>
    match result with
    | .error _ => some (st, .returned (.topupPoints (.error "Invalid user")))
    | .ok _ =>
      getIcpPlatformFee time
        { tokenId := env.icpAddr
          caller := e.caller
          usdAmount := pointsAmount * nat18 / 10
          k := .topupPoints pointsAmount }
        st

/-- The profile that `edit_user` makes where there is none. The avatar is the one asked for, not the
one uploaded. -/
def Edit.newProfile (e : Edit) : Option UserProfile := do
  let userName ← substring (env.toText e.caller) 5
  return {
    userPid := e.caller
    userName
    avatar := e.userInfo.avatar.getD ""
    lastChangeTime := time
    userPoints := none
    userAllSpendPoints := some 0
    userPreRewardPoints := some 0 }

/-- The profile that `edit_user` makes of an existing one. -/
def Edit.apply (e : Edit) (imageUrl : String) (userProfile : UserProfile) : UserProfile :=
  { userProfile with
    userAllSpendPoints :=
      if userProfile.userPoints = none then some 0
      else some (userProfile.userAllSpendPoints.getD 0)
    userPreRewardPoints := some (userProfile.userPreRewardPoints.getD 0)
    userName := e.userInfo.userName.getD userProfile.userName
    avatar := if e.userInfo.avatar.isSome then imageUrl else userProfile.avatar
    lastChangeTime :=
      if e.userInfo.userName.isSome ∨ e.userInfo.avatar.isSome then time
      else userProfile.lastChangeTime }

/-- The profile that `edit_user` writes. -/
def Edit.write (e : Edit) (imageUrl : String) : Option UserProfile → Option UserProfile
  | none => e.newProfile env time
  | some userProfile => some (e.apply time imageUrl userProfile)

/-- The end of `edit_user`, with the reference of the uploaded image. -/
def editUserWrite (e : Edit) (imageUrl : String) (st : State) : Segment := do
  let userProfile ← e.write env time imageUrl st.userProfileMap[e.caller]?
  let st ← st.insertProfile env e.caller userProfile
  editUserReturn env time e (.ok e.caller) st

/-- `edit_user` from the upload on. The avatar `default` is not uploaded. -/
def editUserUpload (e : Edit) (st : State) : Segment :=
  match e.userInfo.avatar with
  | none => editUserWrite env time e "" st
  | some avatar =>
    if avatar ≠ "default" then uploadFile avatar (.editUser e) st
    else editUserWrite env time e "" st

/-- `edit_user` up to its first await. A new profile and an empty edit cost nothing. -/
def editUser (e : Edit) (st : State) : Segment :=
  if e.caller = Principal.anonymous then
    editUserReturn env time e (.error "Please connect wallet") st
  else
    match st.userProfileMap[e.caller]? with
    | none => editUserUpload env time e st
    | some userProfile => do
      let userProfile :=
        if userProfile.userPoints = none ∧ userProfile.userAllSpendPoints = none then
          { userProfile with userAllSpendPoints := some 0 }
        else userProfile
      let st ← st.insertProfile env e.caller userProfile
      if e.userInfo.userName.isNone ∧ e.userInfo.avatar.isNone then
        editUserUpload env time e st
      else
        return (st, .awaits (.spendingPoints e))

/-- `topup_points` up to its first await. -/
def topupPoints (caller : Principal) (pointsAmount : Nat) (st : State) : Segment :=
  if pointsAmount < 10 then
    some (st, .returned (.topupPoints
      (.error "Top-up failed; users need to top up a minimum of 10 points.")))
  else
    editUser env time
      { caller, userInfo := { userName := none, avatar := none }, k := .topupPoints pointsAmount } st

/-- The end of `topup_points`, once the caller is charged. -/
def topupPointsCharged (caller : Principal) (pointsAmount : Nat) (st : State) : Segment := do
  let st ← initPoints env time caller st
  let st ← addPoints env time pointsAmount caller "TOPUP" st
  return (st, .returned (.topupPoints (.ok ())))

end

end Fomowell.Launcher
