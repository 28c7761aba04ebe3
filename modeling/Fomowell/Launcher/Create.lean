import Fomowell.Launcher.User

/-!
# Creating a project (`fomowell-launcher/src/main.rs`)

`create_fomo`, by its segments: the checks of the request, the fee, the charge, the index, the token
and its approval, the pool, the project canister, the image, the canister's status and code, and
last the record. Every call after the checks is unwrapped, so a failure traps; what was charged is
not returned.
-/

namespace Fomowell.Launcher

open Canister Token Checked Pmm

section

variable (env : Env) (time : Nat)

/-- A share of the pool's liquidity that may be locked: ten to fifty per cent. -/
def lockInRange (lockPercent : Nat) : Bool := nat18 / 10 ≤ lockPercent && lockPercent ≤ nat18 / 2

/-- The length of a trimmed text. -/
def trimmedLen (s : String) : Nat := (trim s).utf8ByteSize

/-- The checks of `create_fomo`, in their order: the first that fails is answered. -/
def createFomoCheck (st : State) (caller : Principal) (fomoCreate : FomoProjectCreate) :
    Except String Unit :=
  if caller = Principal.anonymous then
    .error "Please connect wallet"
  else if st.userProfileMap[caller]?.isNone then
    .error "Please init user"
  else if trimmedLen fomoCreate.name = 0 ∨ trimmedLen fomoCreate.name > 64 then
    .error "Name input should contain at least one character or less then 64 character."
  else if trimmedLen fomoCreate.ticker = 0 ∨ trimmedLen fomoCreate.ticker > 16 then
    .error "Ticker input should contain at least one character or less then 16 character."
  else if trimmedLen fomoCreate.imgUrl > 100 then
    .error "img_url input should contain less then 100 character."
  else if trimmedLen fomoCreate.twitterLink > 100 then
    .error "twitter_link input should contain less then 100 character."
  else if trimmedLen fomoCreate.telegramLink > 100 then
    .error "telegram_link input should contain less then 100 character."
  else if trimmedLen fomoCreate.website > 100 then
    .error "website input should contain less then 100 character."
  else if !fomoCreate.sneedDaoLock.all lockInRange then
    .error "You can choose to lock 10%-50% of the LP into Sneed DAO"
  else if !fomoCreate.dogmiDaoLock.all lockInRange then
    .error "You can choose to lock 10%-50% of the LP into DOGMI DAO"
  else
    .ok ()

/-- `create_fomo` up to its first await. The description is cut to two thousand bytes. -/
def createFomo (caller : Principal) (fomoCreate : FomoProjectCreate) (st : State) : Segment :=
  match createFomoCheck st caller fomoCreate with
  | .error e => some (st, .returned (.createFomo (.error e)))
  | .ok _ => do
    let description ←
      sliceTo fomoCreate.description (min fomoCreate.description.utf8ByteSize 2000)
    getIcpPlatformFee time
      { tokenId := env.icpAddr
        caller
        usdAmount := nat18 * 6
        k := .createFomo { fomoCreate with description } }
      st

/-- `create_fomo` from the charge to `createToken`. -/
def createFomoCharged (caller : Principal) (fomoCreate : FomoProjectCreate) (st : State) :
    Segment :=
  let (st, idx) := st.count
  some (st, .awaits (.createToken { caller, fomoCreate, idx }))

/-- `create_fomo` from `createToken` to the approval of the router. -/
def createFomoToken (c : Create) (res : CallResult (Except String Principal)) (st : State) :
    Segment := do
  let tokenPid ← unwrapInner res
  callToken time (.approve c tokenPid) st

/-- `create_fomo` from the approval to `createCommonPool`. -/
def createFomoApproved (type : TokenType) (c : Create) (tokenPid : Principal)
    (res : CallResult (Except String Nat)) (st : State) : Segment := do
  let _ ← unwrap (approveResult type res)
  return (st, .awaits (.createCommonPool c tokenPid))

/-- `create_fomo` from `createCommonPool` to `create_canister`. -/
def createFomoPool (c : Create) (tokenPid : Principal)
    (res : CallResult (Except String (Principal × Nat))) (st : State) : Segment := do
  let (poolPid, _) ← unwrapInner res
  return (st, .awaits (.createCanister c tokenPid poolPid))

/-- `create_fomo` from `create_canister` to the upload. -/
def createFomoCanister (c : Create) (tokenPid poolPid : Principal) (res : CallResult Principal)
    (st : State) : Segment := do
  let tid ← unwrap res
  uploadFile c.fomoCreate.imgUrl (.createFomo c tokenPid poolPid tid) st

/-- The record of a new project. -/
def Created.fomoProject (c : Created) : FomoProject where
  fomoIdx := c.idx
  name := c.fomoCreate.name
  ticker := c.fomoCreate.ticker
  description := c.fomoCreate.description
  imgUrl := c.imgUrl
  twitterLink := c.fomoCreate.twitterLink
  telegramLink := c.fomoCreate.telegramLink
  website := c.fomoCreate.website
  tokenPid := c.tokenPid
  poolPid := c.poolPid
  fomoPid := c.tid
  poolProgress := 0
  poolProgressDoneTime := none
  godOfWellsProgress := 0
  godOfWellsTime := none
  createTime := c.createTime
  createUserPid := c.caller
  marketCap := 0
  replyCount := 0
  recentlyReplyTime := 0
  recentlyBumpTime := 0
  sneedDaoLock := c.fomoCreate.sneedDaoLock
  dogmiDaoLock := c.fomoCreate.dogmiDaoLock

/-- `create_fomo` from the upload to `canister_status`. -/
def createFomoUploaded (c : Create) (tokenPid poolPid tid : Principal) (imgUrl : String)
    (st : State) : Segment :=
  some (st, .awaits (.canisterStatus { c with tokenPid, poolPid, tid, imgUrl, createTime := time }))

/-- `create_fomo` from `canister_status` to `install_code`. -/
def createFomoStatus (c : Created) (res : CallResult CanisterStatus) (st : State) : Segment := do
  let status ← unwrap res
  if status.moduleHash.isSome then none else return (st, .awaits (.installCode c))

/-- The end of `create_fomo`. -/
def createFomoInstalled (c : Created) (res : CallResult Unit) (st : State) : Segment := do
  let _ ← unwrap res
  let st ← st.insertProject env c.idx c.fomoProject
  let (userName, userAvatar) ← st.shownUser env c.caller
  let st :=
    { st with context :=
      { st.context with lastCreateFomo :=
        { fomoIdx := c.idx
          fomoName := c.fomoProject.name
          tokenLogo := c.fomoCreate.logo
          opUserPid := c.caller
          userName
          userAvatar
          createTime := c.fomoProject.createTime } } }
  let st ← initPoints env time c.caller st
  let st ← addPoints env time 10 c.caller "CREATEFOMO" st
  return (st, .returned (.createFomo (.ok c.fomoProject)))

end

end Fomowell.Launcher
