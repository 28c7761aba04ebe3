import Fomowell.Lib.Canister
import Fomowell.Text
import Fomowell.Token.IToken

/-!
# The state of the launcher (`fomowell-launcher/src`)

The records of the launcher canister and its state: the context, the configured addresses, the two
counters, the three stable maps, and the cache of token types. `u64` values are unbounded here.

`Env` holds what the source takes from elsewhere: the canister's own id and the constants compiled
into it, the textual form of a principal, the reader of an upload's reply, and the length of a
record's candid encoding, which `insert` compares with the record's `MAX_SIZE`. An insertion above
that size is a trap, so each stable map has its `insert` here as an `Option`.
-/

namespace Fomowell.Launcher

open Std Token

/-! ## Records -/

/-- `AddrConfig`. -/
structure AddrConfig where
  backendAddr : Principal
  routerAddr : Principal
  icplAddr : Principal
  oracleAddr : Principal
  txAddr : Principal
  deriving DecidableEq

/-- `RecordSignal`, the argument of `set_buy_or_sell`. -/
structure RecordSignal where
  fomoIdx : Nat
  icpAmount : Nat
  buySellOp : String
  swapHash : Nat
  deriving DecidableEq

/-- `RecordSignalVo`, the first ad slot. -/
structure RecordSignalVo where
  fomoIdx : Nat
  fomoTicker : String
  icpAmount : Nat
  buySellOp : String
  opUserPid : Principal
  userName : String
  userAvatar : String
  swapTimestamp : Option Nat
  deriving DecidableEq

/-- `CreateFomoSignalVo`, the second ad slot. -/
structure CreateFomoSignalVo where
  fomoIdx : Nat
  fomoName : String
  tokenLogo : String
  opUserPid : Principal
  userName : String
  userAvatar : String
  createTime : Nat
  deriving DecidableEq

/-- `Context`. -/
structure Context where
  owner : Principal
  fomoCanisterTemplate : List UInt8
  icpAddr : Principal
  godOfWellsIdx : Nat
  lastBuySellOp : RecordSignalVo
  lastCreateFomo : CreateFomoSignalVo
  deriving DecidableEq

/-- `Context::default`, made at a time. -/
def Context.default (time : Nat) : Context where
  owner := Principal.managementCanister
  fomoCanisterTemplate := []
  icpAddr := Principal.anonymous
  godOfWellsIdx := 1
  lastBuySellOp :=
    { fomoIdx := 0, fomoTicker := "", icpAmount := 0, buySellOp := "buy"
      opUserPid := Principal.anonymous, userName := "anonymous", userAvatar := ""
      swapTimestamp := none }
  lastCreateFomo :=
    { fomoIdx := 0, fomoName := "", tokenLogo := "", opUserPid := Principal.anonymous
      userName := "anonymous", userAvatar := "", createTime := time }

/-- `CounterState`. -/
structure CounterState where
  count : Nat
  pointCount : Nat
  deriving DecidableEq

/-- `UserProfile`. -/
structure UserProfile where
  userPid : Principal
  userName : String
  avatar : String
  lastChangeTime : Nat
  userPoints : Option Nat
  userPreRewardPoints : Option Nat
  userAllSpendPoints : Option Nat
  deriving DecidableEq

/-- `UserEditObj`, the argument of `edit_user`. -/
structure UserEditObj where
  userName : Option String
  avatar : Option String
  deriving DecidableEq

/-- `FomoProjectCreate`, the argument of `create_fomo`. -/
structure FomoProjectCreate where
  name : String
  ticker : String
  description : String
  imgUrl : String
  logo : String
  twitterLink : String
  telegramLink : String
  website : String
  sneedDaoLock : Option Nat
  dogmiDaoLock : Option Nat
  deriving DecidableEq

/-- `FomoProject`. -/
structure FomoProject where
  fomoIdx : Nat
  name : String
  ticker : String
  description : String
  imgUrl : String
  twitterLink : String
  telegramLink : String
  website : String
  tokenPid : Principal
  poolPid : Principal
  fomoPid : Principal
  poolProgress : Nat
  poolProgressDoneTime : Option Nat
  godOfWellsProgress : Nat
  godOfWellsTime : Option Nat
  marketCap : Nat
  createTime : Nat
  createUserPid : Principal
  replyCount : Nat
  recentlyReplyTime : Nat
  recentlyBumpTime : Nat
  sneedDaoLock : Option Nat
  dogmiDaoLock : Option Nat
  deriving DecidableEq

/-- The values of `op_type`, which the source writes as `"INIT"`, `"ADD"` and `"DEDUCT"`. -/
inductive OpType
  | INIT
  | ADD
  | DEDUCT
  deriving DecidableEq

/-- `PointHistory`. -/
structure PointHistory where
  time : Nat
  idx : Nat
  userPid : Principal
  opType : OpType
  busiName : String
  amount : Option Nat
  deriving DecidableEq

/-! ## The state -/

/-- What the launcher takes from outside its source. -/
structure Env where
  /-- `ic_cdk::id`. -/
  id : Principal
  /-- `get_icp_addr`. -/
  icpAddr : Principal
  /-- `get_sneed_dao_addr`, whose key each `canister_ids.json` has. -/
  sneedDaoAddr : Principal
  /-- `get_dogmi_dao_addr`; `none` where it traps, since the `canister_ids.json` of the build has no such key
  (the one for `local` has none). -/
  dogmiDaoAddr : Option Principal
  /-- The project canister's code, compiled into the launcher. -/
  fomoCanisterTemplate : List UInt8
  /-- `Principal::to_text`. -/
  toText : Principal → String
  /-- The `reference` in the body of an upload's reply; `none` where the body is not one. -/
  beeRes : List UInt8 → Option String
  /-- The lengths of candid encodings. -/
  profileSize : UserProfile → Nat
  projectSize : FomoProject → Nat
  historySize : PointHistory → Nat

/-- The state of the launcher. -/
structure State where
  context : Context
  addrConfig : AddrConfig
  counter : CounterState
  userProfileMap : PrincipalMap UserProfile
  fomoProjectMap : ExtTreeMap Nat FomoProject compare
  pointHistoryMap : ExtTreeMap Nat PointHistory compare
  tokenCache : TokenCache

/-- The state that `init` leaves. -/
def init (env : Env) (caller : Principal) (time : Nat) (addrConfig : AddrConfig)
    (icpAddr : Principal) : State where
  context :=
    { Context.default time with
      owner := caller
      fomoCanisterTemplate := env.fomoCanisterTemplate
      icpAddr
      godOfWellsIdx := 1 }
  addrConfig
  counter := ⟨0, 0⟩
  userProfileMap := ∅
  fomoProjectMap := ∅
  pointHistoryMap := ∅
  tokenCache := TokenCache.empty

namespace State

/-- `insert` on `USER_PROFILE_MAP`, with the `MAX_SIZE` of `UserProfile`. -/
def insertProfile (env : Env) (st : State) (key : Principal) (profile : UserProfile) :
    Option State :=
  if env.profileSize profile ≤ 2048 then
    some { st with userProfileMap := st.userProfileMap.insert key profile }
  else none

/-- `insert` on `FOMO_PROJECT_MAP`, with the `MAX_SIZE` of `FomoProject`. -/
def insertProject (env : Env) (st : State) (key : Nat) (project : FomoProject) : Option State :=
  if env.projectSize project ≤ 4096 then
    some { st with fomoProjectMap := st.fomoProjectMap.insert key project }
  else none

/-- `insert` on `POINT_HISTORY_MAP`, with the `MAX_SIZE` of `PointHistory`. -/
def insertHistory (env : Env) (st : State) (key : Nat) (history : PointHistory) : Option State :=
  if env.historySize history ≤ 4096 then
    some { st with pointHistoryMap := st.pointHistoryMap.insert key history }
  else none

/-- `count`. -/
def count (st : State) : State × Nat :=
  let count := st.counter.count + 1
  ({ st with counter := { st.counter with count } }, count)

/-- `count_point`. -/
def countPoint (st : State) : State × Nat :=
  let pointCount := st.counter.pointCount + 1
  ({ st with counter := { st.counter with pointCount } }, pointCount)

/-- `get_fomo_by_fomo_pid`: the first project of that canister, by index. -/
def getFomoByFomoPid (st : State) (fomoPid : Principal) : Option FomoProject :=
  (st.fomoProjectMap.toList.find? fun entry => entry.2.fomoPid = fomoPid).map Prod.snd

/-- The name and avatar shown for a user: those of the profile, or the start of the principal's
text. -/
def shownUser (env : Env) (st : State) (user : Principal) : Option (String × String) :=
  match st.userProfileMap[user]? with
  | none => (substring (env.toText user) 5).map fun name => (name, "")
  | some v => some (v.userName, v.avatar)

end State

end Fomowell.Launcher
