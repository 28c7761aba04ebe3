import Fomowell.Launcher.Create
import Fomowell.Launcher.Progress

/-!
# The launcher as a program (`fomowell-launcher/src/main.rs`)

The methods that only the owner or a project's creator may call, and the program of the launcher:
which segment each message starts, and which segment each reply resumes. `program` is what the
invariants of the launcher are proved of.
-/

namespace Fomowell.Launcher

open Canister Token Checked Pmm

/-! ## Methods of owners -/

section

variable (env : Env) (time : Nat)

/-- `ownership_transfer` up to its first await, for the creator of the project. -/
def ownershipTransfer (caller fomoPid : Principal) (toNewControllerPid : Option Principal)
    (st : State) : Segment := do
  let fomo ← st.getFomoByFomoPid fomoPid
  if fomo.createUserPid ≠ caller then
    none
  else
    getIcpPlatformFee time
      { tokenId := env.icpAddr
        caller
        usdAmount := nat18 * 2
        k := .ownershipTransfer fomo.tokenPid toNewControllerPid }
      st

/-- `ownership_transfer` from the approval to `removeTokensControllers`. The inner result of the
approval is not looked at. -/
def ownershipTransferApproved (o : Ownership) (res : CallResult (Except String Nat)) (st : State) :
    Segment := do
  let _ ← unwrap res
  return (st, .awaits (.removeTokensControllers o))

/-- `ownership_transfer` from `removeTokensControllers` to the charge. -/
def ownershipTransferRemoved (o : Ownership) (res : CallResult Unit) (st : State) : Segment := do
  let _ ← unwrap res
  callToken time
    (.transferFrom
      { tokenId := env.icpAddr
        sender := o.caller
        recipient := env.id
        value := o.fee
        memo := "fomo_ot"
        k := .ownershipTransfer })
    st

/-- `lock_pool` up to its await, for the owner. -/
def lockPool (caller lockPoolPid : Principal) (st : State) : Segment :=
  if caller ≠ st.context.owner then none else some (st, .awaits (.lockPool lockPoolPid))

/-- `add_token_controllers` up to its first await, for the owner. -/
def addTokenControllers (caller token user : Principal) (st : State) : Segment :=
  if caller ≠ st.context.owner then
    none
  else
    some (st, .awaits (.tokenStatus token (if user = env.id then [env.id] else [env.id, user])))

/-- A run that ends without an answer, where its call was answered. -/
def finishUnit {V : Type} (res : CallResult V) (st : State) : Segment := do
  let _ ← unwrap res
  return (st, .returned .unit)

/-- A method that does not await. -/
def finish (answer : Answer) (st : Option State) : Segment := st.map fun st => (st, .returned answer)

end

/-! ## The program -/

/-- What the scheduler chooses for a segment: the time, and the order of a hash map. -/
structure Ambient where
  time : Nat
  order : HashOrder

/-- The segment that a message starts. -/
def receive (env : Env) (a : Ambient) : Message → State → Segment
  | .setBuyOrSell caller recordSignal, st => setBuyOrSell env caller recordSignal st
  | .updateProgress, st => updateProgress env a.order a.time st
  | .topupPoints caller pointsAmount, st => topupPoints env a.time caller pointsAmount st
  | .editUser caller userInfo, st => editUser env a.time { caller, userInfo, k := .editUser } st
  | .createFomo caller fomoCreate, st => createFomo env a.time caller fomoCreate st
  | .replyUpdate fomoIdx, st => finish .unit (replyUpdate env a.time fomoIdx st)
  | .ownershipTransfer caller fomoPid toNewControllerPid, st =>
    ownershipTransfer env a.time caller fomoPid toNewControllerPid st
  | .spendingPoints caller userPid busiName, st =>
    finish .unit (spendingPoints env a.time caller userPid busiName st)
  | .lockPool caller lockPoolPid, st => lockPool caller lockPoolPid st
  | .airdropPoints caller userPid amount busiName, st =>
    finish .unit (airdropPoints env a.time caller userPid amount busiName st)
  | .count, st => some (st.count.1, .returned (.index st.count.2))
  | .countPoint, st => some (st.countPoint.1, .returned (.index st.countPoint.2))
  | .addTokenControllers caller token user, st => addTokenControllers env caller token user st

/-- The execution of a call that the launcher sent to itself. -/
def deliver (env : Env) (a : Ambient) : Frame → State → Option (State × Frame)
  | .spendingPoints e, st =>
    (spendingPoints env a.time env.id e.caller "EDIT_AVATAR" st).map fun st =>
      (st, .spendingPointsDone e)
  | _, _ => none

/-- The segment after a charge that was paid. -/
def chargeReturn (env : Env) (time : Nat) (charge : Charge) (st : State) : Segment :=
  match charge.k with
  | .topupPoints pointsAmount => topupPointsCharged env time charge.sender pointsAmount st
  | .createFomo fomoCreate => createFomoCharged charge.sender fomoCreate st
  | .ownershipTransfer => some (st, .returned .unit)

/-- The segment that the reply of a ledger resumes. -/
def resumeLedger (env : Env) (a : Ambient) (type : TokenType) :
    (call : TokenCall) → call.Rep → State → Segment
  | .balanceOf fee, reply, st => do
    let totalBalance ← unwrap reply
    callToken a.time (.allowance fee totalBalance) st
  | .allowance fee totalBalance, reply, st => do
    let allowanceBalance ← unwrap reply
    return (st, .awaits (.pricesBatch fee totalBalance allowanceBalance))
  | .transferFrom charge, reply, st => do
    let _ ← unwrap (transferFromResult reply)
    chargeReturn env a.time charge st
  | .approve c tokenPid, reply, st => createFomoApproved type c tokenPid reply st
  | .totalSupply q, reply, st => setBuyOrSellSupply env a.time q reply st

/-- The segment that a reply resumes. -/
def resume (env : Env) (a : Ambient) : (frame : Frame) → Rep frame → State → Segment
  | .querySwapStatus b, reply, st => setBuyOrSellSwap b reply st
  | .getPoolInfo s, reply, st => setBuyOrSellPool s reply st
  | .getIcpPrice s poolInfo, reply, st => setBuyOrSellPrice a.time s poolInfo reply st
  | .marketCapBatch p, reply, st => updateProgressItem env a.order a.time p reply st
  | .handOff stage h, reply, st => updateProgressHandOff env stage h reply st
  | .spendingPoints e, reply, st => editUserReturn env a.time e (.error reply.2) st
  | .spendingPointsDone e, _, st => editUserUpload env a.time e st
  | .httpRequest _ (.editUser e), reply, st => do
    let imageUrl ← uploadReference env reply
    editUserWrite env a.time e imageUrl st
  | .httpRequest _ (.createFomo c tokenPid poolPid tid), reply, st => do
    let imgUrl ← uploadReference env reply
    createFomoUploaded a.time c tokenPid poolPid tid imgUrl st
  | .getToken call, reply, st =>
    callLedger call { st with tokenCache := st.tokenCache.refreshToken a.time reply }
  | .ledger type call, reply, st => resumeLedger env a type call reply st
  | .pricesBatch fee totalBalance allowanceBalance, reply, st =>
    getIcpPlatformFeePrices env a.time fee totalBalance allowanceBalance reply st
  | .createToken c, reply, st => createFomoToken a.time c reply st
  | .createCommonPool c tokenPid, reply, st => createFomoPool c tokenPid reply st
  | .createCanister c tokenPid poolPid, reply, st => createFomoCanister c tokenPid poolPid reply st
  | .canisterStatus c, reply, st => createFomoStatus c reply st
  | .installCode c, reply, st => createFomoInstalled env a.time c reply st
  | .icrc2Approve o, reply, st => ownershipTransferApproved o reply st
  | .removeTokensControllers o, reply, st => ownershipTransferRemoved env a.time o reply st
  | .lockPool _, reply, st => finishUnit reply st
  | .tokenStatus token controllers, reply, st => do
    let _ ← unwrap reply
    return (st, .awaits (.updateSettings token controllers))
  | .updateSettings .., reply, st => finishUnit reply st

/-- The launcher. -/
def program (env : Env) : Program Ambient State Message Frame Answer Rep where
  receive := receive env
  deliver := deliver env
  resume := resume env

/-- The launcher with its suspended runs and its log. -/
abbrev System : Type := Sys State Message Frame Answer Rep

/-- A choice of the launcher's scheduler. -/
abbrev Choice : Type := Label Ambient Message Frame Rep

/-! ## A launcher to try schedules on -/

def sampleIcp : Principal := .ofByte 1

def sampleUser : Principal := .ofByte 2

def sampleCanister : Principal := .ofByte 3

def sampleProject : Principal := .ofByte 5

/-- An environment in which every record fits. -/
def sampleEnv : Env where
  id := sampleCanister
  icpAddr := sampleIcp
  sneedDaoAddr := sampleCanister
  dogmiDaoAddr := some sampleCanister
  fomoCanisterTemplate := []
  toText := fun _ => "aaaaa-aa"
  beeRes := fun _ => some "reference"
  profileSize := fun _ => 0
  projectSize := fun _ => 0
  historySize := fun _ => 0

/-- A time, and the order of the keys. -/
def sampleAmbient : Ambient := ⟨0, ⟨id, fun _ => .refl _⟩⟩

/-- A launcher just installed. -/
def sampleStart : System :=
  .start (init sampleEnv sampleUser 0
    ⟨sampleCanister, sampleCanister, sampleCanister, sampleCanister, sampleCanister⟩ sampleIcp)

/-- Replies of canisters that do what they are asked. The oracle reports a market cap at the goal. -/
def sampleReply : (frame : Frame) → Rep frame
  | .querySwapStatus _ => .ok [⟨1, .Succeeded⟩]
  | .getPoolInfo _ => .ok ⟨1⟩
  | .getIcpPrice .. => .ok (0, 1)
  | .marketCapBatch p => .ok ((∅ : PrincipalMap Nat).insert p.item.tokenPid (5000 * nat18))
  | .handOff .. => .ok (.ok ())
  | .spendingPoints _ => (.NoError, "")
  | .spendingPointsDone _ => ()
  | .httpRequest .. => .ok ⟨200, []⟩
  | .getToken call => .ok
    { address := call.cid, tokenType := "ICRC-2", symbol := "", name := "", decimals := 8
      owner := sampleCanister, logo := "", platformTokenType := "", flatFee := false, burnRate := 0
      feeRate := 0, flatBurnFee := false, totalSupply := 0, mintOn := false }
  | .ledger _ (.balanceOf _) => .ok nat18
  | .ledger _ (.allowance ..) => .ok nat18
  | .ledger _ (.transferFrom _) => .ok (.ok 0)
  | .ledger _ (.approve ..) => .ok (.ok 0)
  | .ledger _ (.totalSupply _) => .ok 1
  | .pricesBatch fee .. => .ok ((∅ : PrincipalMap Nat).insert fee.tokenId nat18)
  | .createToken _ => .ok (.ok sampleCanister)
  | .createCommonPool .. => .ok (.ok (sampleCanister, 0))
  | .createCanister .. => .ok sampleProject
  | .canisterStatus _ => .ok ⟨none⟩
  | .installCode _ => .ok ()
  | .icrc2Approve _ => .ok (.ok 0)
  | .removeTokensControllers _ => .ok ()
  | .lockPool _ => .ok (.ok ())
  | .tokenStatus .. => .ok ()
  | .updateSettings .. => .ok ()

/-- A message to the sample launcher. -/
def sampleMessage (m : Message) : Choice := .receive sampleAmbient m

/-- A reply to a run of the sample launcher. -/
def sampleAnswer (run : Nat) : Choice := .resume sampleAmbient run sampleReply

/-- A request for a project with a share for one DAO. -/
def sampleCreate : FomoProjectCreate where
  name := "a"
  ticker := "a"
  description := ""
  imgUrl := ""
  logo := ""
  twitterLink := ""
  telegramLink := ""
  website := ""
  sneedDaoLock := some (nat18 / 2)
  dogmiDaoLock := none

/-- A project, with the management canister for its pool. -/
def sampleFomo : FomoProject where
  fomoIdx := 1
  name := "a"
  ticker := "a"
  description := ""
  imgUrl := ""
  twitterLink := ""
  telegramLink := ""
  website := ""
  tokenPid := .anonymous
  poolPid := .managementCanister
  fomoPid := .anonymous
  poolProgress := 0
  poolProgressDoneTime := none
  godOfWellsProgress := 0
  godOfWellsTime := none
  marketCap := 0
  createTime := 0
  createUserPid := .anonymous
  replyCount := 0
  recentlyReplyTime := 0
  recentlyBumpTime := 0
  sneedDaoLock := none
  dogmiDaoLock := none

/-- A user makes a profile and creates the first project: `edit_user` is run 0, `create_fomo` run 1. -/
def sampleSchedule : List Choice :=
  sampleMessage (.editUser sampleUser ⟨none, none⟩) ::
    sampleMessage (.createFomo sampleUser sampleCreate) :: List.replicate 13 (sampleAnswer 1)

end Fomowell.Launcher
