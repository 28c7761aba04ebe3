import Fomowell.Launcher.Points

/-!
# Where a run of the launcher is suspended

The messages of the launcher, the answers of its methods, and a frame for every await: the local
variables that the method goes on with. A function that several methods await (`edit_user` inside
`topup_points`, the platform fee, a charge, an upload) keeps in its frame where it returns to.

`Rep` gives each frame the type of its replies. `edit_user` calls `spending_points` on the launcher
itself, so that call has two frames: before it is executed it can only be rejected, and once it is
executed it can only be answered.
-/

namespace Fomowell.Launcher

open Std Canister Token

/-! ## Messages and answers -/

/-- A message to an update method, with its caller where the method reads it. -/
inductive Message
  | setBuyOrSell (caller : Principal) (recordSignal : RecordSignal)
  | updateProgress
  | topupPoints (caller : Principal) (pointsAmount : Nat)
  | editUser (caller : Principal) (userInfo : UserEditObj)
  | createFomo (caller : Principal) (fomoCreate : FomoProjectCreate)
  | replyUpdate (fomoIdx : Nat)
  | ownershipTransfer (caller fomoPid : Principal) (toNewControllerPid : Option Principal)
  | spendingPoints (caller userPid : Principal) (busiName : String)
  | lockPool (caller lockPoolPid : Principal)
  | airdropPoints (caller userPid : Principal) (amount : Nat) (busiName : String)
  | count
  | countPoint
  | addTokenControllers (caller token user : Principal)

/-- What a method answers. -/
inductive Answer
  | unit
  | index (idx : Nat)
  | topupPoints (result : Except String Unit)
  | editUser (result : Except String Principal)
  | createFomo (result : Except String FomoProject)

/-! ## Replies of other canisters -/

/-- `TransactionStatus`. -/
inductive TransactionStatus
  | Pending
  | BaseTrans
  | QuoteTrans
  | Rollback
  | Succeeded
  | Failed
  deriving DecidableEq

/-- The fields of `SwapTxRecord` that the launcher reads. -/
structure SwapTxRecord where
  timestamp : Nat
  status : TransactionStatus
  deriving DecidableEq

/-- The field of `PoolInfo` that the launcher reads. -/
structure PoolInfo where
  basePriceCumulativeLast : Nat
  deriving DecidableEq

/-- The field of a canister's status that `create_fomo` reads. -/
structure CanisterStatus where
  moduleHash : Option (List UInt8)
  deriving DecidableEq

/-! ## Local variables -/

/-- The locals of `set_buy_or_sell` at its first await. -/
structure BuySell where
  caller : Principal
  recordSignal : RecordSignal
  userName : String
  userAvatar : String
  fomo : Option FomoProject
  addrConfig : AddrConfig

/-- The locals of `set_buy_or_sell` after its checks: `v` was read before the first await, `item`
after it. -/
structure Swap extends BuySell where
  swapRecord : SwapTxRecord
  v : FomoProject
  item : FomoProject

/-- The locals of `set_buy_or_sell` at its last await. -/
structure Quote extends Swap where
  poolInfo : PoolInfo
  icpPriceRes : CallResult (Nat × Nat)

/-- The locals of the first loop of `update_progress`, at an item. -/
structure Progress where
  addrConfig : AddrConfig
  item : FomoProject
  list : List FomoProject
  map : ExtTreeMap Nat (Nat × Nat) compare
  maxMarketCap : Nat
  maxMarketCapFomoIdx : Nat

/-- The locals of the last loop of `update_progress`, at a project. -/
structure HandOff where
  addrConfig : AddrConfig
  fomoPid : Nat
  v : FomoProject
  rest : List Nat

/-- The calls that the last loop makes for one project, in their order. -/
inductive Stage
  | sneed
  | dogmi
  | lock
  deriving DecidableEq

/-- Where `edit_user` returns to. -/
inductive EditCont
  | editUser
  | topupPoints (pointsAmount : Nat)

/-- The locals of `edit_user`. -/
structure Edit where
  caller : Principal
  userInfo : UserEditObj
  k : EditCont

/-- Where `get_icp_platform_fee` returns to. -/
inductive FeeCont
  | topupPoints (pointsAmount : Nat)
  | createFomo (fomoCreate : FomoProjectCreate)
  | ownershipTransfer (tokenPid : Principal) (toNewControllerPid : Option Principal)

/-- The locals of `get_icp_platform_fee`. -/
structure Fee where
  tokenId : Principal
  caller : Principal
  usdAmount : Nat
  k : FeeCont

/-- Where a charge returns to. -/
inductive ChargeCont
  | topupPoints (pointsAmount : Nat)
  | createFomo (fomoCreate : FomoProjectCreate)
  | ownershipTransfer

/-- The arguments of a charge, a `transfer_from` of the caller's ICP. -/
structure Charge where
  tokenId : Principal
  sender : Principal
  recipient : Principal
  value : Nat
  memo : String
  k : ChargeCont

/-- The locals of `create_fomo` once it has drawn its index. -/
structure Create where
  caller : Principal
  fomoCreate : FomoProjectCreate
  idx : Nat

/-- The locals of `create_fomo` once the record is complete: everything it is made from. -/
structure Created extends Create where
  tokenPid : Principal
  poolPid : Principal
  tid : Principal
  imgUrl : String
  createTime : Nat

/-- Where `upload_file` returns to. -/
inductive UploadCont
  | editUser (e : Edit)
  | createFomo (c : Create) (tokenPid poolPid tid : Principal)

/-- The locals of `ownership_transfer` once the fee is quoted. -/
structure Ownership where
  caller : Principal
  tokenPid : Principal
  toNewControllerPid : Option Principal
  fee : Nat

/-- A call of a token, with the locals of the method that makes it. -/
inductive TokenCall
  | balanceOf (fee : Fee)
  | allowance (fee : Fee) (totalBalance : Nat)
  | transferFrom (charge : Charge)
  | approve (c : Create) (tokenPid : Principal)
  | totalSupply (q : Quote)

/-- The token that is called. -/
def TokenCall.cid : TokenCall → Principal
  | .balanceOf fee => fee.tokenId
  | .allowance fee _ => fee.tokenId
  | .transferFrom charge => charge.tokenId
  | .approve _ tokenPid => tokenPid
  | .totalSupply q => q.item.tokenPid

/-- The token types for which the call reaches a ledger. -/
def TokenCall.supports : TokenCall → TokenType → Bool
  | .approve .., type => type = .DIP20 || type = .ICRC2
  | _, type => type = .DIP20 || type = .ICRC1 || type = .ICRC2

/-! ## Frames -/

/-- An await. -/
inductive Frame
  | querySwapStatus (b : BuySell)
  | getPoolInfo (s : Swap)
  | getIcpPrice (s : Swap) (poolInfo : PoolInfo)
  | marketCapBatch (p : Progress)
  | handOff (stage : Stage) (h : HandOff)
  | spendingPoints (e : Edit)
  | spendingPointsDone (e : Edit)
  | httpRequest (url : String) (k : UploadCont)
  | getToken (call : TokenCall)
  | ledger (type : TokenType) (call : TokenCall)
  | pricesBatch (fee : Fee) (totalBalance allowanceBalance : Nat)
  | createToken (c : Create)
  | createCommonPool (c : Create) (tokenPid : Principal)
  | createCanister (c : Create) (tokenPid poolPid : Principal)
  | canisterStatus (c : Created)
  | installCode (c : Created)
  | icrc2Approve (o : Ownership)
  | removeTokensControllers (o : Ownership)
  | lockPool (lockPoolPid : Principal)
  | tokenStatus (token : Principal) (controllers : List Principal)
  | updateSettings (token : Principal) (controllers : List Principal)

/-- The replies of a token. A transfer and an approval answer a result of their own. -/
def TokenCall.Rep : TokenCall → Type
  | .balanceOf _ => CallResult Nat
  | .allowance .. => CallResult Nat
  | .transferFrom _ => CallResult (Except String Nat)
  | .approve .. => CallResult (Except String Nat)
  | .totalSupply _ => CallResult Nat

/-- The replies that may resume a frame. -/
def Rep : Frame → Type
  | .querySwapStatus _ => CallResult (List SwapTxRecord)
  | .getPoolInfo _ => CallResult PoolInfo
  | .getIcpPrice .. => CallResult (Nat × Nat)
  | .marketCapBatch _ => CallResult (PrincipalMap Nat)
  | .handOff .. => CallResult (Except String Unit)
  | .spendingPoints _ => Rejection
  | .spendingPointsDone _ => Unit
  | .httpRequest .. => CallResult HttpResponse
  | .getToken _ => CallResult TokenInfo
  | .ledger _ call => call.Rep
  | .pricesBatch .. => CallResult (PrincipalMap Nat)
  | .createToken _ => CallResult (Except String Principal)
  | .createCommonPool .. => CallResult (Except String (Principal × Nat))
  | .createCanister .. => CallResult Principal
  | .canisterStatus _ => CallResult CanisterStatus
  | .installCode _ => CallResult Unit
  | .icrc2Approve _ => CallResult (Except String Nat)
  | .removeTokensControllers _ => CallResult Unit
  | .lockPool _ => CallResult (Except String Unit)
  | .tokenStatus .. => CallResult Unit
  | .updateSettings .. => CallResult Unit

/-- How a segment of the launcher ends. -/
abbrev Segment : Type := Option (State × Next Frame Answer)

/-- The value of a call, which traps on a rejection (`unwrap`, `throw_call_res`). -/
def unwrap {V : Type} : CallResult V → Option V
  | .ok v => some v
  | .error _ => none

theorem unwrap_eq_some {V : Type} {res : CallResult V} {v : V} : unwrap res = some v ↔ res = .ok v := by
  cases res with
  | ok w => exact ⟨fun h => congrArg Except.ok (Option.some.inj h), fun h => congrArg unwrap h⟩
  | error e => exact ⟨(fun h => nomatch h), (fun h => nomatch h)⟩

/-- The value of a call that answers a result, which traps on a rejection and on an `Err`. -/
def unwrapInner {V : Type} : CallResult (Except String V) → Option V
  | .ok (.ok v) => some v
  | _ => none

/-- Makes a call of a token, with the lookup of its type where the cache needs one. -/
def callLedger (call : TokenCall) (st : State) : Segment :=
  let type := st.tokenCache.tokenType call.cid
  -- for any other type the call traps or answers an `Err`, which every caller here unwraps
  if call.supports type then some (st, .awaits (.ledger type call)) else none

@[inherit_doc callLedger]
def callToken (time : Nat) (call : TokenCall) (st : State) : Segment :=
  if st.tokenCache.needsRefresh call.cid time then some (st, .awaits (.getToken call))
  else callLedger call st

end Fomowell.Launcher
