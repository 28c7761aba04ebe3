import Fomowell.Launcher.Frames
import Fomowell.Pmm.Math

/-!
# Progress of the projects (`fomowell-launcher/src/main.rs`)

`set_buy_or_sell` records a trade of one project and re-computes that project's progress;
`update_progress` re-computes the progress of all, marks those that have reached the goal, and hands
their liquidity over to the DAOs; `reply_update` counts a comment. Each is given by its segments, in
the order of its awaits.

The first reads the project once before its awaits and writes that copy back after them; the second
awaits the oracle for the projects it read at its start, and writes into what the map holds then.
The iteration over a `HashMap` is in an order that the scheduler chooses. The calls to `print` write
a debug log and are not modelled.
-/

namespace Fomowell.Launcher

open Std Canister Token Checked Pmm

/-- `nat_8`. -/
def nat8 : Nat := 10 ^ 8

/-- An order in which to visit the keys of a hash map. -/
structure HashOrder where
  iterate : List Nat → List Nat
  perm : ∀ keys, (iterate keys).Perm keys

/-- The entries of a map, in the order of a hash map. -/
def HashOrder.entries {V : Type} (order : HashOrder) (map : ExtTreeMap Nat V compare) :
    List (Nat × V) :=
  (order.iterate (map.toList.map Prod.fst)).filterMap fun k => map[k]?.map fun v => (k, v)

/-! ## The progress of one project -/

/-- The share of the goal that a market cap reaches, before it is capped. -/
def poolProgressOf (marketCap : Nat) : Nat := marketCap * 10000 / 5000 / nat18

/-- A progress of at most ten thousand. -/
def capProgress (progress : Nat) : Nat := if progress > 10000 then 10000 else progress

/-- The condition on which a project becomes the one with the largest market cap: it has not reached
the goal, or it has and was never the god of wells. -/
def isGreater (marketCap maxMarketCap : Nat) (doneTime godOfWellsTime : Option Nat) : Bool :=
  marketCap > maxMarketCap &&
    ((poolProgressOf marketCap ≤ 10000 && doneTime.isNone) ||
      (poolProgressOf marketCap ≥ 10000 && godOfWellsTime.isNone))

/-- The wells progress of a project, next to the largest market cap. -/
def FomoProject.updateWells (v : FomoProject) (time marketCap maxMarketCap : Nat) :
    Option FomoProject :=
  if maxMarketCap = 0 then
    some { v with godOfWellsProgress := 0 }
  else if v.godOfWellsProgress < 10000 then do
    let godOfWellsProgress ← div (marketCap * 10000) maxMarketCap
    if godOfWellsProgress ≥ 10000 then
      some { v with godOfWellsProgress := 10000, godOfWellsTime := some time }
    else
      some { v with godOfWellsProgress }
  else if v.godOfWellsProgress > 10000 then
    some { v with godOfWellsProgress := 10000 }
  else if v.godOfWellsProgress = 10000 ∧ v.godOfWellsTime.isNone then
    some { v with godOfWellsTime := some time }
  else
    some v

/-! ## `set_buy_or_sell` -/

/-- `set_buy_or_sell` up to the call of `querySwapStatus`. -/
def setBuyOrSell (env : Env) (caller : Principal) (recordSignal : RecordSignal) (st : State) :
    Segment := do
  let (userName, userAvatar) ← st.shownUser env caller
  let fomo := st.fomoProjectMap[recordSignal.fomoIdx]?
  return (st, .awaits (.querySwapStatus
    { caller, recordSignal, userName, userAvatar, fomo, addrConfig := st.addrConfig }))

/-- `set_buy_or_sell` up to the call of `getPoolInfo`. -/
def setBuyOrSellSwap (b : BuySell) (swapResult : CallResult (List SwapTxRecord)) (st : State) :
    Segment := do
  let swapRecordVec ← unwrap swapResult
  let swapRecord ← swapRecordVec[0]?
  if swapRecord.status ≠ .Succeeded then
    none
  else if st.context.lastBuySellOp.swapTimestamp.any (· > swapRecord.timestamp) then
    none
  else
    let v ← b.fomo
    let item ← st.fomoProjectMap[b.recordSignal.fomoIdx]?
    return (st, .awaits (.getPoolInfo { b with swapRecord, v, item }))

/-- `set_buy_or_sell` up to the call of `getICPPrice`. -/
def setBuyOrSellPool (s : Swap) (poolRes : CallResult PoolInfo) (st : State) : Segment := do
  let poolInfo ← unwrap poolRes
  return (st, .awaits (.getIcpPrice s poolInfo))

/-- `set_buy_or_sell` up to the call of `total_supply`. The price is not looked at yet. -/
def setBuyOrSellPrice (time : Nat) (s : Swap) (poolInfo : PoolInfo)
    (icpPriceRes : CallResult (Nat × Nat)) (st : State) : Segment :=
  callToken time (.totalSupply { s with poolInfo, icpPriceRes }) st

/-- The market cap that `set_buy_or_sell` computes from the pool's price, the price of ICP and the
supply. -/
def marketCapOf (poolInfo : PoolInfo) (icpPrice totalBalance : Nat) : Nat :=
  poolInfo.basePriceCumulativeLast * icpPrice * totalBalance / nat8 / nat8

/-- The context after a trade: the first ad slot, and the god of wells. -/
def tradeContext (context : Context) (q : Quote) (marketCap maxMarketCap : Nat) : Context :=
  { context with
    lastBuySellOp :=
      { fomoIdx := q.recordSignal.fomoIdx
        fomoTicker := q.v.ticker
        icpAmount := q.recordSignal.icpAmount
        buySellOp := q.recordSignal.buySellOp
        opUserPid := q.caller
        userName := q.userName
        userAvatar := q.userAvatar
        swapTimestamp := some q.swapRecord.timestamp }
    godOfWellsIdx :=
      if isGreater marketCap maxMarketCap q.v.poolProgressDoneTime q.item.godOfWellsTime then
        q.recordSignal.fomoIdx
      else context.godOfWellsIdx }

/-- The end of `set_buy_or_sell`. Every field of the record that it writes but the three set here
comes from the copy `v`, read before the first await. -/
def setBuyOrSellSupply (env : Env) (time : Nat) (q : Quote) (supply : CallResult Nat) (st : State) :
    Segment := do
  let totalBalance ← unwrap supply
  let (_, icpPrice) ← unwrap q.icpPriceRes
  let marketCap := marketCapOf q.poolInfo icpPrice totalBalance
  let maxMarketCap := (st.fomoProjectMap[st.context.godOfWellsIdx]?.map (·.marketCap)).getD 0
  let st := { st with context := tradeContext st.context q marketCap maxMarketCap }
  let v ← q.v.updateWells time marketCap maxMarketCap
  let st ← st.insertProject env q.recordSignal.fomoIdx
    { v with
      poolProgress := capProgress (poolProgressOf marketCap)
      marketCap
      recentlyBumpTime := time }
  return (st, .returned .unit)

/-! ## `reply_update` -/

/-- `reply_update`. -/
def replyUpdate (env : Env) (time fomoIdx : Nat) (st : State) : Option State := do
  let v ← st.fomoProjectMap[fomoIdx]?
  st.insertProject env fomoIdx
    { v with replyCount := v.replyCount + 1, recentlyReplyTime := time }

/-! ## `update_progress` -/

/-- What a run of `update_progress` does with one project once the oracle has answered: the marker
is set, and the project put on the list, where it has reached the goal and has no marker. -/
def writeBackOne (env : Env) (time maxMarketCap : Nat) (acc : State × List Nat)
    (entry : Nat × (Nat × Nat)) : Option (State × List Nat) :=
  let (st, lockFomoIdxList) := acc
  let (fomoIdx, poolProgress, marketCap) := entry
  match st.fomoProjectMap[fomoIdx]? with
  | none => some (st, lockFomoIdxList)
  | some pj => do
    let pj ← { pj with poolProgress, marketCap }.updateWells time marketCap maxMarketCap
    if poolProgress = 10000 ∧ pj.poolProgressDoneTime.isNone then
      let st ← st.insertProject env fomoIdx { pj with poolProgressDoneTime := some time }
      return (st, lockFomoIdxList ++ [pj.fomoIdx])
    else
      return (← st.insertProject env fomoIdx pj, lockFomoIdxList)

/-- The hand-off of a project from its second call on. It traps where the build has no address of the
Dogmi DAO. -/
def HandOff.fromDogmi (env : Env) (h : HandOff) : Option Frame :=
  if h.v.dogmiDaoLock.isSome then do
    let _ ← env.dogmiDaoAddr
    return .handOff .dogmi h
  else
    some (.handOff .lock h)

/-- The hand-off of a project from its first call on. -/
def HandOff.fromSneed (env : Env) (h : HandOff) : Option Frame :=
  if h.v.sneedDaoLock.isSome then some (.handOff .sneed h) else h.fromDogmi env

/-- The last loop of `update_progress`, at the projects that are left. -/
def handOffNext (env : Env) (addrConfig : AddrConfig) (lockFomoIdxList : List Nat) (st : State) :
    Segment :=
  match lockFomoIdxList with
  | [] => some (st, .returned .unit)
  | fomoPid :: rest => do
    let v ← st.fomoProjectMap[fomoPid]?
    let frame ← HandOff.fromSneed env { addrConfig, fomoPid, v, rest }
    return (st, .awaits frame)

/-- `update_progress` once the oracle has answered for every project. -/
def finishProgress (env : Env) (order : HashOrder) (time : Nat) (addrConfig : AddrConfig)
    (map : ExtTreeMap Nat (Nat × Nat) compare) (maxMarketCap maxMarketCapFomoIdx : Nat)
    (st : State) : Segment := do
  let st := { st with context := { st.context with godOfWellsIdx := maxMarketCapFomoIdx } }
  let (st, lockFomoIdxList) ←
    (order.entries map).foldlM (writeBackOne env time maxMarketCap) (st, [])
  handOffNext env addrConfig lockFomoIdxList st

/-- The first loop of `update_progress`, at the projects that are left. -/
def progressNext (env : Env) (order : HashOrder) (time : Nat) (addrConfig : AddrConfig)
    (list : List FomoProject) (map : ExtTreeMap Nat (Nat × Nat) compare)
    (maxMarketCap maxMarketCapFomoIdx : Nat) (st : State) : Segment :=
  match list with
  | item :: list =>
    some (st, .awaits (.marketCapBatch
      { addrConfig, item, list, map, maxMarketCap, maxMarketCapFomoIdx }))
  | [] => finishProgress env order time addrConfig map maxMarketCap maxMarketCapFomoIdx st

/-- `update_progress` up to its first await. -/
def updateProgress (env : Env) (order : HashOrder) (time : Nat) (st : State) : Segment :=
  progressNext env order time st.addrConfig (st.fomoProjectMap.toList.map Prod.snd) ∅ 0 0 st

/-- The market cap that the oracle reports for a token: a failed call and a missing entry count as
zero. -/
def reportedCap (tokenPid : Principal) : CallResult (PrincipalMap Nat) → Nat
  | .ok v => v[tokenPid]?.getD 0
  | .error _ => 0

/-- One round of the first loop. -/
def updateProgressItem (env : Env) (order : HashOrder) (time : Nat) (p : Progress)
    (mcRes : CallResult (PrincipalMap Nat)) (st : State) : Segment :=
  let marketCap := reportedCap p.item.tokenPid mcRes
  let map := p.map.insert p.item.fomoIdx (capProgress (poolProgressOf marketCap), marketCap)
  if isGreater marketCap p.maxMarketCap p.item.poolProgressDoneTime p.item.godOfWellsTime then
    progressNext env order time p.addrConfig p.list map marketCap p.item.fomoIdx st
  else
    progressNext env order time p.addrConfig p.list map p.maxMarketCap p.maxMarketCapFomoIdx st

/-- The last loop after one of its calls. A rejected transfer traps; an inner `Err` of a transfer is
not looked at, and neither is the answer to the lock. -/
def updateProgressHandOff (env : Env) (stage : Stage) (h : HandOff)
    (res : CallResult (Except String Unit)) (st : State) : Segment :=
  match stage with
  | .sneed => do
    let _ ← unwrap res
    let frame ← h.fromDogmi env
    return (st, .awaits frame)
  | .dogmi => do
    let _ ← unwrap res
    return (st, .awaits (.handOff .lock h))
  | .lock => handOffNext env h.addrConfig h.rest st

/-- What the last loop calls on the router: `transferLiquidity` with a share of the pool for a DAO,
and `lockLiquidity`. -/
inductive RouterCall
  | transferLiquidity (router poolPid daoPid : Principal) (transferLp : Nat)
  | lockLiquidity (router poolPid : Principal) (share lockTime : Nat)
  deriving DecidableEq

/-- The call that the last loop awaits at a stage, where it has the address for one. -/
def HandOff.call (env : Env) (h : HandOff) : Stage → Option RouterCall
  | .sneed =>
    some (.transferLiquidity h.addrConfig.routerAddr h.v.poolPid env.sneedDaoAddr
      (h.v.sneedDaoLock.getD 0))
  | .dogmi => do
    let dogmiPid ← env.dogmiDaoAddr
    return .transferLiquidity h.addrConfig.routerAddr h.v.poolPid dogmiPid
      (h.v.dogmiDaoLock.getD 0)
  | .lock => some (.lockLiquidity h.addrConfig.routerAddr h.v.poolPid nat18 0)

end Fomowell.Launcher
