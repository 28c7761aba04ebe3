import Std.Data.ExtTreeMap
import Mathlib.Data.List.Basic

/-!
# Batches of transactions (`fomowell-frontend/artemis-web3-adapter/src/libs/batchTransact.js`)

A batch is a list of named steps, each a call of a canister. `execute` submits them in order up to the
first failure, and `retryExecute` goes on with those that are not done. A step with an
`updateNextStep` ends a group and hands its result to the first step of the next one.

The callbacks of a step are wrapped where the batch is prepared, and a wrapper does not know its step:
it looks up `self.trxArray[i][j]` when it is called, at the place where the step was when it was
prepared. Preparing again wraps the wrappers once more.

The objects of the steps are shared and changed in place; here they are entries of `items`, and
`trxArray` has their numbers. What the canisters answer is an `Attempt` for each step that is tried.
Both methods resolve to `transactionResults` where the batch is done then, and to false elsewhere. The
wallet that takes a whole group at once, and does what its extension does with it, is left out; so are
the logs.
-/

namespace Fomowell.Frontend

open Std

/-- What a call of a canister gives: nothing, an exception or a value that counts as false included,
or a value, which may carry an error. -/
inductive Resp (V : Type)
  | nothing
  | answer (data : V) (err : Bool)

/-- A step as it is given. A callback that is absent or throws fails; `updateNextStep` changes the
arguments of the next step. -/
structure Step (V : Type) where
  canisterId : String
  methodName : Option String
  args : List V
  onSuccess : Bool
  onFail : Bool
  updateNextStep : Option (V → List V → Option (List V))

/-- `state` of a step. -/
inductive StepState
  | idle
  | error
  | done
  deriving DecidableEq

/-- The object of a step: what is changed of it, how often its callbacks are wrapped, and the place
that the wrappers look at. -/
structure Item (V : Type) where
  args : List V
  state : StepState
  wraps : Nat
  place : Nat × Nat

/-- `state` of a batch. -/
inductive BatchState
  | idle
  | running
  | error
  | done
  deriving DecidableEq

/-- `BatchTransaction`. -/
structure Batch (V : Type) where
  transactionList : List (String × Step V)
  state : BatchState
  completed : List String
  activeStep : Option String
  failedSteps : List String
  transactionResults : ExtTreeMap String V compare
  trxArray : List (List Nat)
  items : List (Item V)

/-- One step that is tried: whether its actor is there, and what the call of it gives. -/
structure Attempt (V : Type) where
  actor : Bool
  resp : Resp V

/-- A call that a batch made. -/
structure Submission (V : Type) where
  step : Nat
  args : List V
  resp : Resp V

variable {V : Type}

/-- The constructor, for an adapter with a provider and at least one step. -/
def Batch.new (transactionList : List (String × Step V)) : Batch V where
  transactionList := transactionList
  state := .idle
  completed := []
  activeStep := none
  failedSteps := []
  transactionResults := ∅
  trxArray := []
  items := transactionList.map fun step => ⟨step.2.args, .idle, 0, (0, 0)⟩

namespace Batch

/-- `stepsList[k]`. -/
def name (b : Batch V) (k : Nat) : Option String := b.transactionList[k]?.map Prod.fst

/-- `trxArray[i][j]`. -/
def lookAt (b : Batch V) (place : Nat × Nat) : Option Nat := b.trxArray[place.1]?.bind (·[place.2]?)

/-- The steps in groups, each up to a step that hands on, from the number `k` on. -/
def groups (tempArray : List Nat) (k : Nat) : List (Step V) → List (List Nat)
  | [] => if tempArray.length > 0 then [tempArray] else []
  | x :: steps =>
    if x.updateNextStep.isSome then (tempArray ++ [k]) :: groups [] (k + 1) steps
    else groups (tempArray ++ [k]) (k + 1) steps

/-- The places of the steps in their groups. -/
def places (trxArray : List (List Nat)) : List (Nat × Nat) :=
  trxArray.zipIdx.flatMap fun group => group.1.zipIdx.map fun el => (group.2, el.2)

/-- `_prepareTrxArry`. -/
def prepareTrxArray (b : Batch V) : Batch V :=
  let trxArray := groups [] 0 (b.transactionList.map Prod.snd)
  { b with
    trxArray
    items := (b.items.zip (places trxArray)).map fun (item, place) =>
      { item with state := .idle, wraps := item.wraps + 1, place } }

/-- A change of one step's object. -/
def modifyItem (b : Batch V) (k : Nat) (f : Item V → Item V) : Batch V :=
  { b with items := b.items.modify k f }

/-- The hand-over to the first step of the next group, if there is one, and whether it returned. -/
def handOver (b : Batch V) (update : V → List V → Option (List V)) (data : V) (i : Nat) : Batch V × Bool :=
  match b.trxArray[i + 1]? with
  | none => (b, true)
  | some group =>
    match group[0]?.bind fun k => b.items[k]?.bind fun item => (update data item.args).map (k, ·) with
    | some (k, args) => (b.modifyItem k fun item => { item with args }, true)
    | none => (b, false)

/-- A wrapper's part for a step that answered. -/
def answered (b : Batch V) (k i : Nat) (data : V) (err : Bool) : Batch V × Bool :=
  let named := (b.name k).toList
  if err then
    ({ b with
        failedSteps := b.failedSteps ++ named
        transactionResults := b.transactionResults.insertMany (named.map (·, data))
        state := .error }.modifyItem k fun item => { item with state := .error }, true)
  else
    let b :=
      { b with
        completed := b.completed ++ named
        activeStep := b.name (k + 1)
        transactionResults := b.transactionResults.insertMany (named.map (·, data)) }.modifyItem k
          fun item => { item with state := .done }
    match b.transactionList[k]?.bind fun step => step.2.updateNextStep with
    | some update => b.handOver update data i
    | none => (b, true)

/-- `onSuccess` of the step `k` with some wrappers around it, and whether it returned. A wrapper does
not await the one that it is around. -/
def onSuccess (b : Batch V) (k : Nat) (place : Nat × Nat) (data : V) (err : Bool) : Nat → Batch V × Bool
  | 0 => (b, (b.transactionList[k]?.map fun step => step.2.onSuccess).getD false)
  | wraps + 1 =>
    match b.lookAt place with
    | none => (b, false)
    | some found =>
      let (b, returned) := b.onSuccess k place data err wraps
      if wraps = 0 ∧ !returned then (b, false) else b.answered found place.1 data err

/-- `onFail` of the step `k` with some wrappers around it, and whether it returned. -/
def onFail (b : Batch V) (k : Nat) (place : Nat × Nat) : Nat → Batch V × Bool
  | 0 => (b, (b.transactionList[k]?.map fun step => step.2.onFail).getD false)
  | wraps + 1 =>
    let (b, returned) := b.onFail k place wraps
    match if returned then b.lookAt place else none with
    | none => (b, false)
    | some found =>
      ({ b with
          failedSteps := b.failedSteps ++ (b.name found).toList
          activeStep := b.name found
          state := .error }.modifyItem found fun item => { item with state := .error }, true)

/-- What follows the call of a step. -/
def settle (b : Batch V) (k : Nat) (item : Item V) : Resp V → Batch V × Bool
  | .nothing => b.onFail k item.place item.wraps
  | .answer data err => b.onSuccess k item.place data err item.wraps

/-- One turn of the inner loop: the step, whether nothing was thrown, and the call that was made. A
step without a method fails twice. -/
def attempt (b : Batch V) (k : Nat) (a : Attempt V) : Batch V × Bool × List (Submission V) :=
  match b.items[k]?, b.transactionList[k]? with
  | some item, some (_, step) =>
    if !a.actor then (b, false, [])
    else if step.methodName.isSome then
      let (b', returned) := b.settle k item a.resp
      (b', returned, [⟨k, item.args, a.resp⟩])
    else
      let (b', returned) := b.settle k item .nothing
      if returned then
        let (b', returned) := b'.settle k item .nothing
        (b', returned, [])
      else (b', false, [])
  | _, _ => (b, false, [])

/-- The loops over the groups and their steps, which both stop where the batch is in error, with the
number of the attempt. -/
def process (world : Nat → Attempt V) : Nat → Batch V → List Nat → Batch V × Bool × List (Submission V)
  | _, b, [] => (b, true, [])
  | n, b, k :: ks =>
    if b.state = .error ∨ b.state = .done then (b, true, [])
    else
      match b.attempt k (world n) with
      | (b, true, calls) =>
        let (b, returned, later) := process world (n + 1) b ks
        (b, returned, calls ++ later)
      | (b, false, calls) => (b, false, calls)

/-- `_processBatch`, for the wallets that are called step by step, with the calls that it makes. -/
def processBatch (b : Batch V) (world : Nat → Attempt V) : Batch V × List (Submission V) :=
  if b.trxArray.length = 0 then (b, [])
  else
    let b := { b with activeStep := b.name b.completed.length }
    match b.process world 0 b.trxArray.flatten with
    | (b, true, calls) => ({ b with state := if b.failedSteps.length = 0 then .done else .error }, calls)
    | (b, false, calls) => ({ b with state := .error }, calls)

/-- `execute`. -/
def execute (b : Batch V) (world : Nat → Attempt V) : Batch V × List (Submission V) :=
  if b.state = .running ∨ b.transactionList.length = 0 ∨ b.state = .done then (b, [])
  else processBatch (prepareTrxArray { b with state := .running, failedSteps := [] }) world

/-- `retryExecute`. -/
def retryExecute (b : Batch V) (world : Nat → Attempt V) : Batch V × List (Submission V) :=
  if b.state ≠ .error then (b, [])
  else
    let trxArray := b.trxArray.map fun group =>
      group.filter fun k => (b.items[k]?.map Item.state) ≠ some .done
    processBatch { b with trxArray, state := .running, failedSteps := [] } world

/-- `execute`, and then `retryExecute` for each further world, with all the calls in order. -/
def session (b : Batch V) (world : Nat → Attempt V) (retries : List (Nat → Attempt V)) :
    Batch V × List (Submission V) :=
  retries.foldl (fun s world => let (b, calls) := s.1.retryExecute world; (b, s.2 ++ calls))
    (b.execute world)

end Batch

end Fomowell.Frontend
