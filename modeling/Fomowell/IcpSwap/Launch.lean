import Fomowell.Lib.Scripts
import Fomowell.Token.Operations

/-!
# Launching a pool on ICPSwap (`fomowell-icpswap-lib/src`)

`launch` pays the creation fee, creates a pool for two tokens, sends both tokens to the pool and mints
a position for them. It is one run of twelve awaited calls without state of its own, so it is a script
(`Scripts`): `Ask` lists the methods it calls, each with its canister and arguments, and `Answer` what
may be replied. The clock is one more question.

The texts of principals are read and printed by the candid library, and `{:?}` is derived for each
type; both are parameters. A number of 128 bits is a `BitVec`, whose subtraction wraps as in a release
build, and an `f64` is a `Float`. The fields of a reply that nothing reads are left out.
-/

namespace Fomowell.IcpSwap

open Fomowell.Token Scripts

/-! ## Types and constants -/

/-- `ICP_LEDGER_CANISTER`. -/
def icpLedgerCanister : String := "ryjl3-tyaaa-aaaaa-aaaba-cai"

/-- `ICP_LEDGER_FEE`. -/
def icpLedgerFee : Nat := 10000

/-- `Error`. -/
inductive Error
  | CommonError
  | InternalError (text : String)
  | UnsupportedToken (text : String)
  | InsufficientFunds

/-- The results that ICPSwap's canisters answer. -/
abbrev Result (V : Type) : Type := Except Error V

/-- `Token`. -/
structure Token where
  address : String
  standard : String

/-- `TokenInfo`. -/
structure TokenInfo where
  token : Token
  fee : BitVec 128
  balance : BitVec 128
  decimal : BitVec 128

/-- `LaunchRequestArg`. -/
structure LaunchRequestArg where
  token0 : TokenInfo
  token1 : TokenInfo
  subaccount : Option Subaccount

/-- `CreatePoolArgs`. -/
structure CreatePoolArgs where
  fee : Nat
  sqrtPriceX96 : String
  token0 : Token
  token1 : Token

/-- `PasscodeManagerDepositArgs`. -/
structure PasscodeManagerDepositArgs where
  fee : Nat
  amount : Nat

/-- `MintArgs`. -/
structure MintArgs where
  fee : Nat
  tickUpper : Int
  token0 : String
  token1 : String
  amount0Desired : String
  amount1Desired : String
  tickLower : Int

/-- The fields of `PoolMetadata` that are read. -/
structure PoolMetadata where
  fee : Nat
  sqrtPriceX96 : Nat
  tick : Int
  token0 : Token
  token1 : Token

/-- `Position`. -/
structure Position where
  amount0 : Int
  amount1 : Int

/-- `Env`. -/
inductive Env
  | TEST
  | PROD

/-- `ICPSwapConfig`. -/
structure ICPSwapConfig where
  icpSwapCalculatorCanister : Principal
  icpSwapFactoryCanister : Principal
  icpSwapPasscodeManagerCanister : Principal
  icpSwapCreationFee : Nat

/-! ## Calls -/

/-- The time, and the methods of other canisters. -/
inductive Ask
  | time
  | icrc1Transfer (ledger : Principal) (arg : TransferArg)
  | deposit (passcodeManager : Principal) (args : PasscodeManagerDepositArgs)
  | requestPasscode (passcodeManager : Principal) (args : Principal × Principal × Nat)
  | getSqrtPriceX96 (calculator : Principal) (args : Float × Float × Float)
  | createPool (factory : Principal) (args : CreatePoolArgs)
  | metadata (pool : Principal)
  | getPrice (calculator : Principal) (args : Nat × Nat × Nat)
  | priceToTick (calculator : Principal) (args : Float × Nat)
  | getPositionTokenAmount (calculator : Principal) (args : Int × Int × Int × Int × Nat × Nat)
  | mint (pool : Principal) (args : MintArgs)

/-- What is answered. A pool is answered by its `canisterId`, a passcode by its text. -/
def Answer : Ask → Type
  | .time => Nat
  | .icrc1Transfer .. => LedgerReply
  | .deposit .. => CallResult (Result Nat)
  | .requestPasscode .. => CallResult (Result String)
  | .getSqrtPriceX96 .. => CallResult Int
  | .createPool .. => CallResult (Result Principal)
  | .metadata _ => CallResult (Result PoolMetadata)
  | .getPrice .. => CallResult Float
  | .priceToTick .. => CallResult Int
  | .getPositionTokenAmount .. => CallResult Position
  | .mint .. => CallResult (Result Nat)

/-- A method that fails with a text. -/
abbrev Launching (V : Type) : Type := Method Ask Answer String V

/-- One awaited call, or a reading of the clock. -/
abbrev call (q : Ask) : Launching (Answer q) := ask q

/-- `Display` for a candid `Int`. -/
def displayInt (n : Int) : String :=
  if n < 0 then "-" ++ displayNat n.natAbs else displayNat n.natAbs

example : displayInt (-1234567) = "-1_234_567" := by decide

/-- `get_sub_account_from_principal`: the length, the bytes, and zeros up to 32 bytes. -/
def getSubAccountFromPrincipal (principalId : Principal) : Option Subaccount :=
  let bytes := UInt8.ofNat principalId.bytes.length :: principalId.bytes
  some (bytes ++ List.replicate (32 - bytes.length) 0)

section

variable (fromText : String → Option Principal) (toText : Principal → String)
  (debug : (V : Type) → V → String)

/-- `ICPSwapConfig::new`. -/
def ICPSwapConfig.new : Env → Launching ICPSwapConfig
  | .TEST => do
    return {
      icpSwapCalculatorCanister := ← unwrap (fromText "phr2m-oyaaa-aaaag-qjuoq-cai")
      icpSwapFactoryCanister := ← unwrap (fromText "ososz-6iaaa-aaaag-ak5ua-cai")
      icpSwapPasscodeManagerCanister := ← unwrap (fromText "pybqd-4yaaa-aaaag-ak5ta-cai")
      icpSwapCreationFee := 10000000 }
  | .PROD => do
    return {
      icpSwapCalculatorCanister := ← unwrap (fromText "phr2m-oyaaa-aaaag-qjuoq-cai")
      icpSwapFactoryCanister := ← unwrap (fromText "4mmnk-kiaaa-aaaag-qbllq-cai")
      icpSwapPasscodeManagerCanister := ← unwrap (fromText "7eikv-2iaaa-aaaag-qdgwa-cai")
      icpSwapCreationFee := 100000000 }

/-- The end of `call(..).await.map_err(..)?`: a rejection is an error with a text before it. -/
def accept {V : Type} (failed : String) : CallResult V → Launching V
  | .ok v => pure v
  | .error e => throw (failed ++ debug Rejection e)

/-- The match on a canister's own result. -/
def expect {E V : Type} (failed : E → String) : Except E V → Launching V
  | .ok v => pure v
  | .error e => throw (failed e)

/-- `icrc1_transfer`: nothing is called for an amount of zero. A ledger's error is its text. -/
def icrc1Transfer (ledger : Principal) (arg : TransferArg) : Launching Nat :=
  if arg.amount = 0 then
    return 0
  else do
    let reply ← accept debug "Failed to call ledger icrc1_transfer: "
      (← call (.icrc1Transfer ledger arg))
    expect (fun e => "Failed to call Ledger " ++ debug String (toText ledger) ++
      " icrc1_transfer with arg " ++ debug TransferArg arg ++ " return error: " ++ e) reply

/-- `deposit_creatiton_fee`. -/
def depositCreationFee (manager : Principal) (icpSwapCreationFee : Nat) : Launching Unit := do
  let depositArg : PasscodeManagerDepositArgs :=
    { fee := icpLedgerFee, amount := icpSwapCreationFee }
  let reply ← accept debug "Failed to call PasscodeManager deposit: "
    (← call (.deposit manager depositArg))
  let _ ← expect (fun e => "Failed to call PasscodeManager " ++ debug String (toText manager) ++
    " deposit with args " ++ debug _ depositArg ++ " return error: " ++ debug Error e) reply
  return ()

/-- `reqeust_passcode`. An address that is not the text of a principal is a trap. -/
def requestPasscode (manager : Principal) (token0 token1 : Token) (icpSwapCreationFee : Nat) :
    Launching Unit := do
  let args := (← unwrap (fromText token0.address), ← unwrap (fromText token1.address),
    icpSwapCreationFee)
  let reply ← accept debug "Failed to call PasscodeManager requestPasscode: "
    (← call (.requestPasscode manager args))
  let _ ← expect (fun e => "Failed to call PasscodeManager " ++ debug String (toText manager) ++
    " requestPasscode with args " ++ debug _ args ++ " return error: " ++ debug Error e) reply
  return ()

/-- `get_sqrt_price_x96`. -/
def getSqrtPriceX96 (calculator : Principal) (price : Float)
    (token0Decimal token1Decimal : BitVec 128) : Launching Int := do
  accept debug "Failed to call SwapCalculator getSqrtPriceX96: "
    (← call (.getSqrtPriceX96 calculator
      (price, Float.ofNat token0Decimal.toNat, Float.ofNat token1Decimal.toNat)))

/-- `create_pool`. -/
def createPool (factory : Principal) (token0 token1 : Token) (icpSwapCreationFee : Nat)
    (sqrtPriceX96 : String) : Launching Principal := do
  let arg : CreatePoolArgs := { fee := icpSwapCreationFee, sqrtPriceX96, token0, token1 }
  let reply ← accept debug "Failed to call SwapFactory createPool: "
    (← call (.createPool factory arg))
  expect (fun e => "Failed to call SwapFactory " ++ debug String (toText factory) ++
    " createPool with args " ++ debug _ arg ++ " return error: " ++ debug Error e) reply

/-- `ICPSwapPool::metadata`. -/
def metadata (pool : Principal) : Launching PoolMetadata := do
  let reply ← accept debug "Failed to call Pool metadata: " (← call (.metadata pool))
  expect (fun e => "Failed to call SwapPool " ++ debug String (toText pool) ++
    " metadata with args " ++ debug Unit () ++ " return error: " ++ debug Error e) reply

/-- `get_price`. -/
def getPrice (calculator : Principal) (args : Nat × Nat × Nat) : Launching Float := do
  accept debug "Failed to call SwapCalculator getPrice: " (← call (.getPrice calculator args))

/-- `get_tick`. -/
def getTick (calculator : Principal) (price : Float) (icpSwapPoolFee : Nat) : Launching Int := do
  accept debug "Failed to call SwapCalculator priceToTick: "
    (← call (.priceToTick calculator (price, icpSwapPoolFee)))

/-- `get_position_token_amount`. -/
def getPositionTokenAmount (calculator : Principal) (args : Int × Int × Int × Int × Nat × Nat) :
    Launching Position := do
  accept debug "Failed to call SwapCalculator getPositionTokenAmount: "
    (← call (.getPositionTokenAmount calculator args))

/-- `mint_liqudity`. -/
def mintLiquidity (pool : Principal) (arg : MintArgs) : Launching Unit := do
  let reply ← accept debug "Failed to call SwapPool mint: " (← call (.mint pool arg))
  let _ ← expect (fun e => "Failed to call SwapPool " ++ debug String (toText pool) ++
    " mint with args " ++ debug _ arg ++ " return error: " ++ debug Error e) reply
  return ()

/-! ## The method -/

/-- What is sent of a token: its balance less the fee of the transfer. -/
def TokenInfo.net (info : TokenInfo) : Nat := (info.balance - info.fee).toNat

/-- The transfer of one token to the pool's account for the canister `id`. -/
def sendToken (id pool : Principal) (subaccount : Option Subaccount) (info : TokenInfo) :
    Launching Nat := do
  icrc1Transfer toText debug (← unwrap (fromText icpLedgerCanister)) {
    fromSubaccount := subaccount
    recipient := { owner := pool, subaccount := getSubAccountFromPrincipal id }
    fee := some info.fee.toNat
    createdAtTime := some (← call .time)
    memo := none
    amount := info.net }

/-- `amount0_desired` and `amount1_desired`. -/
def desiredAmounts (launchArg : LaunchRequestArg) (metadata : PoolMetadata) : Nat × Nat :=
  if metadata.token0.address = launchArg.token0.token.address then
    (launchArg.token0.net, launchArg.token1.net)
  else
    (launchArg.token1.net, launchArg.token0.net)

/-- `launch`, of the canister `id`. -/
def launch (id : Principal) (env : Env) (launchArg : LaunchRequestArg) : Launching Principal := do
  let config ← ICPSwapConfig.new fromText env
  -- 1. create the pool
  let _ ← icrc1Transfer toText debug (← unwrap (fromText icpLedgerCanister)) {
    fromSubaccount := launchArg.subaccount
    recipient := { owner := config.icpSwapPasscodeManagerCanister, subaccount := none }
    fee := some icpLedgerFee
    createdAtTime := some (← call .time)
    memo := none
    amount := config.icpSwapCreationFee }
  depositCreationFee toText debug config.icpSwapPasscodeManagerCanister config.icpSwapCreationFee
  requestPasscode fromText toText debug config.icpSwapPasscodeManagerCanister launchArg.token0.token
    launchArg.token1.token config.icpSwapCreationFee
  let price :=
    Float.ofNat launchArg.token0.balance.toNat / Float.ofNat launchArg.token1.balance.toNat
  let sqrtPriceX96 ← getSqrtPriceX96 debug config.icpSwapCalculatorCanister price
    launchArg.token0.decimal launchArg.token1.decimal
  let poolCanister ← createPool toText debug config.icpSwapFactoryCanister launchArg.token0.token
    launchArg.token1.token config.icpSwapCreationFee (displayInt sqrtPriceX96)
  -- 2. mint liquidity
  let _ ← sendToken fromText toText debug id poolCanister launchArg.subaccount launchArg.token0
  let _ ← sendToken fromText toText debug id poolCanister launchArg.subaccount launchArg.token1
  let metadata ← metadata toText debug poolCanister
  let price ← getPrice debug config.icpSwapCalculatorCanister
    (metadata.sqrtPriceX96, launchArg.token0.decimal.toNat, launchArg.token1.decimal.toNat)
  let priceLower := price / 10.0
  let tickLower ← getTick debug config.icpSwapCalculatorCanister priceLower
    config.icpSwapCreationFee
  let priceUpper := price * 10.0
  let tickUpper ← getTick debug config.icpSwapCalculatorCanister priceUpper
    config.icpSwapCreationFee
  let desired := desiredAmounts launchArg metadata
  let position ← getPositionTokenAmount debug config.icpSwapCalculatorCanister
    (sqrtPriceX96, metadata.tick, tickLower, tickUpper, desired.1, desired.2)
  mintLiquidity toText debug poolCanister {
    fee := metadata.fee
    tickUpper := tickUpper
    tickLower := tickLower
    token0 := metadata.token0.address
    token1 := metadata.token1.address
    amount0Desired := displayInt position.amount0
    amount1Desired := displayInt position.amount1 }
  return poolCanister

end

end Fomowell.IcpSwap
