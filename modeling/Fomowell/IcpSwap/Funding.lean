import Fomowell.IcpSwap.Launch

/-!
# The funding of a launched pool

A launch should leave the pool with both tokens: one transfer of each, on the ledger that the token's
address names, and a position asked for with the same two amounts in the pool's order (`FundsPool`).

The amounts and their order are right in every run (`launch_observed`). The ledger is not: both tokens
are sent on the ledger of ICP, which `launch` names for its creation fee as well. So a pool is funded
exactly where both addresses name that ledger (`launch_fundsPool_iff`).
-/

namespace Fomowell.IcpSwap

open Fomowell.Token Scripts

deriving instance DecidableEq for Account

/-! ## What a run shows -/

/-- The transfers to an account, each by its ledger and its amount. -/
def transfersTo (account : Account) (trace : List (Event Ask Answer)) : List (Principal × Nat) :=
  trace.filterMap fun
    | ⟨.icrc1Transfer ledger arg, _⟩ =>
      if arg.recipient = account then some (ledger, arg.amount) else none
    | _ => none

/-- The metadata that a pool answered. -/
def metadataOf (pool : Principal) (trace : List (Event Ask Answer)) : List PoolMetadata :=
  trace.filterMap fun
    | ⟨.metadata canister, .ok (.ok metadata)⟩ => if canister = pool then some metadata else none
    | _ => none

/-- The desired amounts that were passed to `getPositionTokenAmount`. -/
def positionsAsked (trace : List (Event Ask Answer)) : List (Nat × Nat) :=
  trace.filterMap fun
    | ⟨.getPositionTokenAmount _ args, _⟩ => some args.2.2.2.2
    | _ => none

/-- The amount of a token that is to reach the pool. -/
def TokenInfo.sent (info : TokenInfo) : Nat := info.balance.toNat - info.fee.toNat

/-- Two amounts are those of the tokens, in the order in which the pool lists them. -/
structure InPoolOrder (launchArg : LaunchRequestArg) (metadata : PoolMetadata) (desired : Nat × Nat) :
    Prop where
  same : [desired.1, desired.2].Perm [launchArg.token0.sent, launchArg.token1.sent]
  straight : metadata.token0.address = launchArg.token0.token.address →
    metadata.token1.address = launchArg.token1.token.address →
    desired = (launchArg.token0.sent, launchArg.token1.sent)
  crossed : metadata.token0.address = launchArg.token1.token.address →
    metadata.token1.address = launchArg.token0.token.address →
    launchArg.token0.token.address ≠ launchArg.token1.token.address →
    desired = (launchArg.token1.sent, launchArg.token0.sent)

/-- **A launch funds its pool**: one transfer of each token on its own ledger to the pool's account for
the launching canister, and a position of these amounts. -/
structure FundsPool (fromText : String → Option Principal) (id pool : Principal)
    (launchArg : LaunchRequestArg) (trace : List (Event Ask Answer)) : Prop where
  transfers : ∃ ledger0 ledger1,
    fromText launchArg.token0.token.address = some ledger0 ∧
    fromText launchArg.token1.token.address = some ledger1 ∧
    (transfersTo ⟨pool, getSubAccountFromPrincipal id⟩ trace).Perm
      [(ledger0, launchArg.token0.sent), (ledger1, launchArg.token1.sent)]
  position : ∃ metadata desired, metadataOf pool trace = [metadata] ∧
    positionsAsked trace = [desired] ∧ InPoolOrder launchArg metadata desired

section

variable {fromText : String → Option Principal} {toText : Principal → String}
  {debug : (V : Type) → V → String} {id pool : Principal} {env : Env} {launchArg : LaunchRequestArg}
  {trace : List (Event Ask Answer)}

/-- Where the balance is above the fee, the checked subtraction is the difference. -/
theorem TokenInfo.net_eq {info : TokenInfo} (h : info.fee < info.balance) : info.net = info.sent :=
  BitVec.toNat_sub_of_le (BitVec.le_of_lt h)

/-- A difference that is not zero, so that the transfer is made. -/
theorem TokenInfo.net_ne_zero {info : TokenInfo} (h : info.fee < info.balance) : info.net ≠ 0 := by
  rw [info.net_eq h]
  exact Nat.sub_ne_zero_of_lt h

/-- The desired amounts are the two that are sent, in the order of the pool's metadata. -/
theorem desiredAmounts_inPoolOrder (metadata : PoolMetadata)
    (h0 : launchArg.token0.fee < launchArg.token0.balance)
    (h1 : launchArg.token1.fee < launchArg.token1.balance) :
    InPoolOrder launchArg metadata (desiredAmounts launchArg metadata) := by
  unfold desiredAmounts
  rw [TokenInfo.net_eq h0, TokenInfo.net_eq h1]
  split
  next hfirst => exact ⟨List.Perm.refl _, fun _ _ => rfl, fun h _ hne => absurd (hfirst ▸ h) hne⟩
  next hfirst => exact ⟨List.Perm.swap _ _ _, fun h _ => absurd h hfirst, fun _ _ _ => rfl⟩

/-! ## What each part asks -/

/-- To unwrap the outer layer of a reply asks nothing. -/
theorem accept_silent {V : Type} (failed : String) (reply : CallResult V) :
    Silent (accept debug failed reply) := by
  cases reply with
  | ok v => exact silent_pure v
  | error e => exact silent_throw _

/-- To unwrap the inner layer of a reply asks nothing. -/
theorem expect_silent {E V : Type} (failed : E → String) (reply : Except E V) :
    Silent (expect failed reply) := by
  cases reply with
  | ok v => exact silent_pure v
  | error e => exact silent_throw _

/-- The configuration is parsed from texts. -/
theorem ICPSwapConfig.new_silent (env : Env) : Silent (ICPSwapConfig.new fromText env) := by
  cases env with
  | TEST | PROD =>
    exact (silent_unwrap _).bind fun _ => (silent_unwrap _).bind fun _ =>
      (silent_unwrap _).bind fun _ => silent_pure _

/-- A transfer of zero is skipped, and any other is one call of the ledger named. -/
theorem icrc1Transfer_succeeds {ledger : Principal} {arg : TransferArg} {block : Nat}
    (h : Succeeds (icrc1Transfer toText debug ledger arg) trace block) :
    arg.amount = 0 ∧ trace = [] ∨
      arg.amount ≠ 0 ∧ ∃ answer, trace = [⟨.icrc1Transfer ledger arg, answer⟩] := by
  unfold icrc1Transfer at h
  by_cases hzero : arg.amount = 0
  · rw [if_pos hzero] at h
    exact .inl ⟨hzero, (succeeds_pure.mp h).1⟩
  · rw [if_neg hzero] at h
    refine .inr ⟨hzero, h.asked (asks_bind fun reply => ?_)⟩
    exact (accept_silent _ reply).bind fun result => expect_silent _ result

/-- The creation fee is deposited in one call. -/
theorem depositCreationFee_asks (manager : Principal) (amount : Nat) :
    Asks (.deposit manager ⟨icpLedgerFee, amount⟩)
      (depositCreationFee toText debug manager amount) :=
  asks_bind fun reply => (accept_silent _ reply).bind fun result =>
    (expect_silent _ result).bind fun _ => silent_pure _

/-- One call asks the passcode for both tokens, each by the ledger that its address names. -/
theorem requestPasscode_succeeds {manager : Principal} {token0 token1 : Token} {fee : Nat}
    (h : Succeeds (requestPasscode fromText toText debug manager token0 token1 fee) trace ()) :
    ∃ ledger0 ledger1 answer, fromText token0.address = some ledger0 ∧
      fromText token1.address = some ledger1 ∧
      trace = [⟨.requestPasscode manager (ledger0, ledger1, fee), answer⟩] := by
  obtain ⟨ledger0, hledger0, h⟩ := succeeds_unwrap_bind.mp h
  obtain ⟨ledger1, hledger1, h⟩ := succeeds_unwrap_bind.mp h
  obtain ⟨answer, rest, htrace, h⟩ := succeeds_ask_bind.mp h
  obtain rfl : rest = [] := h.nil ((accept_silent _ answer).bind fun result =>
    (expect_silent _ result).bind fun _ => silent_pure ())
  exact ⟨ledger0, ledger1, answer, hledger0, hledger1, htrace⟩

/-- The calculator turns a price into a square root in one call. -/
theorem getSqrtPriceX96_asks (calculator : Principal) (price : Float)
    (decimal0 decimal1 : BitVec 128) :
    Asks (.getSqrtPriceX96 calculator
        (price, Float.ofNat decimal0.toNat, Float.ofNat decimal1.toNat))
      (getSqrtPriceX96 debug calculator price decimal0 decimal1) :=
  asks_bind fun reply => accept_silent _ reply

/-- The factory creates the pool in one call. -/
theorem createPool_asks (factory : Principal) (token0 token1 : Token) (fee : Nat) (price : String) :
    Asks (.createPool factory ⟨fee, price, token0, token1⟩)
      (createPool toText debug factory token0 token1 fee price) :=
  asks_bind fun reply => (accept_silent _ reply).bind fun result => expect_silent _ result

/-- The pool is asked for its metadata once, and what is read is what it answered. -/
theorem metadata_succeeds {answered : PoolMetadata}
    (h : Succeeds (metadata toText debug pool) trace answered) :
    trace = [⟨.metadata pool, .ok (.ok answered)⟩] := by
  obtain ⟨reply, rest, htrace, h⟩ := succeeds_ask_bind.mp h
  cases reply with
  | error e => cases h
  | ok result =>
    cases result with
    | error e => cases h
    | ok value =>
      obtain ⟨rfl, rfl⟩ := succeeds_pure.mp h
      exact htrace

/-- The calculator turns the square root back into a price in one call. -/
theorem getPrice_asks (calculator : Principal) (args : Nat × Nat × Nat) :
    Asks (.getPrice calculator args) (getPrice debug calculator args) :=
  asks_bind fun reply => accept_silent _ reply

/-- The calculator turns a bound of the price into a tick in one call. -/
theorem getTick_asks (calculator : Principal) (price : Float) (fee : Nat) :
    Asks (.priceToTick calculator (price, fee)) (getTick debug calculator price fee) :=
  asks_bind fun reply => accept_silent _ reply

/-- The calculator turns the bounds of the position into amounts in one call. -/
theorem getPositionTokenAmount_asks (calculator : Principal)
    (args : Int × Int × Int × Int × Nat × Nat) :
    Asks (.getPositionTokenAmount calculator args)
      (getPositionTokenAmount debug calculator args) :=
  asks_bind fun reply => accept_silent _ reply

/-- The position is asked for in one call. -/
theorem mintLiquidity_asks (arg : MintArgs) :
    Asks (.mint pool arg) (mintLiquidity toText debug pool arg) :=
  asks_bind fun reply => (accept_silent _ reply).bind fun result =>
    (expect_silent _ result).bind fun _ => silent_pure _

/-- **One token is sent** to the pool's subaccount, on the ledger of ICP, whichever token it is. -/
theorem sendToken_succeeds {subaccount : Option Subaccount} {info : TokenInfo} {block : Nat}
    (hinfo : info.fee < info.balance)
    (h : Succeeds (sendToken fromText toText debug id pool subaccount info) trace block) :
    ∃ icp now arg answer, fromText icpLedgerCanister = some icp ∧
      arg.recipient = ⟨pool, getSubAccountFromPrincipal id⟩ ∧ arg.amount = info.sent ∧
      trace = [⟨.time, now⟩, ⟨.icrc1Transfer icp arg, answer⟩] := by
  obtain ⟨icp, hicp, h⟩ := succeeds_unwrap_bind.mp h
  obtain ⟨now, rest, htrace, h⟩ := succeeds_ask_bind.mp h
  obtain ⟨hzero, _⟩ | ⟨_, answer, hrest⟩ := icrc1Transfer_succeeds h
  · exact absurd hzero (TokenInfo.net_ne_zero hinfo)
  · exact ⟨icp, now, _, answer, hicp, rfl, TokenInfo.net_eq hinfo, hrest ▸ htrace⟩

/-- The account of the creation fee has no subaccount, so it is not the pool's. -/
theorem account_ne (owner pool id : Principal) :
    (⟨owner, none⟩ : Account) ≠ ⟨pool, getSubAccountFromPrincipal id⟩ := by
  intro h
  exact Option.some_ne_none _ (congrArg Account.subaccount h).symm

/-! ## The run -/

/-- **What a successful launch does**: both transfers are made on the ledger of ICP, the pool is asked
for its metadata, and one position is asked for with the desired amounts. -/
theorem launch_observed (h0 : launchArg.token0.fee < launchArg.token0.balance)
    (h1 : launchArg.token1.fee < launchArg.token1.balance)
    (h : Succeeds (launch fromText toText debug id env launchArg) trace pool) :
    ∃ icp ledger0 ledger1 answered, fromText icpLedgerCanister = some icp ∧
      fromText launchArg.token0.token.address = some ledger0 ∧
      fromText launchArg.token1.token.address = some ledger1 ∧
      transfersTo ⟨pool, getSubAccountFromPrincipal id⟩ trace =
        [(icp, launchArg.token0.sent), (icp, launchArg.token1.sent)] ∧
      metadataOf pool trace = [answered] ∧
      positionsAsked trace = [desiredAmounts launchArg answered] := by
  obtain ⟨config, _, h⟩ := (ICPSwapConfig.new_silent env).succeeds_bind h
  -- the creation fee, which goes to an account without a subaccount
  obtain ⟨icp, hicp, h⟩ := succeeds_unwrap_bind.mp h
  obtain ⟨now, afterTime, eTime, h⟩ := succeeds_ask_bind.mp h
  obtain ⟨creation, _, afterCreation, hcreation, h, eCreation⟩ := succeeds_bind.mp h
  obtain ⟨_, _, afterDeposit, eDeposit, h⟩ := (depositCreationFee_asks _ _).succeeds_bind h
  obtain ⟨passcode, _, afterPasscode, hpasscode, h, ePasscode⟩ := succeeds_bind.mp h
  obtain ⟨ledger0, ledger1, _, hledger0, hledger1, rfl⟩ := requestPasscode_succeeds hpasscode
  obtain ⟨_, sqrtPriceX96, afterPrice, ePrice, h⟩ := (getSqrtPriceX96_asks _ _ _ _).succeeds_bind h
  obtain ⟨_, created, afterCreate, eCreate, h⟩ := (createPool_asks _ _ _ _ _).succeeds_bind h
  -- the two tokens
  obtain ⟨sending0, _, afterSend0, hsend0, h, eSend0⟩ := succeeds_bind.mp h
  obtain ⟨sending1, _, afterSend1, hsend1, h, eSend1⟩ := succeeds_bind.mp h
  obtain ⟨icp0, _, arg0, _, hicp0, hrecipient0, hamount0, rfl⟩ := sendToken_succeeds h0 hsend0
  obtain ⟨icp1, _, arg1, _, hicp1, hrecipient1, hamount1, rfl⟩ := sendToken_succeeds h1 hsend1
  obtain rfl : icp = icp0 := Option.some.inj (hicp.symm.trans hicp0)
  obtain rfl : icp = icp1 := Option.some.inj (hicp.symm.trans hicp1)
  -- the position
  obtain ⟨asking, answered, afterMetadata, hmetadata, h, eMetadata⟩ := succeeds_bind.mp h
  obtain rfl := metadata_succeeds hmetadata
  obtain ⟨_, price, afterGetPrice, eGetPrice, h⟩ := (getPrice_asks _ _).succeeds_bind h
  obtain ⟨_, tickLower, afterLower, eLower, h⟩ := (getTick_asks _ _ _).succeeds_bind h
  obtain ⟨_, tickUpper, afterUpper, eUpper, h⟩ := (getTick_asks _ _ _).succeeds_bind h
  obtain ⟨_, position, afterPosition, ePosition, h⟩ :=
    (getPositionTokenAmount_asks _ _).succeeds_bind h
  obtain ⟨_, _, afterMint, eMint, h⟩ := (mintLiquidity_asks _).succeeds_bind h
  obtain ⟨rfl, hcreated⟩ := succeeds_pure.mp h
  subst hcreated eMint ePosition eUpper eLower eGetPrice eMetadata eSend1 eSend0 eCreate ePrice
    ePasscode eDeposit eCreation eTime
  refine ⟨icp, ledger0, ledger1, answered, hicp, hledger0, hledger1, ?_⟩
  have hcreation : transfersTo ⟨created, getSubAccountFromPrincipal id⟩ creation = [] ∧
      metadataOf created creation = [] ∧ positionsAsked creation = [] := by
    obtain ⟨_, rfl⟩ | ⟨_, _, rfl⟩ := icrc1Transfer_succeeds hcreation
    · exact ⟨rfl, rfl, rfl⟩
    · refine ⟨?_, rfl, rfl⟩
      simp only [transfersTo, List.filterMap_cons, List.filterMap_nil]
      rw [if_neg (account_ne config.icpSwapPasscodeManagerCanister created id)]
  simp only [transfersTo, metadataOf, positionsAsked, List.filterMap_append, List.filterMap_cons,
    List.filterMap_nil] at hcreation ⊢
  rw [hcreation.1, hcreation.2.1, hcreation.2.2, if_pos hrecipient0, if_pos hrecipient1, hamount0,
    hamount1, if_pos trivial]
  exact ⟨rfl, rfl, rfl⟩

/-- **When a launch funds its pool.** A successful launch funds it exactly where the addresses of both
tokens name the ledger of ICP. -/
theorem launch_fundsPool_iff (h0 : launchArg.token0.fee < launchArg.token0.balance)
    (h1 : launchArg.token1.fee < launchArg.token1.balance)
    (h : Succeeds (launch fromText toText debug id env launchArg) trace pool) :
    FundsPool fromText id pool launchArg trace ↔
      fromText launchArg.token0.token.address = fromText icpLedgerCanister ∧
        fromText launchArg.token1.token.address = fromText icpLedgerCanister := by
  obtain ⟨icp, ledger0, ledger1, answered, hicp, hledger0, hledger1, htransfers, hmetadata,
    hposition⟩ := launch_observed h0 h1 h
  rw [hledger0, hledger1, hicp, Option.some.injEq, Option.some.injEq]
  constructor
  · rintro ⟨⟨_, _, hledger0', hledger1', hperm⟩, _⟩
    rw [hledger0, Option.some.injEq] at hledger0'
    rw [hledger1, Option.some.injEq] at hledger1'
    subst hledger0' hledger1'
    rw [htransfers] at hperm
    have hall : ∀ sent ∈ [(ledger0, launchArg.token0.sent), (ledger1, launchArg.token1.sent)],
        sent.1 = icp := by
      intro sent hsent
      rcases List.mem_pair.mp (hperm.mem_iff.mpr hsent) with rfl | rfl <;> rfl
    exact ⟨hall _ (List.mem_cons_self ..), hall _ (List.mem_cons_of_mem _ (List.mem_cons_self ..))⟩
  · rintro ⟨rfl, rfl⟩
    refine ⟨⟨_, _, hledger0, hledger1, ?_⟩, answered, _, hmetadata, hposition,
      desiredAmounts_inPoolOrder answered h0 h1⟩
    rw [htransfers]

end

/-! ## A launch -/

/-- The principals that the texts of a launch for ckBTC name. -/
def sampleText : String → Option Principal
  | "ryjl3-tyaaa-aaaaa-aaaba-cai" => some ⟨[0, 0, 0, 0, 0, 0, 0, 2, 1, 1], by decide⟩
  | "mxzaz-hqaaa-aaaar-qaada-cai" => some ⟨[0, 0, 0, 0, 2, 48, 0, 6, 1, 1], by decide⟩
  | "phr2m-oyaaa-aaaag-qjuoq-cai" => some ⟨[0, 0, 0, 0, 0, 208, 77, 29, 1, 1], by decide⟩
  | "ososz-6iaaa-aaaag-ak5ua-cai" => some ⟨[0, 0, 0, 0, 0, 192, 87, 104, 1, 1], by decide⟩
  | "pybqd-4yaaa-aaaag-ak5ta-cai" => some ⟨[0, 0, 0, 0, 0, 192, 87, 102, 1, 1], by decide⟩
  | _ => none

/-- One ICP and a thousandth of a bitcoin. -/
def sampleLaunch : LaunchRequestArg where
  token0 := ⟨⟨"ryjl3-tyaaa-aaaaa-aaaba-cai", "ICP"⟩, 10000, 100000000, 8⟩
  token1 := ⟨⟨"mxzaz-hqaaa-aaaar-qaada-cai", "ICRC2"⟩, 10, 100000, 8⟩
  subaccount := none

/-- The pool of a launch. -/
def samplePool : Principal := Principal.ofByte 7

/-- Canisters that accept every call. -/
def sampleWorld : (q : Ask) → Answer q
  | .time => (1 : Nat)
  | .icrc1Transfer .. => (.ok (.ok 1) : LedgerReply)
  | .deposit .. => (.ok (.ok 1) : CallResult (Result Nat))
  | .requestPasscode .. => (.ok (.ok "") : CallResult (Result String))
  | .getSqrtPriceX96 .. => (.ok 1 : CallResult Int)
  | .createPool .. => (.ok (.ok samplePool) : CallResult (Result Principal))
  | .metadata _ =>
    (.ok (.ok ⟨3000, 1, 0, sampleLaunch.token0.token, sampleLaunch.token1.token⟩) :
      CallResult (Result PoolMetadata))
  | .getPrice .. => (.ok (Float.ofNat 1) : CallResult Float)
  | .priceToTick .. => (.ok 1 : CallResult Int)
  | .getPositionTokenAmount .. => (.ok ⟨1, 1⟩ : CallResult Position)
  | .mint .. => (.ok (.ok 1) : CallResult (Result Nat))

theorem sampleLaunch_succeeds : ∃ trace, Succeeds (launch sampleText (fun _ => "") (fun _ _ => "")
    Principal.anonymous .TEST sampleLaunch) trace samplePool :=
  ⟨_, returns_of_play sampleWorld rfl⟩

theorem launch_fundsPool_iff_sample : ∃ trace,
    Succeeds (launch sampleText (fun _ => "") (fun _ _ => "") Principal.anonymous .TEST sampleLaunch)
        trace samplePool ∧
      (FundsPool sampleText Principal.anonymous samplePool sampleLaunch trace ↔
        sampleText sampleLaunch.token0.token.address = sampleText icpLedgerCanister ∧
          sampleText sampleLaunch.token1.token.address = sampleText icpLedgerCanister) := by
  obtain ⟨trace, h⟩ := sampleLaunch_succeeds
  exact ⟨trace, h, launch_fundsPool_iff (by decide) (by decide) h⟩

/-- **A pool without its bitcoins.** The launch succeeds, and the bitcoins were sent as ICP. -/
theorem not_launch_fundsPool : ∃ trace,
    Succeeds (launch sampleText (fun _ => "") (fun _ _ => "") Principal.anonymous .TEST sampleLaunch)
        trace samplePool ∧
      ¬ FundsPool sampleText Principal.anonymous samplePool sampleLaunch trace := by
  obtain ⟨trace, h⟩ := sampleLaunch_succeeds
  refine ⟨trace, h, ?_⟩
  rintro ⟨⟨ledger0, ledger1, hledger0, hledger1, hperm⟩, _⟩
  obtain ⟨icp, _, _, _, hicp, _, _, htransfers, _⟩ := launch_observed (by decide) (by decide) h
  rw [htransfers] at hperm
  obtain rfl := Option.some.inj hicp
  obtain rfl := Option.some.inj hledger0
  obtain rfl := Option.some.inj hledger1
  revert hperm
  decide

end Fomowell.IcpSwap
