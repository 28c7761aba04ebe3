import Fomowell.Launcher.Writes
import Fomowell.Token.Dispatch

/-!
# How the launcher calls tokens

The launcher is a dispatcher: it asks the balance, the allowance and the charge of a fee, the approval
for a project's canister and the supply of its token of ledgers whose type it looked up, and nothing
but a lookup writes its cache of types. So every such call is by a type that the backend answered for
the token (`ledger_calls_backed`).
-/

namespace Fomowell.Launcher

open Canister Token

/-- The token that a frame calls its ledger for, and by which type. -/
def Frame.call? : Frame → Option (Principal × TokenType)
  | .ledger type call => some (call.cid, type)
  | _ => none

/-- What the backend was asked about, and what it answered. -/
def lookup : Cause Message Frame Rep → Option (Principal × CallResult TokenInfo)
  | .resumed (.getToken call) reply => some (call.cid, reply)
  | _ => none

section

variable {env : Env} {time : Nat} {st st' : State} {next : Next Frame Answer}

/-! ## Writes -/

/-- A profile is stored beside the cache of types. -/
theorem insertProfile_tokenCache {user : Principal} {p : UserProfile}
    (h : st.insertProfile env user p = some st') : st'.tokenCache = st.tokenCache := by
  unfold State.insertProfile at h
  split at h
  · cases h
    rfl
  · cases h

/-- A project is stored beside the cache of types. -/
theorem insertProject_tokenCache {k : Nat} {p : FomoProject}
    (h : st.insertProject env k p = some st') : st'.tokenCache = st.tokenCache := by
  unfold State.insertProject at h
  split at h
  · cases h
    rfl
  · cases h

/-- A record of points is stored beside the cache of types. -/
theorem recordPoints_tokenCache {userPid : Principal} {opType : OpType} {busiName : String}
    {amount : Nat} (h : recordPoints env time userPid opType busiName amount st = some st') :
    st'.tokenCache = st.tokenCache := by
  unfold recordPoints State.insertHistory at h
  dsimp only at h
  split at h
  · cases h
    rfl
  · cases h

/-- `init_points` does not touch the cache. -/
theorem initPoints_tokenCache {userPid : Principal}
    (h : initPoints env time userPid st = some st') : st'.tokenCache = st.tokenCache := by
  obtain ⟨profile, _, h⟩ := Option.bind_eq_some_iff.mp h
  obtain ⟨written, hwrite, h⟩ := Option.bind_eq_some_iff.mp h
  exact (recordPoints_tokenCache h).trans (insertProfile_tokenCache hwrite)

/-- `add_points` does not touch the cache. -/
theorem addPoints_tokenCache {amount : Nat} {userPid : Principal} {busiName : String}
    (h : addPoints env time amount userPid busiName st = some st') :
    st'.tokenCache = st.tokenCache := by
  obtain ⟨profile, _, h⟩ := Option.bind_eq_some_iff.mp h
  obtain ⟨written, hwrite, h⟩ := Option.bind_eq_some_iff.mp h
  exact (recordPoints_tokenCache h).trans (insertProfile_tokenCache hwrite)

/-- A payment in points does not touch the cache. -/
theorem spendingPoints_tokenCache {caller userPid : Principal} {busiName : String}
    (h : spendingPoints env time caller userPid busiName st = some st') :
    st'.tokenCache = st.tokenCache := by
  unfold spendingPoints at h
  split at h
  · cases h
  obtain ⟨amount, _, h⟩ := Option.bind_eq_some_iff.mp h
  obtain ⟨profile, _, h⟩ := Option.bind_eq_some_iff.mp h
  obtain ⟨deducted, _, h⟩ := Option.bind_eq_some_iff.mp h
  obtain ⟨written, hwrite, h⟩ := Option.bind_eq_some_iff.mp h
  exact (recordPoints_tokenCache h).trans (insertProfile_tokenCache hwrite)

/-- An airdrop does not touch the cache. -/
theorem airdropPoints_tokenCache {caller userPid : Principal} {amount : Nat} {busiName : String}
    (h : airdropPoints env time caller userPid amount busiName st = some st') :
    st'.tokenCache = st.tokenCache := by
  unfold airdropPoints at h
  split at h
  · cases h
  · exact addPoints_tokenCache h

/-- A reward, both grants of it, does not touch the cache. -/
theorem Rewards.tokenCache {amount : Nat} {user : Principal} {busiName : String}
    (h : Rewards env time amount user busiName st st') : st'.tokenCache = st.tokenCache := by
  obtain ⟨granted, hgrant, hadd⟩ := h
  exact (addPoints_tokenCache hadd).trans (initPoints_tokenCache hgrant)

/-! ## Functions -/

/-- A segment that goes on with the cache as it is. -/
abbrev Calls (time : Nat) (st st' : State) (next : Next Frame Answer) : Prop :=
  CallsBy Frame.call? time none st.tokenCache st'.tokenCache next.frame?

/-- A ledger is called by the type in the cache, which is fresh or was asked for just now. -/
theorem callLedger_calls {call : TokenCall} {asked : Option Principal}
    (fresh : st.tokenCache.needsRefresh call.cid time = false ∨ asked = some call.cid)
    (h : callLedger call st = some (st', next)) :
    CallsBy Frame.call? time asked st.tokenCache st'.tokenCache next.frame? := by
  unfold callLedger at h
  dsimp only at h
  split at h
  next supports =>
    cases h
    refine ⟨rfl, ?_⟩
    rintro frame ⟨⟩ token type hcall
    cases hcall
    refine ⟨fun hunknown => ?_, rfl, fresh⟩
    rw [hunknown] at supports
    cases call <;> cases supports
  next => cases h

/-- A stale or unknown type is asked for first; any other is used. -/
theorem callToken_calls {call : TokenCall} (h : callToken time call st = some (st', next)) :
    Calls time st st' next := by
  unfold callToken at h
  split at h
  next =>
    cases h
    exact .quiet rfl rfl
  next hfresh => exact callLedger_calls (.inl (Bool.not_eq_true _ ▸ hfresh)) h

/-- A quote within the allowance and the balance goes on to the charge, which is a call of the ledger.
-/
theorem feeReturn_calls {fee : Fee} {quote : Except String Nat}
    (h : feeReturn env time fee quote st = some (st', next)) : Calls time st st' next := by
  obtain ⟨_, _, _, _, h⟩ | ⟨_, _, _, _, h⟩ | ⟨rfl, ⟨_, rfl⟩ | ⟨_, rfl⟩⟩ := feeReturn_cases h
  · exact callToken_calls h
  · exact callToken_calls h
  · exact .quiet rfl rfl
  · exact .quiet rfl rfl

/-- An edit that is part of a topup goes on to the balance, which is one too. -/
theorem editUserReturn_calls {e : Edit} {result : Except String Principal}
    (h : editUserReturn env time e result st = some (st', next)) : Calls time st st' next := by
  obtain ⟨rfl, _, rfl⟩ | ⟨_, _, _, _, h⟩ := editUserReturn_cases h
  · exact .quiet rfl rfl
  · exact callToken_calls h

/-- Between the write of the profile and that call the cache stays. -/
theorem editUserWrite_calls {e : Edit} {imageUrl : String}
    (h : editUserWrite env time e imageUrl st = some (st', next)) : Calls time st st' next := by
  obtain ⟨profile, _, h⟩ := Option.bind_eq_some_iff.mp h
  obtain ⟨written, hwrite, h⟩ := Option.bind_eq_some_iff.mp h
  exact (editUserReturn_calls h).of_eq (insertProfile_tokenCache hwrite)

/-- An upload is no call of a ledger. -/
theorem editUserUpload_calls {e : Edit} (h : editUserUpload env time e st = some (st', next)) :
    Calls time st st' next := by
  obtain hwrite | ⟨rfl, _, _, rfl⟩ := editUserUpload_cases h
  · exact editUserWrite_calls hwrite
  · exact .quiet rfl rfl

/-- `edit_user` calls a ledger only as part of a topup. -/
theorem editUser_calls {e : Edit} (h : editUser env time e st = some (st', next)) :
    Calls time st st' next := by
  obtain ⟨_, h⟩ | ⟨_, h⟩ | ⟨_, _, _, _, _, hwrite, ⟨_, h⟩ | ⟨_, rfl, rfl⟩⟩ := editUser_cases h
  · exact editUserReturn_calls h
  · exact editUserUpload_calls h
  · exact (editUserUpload_calls h).of_eq (insertProfile_tokenCache hwrite)
  · exact .quiet (insertProfile_tokenCache hwrite) rfl

/-- A hand-off calls canisters, none of them a ledger. -/
theorem handOffNext_calls {addrConfig : AddrConfig} {l : List Nat}
    (h : handOffNext env addrConfig l st = some (st', next)) : next.frame?.bind Frame.call? = none := by
  obtain ⟨_, rfl | ⟨_, _, rfl, _⟩⟩ := handOffNext_eq h
  · rfl
  · rfl

/-- `update_progress` calls no ledger. -/
theorem progressNext_calls {order : HashOrder} {addrConfig : AddrConfig} {list : List FomoProject}
    {map : Std.ExtTreeMap Nat (Nat × Nat) compare} {maxMarketCap maxIdx : Nat}
    (h : progressNext env order time addrConfig list map maxMarketCap maxIdx st =
      some (st', next)) : Calls time st st' next := by
  obtain ⟨rfl, _, _, _, rfl⟩ | ⟨_, ends⟩ := progressNext_cases h
  · exact .quiet rfl rfl
  · refine .quiet ?_ ?_
    · exact finishProgress_invariant (I := fun x => x.tokenCache = st.tokenCache) ends rfl
        fun _ _ _ _ hwrite same => (insertProject_tokenCache hwrite).trans same
    · obtain ⟨acc, _, hnext⟩ := Option.bind_eq_some_iff.mp ends
      exact handOffNext_calls hnext

/-- A collected charge goes on to a grant, to the creation of a token, or to the end. -/
theorem chargeReturn_calls {charge : Charge}
    (h : chargeReturn env time charge st = some (st', next)) : Calls time st st' next := by
  obtain ⟨_, _, hnext, rewards⟩ | ⟨_, _, rfl, rfl⟩ | ⟨_, rfl, hnext⟩ := chargeReturn_cases h
  · refine .quiet rewards.tokenCache ?_
    rw [hnext]
    rfl
  · exact .quiet rfl rfl
  · refine .quiet rfl ?_
    rw [hnext]
    rfl

/-- A method that ends in its first segment calls nothing. -/
theorem finish_calls {answer : Answer} {result : Option State}
    (h : finish answer result = some (st', next))
    (same : ∀ written, result = some written → written.tokenCache = st.tokenCache) :
    Calls time st st' next := by
  obtain ⟨written, hresult, h⟩ := Option.map_eq_some_iff.mp h
  cases h
  exact .quiet (same _ hresult) rfl

/-- `set_buy_or_sell` ends with the supply. -/
theorem setBuyOrSellSupply_calls {q : Quote} {reply : CallResult Nat}
    (h : setBuyOrSellSupply env time q reply st = some (st', next)) : Calls time st st' next := by
  obtain ⟨_, _, _, _, hwrite, rfl⟩ := setBuyOrSellSupply_ends h
  refine .quiet ?_ rfl
  rw [insertProject_tokenCache hwrite]

/-- `create_fomo` ends with the code of its project. -/
theorem createFomoInstalled_calls {c : Created} {reply : CallResult Unit}
    (h : createFomoInstalled env time c reply st = some (st', next)) : Calls time st st' next := by
  obtain ⟨written, lastCreateFomo, hwrite, rewards, hnext⟩ := createFomoInstalled_ends h
  have hstored : written.tokenCache = st.tokenCache := insertProject_tokenCache hwrite
  refine .quiet (rewards.tokenCache.trans hstored) ?_
  rw [hnext]
  rfl

/-! ## Segments -/

/-- The first segment of a run. -/
theorem receive_calls {a : Ambient} {m : Message} (h : receive env a m st = some (st', next)) :
    Calls a.time st st' next := by
  cases m with
  | setBuyOrSell caller recordSignal =>
    obtain ⟨_, _, h⟩ := Option.bind_eq_some_iff.mp h
    cases h
    exact .quiet rfl rfl
  | updateProgress => exact progressNext_calls h
  | topupPoints caller pointsAmount =>
    obtain ⟨rfl, _, rfl⟩ | h := topupPoints_cases h
    · exact .quiet rfl rfl
    · exact editUser_calls h
  | editUser caller userInfo => exact editUser_calls h
  | createFomo caller fomoCreate =>
    obtain ⟨rfl, _, rfl⟩ | ⟨_, _, _, h⟩ := createFomo_cases h
    · exact .quiet rfl rfl
    · exact callToken_calls h
  | replyUpdate fomoIdx =>
    refine finish_calls h fun written hwritten => ?_
    obtain ⟨v, _, hwrite⟩ := Option.bind_eq_some_iff.mp hwritten
    exact insertProject_tokenCache hwrite
  | ownershipTransfer caller fomoPid new =>
    obtain ⟨_, _, _, h⟩ := ownershipTransfer_cases h
    exact callToken_calls h
  | spendingPoints caller userPid busiName =>
    exact finish_calls h fun _ hspent => spendingPoints_tokenCache hspent
  | lockPool caller lockPoolPid =>
    obtain ⟨rfl, rfl⟩ := lockPool_eq h
    exact .quiet rfl rfl
  | airdropPoints caller userPid amount busiName =>
    exact finish_calls h fun _ hdropped => airdropPoints_tokenCache hdropped
  | count =>
    cases h
    exact .quiet rfl rfl
  | countPoint =>
    cases h
    exact .quiet rfl rfl
  | addTokenControllers caller token user =>
    obtain ⟨rfl, _, rfl⟩ := addTokenControllers_eq h
    exact .quiet rfl rfl

/-- The segment that the reply of a ledger resumes. -/
theorem resumeLedger_calls {a : Ambient} {type : TokenType} {call : TokenCall} {reply : call.Rep}
    (h : resumeLedger env a type call reply st = some (st', next)) : Calls a.time st st' next := by
  cases call with
  | balanceOf fee =>
    obtain ⟨_, _, h⟩ := Option.bind_eq_some_iff.mp h
    exact callToken_calls h
  | transferFrom charge =>
    obtain ⟨_, _, h⟩ := Option.bind_eq_some_iff.mp h
    exact chargeReturn_calls h
  | totalSupply q => exact setBuyOrSellSupply_calls h
  | allowance fee totalBalance | approve c tokenPid =>
    obtain ⟨_, _, h⟩ := Option.bind_eq_some_iff.mp h
    cases h
    exact .quiet rfl rfl

/-- A later segment of a run: it goes on with what it was told, if it had asked. -/
theorem resume_calls {a : Ambient} {frame : Frame} {reply : Rep frame}
    (h : resume env a frame reply st = some (st', next)) :
    CallsBy Frame.call? a.time ((lookup (.resumed frame reply)).map Prod.fst)
      (st.tokenCache.after a.time (lookup (.resumed frame reply))) st'.tokenCache next.frame? := by
  cases frame with
  | querySwapStatus b =>
    obtain ⟨rfl, _, rfl, _⟩ := setBuyOrSellSwap_eq h
    exact .quiet rfl rfl
  | getIcpPrice s poolInfo => exact callToken_calls h
  | marketCapBatch p =>
    obtain ⟨_, _, _, h⟩ := updateProgressItem_cases h
    exact progressNext_calls h
  | handOff stage hand =>
    obtain ⟨rfl, rfl | ⟨_, _, rfl, _⟩⟩ := updateProgressHandOff_eq h
    · exact .quiet rfl rfl
    · exact .quiet rfl rfl
  | spendingPoints e =>
    replace h : editUserReturn env a.time e (.error reply.2) st = some (st', next) := h
    exact editUserReturn_calls h
  | spendingPointsDone e => exact editUserUpload_calls h
  | httpRequest url k =>
    cases k with
    | editUser e =>
      obtain ⟨_, _, h⟩ := Option.bind_eq_some_iff.mp h
      exact editUserWrite_calls h
    | createFomo c tokenPid poolPid tid =>
      obtain ⟨_, _, h⟩ := Option.bind_eq_some_iff.mp h
      cases h
      exact .quiet rfl rfl
  | getToken call => exact callLedger_calls (.inr rfl) h
  | ledger type call => exact resumeLedger_calls h
  | pricesBatch fee totalBalance allowanceBalance =>
    obtain ⟨_, _, h⟩ := Option.bind_eq_some_iff.mp h
    obtain ⟨_, _, h⟩ := Option.bind_eq_some_iff.mp h
    obtain ⟨_, _, h⟩ := Option.bind_eq_some_iff.mp h
    exact feeReturn_calls h
  | createToken c =>
    obtain ⟨_, _, h⟩ := Option.bind_eq_some_iff.mp h
    exact callToken_calls h
  | canisterStatus c =>
    obtain ⟨rfl, rfl⟩ := createFomoStatus_eq h
    exact .quiet rfl rfl
  | installCode c => exact createFomoInstalled_calls h
  | removeTokensControllers o =>
    obtain ⟨_, _, h⟩ := Option.bind_eq_some_iff.mp h
    exact callToken_calls h
  | getPoolInfo s | createCommonPool c tokenPid | createCanister c tokenPid poolPid =>
    obtain ⟨_, _, h⟩ := Option.bind_eq_some_iff.mp h
    cases h
    exact .quiet rfl rfl
  | icrc2Approve o | tokenStatus token controllers =>
    obtain ⟨_, _, h⟩ := Option.bind_eq_some_iff.mp h
    cases h
    exact .quiet rfl rfl
  | lockPool _ | updateSettings _ _ =>
    obtain ⟨_, _, h⟩ := Option.bind_eq_some_iff.mp h
    cases h
    exact .quiet rfl rfl

end

/-- The launcher calls tokens by what it looked up. -/
def dispatcher (env : Env) : Dispatcher (program env) where
  clock := Ambient.time
  cache := State.tokenCache
  call := Frame.call?
  lookup := lookup
  segment {a cause st st' next} h := by
    cases cause with
    | received m => exact receive_calls h
    | delivered frame =>
      obtain ⟨e, rfl, hspent, rfl⟩ := segment_delivered h
      exact .quiet (spendingPoints_tokenCache hspent) rfl
    | resumed frame reply => exact resume_calls h

/-- **Every call of a ledger is by a type that the backend answered** for the token, under every
schedule. -/
theorem ledger_calls_backed (env : Env) (caller : Principal) (time : Nat) (addrConfig : AddrConfig)
    (icpAddr : Principal) (choices : List Choice) :
    (dispatcher env).AllBacked (choices.foldl (program env).trace
      (Sys.start (init env caller time addrConfig icpAddr), [])).2 :=
  (dispatcher env).allBacked rfl choices

end Fomowell.Launcher
