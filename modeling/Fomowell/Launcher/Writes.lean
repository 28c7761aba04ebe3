import Fomowell.Launcher.HandOff

/-!
# What a segment writes

The inversion for laws about single fields of the state. Most segments write accounts only: a profile,
a record under the next index, a counter, or the cache of token types, one after another
(`AccountWrites`). The five that write a project or the context besides are listed in `Writes` by
their causes, each with the equation of the function it ran (`segment_writes`). Write by write,
every record that is stored fits (`Writes.all`).

A frame of `update_progress` holds what the oracle has answered so far, and is left behind by
`update_progress` alone; `Frame.measures` reads it.
-/

namespace Fomowell.Launcher

open Std Canister Token

/-! ## Writes of accounts -/

/-- One write of the accounts. -/
inductive AccountWrite (env : Env) (st : State) : State → Prop
  | profile (user : Principal) (p : UserProfile) (fits : env.profileSize p ≤ 2048) :
    AccountWrite env st { st with userProfileMap := st.userProfileMap.insert user p }
  | record (record : PointHistory) (fits : env.historySize record ≤ 4096)
      (next : record.idx = st.counter.pointCount + 1) :
    AccountWrite env st
      { st.countPoint.1 with
        pointHistoryMap := st.pointHistoryMap.insert (st.counter.pointCount + 1) record }
  | counted : AccountWrite env st st.count.1
  | pointCounted : AccountWrite env st st.countPoint.1
  | cached (tokenCache : TokenCache) : AccountWrite env st { st with tokenCache }

/-- Any number of writes. -/
abbrev AccountWrites (env : Env) : State → State → Prop :=
  Relation.ReflTransGen (AccountWrite env)

/-- The measurements that `update_progress` holds at an await. -/
def Frame.measures : Frame → Option Progress
  | .marketCapBatch p => some p
  | _ => none

section

variable {env : Env} {time : Nat} {st st' : State}

/-- A profile that fits is one write. -/
theorem insertProfile_writes {user : Principal} {p : UserProfile}
    (h : st.insertProfile env user p = some st') : AccountWrites env st st' := by
  unfold State.insertProfile at h
  split at h
  next fits =>
    cases h
    exact .single (.profile user p fits)
  next => cases h

/-- The record of points goes under the index drawn with it: the two are one write. -/
theorem recordPoints_writes {userPid : Principal} {opType : OpType} {busiName : String}
    {amount : Nat} (h : recordPoints env time userPid opType busiName amount st = some st') :
    AccountWrites env st st' := by
  unfold recordPoints State.insertHistory at h
  dsimp only at h
  split at h
  next fits =>
    cases h
    exact .single (.record _ fits rfl)
  next => cases h

/-- `init_points` writes a profile with its points, and their record. -/
theorem initPoints_writes {userPid : Principal} (h : initPoints env time userPid st = some st') :
    AccountWrites env st st' := by
  obtain ⟨profile, _, h⟩ := Option.bind_eq_some_iff.mp h
  obtain ⟨written, hwrite, h⟩ := Option.bind_eq_some_iff.mp h
  exact (insertProfile_writes hwrite).trans (recordPoints_writes h)

/-- `add_points` writes the profile with the points added, and their record. -/
theorem addPoints_writes {amount : Nat} {userPid : Principal} {busiName : String}
    (h : addPoints env time amount userPid busiName st = some st') : AccountWrites env st st' := by
  obtain ⟨profile, _, h⟩ := Option.bind_eq_some_iff.mp h
  obtain ⟨written, hwrite, h⟩ := Option.bind_eq_some_iff.mp h
  exact (insertProfile_writes hwrite).trans (recordPoints_writes h)

/-- `deduct_points` writes the profile with the points taken, and their record. -/
theorem deductPoints_writes {amount : Nat} {userPid : Principal} {busiName : String}
    (h : deductPoints env time amount userPid busiName st = some st') :
    AccountWrites env st st' := by
  obtain ⟨profile, _, h⟩ := Option.bind_eq_some_iff.mp h
  obtain ⟨deducted, _, h⟩ := Option.bind_eq_some_iff.mp h
  obtain ⟨written, hwrite, h⟩ := Option.bind_eq_some_iff.mp h
  exact (insertProfile_writes hwrite).trans (recordPoints_writes h)

/-- `spending_points` writes what the deduction of its price writes. -/
theorem spendingPoints_writes {caller userPid : Principal} {busiName : String}
    (h : spendingPoints env time caller userPid busiName st = some st') :
    AccountWrites env st st' := by
  unfold spendingPoints at h
  split at h
  · cases h
  · obtain ⟨amount, _, h⟩ := Option.bind_eq_some_iff.mp h
    exact deductPoints_writes h

/-- `airdrop_points` of the owner writes what the addition writes; of anybody else it traps. -/
theorem airdropPoints_writes {caller userPid : Principal} {amount : Nat} {busiName : String}
    (h : airdropPoints env time caller userPid amount busiName st = some st') :
    AccountWrites env st st' := by
  unfold airdropPoints at h
  split at h
  · cases h
  · exact addPoints_writes h

/-- A reward grants the points of a new profile, and adds its own. -/
theorem Rewards.writes {amount : Nat} {user : Principal} {busiName : String}
    (h : Rewards env time amount user busiName st st') : AccountWrites env st st' := by
  obtain ⟨granted, hgrant, hadd⟩ := h
  exact (initPoints_writes hgrant).trans (addPoints_writes hadd)

/-! ## Segments that write accounts only -/

variable {next : Next Frame Answer}

/-- A segment that writes accounts only, and measures nothing. -/
structure Accounting (env : Env) (st st' : State) (next : Next Frame Answer) : Prop where
  writes : AccountWrites env st st'
  measures : next.frame?.bind Frame.measures = none

/-- A segment that writes nothing. -/
theorem Accounting.idle (measures : next.frame?.bind Frame.measures = none) :
    Accounting env st st next := ⟨.refl, measures⟩

/-- Writes of accounts before a segment of such writes. -/
theorem Accounting.after {st'' : State} (h : Accounting env st' st'' next)
    (writes : AccountWrites env st st') : Accounting env st st'' next :=
  ⟨writes.trans h.writes, h.measures⟩

/-- A call of a ledger writes nothing. -/
theorem callLedger_accounting {call : TokenCall} (h : callLedger call st = some (st', next)) :
    Accounting env st st' next := by
  obtain ⟨rfl, type, rfl⟩ := callLedger_eq h
  exact .idle rfl

/-- A call of a token writes nothing, whether it looks the type up first or not. -/
theorem callToken_accounting {call : TokenCall} (h : callToken time call st = some (st', next)) :
    Accounting env st st' next := by
  obtain ⟨rfl, rfl | ⟨type, rfl⟩⟩ := callToken_cases h
  · exact .idle rfl
  · exact .idle rfl

/-- The quote of a fee goes on with a call, or answers. -/
theorem feeReturn_accounting {fee : Fee} {quote : Except String Nat}
    (h : feeReturn env time fee quote st = some (st', next)) : Accounting env st st' next := by
  obtain ⟨_, _, _, _, h⟩ | ⟨_, _, _, _, h⟩ | ⟨rfl, ⟨_, rfl⟩ | ⟨_, rfl⟩⟩ := feeReturn_cases h
  · exact callToken_accounting h
  · exact callToken_accounting h
  · exact .idle rfl
  · exact .idle rfl

/-- What follows the edit of a profile: a topup asks for its fee, an edit answers. -/
theorem editUserReturn_accounting {e : Edit} {result : Except String Principal}
    (h : editUserReturn env time e result st = some (st', next)) : Accounting env st st' next := by
  obtain ⟨rfl, _, rfl⟩ | ⟨_, _, _, _, h⟩ := editUserReturn_cases h
  · exact .idle rfl
  · exact callToken_accounting h

/-- The edit itself writes the profile. -/
theorem editUserWrite_accounting {e : Edit} {imageUrl : String}
    (h : editUserWrite env time e imageUrl st = some (st', next)) : Accounting env st st' next := by
  obtain ⟨profile, _, h⟩ := Option.bind_eq_some_iff.mp h
  obtain ⟨written, hwrite, h⟩ := Option.bind_eq_some_iff.mp h
  exact (editUserReturn_accounting h).after (insertProfile_writes hwrite)

/-- An edit that is paid for uploads its avatar first, where it has one. -/
theorem editUserUpload_accounting {e : Edit}
    (h : editUserUpload env time e st = some (st', next)) : Accounting env st st' next := by
  obtain hwrite | ⟨rfl, _, _, rfl⟩ := editUserUpload_cases h
  · exact editUserWrite_accounting hwrite
  · exact .idle rfl

/-- `edit_user`: of a stored profile, or of the one it creates. -/
theorem editUser_accounting {e : Edit} (h : editUser env time e st = some (st', next)) :
    Accounting env st st' next := by
  obtain ⟨_, h⟩ | ⟨_, h⟩ | ⟨_, _, written, _, _, hwrite, h⟩ := editUser_cases h
  · exact editUserReturn_accounting h
  · exact editUserUpload_accounting h
  · refine Accounting.after ?_ (insertProfile_writes hwrite)
    obtain ⟨_, h⟩ | ⟨_, rfl, rfl⟩ := h
    · exact editUserUpload_accounting h
    · exact .idle rfl

/-- A method that ends in its first segment. -/
theorem finish_accounting {answer : Answer} {result : Option State}
    (writes : ∀ {st'}, result = some st' → AccountWrites env st st')
    (h : finish answer result = some (st', next)) : Accounting env st st' next := by
  obtain ⟨written, hwrite, h⟩ := Option.map_eq_some_iff.mp h
  cases h
  exact ⟨writes hwrite, rfl⟩

/-- A reply to `transferLiquidity` or `lockLiquidity` leaves the state as it is. -/
theorem handOff_accounting {stage : Stage} {hand : HandOff}
    {res : CallResult (Except String Unit)}
    (h : updateProgressHandOff env stage hand res st = some (st', next)) :
    Accounting env st st' next := by
  obtain ⟨rfl, rfl | ⟨_, _, rfl, _⟩⟩ := updateProgressHandOff_eq h
  · exact .idle rfl
  · exact .idle rfl

end

/-! ## The inversion -/

/-- **What a segment writes**, by its cause: accounts only, or one of the five. -/
inductive Writes (env : Env) (a : Ambient) (st : State) :
    Cause Message Frame Rep → State → Next Frame Answer → Prop
  | accounts {cause st' next} (accounting : Accounting env st st' next) : Writes env a st cause st' next
  /-- `reply_update` counts a comment. -/
  | replied {fomoIdx st'} (ends : replyUpdate env a.time fomoIdx st = some st') :
    Writes env a st (.received (.replyUpdate fomoIdx)) st' (.returned .unit)
  /-- `update_progress` starts. -/
  | started {st' next} (ends : updateProgress env a.order a.time st = some (st', next)) :
    Writes env a st (.received .updateProgress) st' next
  /-- The oracle answers `update_progress`. -/
  | measured {p reply st' next}
      (ends : updateProgressItem env a.order a.time p reply st = some (st', next)) :
    Writes env a st (.resumed (.marketCapBatch p) reply) st' next
  /-- `set_buy_or_sell` ends. -/
  | traded {type q reply st' next}
      (ends : setBuyOrSellSupply env a.time q reply st = some (st', next)) :
    Writes env a st (.resumed (.ledger type (.totalSupply q)) reply) st' next
  /-- `create_fomo` ends. -/
  | installed {c reply st' next} (ends : createFomoInstalled env a.time c reply st = some (st', next)) :
    Writes env a st (.resumed (.installCode c) reply) st' next

section

variable {env : Env} {a : Ambient} {st st' : State} {next : Next Frame Answer}

/-- The first segment of a run: `reply_update`, `update_progress`, or accounts only. -/
theorem receive_writes {m : Message} (h : receive env a m st = some (st', next)) :
    Writes env a st (.received m) st' next := by
  cases m with
  | setBuyOrSell caller recordSignal =>
    obtain ⟨shown, _, h⟩ := Option.bind_eq_some_iff.mp h
    cases h
    exact .accounts (.idle rfl)
  | updateProgress => exact .started h
  | topupPoints caller pointsAmount =>
    replace h : topupPoints env a.time caller pointsAmount st = some (st', next) := h
    obtain ⟨rfl, _, rfl⟩ | h := topupPoints_cases h
    · exact .accounts (.idle rfl)
    · exact .accounts (editUser_accounting h)
  | editUser caller userInfo => exact .accounts (editUser_accounting h)
  | createFomo caller fomoCreate =>
    replace h : createFomo env a.time caller fomoCreate st = some (st', next) := h
    obtain ⟨rfl, _, rfl⟩ | ⟨fee, _, _, h⟩ := createFomo_cases h
    · exact .accounts (.idle rfl)
    · exact .accounts (callToken_accounting h)
  | replyUpdate fomoIdx =>
    obtain ⟨written, hwrite, h⟩ := Option.map_eq_some_iff.mp h
    cases h
    exact .replied hwrite
  | ownershipTransfer caller fomoPid toNewControllerPid =>
    obtain ⟨fee, _, _, h⟩ := ownershipTransfer_cases h
    exact .accounts (callToken_accounting h)
  | spendingPoints caller userPid busiName =>
    exact .accounts (finish_accounting spendingPoints_writes h)
  | lockPool caller lockPoolPid =>
    obtain ⟨rfl, rfl⟩ := lockPool_eq h
    exact .accounts (.idle rfl)
  | airdropPoints caller userPid amount busiName =>
    exact .accounts (finish_accounting airdropPoints_writes h)
  | count =>
    cases h
    exact .accounts ⟨.single .counted, rfl⟩
  | countPoint =>
    cases h
    exact .accounts ⟨.single .pointCounted, rfl⟩
  | addTokenControllers caller token user =>
    obtain ⟨rfl, _, rfl⟩ := addTokenControllers_eq h
    exact .accounts (.idle rfl)

/-- A segment that a ledger resumes: the supply ends `set_buy_or_sell`, and a charge grants its
points. -/
theorem resumeLedger_writes {type : TokenType} {call : TokenCall} {reply : call.Rep}
    (h : resumeLedger env a type call reply st = some (st', next)) :
    Writes env a st (.resumed (.ledger type call) reply) st' next := by
  cases call with
  | balanceOf fee =>
    obtain ⟨totalBalance, _, h⟩ := Option.bind_eq_some_iff.mp h
    exact .accounts (callToken_accounting h)
  | allowance fee totalBalance =>
    obtain ⟨allowanceBalance, _, h⟩ := Option.bind_eq_some_iff.mp h
    cases h
    exact .accounts (.idle rfl)
  | transferFrom charge =>
    obtain ⟨_, _, h⟩ := Option.bind_eq_some_iff.mp h
    obtain ⟨_, _, hnext, rewards⟩ | ⟨_, _, rfl, rfl⟩ | ⟨_, rfl, hnext⟩ := chargeReturn_cases h
    · exact .accounts ⟨rewards.writes, by rw [hnext]; rfl⟩
    · exact .accounts ⟨.single .counted, rfl⟩
    · exact .accounts (.idle (by rw [hnext]; rfl))
  | approve c tokenPid =>
    obtain ⟨_, _, h⟩ := Option.bind_eq_some_iff.mp h
    cases h
    exact .accounts (.idle rfl)
  | totalSupply q => exact .traded h

/-- A later segment of a run: one of three, or accounts only. -/
theorem resume_writes {frame : Frame} {reply : Rep frame}
    (h : resume env a frame reply st = some (st', next)) :
    Writes env a st (.resumed frame reply) st' next := by
  cases frame with
  | querySwapStatus b =>
    obtain ⟨rfl, _, rfl, _⟩ := setBuyOrSellSwap_eq h
    exact .accounts (.idle rfl)
  | getIcpPrice s poolInfo => exact .accounts (callToken_accounting h)
  | marketCapBatch p => exact .measured h
  | handOff stage hand => exact .accounts (handOff_accounting h)
  | spendingPoints e =>
    replace h : editUserReturn env a.time e (.error reply.2) st = some (st', next) := h
    exact .accounts (editUserReturn_accounting h)
  | spendingPointsDone e => exact .accounts (editUserUpload_accounting h)
  | httpRequest url k =>
    cases k with
    | editUser e =>
      obtain ⟨imageUrl, _, h⟩ := Option.bind_eq_some_iff.mp h
      exact .accounts (editUserWrite_accounting h)
    | createFomo c tokenPid poolPid tid =>
      obtain ⟨imgUrl, _, h⟩ := Option.bind_eq_some_iff.mp h
      cases h
      exact .accounts (.idle rfl)
  | getToken call => exact .accounts ((callLedger_accounting h).after (.single (.cached _)))
  | ledger type call => exact resumeLedger_writes h
  | pricesBatch fee totalBalance allowanceBalance =>
    obtain ⟨res, _, h⟩ := Option.bind_eq_some_iff.mp h
    obtain ⟨price, _, h⟩ := Option.bind_eq_some_iff.mp h
    obtain ⟨quote, _, h⟩ := Option.bind_eq_some_iff.mp h
    exact .accounts (feeReturn_accounting h)
  | createToken c =>
    obtain ⟨tokenPid, _, h⟩ := Option.bind_eq_some_iff.mp h
    exact .accounts (callToken_accounting h)
  | canisterStatus c =>
    obtain ⟨rfl, rfl⟩ := createFomoStatus_eq h
    exact .accounts (.idle rfl)
  | installCode c => exact .installed h
  | removeTokensControllers o =>
    obtain ⟨_, _, h⟩ := Option.bind_eq_some_iff.mp h
    exact .accounts (callToken_accounting h)
  | getPoolInfo _ | createCommonPool _ _ | createCanister _ _ _ | icrc2Approve _ | lockPool _
  | tokenStatus _ _ | updateSettings _ _ =>
    obtain ⟨_, _, h⟩ := Option.bind_eq_some_iff.mp h
    cases h
    exact .accounts (.idle rfl)

/-- **The inversion**: every segment that ends writes accounts only, or is one of the five. -/
theorem segment_writes {cause : Cause Message Frame Rep}
    (h : (program env).segment a cause st = some (st', next)) : Writes env a st cause st' next := by
  cases cause with
  | received m => exact receive_writes h
  | delivered frame =>
    obtain ⟨e, rfl, hspent, rfl⟩ := segment_delivered h
    exact .accounts ⟨spendingPoints_writes hspent, rfl⟩
  | resumed frame reply => exact resume_writes h

/-! ## The context -/

/-- The context holds no account. -/
theorem AccountWrites.context_eq (h : AccountWrites env st st') : st'.context = st.context := by
  induction h with
  | refl => rfl
  | tail _ step ih =>
    rw [← ih]
    cases step <;> rfl

/-- A project is stored beside the context. -/
theorem insertProject_context {k : Nat} {p : FomoProject}
    (h : st.insertProject env k p = some st') : st'.context = st.context := by
  unfold State.insertProject at h
  split at h
  · cases h
    rfl
  · cases h

/-- `update_progress` writes the god of wells into the context, and nothing else. -/
theorem finishProgress_context {order : HashOrder} {time : Nat} {addrConfig : AddrConfig}
    {map : ExtTreeMap Nat (Nat × Nat) compare} {maxMarketCap maxIdx : Nat}
    (h : finishProgress env order time addrConfig map maxMarketCap maxIdx st = some (st', next)) :
    st'.context = { st.context with godOfWellsIdx := maxIdx } :=
  finishProgress_invariant (I := fun st' => st'.context = { st.context with godOfWellsIdx := maxIdx }) h
    rfl fun _ _ _ _ hwrite same => (insertProject_context hwrite).trans same

end

/-! ## Every write, one by one -/

/-- One write of the state. -/
inductive StateWrite (env : Env) (st : State) : State → Prop
  | account {st'} (write : AccountWrite env st st') : StateWrite env st st'
  | project (k : Nat) (p : FomoProject) (fits : env.projectSize p ≤ 4096) :
    StateWrite env st { st with fomoProjectMap := st.fomoProjectMap.insert k p }
  | context (context : Context) : StateWrite env st { st with context }

/-- Any number of writes. -/
abbrev StateWrites (env : Env) : State → State → Prop :=
  Relation.ReflTransGen (StateWrite env)

section

variable {env : Env} {st st' : State} {next : Next Frame Answer}

/-- Writes of accounts among all writes. -/
theorem AccountWrites.all (h : AccountWrites env st st') : StateWrites env st st' := by
  induction h with
  | refl => exact .refl
  | tail _ write ih => exact ih.tail (.account write)

/-- A project that fits is one write. -/
theorem insertProject_writes {k : Nat} {p : FomoProject}
    (h : st.insertProject env k p = some st') : StateWrites env st st' := by
  unfold State.insertProject at h
  split at h
  next fits =>
    cases h
    exact .single (.project k p fits)
  next => cases h

/-- A round of `update_progress` asks the oracle, or writes the god of wells and then one project after
the other. -/
theorem progressNext_writes {order : HashOrder} {time : Nat} {addrConfig : AddrConfig}
    {list : List FomoProject} {map : ExtTreeMap Nat (Nat × Nat) compare} {maxMarketCap maxIdx : Nat}
    (h : progressNext env order time addrConfig list map maxMarketCap maxIdx st =
      some (st', next)) : StateWrites env st st' := by
  obtain ⟨rfl, _⟩ | ⟨_, h⟩ := progressNext_cases h
  · exact .refl
  · exact finishProgress_invariant h (.single (.context _)) fun _ _ _ _ hwrite writes =>
      writes.trans (insertProject_writes hwrite)

/-- **Every segment is a sequence of writes**, each of a record that fits. -/
theorem Writes.all {a : Ambient} {cause : Cause Message Frame Rep}
    (h : Writes env a st cause st' next) : StateWrites env st st' := by
  cases h with
  | accounts accounting => exact accounting.writes.all
  | replied ends =>
    obtain ⟨v, _, ends⟩ := Option.bind_eq_some_iff.mp ends
    exact insertProject_writes ends
  | started ends => exact progressNext_writes ends
  | measured ends =>
    obtain ⟨_, _, _, ends⟩ := updateProgressItem_cases ends
    exact progressNext_writes ends
  | traded ends =>
    obtain ⟨_, _, v, _, hwrite, _⟩ := setBuyOrSellSupply_ends ends
    exact .head (.context _) (insertProject_writes hwrite)
  | installed ends =>
    obtain ⟨written, _, hwrite, rewards, _⟩ := createFomoInstalled_ends ends
    exact (insertProject_writes hwrite).trans (.head (.context _) rewards.writes.all)

end

end Fomowell.Launcher
