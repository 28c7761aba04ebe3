import Fomowell.Launcher.Outcomes

/-!
# What a segment does

One inversion for the whole launcher, `segment_effect`: whatever segment ends, its effect on
`FOMO_PROJECT_MAP` and on the index counter is one of the few that `ProjectStep` lists, and its effect
on profiles and points is a sequence of `PointStep`s. Every invariant is derived from these alone.

A frame matters to the projects only by its `Role`: it holds an index that no project has yet, it
holds a copy that will be written back (and awaits the last reply before it is), or it hands a
project over.
-/

namespace Fomowell.Launcher

open Std Canister Token

/-! ## Roles -/

/-- What a suspended run will do to the projects. -/
inductive Role
  | plain
  /-- `create_fomo` holds an index. -/
  | creates (idx : Nat)
  /-- `set_buy_or_sell` holds a copy to write back under a key. -/
  | trades (k : Nat) (v : FomoProject)
  /-- `set_buy_or_sell` is at its last await. -/
  | settles (k : Nat) (v : FomoProject)
  /-- `update_progress` awaits a call for a project on its list. -/
  | handsOff (stage : Stage) (h : HandOff)

/-- The role of a run that looks up the type of a token before it calls it. -/
def TokenCall.lookupRole : TokenCall → Role
  | .approve c _ => .creates c.idx
  | .totalSupply q => .trades q.recordSignal.fomoIdx q.v
  | _ => .plain

/-- The role of a run that awaits a ledger. -/
def TokenCall.ledgerRole : TokenCall → Role
  | .approve c _ => .creates c.idx
  | .totalSupply q => .settles q.recordSignal.fomoIdx q.v
  | _ => .plain

/-- The role of a frame. -/
def Frame.role : Frame → Role
  | .querySwapStatus b =>
    match b.fomo with
    | some v => .trades b.recordSignal.fomoIdx v
    | none => .plain
  | .getPoolInfo s => .trades s.recordSignal.fomoIdx s.v
  | .getIcpPrice s _ => .trades s.recordSignal.fomoIdx s.v
  | .handOff stage h => .handsOff stage h
  | .httpRequest _ (.createFomo c ..) => .creates c.idx
  | .getToken call => call.lookupRole
  | .ledger _ call => call.ledgerRole
  | .createToken c => .creates c.idx
  | .createCommonPool c _ => .creates c.idx
  | .createCanister c .. => .creates c.idx
  | .canisterStatus c => .creates c.idx
  | .installCode c => .creates c.idx
  | _ => .plain

/-- The role of a run, with no frame for a run that has none. -/
def roleOf (frame? : Option Frame) : Role := frame?.elim .plain Frame.role

@[simp] theorem roleOf_none : roleOf none = .plain := rfl

@[simp] theorem roleOf_some (frame : Frame) : roleOf (some frame) = frame.role := rfl

/-! ## Effects -/

/-- The projects and the index counter are the same. -/
def SameProjects (st st' : State) : Prop :=
  st'.fomoProjectMap = st.fomoProjectMap ∧ st'.counter.count = st.counter.count

theorem SameProjects.refl (st : State) : SameProjects st st := ⟨rfl, rfl⟩

theorem SameProjects.trans {st st' st'' : State} (h : SameProjects st st')
    (h' : SameProjects st' st'') : SameProjects st st'' :=
  ⟨h'.1.trans h.1, h'.2.trans h.2⟩

/-- A project is stored under a key, and nothing else changes among projects and indices. -/
structure Stores (st : State) (k : Nat) (p : FomoProject) (st' : State) : Prop where
  projects : st'.fomoProjectMap = st.fomoProjectMap.insert k p
  count : st'.counter.count = st.counter.count

/-- What is never changed about a project: its index, its canisters and its shares to lock. -/
structure SameIdentity (v v' : FomoProject) : Prop where
  fomoIdx : v'.fomoIdx = v.fomoIdx
  poolPid : v'.poolPid = v.poolPid
  sneedDaoLock : v'.sneedDaoLock = v.sneedDaoLock
  dogmiDaoLock : v'.dogmiDaoLock = v.dogmiDaoLock

/-- The roles that a run may have after a segment that leaves the projects alone. -/
inductive Follows : Role → Role → Prop
  | plain : Follows .plain .plain
  | creates (idx : Nat) : Follows (.creates idx) (.creates idx)
  | trades (k : Nat) (v : FomoProject) : Follows (.trades k v) (.trades k v)
  | settles (k : Nat) (v : FomoProject) : Follows (.trades k v) (.settles k v)

/-- A cause that answers a charge of `create_fomo`, with the transfer made. -/
def paidBy : Cause Message Frame Rep → Bool
  | .resumed (.ledger _ (.transferFrom charge)) reply =>
    match charge.k, transferFromResult reply with
    | .createFomo _, .ok _ => true
    | _, _ => false
  | _ => false

/-- What a segment can do to the projects, from the role of its run before it to the one after.
Whether its cause pays for a project comes first. -/
inductive ProjectStep (env : Env) (st : State) : Bool → Role → State → Role → Prop
  /-- The projects are the same, and the run keeps its role, or comes to settle. -/
  | quiet {r st' r'} (same : SameProjects st st') (role : Follows r r') : ProjectStep env st false r st' r'
  /-- `count` draws an index that nobody keeps. -/
  | counted {st'} (projects : st'.fomoProjectMap = st.fomoProjectMap)
      (count : st'.counter.count = st.counter.count + 1) :
    ProjectStep env st false .plain st' .plain
  /-- `create_fomo` is paid, and draws its index. -/
  | drew {st'} (projects : st'.fomoProjectMap = st.fomoProjectMap)
      (count : st'.counter.count = st.counter.count + 1) :
    ProjectStep env st true .plain st' (.creates (st.counter.count + 1))
  /-- `create_fomo` stores its project. -/
  | created {st'} (c : Created) (stores : Stores st c.idx c.fomoProject st') :
    ProjectStep env st false (.creates c.idx) st' .plain
  /-- `reply_update` counts a reply. -/
  | replied {k v time st'} (stored : st.fomoProjectMap[k]? = some v)
      (stores : Stores st k
        { v with replyCount := v.replyCount + 1, recentlyReplyTime := time } st') :
    ProjectStep env st false .plain st' .plain
  /-- `set_buy_or_sell` copies a project. -/
  | read {k v} (stored : st.fomoProjectMap[k]? = some v) : ProjectStep env st false .plain st (.trades k v)
  /-- `set_buy_or_sell` writes its copy back, with its marker as it was copied. -/
  | traded {k v v' st'} (same : SameIdentity v v')
      (marker : v'.poolProgressDoneTime = v.poolProgressDoneTime) (stores : Stores st k v' st') :
    ProjectStep env st false (.settles k v) st' .plain
  /-- `update_progress` writes back what it measured, and starts its last loop. -/
  | finished {order time addrConfig map maxMarketCap maxIdx st' next}
      (ends : finishProgress env order time addrConfig map maxMarketCap maxIdx st =
        some (st', next)) :
    ProjectStep env st false .plain st' (roleOf next.frame?)
  /-- `update_progress` goes on with its last loop. -/
  | handedOff {stage h res st' next}
      (ends : updateProgressHandOff env stage h res st = some (st', next)) :
    ProjectStep env st false (.handsOff stage h) st' (roleOf next.frame?)

/-- What a segment does to the projects and to the points, from the role of its run to the frame that
it leaves behind. A run that holds an index goes on holding it. -/
structure Effect (env : Env) (st : State) (paid : Bool) (r : Role) (st' : State)
    (frame? : Option Frame) : Prop where
  projects : ProjectStep env st paid r st' (roleOf frame?)
  points : PointSteps st st'
  stays : ∀ idx frame, r = .creates idx → frame? = some frame → frame.role = .creates idx

/-- In a run that creates nothing yet, what happens to the projects and the points is all. -/
theorem Effect.of_plain {env : Env} {st st' : State} {paid : Bool} {frame? : Option Frame}
    (projects : ProjectStep env st paid .plain st' (roleOf frame?)) (points : PointSteps st st') :
    Effect env st paid .plain st' frame? :=
  ⟨projects, points, fun _ _ h => nomatch h⟩

/-! ## Points and profiles leave the projects alone -/

/-- Only profiles and points change. -/
structure Spends (st st' : State) : Prop where
  projects : SameProjects st st'
  points : PointSteps st st'

theorem Spends.refl (st : State) : Spends st st := ⟨.refl st, .refl⟩

theorem Spends.trans {st st' st'' : State} (h : Spends st st') (h' : Spends st' st'') :
    Spends st st'' :=
  ⟨h.projects.trans h'.projects, h.points.trans h'.points⟩

section

variable {env : Env} {time : Nat} {st st' : State}

/-- A profile is stored beside the projects. -/
theorem insertProfile_same {key : Principal} {profile : UserProfile}
    (h : st.insertProfile env key profile = some st') : SameProjects st st' := by
  unfold State.insertProfile at h
  split at h
  · cases h
    exact .refl st
  · cases h

/-- A project is stored under its index alone. -/
theorem insertProject_stores {key : Nat} {project : FomoProject}
    (h : st.insertProject env key project = some st') : Stores st key project st' := by
  unfold State.insertProject at h
  split at h
  · cases h
    exact ⟨rfl, rfl⟩
  · cases h

/-- A project is stored beside the accounts. -/
theorem insertProject_accounts {key : Nat} {project : FomoProject}
    (h : st.insertProject env key project = some st') : SameAccounts st st' := by
  unfold State.insertProject at h
  split at h
  · cases h
    exact ⟨rfl, rfl, Nat.le_refl _⟩
  · cases h

/-- A record of points takes an index of the accounts. -/
theorem recordPoints_same {userPid : Principal} {opType : OpType} {busiName : String} {amount : Nat}
    (h : recordPoints env time userPid opType busiName amount st = some st') :
    SameProjects st st' := by
  unfold recordPoints State.insertHistory at h
  dsimp only at h
  split at h
  · cases h
    exact ⟨rfl, rfl⟩
  · cases h

/-- `init_points` writes a profile and a record. -/
theorem initPoints_spends {userPid : Principal} (h : initPoints env time userPid st = some st') :
    Spends st st' := by
  refine ⟨?_, initPoints_points h⟩
  obtain ⟨profile, _, h⟩ := Option.bind_eq_some_iff.mp h
  obtain ⟨written, hwrite, h⟩ := Option.bind_eq_some_iff.mp h
  exact (insertProfile_same hwrite).trans (recordPoints_same h)

/-- `add_points` writes a profile and a record. -/
theorem addPoints_spends {amount : Nat} {userPid : Principal} {busiName : String}
    (h : addPoints env time amount userPid busiName st = some st') : Spends st st' := by
  refine ⟨?_, addPoints_points h⟩
  obtain ⟨profile, _, h⟩ := Option.bind_eq_some_iff.mp h
  obtain ⟨written, hwrite, h⟩ := Option.bind_eq_some_iff.mp h
  exact (insertProfile_same hwrite).trans (recordPoints_same h)

/-- `deduct_points` writes a profile and a record. -/
theorem deductPoints_spends {amount : Nat} {userPid : Principal} {busiName : String}
    (h : deductPoints env time amount userPid busiName st = some st') : Spends st st' := by
  refine ⟨?_, deductPoints_points h⟩
  obtain ⟨profile, _, h⟩ := Option.bind_eq_some_iff.mp h
  obtain ⟨deducted, _, h⟩ := Option.bind_eq_some_iff.mp h
  obtain ⟨written, hwrite, h⟩ := Option.bind_eq_some_iff.mp h
  exact (insertProfile_same hwrite).trans (recordPoints_same h)

theorem spendingPoints_spends {caller userPid : Principal} {busiName : String}
    (h : spendingPoints env time caller userPid busiName st = some st') : Spends st st' := by
  unfold spendingPoints at h
  split at h
  · cases h
  · obtain ⟨amount, _, h⟩ := Option.bind_eq_some_iff.mp h
    exact deductPoints_spends h

theorem airdropPoints_spends {caller userPid : Principal} {amount : Nat} {busiName : String}
    (h : airdropPoints env time caller userPid amount busiName st = some st') :
    Spends st st' := by
  unfold airdropPoints at h
  split at h
  · cases h
  · exact addPoints_spends h

/-- The initial points are granted, and a reward is added to them. -/
def Rewards (env : Env) (time amount : Nat) (user : Principal) (busiName : String)
    (st st' : State) : Prop :=
  ∃ granted, initPoints env time user st = some granted ∧
    addPoints env time amount user busiName granted = some st'

theorem Rewards.spends {amount : Nat} {user : Principal} {busiName : String}
    (h : Rewards env time amount user busiName st st') : Spends st st' := by
  obtain ⟨granted, hgrant, hadd⟩ := h
  exact (initPoints_spends hgrant).trans (addPoints_spends hadd)

/-! ## Calls and edits leave the projects alone -/

variable {next : Next Frame Answer}

/-- A segment of a run with a role that leaves the projects alone. -/
def Quiet (r : Role) (st st' : State) (next : Next Frame Answer) : Prop :=
  Spends st st' ∧ Follows r (roleOf next.frame?)

/-- A run that creates a project goes on creating it. -/
theorem Follows.stays {idx : Nat} {r : Role} (h : Follows (.creates idx) r) : r = .creates idx := by
  cases h
  rfl

/-- What leaves the projects alone is an effect in any role. -/
theorem Quiet.effect {r : Role} (h : Quiet r st st' next) :
    Effect env st false r st' next.frame? := by
  refine ⟨.quiet h.1.projects h.2, h.1.points, fun idx frame hr hframe => ?_⟩
  have follows := h.2
  rw [hr, hframe] at follows
  exact follows.stays

/-- A segment that changes nothing. -/
theorem Effect.idle {r : Role} (role : Follows r (roleOf next.frame?)) :
    Effect env st false r st next.frame? :=
  Quiet.effect ⟨.refl st, role⟩

theorem Quiet.trans {st'' : State} {r : Role} (h : Spends st st')
    (h' : Quiet r st' st'' next) : Quiet r st st'' next := ⟨h.trans h'.1, h'.2⟩

/-- A run may await the lookup of a type. -/
theorem follows_lookup (call : TokenCall) : Follows call.lookupRole call.lookupRole := by
  cases call with
  | approve c tokenPid => exact .creates _
  | totalSupply q => exact .trades _ _
  | _ => exact .plain

/-- A run that looks up a type may go on to the ledger. -/
theorem follows_ledger (call : TokenCall) : Follows call.lookupRole call.ledgerRole := by
  cases call with
  | approve c tokenPid => exact .creates _
  | totalSupply q => exact .settles _ _
  | _ => exact .plain

theorem callLedger_quiet {call : TokenCall} (h : callLedger call st = some (st', next)) :
    Quiet call.lookupRole st st' next := by
  obtain ⟨rfl, type, rfl⟩ := callLedger_eq h
  exact ⟨.refl st', follows_ledger call⟩

/-- A call of a token, with its lookup or without, keeps the role of its run. -/
theorem callToken_quiet {call : TokenCall} (h : callToken time call st = some (st', next)) :
    Quiet call.lookupRole st st' next := by
  obtain ⟨rfl, rfl | ⟨type, rfl⟩⟩ := callToken_cases h
  · exact ⟨.refl st', follows_lookup call⟩
  · exact ⟨.refl st', follows_ledger call⟩

/-- A quote leads to a charge, which has no role yet. -/
theorem feeReturn_quiet {fee : Fee} {quote : Except String Nat}
    (h : feeReturn env time fee quote st = some (st', next)) : Quiet .plain st st' next := by
  obtain ⟨_, _, _, _, h⟩ | ⟨_, _, _, _, h⟩ | ⟨rfl, ⟨_, rfl⟩ | ⟨_, rfl⟩⟩ := feeReturn_cases h
  · exact callToken_quiet h
  · exact callToken_quiet h
  · exact ⟨.refl st', .plain⟩
  · exact ⟨.refl st', .plain⟩

theorem editUserReturn_quiet {e : Edit} {result : Except String Principal}
    (h : editUserReturn env time e result st = some (st', next)) : Quiet .plain st st' next := by
  obtain ⟨rfl, _, rfl⟩ | ⟨_, _, _, _, h⟩ := editUserReturn_cases h
  · exact ⟨.refl st', .plain⟩
  · exact callToken_quiet h

theorem editUserWrite_quiet {e : Edit} {imageUrl : String}
    (h : editUserWrite env time e imageUrl st = some (st', next)) : Quiet .plain st st' next := by
  obtain ⟨profile, hprofile, h⟩ := Option.bind_eq_some_iff.mp h
  obtain ⟨written, hwrite, h⟩ := Option.bind_eq_some_iff.mp h
  exact .trans ⟨insertProfile_same hwrite, insertProfile_points (Edit.write_edits hprofile) hwrite⟩
    (editUserReturn_quiet h)

theorem editUserUpload_quiet {e : Edit} (h : editUserUpload env time e st = some (st', next)) :
    Quiet .plain st st' next := by
  obtain hwrite | ⟨rfl, _, _, rfl⟩ := editUserUpload_cases h
  · exact editUserWrite_quiet hwrite
  · exact ⟨.refl st', .plain⟩

/-- `edit_user` writes no project, as an edit or as a topup. -/
theorem editUser_quiet {e : Edit} (h : editUser env time e st = some (st', next)) :
    Quiet .plain st st' next := by
  obtain ⟨_, h⟩ | ⟨_, h⟩ | ⟨p, p', written, hp, edits, hwrite, h⟩ := editUser_cases h
  · exact editUserReturn_quiet h
  · exact editUserUpload_quiet h
  · rw [← hp] at edits
    refine .trans ⟨insertProfile_same hwrite, insertProfile_points edits hwrite⟩ ?_
    obtain ⟨_, h⟩ | ⟨_, rfl, rfl⟩ := h
    · exact editUserUpload_quiet h
    · exact ⟨.refl st', .plain⟩

theorem topupPoints_quiet {caller : Principal} {pointsAmount : Nat}
    (h : topupPoints env time caller pointsAmount st = some (st', next)) :
    Quiet .plain st st' next := by
  obtain ⟨rfl, _, rfl⟩ | h := topupPoints_cases h
  · exact ⟨.refl st', .plain⟩
  · exact editUser_quiet h

theorem createFomo_quiet {caller : Principal} {fomoCreate : FomoProjectCreate}
    (h : createFomo env time caller fomoCreate st = some (st', next)) :
    Quiet .plain st st' next := by
  obtain ⟨rfl, _, rfl⟩ | ⟨fee, _, _, h⟩ := createFomo_cases h
  · exact ⟨.refl st', .plain⟩
  · exact callToken_quiet h

theorem ownershipTransfer_quiet {caller fomoPid : Principal} {new : Option Principal}
    (h : ownershipTransfer env time caller fomoPid new st = some (st', next)) :
    Quiet .plain st st' next := by
  obtain ⟨fee, _, _, h⟩ := ownershipTransfer_cases h
  exact callToken_quiet h

/-- A method of the accounts ends in its first segment. -/
theorem finish_quiet {answer : Answer} {result : Option State}
    (spends : ∀ {st'}, result = some st' → Spends st st')
    (h : finish answer result = some (st', next)) : Quiet .plain st st' next := by
  obtain ⟨written, hwrite, h⟩ := Option.map_eq_some_iff.mp h
  cases h
  exact ⟨spends hwrite, .plain⟩

/-! ## `update_progress` leaves the points alone -/

/-- `update_progress` writes back projects and the context, and no account. -/
theorem finishProgress_accounts {order : HashOrder} {addrConfig : AddrConfig}
    {map : ExtTreeMap Nat (Nat × Nat) compare} {maxMarketCap maxIdx : Nat}
    (h : finishProgress env order time addrConfig map maxMarketCap maxIdx st = some (st', next)) :
    SameAccounts st st' :=
  finishProgress_invariant h ⟨rfl, rfl, Nat.le_refl _⟩ fun _ _ _ _ hwrite same =>
    same.trans (insertProject_accounts hwrite)

/-! ## The inversion -/

variable {a : Ambient}

/-- A round of `update_progress` asks the oracle, or measures and hands off. -/
theorem progressNext_effect {order : HashOrder} {addrConfig : AddrConfig}
    {list : List FomoProject} {map : ExtTreeMap Nat (Nat × Nat) compare} {maxMarketCap maxIdx : Nat}
    (h : progressNext env order time addrConfig list map maxMarketCap maxIdx st =
      some (st', next)) : Effect env st false .plain st' next.frame? := by
  obtain ⟨rfl, _, _, _, rfl⟩ | ⟨_, h⟩ := progressNext_cases h
  · exact .idle .plain
  · exact .of_plain (.finished h) (finishProgress_accounts h).points

/-- **The first segment** of a run, which has no role before it. -/
theorem receive_effect {m : Message} (h : receive env a m st = some (st', next)) :
    Effect env st false .plain st' next.frame? := by
  cases m with
  | setBuyOrSell caller recordSignal =>
    obtain ⟨⟨userName, userAvatar⟩, _, h⟩ := Option.bind_eq_some_iff.mp h
    cases h
    cases hfomo : st.fomoProjectMap[recordSignal.fomoIdx]? with
    | none => exact .of_plain (.quiet (.refl st) .plain) .refl
    | some v => exact .of_plain (.read hfomo) .refl
  | updateProgress => exact progressNext_effect h
  | topupPoints caller pointsAmount => exact (topupPoints_quiet h).effect
  | editUser caller userInfo => exact (editUser_quiet h).effect
  | createFomo caller fomoCreate => exact (createFomo_quiet h).effect
  | replyUpdate fomoIdx =>
    obtain ⟨written, hwrite, h⟩ := Option.map_eq_some_iff.mp h
    cases h
    obtain ⟨v, hv, hwrite⟩ := Option.bind_eq_some_iff.mp hwrite
    exact .of_plain (.replied hv (insertProject_stores hwrite))
      (insertProject_accounts hwrite).points
  | ownershipTransfer caller fomoPid toNewControllerPid => exact (ownershipTransfer_quiet h).effect
  | spendingPoints caller userPid busiName => exact (finish_quiet spendingPoints_spends h).effect
  | lockPool caller lockPoolPid =>
    obtain ⟨rfl, rfl⟩ := lockPool_eq h
    exact .idle .plain
  | airdropPoints caller userPid amount busiName => exact (finish_quiet airdropPoints_spends h).effect
  | count =>
    cases h
    exact .of_plain (.counted rfl rfl) (SameAccounts.points ⟨rfl, rfl, Nat.le_refl _⟩)
  | countPoint =>
    cases h
    exact .of_plain (.quiet ⟨rfl, rfl⟩ .plain) (SameAccounts.points ⟨rfl, rfl, Nat.le_succ _⟩)
  | addTokenControllers caller token user =>
    obtain ⟨rfl, _, rfl⟩ := addTokenControllers_eq h
    exact .idle .plain

/-- **What a charge pays for** once it is collected: points, a project, or a transfer. -/
theorem chargeReturn_cases {charge : Charge}
    (h : chargeReturn env time charge st = some (st', next)) :
    (∃ pointsAmount, charge.k = .topupPoints pointsAmount ∧ next.frame? = none ∧
        Rewards env time pointsAmount charge.sender "TOPUP" st st') ∨
      (∃ fomoCreate, charge.k = .createFomo fomoCreate ∧ st' = st.count.1 ∧
        next = .awaits (.createToken ⟨charge.sender, fomoCreate, st.count.2⟩)) ∨
      (charge.k = .ownershipTransfer ∧ st' = st ∧ next.frame? = none) := by
  unfold chargeReturn at h
  split at h
  next pointsAmount hk =>
    obtain ⟨granted, hgrant, h⟩ := Option.bind_eq_some_iff.mp h
    obtain ⟨added, hadd, h⟩ := Option.bind_eq_some_iff.mp h
    cases h
    exact .inl ⟨pointsAmount, hk, rfl, granted, hgrant, hadd⟩
  next fomoCreate hk =>
    cases h
    exact .inr (.inl ⟨fomoCreate, hk, rfl, rfl⟩)
  next hk =>
    cases h
    exact .inr (.inr ⟨hk, rfl, rfl⟩)

/-- A collected charge pays for what it was asked for: points, a project's index, or a transfer of
ownership. -/
theorem chargeReturn_effect {type : TokenType} {charge : Charge}
    {reply : CallResult (Except String Nat)} (ok : unwrap (transferFromResult reply) = some ())
    (h : chargeReturn env time charge st = some (st', next)) :
    Effect env st (paidBy (.resumed (.ledger type (.transferFrom charge)) reply)) .plain st'
      next.frame? := by
  simp only [paidBy, unwrap_eq_some.mp ok]
  obtain ⟨_, hk, hnext, rewards⟩ | ⟨_, hk, rfl, rfl⟩ | ⟨hk, rfl, hnext⟩ := chargeReturn_cases h
  · simp only [hk, hnext]
    exact .of_plain (.quiet rewards.spends.projects .plain) rewards.spends.points
  · simp only [hk]
    exact .of_plain (.drew rfl rfl) (SameAccounts.points ⟨rfl, rfl, Nat.le_refl _⟩)
  · simp only [hk, hnext]
    exact .of_plain (.quiet (.refl st') .plain) .refl

/-- The wells progress and its time are all that `updateWells` sets. -/
theorem updateWells_eq {v v' : FomoProject} {marketCap maxMarketCap : Nat}
    (h : v.updateWells time marketCap maxMarketCap = some v') :
    ∃ godOfWellsProgress godOfWellsTime, v' = { v with godOfWellsProgress, godOfWellsTime } := by
  unfold FomoProject.updateWells at h
  split at h
  · cases h
    exact ⟨_, _, rfl⟩
  split at h
  · obtain ⟨progress, _, h⟩ := Option.bind_eq_some_iff.mp h
    split at h <;> cases h <;> exact ⟨_, _, rfl⟩
  split at h
  · cases h
    exact ⟨_, _, rfl⟩
  · split at h <;> cases h <;> exact ⟨_, _, rfl⟩

/-- The wells leave a project's identity and its completion. -/
theorem updateWells_same {v v' : FomoProject} {marketCap maxMarketCap : Nat}
    (h : v.updateWells time marketCap maxMarketCap = some v') :
    SameIdentity v v' ∧ v'.poolProgressDoneTime = v.poolProgressDoneTime := by
  obtain ⟨_, _, rfl⟩ := updateWells_eq h
  exact ⟨⟨rfl, rfl, rfl, rfl⟩, rfl⟩

/-- The end of `set_buy_or_sell`: the trade is shown in the context, and the copy written back. -/
theorem setBuyOrSellSupply_ends {q : Quote} {supply : CallResult Nat}
    (h : setBuyOrSellSupply env time q supply st = some (st', next)) :
    ∃ marketCap maxMarketCap v, q.v.updateWells time marketCap maxMarketCap = some v ∧
      { st with context := tradeContext st.context q marketCap maxMarketCap }.insertProject env
        q.recordSignal.fomoIdx
        { v with
          poolProgress := capProgress (poolProgressOf marketCap)
          marketCap
          recentlyBumpTime := time } = some st' ∧
      next = .returned .unit := by
  obtain ⟨totalBalance, _, h⟩ := Option.bind_eq_some_iff.mp h
  obtain ⟨⟨_, icpPrice⟩, _, h⟩ := Option.bind_eq_some_iff.mp h
  obtain ⟨v, hv, h⟩ := Option.bind_eq_some_iff.mp h
  obtain ⟨written, hwrite, h⟩ := Option.bind_eq_some_iff.mp h
  cases h
  exact ⟨_, _, v, hv, hwrite, rfl⟩

/-- What `set_buy_or_sell` writes back has the identity and the marker of its copy. -/
theorem setBuyOrSellSupply_stores {q : Quote} {supply : CallResult Nat}
    (h : setBuyOrSellSupply env time q supply st = some (st', next)) :
    ∃ v, SameIdentity q.v v ∧ v.poolProgressDoneTime = q.v.poolProgressDoneTime ∧
      Stores st q.recordSignal.fomoIdx v st' ∧ SameAccounts st st' ∧ next = .returned .unit := by
  obtain ⟨_, _, v, hv, hwrite, rfl⟩ := setBuyOrSellSupply_ends h
  obtain ⟨same, marker⟩ := updateWells_same hv
  have stores := insertProject_stores hwrite
  have accounts := insertProject_accounts hwrite
  refine ⟨_, ?_, ?_, ⟨stores.projects, stores.count⟩,
    ⟨accounts.profiles, accounts.history, accounts.count⟩, rfl⟩
  · exact ⟨same.fomoIdx, same.poolPid, same.sneedDaoLock, same.dogmiDaoLock⟩
  · exact marker

/-- A trade settles the copy that its run has carried. -/
theorem setBuyOrSellSupply_effect {q : Quote} {supply : CallResult Nat}
    (h : setBuyOrSellSupply env time q supply st = some (st', next)) :
    Effect env st false (.settles q.recordSignal.fomoIdx q.v) st' next.frame? := by
  obtain ⟨v, same, marker, stores, accounts, rfl⟩ := setBuyOrSellSupply_stores h
  exact ⟨.traded same marker stores, accounts.points, fun _ _ h => nomatch h⟩

theorem resumeLedger_effect {type : TokenType} {call : TokenCall} {reply : call.Rep}
    (h : resumeLedger env a type call reply st = some (st', next)) :
    Effect env st (paidBy (.resumed (.ledger type call) reply)) call.ledgerRole st'
      next.frame? := by
  cases call with
  | balanceOf fee =>
    obtain ⟨totalBalance, _, h⟩ := Option.bind_eq_some_iff.mp h
    exact (callToken_quiet h).effect
  | allowance fee totalBalance =>
    obtain ⟨allowanceBalance, _, h⟩ := Option.bind_eq_some_iff.mp h
    cases h
    exact .idle .plain
  | transferFrom charge =>
    obtain ⟨_, ok, h⟩ := Option.bind_eq_some_iff.mp h
    exact chargeReturn_effect ok h
  | approve c tokenPid =>
    obtain ⟨_, _, h⟩ := Option.bind_eq_some_iff.mp h
    cases h
    exact .idle (.creates _)
  | totalSupply q => exact setBuyOrSellSupply_effect h

/-- **The end of `create_fomo`**: the project is stored and shown in the context, then its creator is
rewarded. -/
theorem createFomoInstalled_ends {c : Created} {res : CallResult Unit}
    (h : createFomoInstalled env time c res st = some (st', next)) :
    ∃ written lastCreateFomo, st.insertProject env c.idx c.fomoProject = some written ∧
      Rewards env time 10 c.caller "CREATEFOMO"
        { written with context := { written.context with lastCreateFomo } } st' ∧
      next.frame? = none := by
  obtain ⟨_, _, h⟩ := Option.bind_eq_some_iff.mp h
  obtain ⟨written, hwrite, h⟩ := Option.bind_eq_some_iff.mp h
  obtain ⟨⟨userName, userAvatar⟩, _, h⟩ := Option.bind_eq_some_iff.mp h
  obtain ⟨granted, hgrant, h⟩ := Option.bind_eq_some_iff.mp h
  obtain ⟨added, hadd, h⟩ := Option.bind_eq_some_iff.mp h
  cases h
  exact ⟨written, _, hwrite, ⟨granted, hgrant, hadd⟩, rfl⟩

/-- Between the two the accounts are as they were. -/
theorem createFomoInstalled_cases {c : Created} {res : CallResult Unit}
    (h : createFomoInstalled env time c res st = some (st', next)) :
    ∃ stored, Stores st c.idx c.fomoProject stored ∧ SameAccounts st stored ∧
      stored.counter.pointCount = st.counter.pointCount ∧
      Rewards env time 10 c.caller "CREATEFOMO" stored st' ∧ next.frame? = none := by
  obtain ⟨written, lastCreateFomo, hwrite, rewards, hnext⟩ := createFomoInstalled_ends h
  unfold State.insertProject at hwrite
  split at hwrite
  · cases hwrite
    refine ⟨_, ?_, ?_, ?_, rewards, hnext⟩
    · exact ⟨rfl, rfl⟩
    · exact ⟨rfl, rfl, Nat.le_refl _⟩
    · rfl
  · cases hwrite

/-- `create_fomo` stores the project under the index that its run has drawn. -/
theorem createFomoInstalled_effect {c : Created} {res : CallResult Unit}
    (h : createFomoInstalled env time c res st = some (st', next)) :
    Effect env st false (.creates c.idx) st' next.frame? := by
  obtain ⟨stored, stores, accounts, _, rewards, hnext⟩ := createFomoInstalled_cases h
  have spends := rewards.spends
  rw [hnext]
  refine ⟨.created c ⟨?_, ?_⟩, accounts.points.trans spends.points, fun _ _ _ h => nomatch h⟩
  · exact spends.projects.1.trans stores.projects
  · exact spends.projects.2.trans stores.count

/-- **A later segment** of a run, in the role of the frame it was resumed at. -/
theorem resume_effect {frame : Frame} {reply : Rep frame}
    (h : resume env a frame reply st = some (st', next)) :
    Effect env st (paidBy (.resumed frame reply)) frame.role st' next.frame? := by
  cases frame with
  | querySwapStatus b =>
    obtain ⟨rfl, s, rfl, hv, hsignal⟩ := setBuyOrSellSwap_eq h
    simp only [Frame.role, hv, ← hsignal]
    exact .idle (.trades _ _)
  | getPoolInfo s =>
    obtain ⟨poolInfo, _, h⟩ := Option.bind_eq_some_iff.mp h
    cases h
    exact .idle (.trades _ _)
  | getIcpPrice s poolInfo => exact (callToken_quiet h).effect
  | marketCapBatch p =>
    obtain ⟨_, _, _, h⟩ := updateProgressItem_cases h
    exact progressNext_effect h
  | handOff stage hand =>
    refine ⟨.handedOff h, ?_, fun _ _ h => nomatch h⟩
    rw [(updateProgressHandOff_eq h).1]
  | spendingPoints e =>
    replace h : editUserReturn env a.time e (.error reply.2) st = some (st', next) := h
    exact (editUserReturn_quiet h).effect
  | spendingPointsDone e => exact (editUserUpload_quiet h).effect
  | httpRequest url k =>
    cases k with
    | editUser e =>
      obtain ⟨imageUrl, _, h⟩ := Option.bind_eq_some_iff.mp h
      exact (editUserWrite_quiet h).effect
    | createFomo c tokenPid poolPid tid =>
      obtain ⟨imgUrl, _, h⟩ := Option.bind_eq_some_iff.mp h
      cases h
      exact .idle (.creates _)
  | getToken call =>
    have quiet := callLedger_quiet h
    have same : SameAccounts st { st with tokenCache := st.tokenCache.refreshToken a.time reply } :=
      ⟨rfl, rfl, Nat.le_refl _⟩
    have effect : Effect env _ _ _ _ _ := quiet.effect
    exact ⟨.quiet quiet.1.projects quiet.2, same.points.trans quiet.1.points, effect.stays⟩
  | ledger type call => exact resumeLedger_effect h
  | pricesBatch fee totalBalance allowanceBalance =>
    obtain ⟨res, _, h⟩ := Option.bind_eq_some_iff.mp h
    obtain ⟨price, _, h⟩ := Option.bind_eq_some_iff.mp h
    obtain ⟨quote, _, h⟩ := Option.bind_eq_some_iff.mp h
    exact (feeReturn_quiet h).effect
  | createToken c =>
    obtain ⟨tokenPid, _, h⟩ := Option.bind_eq_some_iff.mp h
    exact (callToken_quiet h).effect
  | canisterStatus c =>
    obtain ⟨rfl, rfl⟩ := createFomoStatus_eq h
    exact .idle (.creates _)
  | installCode c => exact createFomoInstalled_effect h
  | removeTokensControllers o =>
    obtain ⟨_, _, h⟩ := Option.bind_eq_some_iff.mp h
    exact (callToken_quiet h).effect
  | createCommonPool _ _ | createCanister _ _ _ =>
    obtain ⟨_, _, h⟩ := Option.bind_eq_some_iff.mp h
    cases h
    exact .idle (.creates _)
  | icrc2Approve _ | lockPool _ | tokenStatus _ _ | updateSettings _ _ =>
    obtain ⟨_, _, h⟩ := Option.bind_eq_some_iff.mp h
    cases h
    exact .idle .plain

/-- **The inversion**: every segment that ends is one of the project steps, and moves points by
some of the point steps. -/
theorem segment_effect {cause : Cause Message Frame Rep}
    (h : (program env).segment a cause st = some (st', next)) :
    Effect env st (paidBy cause) (roleOf cause.frame?) st' next.frame? := by
  cases cause with
  | received m => exact receive_effect h
  | delivered frame =>
    obtain ⟨e, rfl, hspent, rfl⟩ := segment_delivered h
    have spends := spendingPoints_spends hspent
    exact .of_plain (.quiet spends.projects .plain) spends.points
  | resumed frame reply => exact resume_effect h

/-- A segment whose cause pays for a project ends: it draws the index. -/
theorem segment_of_paid (env : Env) (a : Ambient) (st : State)
    {cause : Cause Message Frame Rep} (h : paidBy cause = true) :
    ∃ c, (program env).segment a cause st =
      some (st.count.1, .awaits (.createToken c)) ∧ c.idx = st.count.2 := by
  unfold paidBy at h
  split at h
  next type charge reply =>
    split at h
    next fomoCreate _ hk hresult =>
      refine ⟨⟨charge.sender, fomoCreate, st.count.2⟩, ?_, rfl⟩
      simp only [Program.segment, program, resume, resumeLedger, hresult, unwrap, chargeReturn, hk,
        createFomoCharged, bind, Option.bind]
    next => cases h
  next => cases h

end

end Fomowell.Launcher
