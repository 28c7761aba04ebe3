import Fomowell.Launcher.Records

/-!
# The point history as a ledger

Replaying a user's records should give the balance back: the grant from the `INIT` record, rewards and
top-ups from the `ADD` records, spends from the `DEDUCT` records. The accounts (`Accounted`) tie the
balance to the last two; what is left is that each user with points has one `INIT` record of twenty.

`init_points` gives points only to a user who has none, and writes its record every time. A choice
`Regrants` where it runs for a user who has points: at a second top-up, and at every project after the
first. `history_replays_iff`: the records replay to the balances in exactly the schedules without
such a choice; `not_history_replays` runs one.
-/

namespace Fomowell.Launcher

open Std Canister Table Runs Token

/-- Replaying the records of every user with points gives the balance back. -/
def Replays (st : State) : Prop :=
  ∀ user p, st.pointsOf user = some p →
    recorded .INIT user st + recorded .ADD user st = p + recorded .DEDUCT user st

/-- The user for whom a segment runs `init_points`. -/
def grantee : Cause Message Frame Rep → Option Principal
  | .resumed (.ledger _ (.transferFrom charge)) reply =>
    match charge.k, transferFromResult reply with
    | .topupPoints _, .ok _ => some charge.sender
    | _, _ => none
  | .resumed (.installCode c) _ => some c.caller
  | _ => none

/-- A choice whose segment ends, and grants the twenty points to a user who has points. -/
def Regrants (env : Env) (s : System) (choice : Choice) : Prop :=
  ∃ a run cause user, s.starts choice = some (a, run, cause) ∧
    ((program env).segment a cause s.state).isSome ∧ grantee cause = some user ∧
    (s.state.pointsOf user).isSome = true

/-- Every user with points was granted twenty once, and nobody else was. -/
def GrantedOnce (st : State) : Prop :=
  ∀ user, recorded .INIT user st = if (st.pointsOf user).isSome then 20 else 0

/-- The grant that a user's records still have to show: the law of one account. -/
theorem Accounted.replays_iff {st : State} (accounted : Accounted st) {user : Principal} {p : Nat}
    (h : st.pointsOf user = some p) :
    recorded .INIT user st + recorded .ADD user st = p + recorded .DEDUCT user st ↔
      recorded .INIT user st = 20 := by
  obtain ⟨profile, hprofile, hp⟩ := Option.bind_eq_some_iff.mp h
  have agree := accounted.agree user
  rw [hprofile] at agree
  have granted := agree.granted p hp
  rw [agree.spent] at granted
  omega

theorem GrantedOnce.replays {st : State} (granted : GrantedOnce st) (accounted : Accounted st) :
    Replays st := by
  intro user p h
  rw [accounted.replays_iff h, granted user, h]
  rfl

/-! ## What a segment grants -/

/-- Somebody is given points, or nobody: the users with points are the same otherwise. -/
def Gives (who : Option Principal) (st st' : State) : Prop :=
  ∀ user, (st'.pointsOf user).isSome = (who = some user || (st.pointsOf user).isSome)

theorem gives_none {st st' : State} (h : ∀ user, st'.pointsOf user = st.pointsOf user) :
    Gives none st st' := by
  intro user
  rw [h user]
  rfl

theorem SameAccounts.gives {st st' : State} (same : SameAccounts st st') : Gives none st st' := by
  apply gives_none
  intro user
  unfold State.pointsOf
  rw [same.profiles]

/-- What comes before or after a gift leaves it. -/
theorem Gives.trans {who : Option Principal} {st st' st'' : State} (h : Gives who st st')
    (h' : Gives none st' st'') : Gives who st st'' := by
  intro user
  rw [h' user, h user]
  rfl

theorem SameAccounts.trans_gives {who : Option Principal} {st st' st'' : State}
    (same : SameAccounts st st') (h : Gives who st' st'') : Gives who st st'' := by
  intro user
  rw [h user, same.gives user]
  rfl

section

variable {env : Env} {time : Nat} {st st' : State}

/-- The three functions write one profile. -/
theorem pointsOf_of_record {user : Principal} {p' : UserProfile} {op : OpType} {busiName : String}
    {amount : Nat} {written : State} (hwrite : st.insertProfile env user p' = some written)
    (h : recordPoints env time user op busiName amount written = some st') (other : Principal) :
    st'.pointsOf other = if other = user then p'.userPoints else st.pointsOf other := by
  rw [recordPoints_eq hwrite h]
  unfold State.pointsOf State.withRecord
  dsimp only
  rw [get_insert]
  split <;> rfl

/-- A move of points gives nobody points, where the profile has points as before. -/
theorem gives_none_of_record {user : Principal} {p p' : UserProfile} {op : OpType}
    {busiName : String} {amount : Nat} {written : State}
    (stored : st.userProfileMap[user]? = some p)
    (hpoints : p'.userPoints.isSome = p.userPoints.isSome)
    (hwrite : st.insertProfile env user p' = some written)
    (h : recordPoints env time user op busiName amount written = some st') : Gives none st st' := by
  intro other
  rw [pointsOf_of_record hwrite h]
  split
  next hother =>
    unfold State.pointsOf
    rw [hother, hpoints, stored]
    rfl
  next => rfl

theorem initPoints_gives {user : Principal} (h : initPoints env time user st = some st') :
    Gives (some user) st st' := by
  obtain ⟨p, hp, h⟩ := Option.bind_eq_some_iff.mp h
  obtain ⟨written, hwrite, h⟩ := Option.bind_eq_some_iff.mp h
  have hsome : p.initPoints.userPoints.isSome = true := by
    unfold UserProfile.initPoints
    cases hpoints : p.userPoints with
    | none => rfl
    | some n => exact congrArg Option.isSome hpoints
  intro other
  rw [pointsOf_of_record hwrite h]
  by_cases hother : other = user
  · rw [if_pos hother, hsome, hother, decide_eq_true rfl, Bool.true_or]
  · rw [if_neg hother, decide_eq_false (fun e => hother (Option.some.inj e).symm), Bool.false_or]

theorem addPoints_gives {amount : Nat} {user : Principal} {busiName : String}
    (h : addPoints env time amount user busiName st = some st') : Gives none st st' := by
  obtain ⟨p, hp, h⟩ := Option.bind_eq_some_iff.mp h
  obtain ⟨written, hwrite, h⟩ := Option.bind_eq_some_iff.mp h
  have hpoints : (p.addPoints amount).userPoints.isSome = p.userPoints.isSome := by
    unfold UserProfile.addPoints
    cases p.userPoints with
    | some n => rfl
    | none => cases p.userPreRewardPoints <;> rfl
  exact gives_none_of_record hp hpoints hwrite h

theorem spendingPoints_gives {caller userPid : Principal} {busiName : String}
    (h : spendingPoints env time caller userPid busiName st = some st') : Gives none st st' := by
  unfold spendingPoints at h
  split at h
  · cases h
  · obtain ⟨amount, _, h⟩ := Option.bind_eq_some_iff.mp h
    obtain ⟨p, hp, h⟩ := Option.bind_eq_some_iff.mp h
    obtain ⟨p', hdeduct, h⟩ := Option.bind_eq_some_iff.mp h
    obtain ⟨written, hwrite, h⟩ := Option.bind_eq_some_iff.mp h
    have hpoints : p'.userPoints.isSome = p.userPoints.isSome := by
      obtain ⟨n, hn, hdeduct⟩ := Option.bind_eq_some_iff.mp hdeduct
      split at hdeduct
      · cases hdeduct
      · cases hdeduct
        rw [hn]
        rfl
    exact gives_none_of_record hp hpoints hwrite h

theorem Rewards.gives {amount : Nat} {user : Principal} {busiName : String}
    (h : Rewards env time amount user busiName st st') : Gives (some user) st st' := by
  obtain ⟨granted, hgrant, hadd⟩ := h
  exact (initPoints_gives hgrant).trans (addPoints_gives hadd)

theorem chargeReturn_gives {a : Ambient} {type : TokenType} {charge : Charge}
    {reply : CallResult (Except String Nat)} {next : Next Frame Answer}
    (ok : transferFromResult reply = .ok ())
    (h : chargeReturn env a.time charge st = some (st', next)) :
    Gives (grantee (.resumed (.ledger type (.transferFrom charge)) reply)) st st' := by
  obtain ⟨_, hk, _, rewards⟩ | ⟨_, hk, rfl, _⟩ | ⟨hk, rfl, _⟩ := chargeReturn_cases h
  · simp only [grantee, hk, ok]
    exact rewards.gives
  · simp only [grantee, hk]
    exact gives_none fun _ => rfl
  · simp only [grantee, hk]
    exact gives_none fun _ => rfl

theorem createFomoInstalled_gives {c : Created} {res : CallResult Unit} {next : Next Frame Answer}
    (h : createFomoInstalled env time c res st = some (st', next)) :
    Gives (some c.caller) st st' := by
  obtain ⟨stored, _, same, _, rewards, _⟩ := createFomoInstalled_cases h
  exact same.trans_gives rewards.gives

/-- A cause that passes grants nothing. -/
theorem grantee_of_passes {cause : Cause Message Frame Rep} (h : causePasses cause = true) :
    grantee cause = none := by
  unfold grantee
  split
  · cases h
  · cases h
  · rfl

variable {a : Ambient} {cause : Cause Message Frame Rep} {frame? : Option Frame}

/-- **Whom a segment gives points** is what its cause says. -/
theorem Does.gives (does : Does env a st cause st' frame?) : Gives (grantee cause) st st' := by
  cases does with
  | idle passes keeps free =>
    rw [grantee_of_passes passes]
    exact gives_none keeps.points
  | looked keeps => exact gives_none keeps.points
  | replied ends =>
    obtain ⟨v, _, ends⟩ := Option.bind_eq_some_iff.mp ends
    exact (insertProject_accounts ends).gives
  | spent ends => exact spendingPoints_gives ends
  | airdropped ends =>
    unfold airdropPoints at ends
    split at ends
    · cases ends
    · exact addPoints_gives ends
  | began passes keeps has asks => exact gives_none keeps.points
  | beganUpload passes absent asks => exact gives_none fun _ => rfl
  | deducted ends => exact spendingPoints_gives ends
  | refused => exact gives_none fun _ => rfl
  | uploaded => exact gives_none fun _ => rfl
  | wrote duty ends keeps free =>
    obtain rfl | ⟨url, rfl⟩ := Frame.of_edit_duty duty
    · exact gives_none keeps.points
    · exact gives_none keeps.points
  | charged ok ends => exact chargeReturn_gives ok ends
  | traded ends =>
    obtain ⟨_, _, _, _, same, _⟩ := setBuyOrSellSupply_stores ends
    exact same.gives
  | finished passes ends free =>
    rw [grantee_of_passes passes]
    exact (finishProgress_accounts ends).gives
  | installed ends => exact createFomoInstalled_gives ends
  | removed owes => exact gives_none fun _ => rfl

/-- What a move adds to a sum of amounts. -/
def Move.amountFor (op : OpType) (user : Principal) (move : Move) : Nat :=
  if move.userPid = user ∧ move.opType = op then move.amount.getD 0 else 0

/-- The grants among the moves of a segment. -/
theorem sum_init_moves (cause : Cause Message Frame Rep) (user : Principal) :
    ((movesOf cause).map (Move.amountFor .INIT user)).sum =
      if grantee cause = some user then 20 else 0 := by
  unfold movesOf grantee
  split
  next => simp [Move.amountFor]
  next => simp [Move.amountFor]
  next => simp [Move.amountFor]
  next charge reply =>
    cases hk : charge.k with
    | topupPoints pointsAmount =>
      cases ok : transferFromResult reply with
      | ok _ => simp [Move.amountFor, hk, ok]
      | error e => simp [hk, ok]
    | createFomo fomoCreate => simp [hk]
    | ownershipTransfer => simp [hk]
  next => simp [Move.amountFor]
  next => simp

/-- **What a segment records as granted.** -/
theorem Does.recorded_init (does : Does env a st cause st' frame?) (accounted : Accounted st)
    (user : Principal) :
    recorded .INIT user st' =
      (if grantee cause = some user then 20 else 0) + recorded .INIT user st := by
  rw [← sum_init_moves]
  exact does.adds accounted (Move.amountFor .INIT user)

end

/-! ## Every schedule -/

/-- What holds while no choice grants again. -/
structure Ledger (st : State) : Prop where
  accounted : Accounted st
  granted : GrantedOnce st

section

variable {env : Env} {s : System} {choice : Choice}

/-- **A step that does not grant again keeps the ledger.** -/
theorem step_ledger (ledger : Ledger s.state) (once : ¬ Regrants env s choice) :
    Ledger ((program env).step s choice).state := by
  rcases step_cases (program env) s choice with e | ⟨a, run, cause, starts, enabled, _, e⟩
  · rw [e]
    exact ledger
  rw [e]
  cases hsegment : (program env).segment a cause s.state with
  | none => exact ledger
  | some result =>
    obtain ⟨st', next⟩ := result
    refine ⟨(segment_effect hsegment).points.accounted ledger.accounted, ?_⟩
    intro user
    change recorded .INIT user st' = if (st'.pointsOf user).isSome then 20 else 0
    have does := segment_does hsegment
    rw [does.recorded_init ledger.accounted, does.gives user, ledger.granted user]
    by_cases hgrantee : grantee cause = some user
    · have hnone : (s.state.pointsOf user).isSome = false := by
        by_contra hsome
        rw [Bool.not_eq_false] at hsome
        exact once ⟨a, run, cause, user, starts, Option.isSome_iff_exists.mpr ⟨_, hsegment⟩,
          hgrantee, hsome⟩
      rw [if_pos hgrantee, hnone, decide_eq_true hgrantee]
      rfl
    · rw [if_neg hgrantee, decide_eq_false hgrantee, Bool.false_or, Nat.zero_add]

/-- A second grant is recorded, and the records no longer replay to the balance. -/
theorem Regrants.not_replays (ledger : Ledger s.state) (again : Regrants env s choice) :
    ¬ Replays ((program env).step s choice).state := by
  obtain ⟨a, run, cause, user, starts, ends, hgrantee, hsome⟩ := again
  obtain ⟨⟨st', next⟩, hsegment⟩ := Option.isSome_iff_exists.mp ends
  have hstep : ((program env).step s choice).state = st' := by
    cases cause with
    | received m => cases hgrantee
    | delivered frame => cases hgrantee
    | resumed frame reply =>
      rw [step_resumed starts, hsegment]
      rfl
  rw [hstep]
  intro replays
  have accounted : Accounted st' := (segment_effect hsegment).points.accounted ledger.accounted
  have does := segment_does hsegment
  have hpoints := does.gives user
  rw [hsome, Bool.or_true] at hpoints
  obtain ⟨p, hp⟩ := Option.isSome_iff_exists.mp hpoints
  have htwenty := (accounted.replays_iff hp).mp (replays user p hp)
  rw [does.recorded_init ledger.accounted, if_pos hgrantee, ledger.granted user, hsome] at htwenty
  cases htwenty

end

theorem ledger_init (env : Env) (caller : Principal) (time : Nat) (addrConfig : AddrConfig)
    (icpAddr : Principal) : Ledger (init env caller time addrConfig icpAddr) := by
  refine ⟨accounted_init env caller time addrConfig icpAddr, ?_⟩
  intro user
  unfold State.pointsOf
  rw [init, ExtTreeMap.getElem?_empty]
  rfl

/-- **The point history is a faithful ledger** after every step of exactly the schedules in which
nobody is granted the twenty points again. -/
theorem history_replays_iff (env : Env) (caller : Principal) (time : Nat) (addrConfig : AddrConfig)
    (icpAddr : Principal) (choices : List Choice) :
    Along (program env).step (fun s choice => Replays ((program env).step s choice).state)
        (Sys.start (init env caller time addrConfig icpAddr)) choices ↔
      Along (program env).step (fun s choice => ¬ Regrants env s choice)
        (Sys.start (init env caller time addrConfig icpAddr)) choices := by
  have agree : ∀ (s : System) (choice : Choice), Ledger s.state →
      (Replays ((program env).step s choice).state ↔ ¬ Regrants env s choice) := by
    intro s choice ledger
    constructor
    · intro replays again
      exact again.not_replays ledger replays
    · intro once
      have after := step_ledger ledger once
      exact after.granted.replays after.accounted
  apply along_congr_of_invariant (I := fun s : System => Ledger s.state) agree
  · intro s choice ledger once
    exact step_ledger ledger once
  · exact ledger_init env caller time addrConfig icpAddr

/-- The sample user creates a second project, as run 15. -/
def regrantSchedule : List Choice :=
  sampleSchedule ++ sampleMessage (.createFomo sampleUser sampleCreate) ::
    List.replicate 13 (sampleAnswer 15)

/-- **A grant recorded twice.** -/
theorem not_history_replays :
    ¬ ∀ env caller time addrConfig icpAddr (choices : List Choice),
      Replays (choices.foldl (program env).step
        (Sys.start (init env caller time addrConfig icpAddr))).state := by
  intro all
  have replays : Replays (regrantSchedule.foldl (program sampleEnv).step sampleStart).state :=
    all _ _ _ _ _ _
  have hpoints : (regrantSchedule.foldl (program sampleEnv).step sampleStart).state.pointsOf
      sampleUser = some 40 := by
    decide +kernel
  have hsums : recorded .INIT sampleUser
        (regrantSchedule.foldl (program sampleEnv).step sampleStart).state +
      recorded .ADD sampleUser
        (regrantSchedule.foldl (program sampleEnv).step sampleStart).state ≠
      40 + recorded .DEDUCT sampleUser
        (regrantSchedule.foldl (program sampleEnv).step sampleStart).state := by
    decide +kernel
  exact hsums (replays sampleUser 40 hpoints)

end Fomowell.Launcher
