import Fomowell.Launcher.Segments
import Fomowell.Lib.Traces

/-!
# What a segment does, by its cause

`segment_effect` says what can happen to the projects and the points whatever the cause was. The laws
that tie a state to the messages and replies of a run need the cause as well: which segment counted a
reply, wrote the grant of `init_points`, edited a profile, or collected a charge. `segment_does` is
the inversion for them. Most segments are `idle`: they keep what matters here (`Keeps`) and leave no
frame with a `Duty`. The others are listed one by one, each with the equation of the function it ran.

A duty is what a suspended run of `edit_user` or of `ownership_transfer` still has to do.
-/

namespace Fomowell.Launcher

open Std Canister Token

/-- A launcher with the record of its segments. -/
abbrev TracedSystem : Type := Traced Ambient State Message Frame Answer Rep

/-- A segment of the launcher, as it is recorded. -/
abbrev Event : Type := Executed Ambient State Message Frame Answer Rep

/-! ## Duties -/

/-- What a suspended run still has to do. -/
inductive Duty
  | free
  /-- `edit_user` awaits the call that spends the points. -/
  | pays (e : Edit)
  /-- `edit_user` has spent the points. -/
  | paid (e : Edit)
  /-- `edit_user` awaits an upload. -/
  | uploads (e : Edit)
  /-- `ownership_transfer` has removed the controllers, and has its charge to collect. -/
  | owes (charge : Charge)

/-- The charge of a run of `ownership_transfer`. -/
def Ownership.charge (env : Env) (o : Ownership) : Charge where
  tokenId := env.icpAddr
  sender := o.caller
  recipient := env.id
  value := o.fee
  memo := "fomo_ot"
  k := .ownershipTransfer

/-- The duty of a run that calls a token. -/
def TokenCall.duty : TokenCall → Duty
  | .transferFrom charge =>
    match charge.k with
    | .ownershipTransfer => .owes charge
    | _ => .free
  | _ => .free

/-- The duty of a frame. -/
def Frame.duty : Frame → Duty
  | .spendingPoints e => .pays e
  | .spendingPointsDone e => .paid e
  | .httpRequest _ (.editUser e) => .uploads e
  | .getToken call => call.duty
  | .ledger _ call => call.duty
  | _ => .free

/-- The duty of a run, with no frame for a run that has none. -/
def dutyOf (frame? : Option Frame) : Duty := frame?.elim .free Frame.duty

@[simp] theorem dutyOf_none : dutyOf none = .free := rfl

@[simp] theorem dutyOf_some (frame : Frame) : dutyOf (some frame) = frame.duty := rfl

/-- A call of a token has no duty of `edit_user`. -/
theorem TokenCall.duty_cases (call : TokenCall) :
    call.duty = .free ∨ ∃ charge, call = .transferFrom charge ∧ charge.k = .ownershipTransfer ∧
      call.duty = .owes charge := by
  cases call with
  | transferFrom charge =>
    cases hk : charge.k with
    | ownershipTransfer => exact .inr ⟨charge, rfl, hk, by simp only [TokenCall.duty, hk]⟩
    | _ => exact .inl (by simp only [TokenCall.duty, hk])
  | _ => exact .inl rfl

/-- Where `edit_user` writes the profile next: it has spent the points, or awaits an upload. -/
theorem Frame.of_edit_duty {frame : Frame} {e : Edit}
    (h : frame.duty = .paid e ∨ frame.duty = .uploads e) :
    frame = .spendingPointsDone e ∨ ∃ url, frame = .httpRequest url (.editUser e) := by
  have token : ∀ call : TokenCall, ¬ (call.duty = .paid e ∨ call.duty = .uploads e) := by
    intro call h
    obtain free | ⟨charge, _, _, owes⟩ := call.duty_cases
    · rw [free] at h
      obtain h | h := h <;> cases h
    · rw [owes] at h
      obtain h | h := h <;> cases h
  cases frame with
  | spendingPointsDone e' =>
    obtain h | h := h <;> cases h
    exact .inl rfl
  | httpRequest url k =>
    cases k with
    | editUser e' =>
      obtain h | h := h <;> cases h
      exact .inr ⟨url, rfl⟩
    | createFomo c tokenPid poolPid tid => obtain h | h := h <;> cases h
  | getToken call => exact absurd h (token call)
  | ledger type call => exact absurd h (token call)
  | _ => obtain h | h := h <;> cases h

/-- The frames whose segments are idle, whatever the reply. -/
def Frame.passes : Frame → Bool
  | .spendingPoints _ => false
  | .spendingPointsDone _ => false
  | .httpRequest _ (.editUser _) => false
  | .getToken _ => false
  | .ledger _ (.transferFrom _) => false
  | .ledger _ (.totalSupply _) => false
  | .installCode _ => false
  | .removeTokensControllers _ => false
  | _ => true

/-- The messages whose segments are idle, or start `edit_user`. -/
def Message.passes : Message → Bool
  | .replyUpdate _ => false
  | .spendingPoints .. => false
  | .airdropPoints .. => false
  | _ => true

/-- The causes whose segments are idle. -/
def causePasses : Cause Message Frame Rep → Bool
  | .received m => m.passes
  | .delivered frame => frame.passes
  | .resumed frame _ => frame.passes

/-- A cause that passes takes up a frame without a duty, if it takes up one. -/
theorem duty_of_passes {cause : Cause Message Frame Rep} (h : causePasses cause = true) :
    dutyOf cause.frame? = .free := by
  have frames : ∀ frame : Frame, frame.passes = true → frame.duty = .free := by
    intro frame h
    cases frame with
    | spendingPoints e => cases h
    | spendingPointsDone e => cases h
    | httpRequest url k =>
      cases k with
      | editUser e => cases h
      | createFomo c tokenPid poolPid tid => rfl
    | getToken call => cases h
    | ledger type call =>
      cases call with
      | transferFrom charge => cases h
      | _ => rfl
    | _ => rfl
  cases cause with
  | received m => rfl
  | delivered frame => exact frames frame h
  | resumed frame reply => exact frames frame h

/-! ## Frames of the state -/

/-- A user's points, where the profile has some. -/
def State.pointsOf (st : State) (user : Principal) : Option Nat :=
  st.userProfileMap[user]?.bind (·.userPoints)

/-- A user has a profile. -/
def State.HasProfile (st : State) (user : Principal) : Prop :=
  (st.userProfileMap[user]?).isSome = true

/-- The projects, the records and everybody's points are the same, and no profile is removed. -/
structure Keeps (st st' : State) : Prop where
  projects : st'.fomoProjectMap = st.fomoProjectMap
  history : st'.pointHistoryMap = st.pointHistoryMap
  points : ∀ user, st'.pointsOf user = st.pointsOf user
  profiles : ∀ user, st.HasProfile user → st'.HasProfile user

theorem Keeps.refl (st : State) : Keeps st st := ⟨rfl, rfl, fun _ => rfl, fun _ h => h⟩

theorem Keeps.trans {st st' st'' : State} (h : Keeps st st') (h' : Keeps st' st'') :
    Keeps st st'' where
  projects := h'.projects.trans h.projects
  history := h'.history.trans h.history
  points user := (h'.points user).trans (h.points user)
  profiles user has := h'.profiles user (h.profiles user has)

/-- Two states with the same three maps. -/
theorem Keeps.of_same {st st' : State} (projects : st'.fomoProjectMap = st.fomoProjectMap)
    (accounts : SameAccounts st st') : Keeps st st' := by
  refine ⟨projects, accounts.history, ?_, ?_⟩
  · intro user
    unfold State.pointsOf
    rw [accounts.profiles]
  · intro user
    unfold State.HasProfile
    rw [accounts.profiles]
    exact id

/-- An edit of a profile keeps everybody's points. -/
theorem Keeps.of_edit {env : Env} {st st' : State} {user : Principal} {p' : UserProfile}
    (edits : p'.Edits st.userProfileMap[user]?) (h : st.insertProfile env user p' = some st') :
    Keeps st st' := by
  unfold State.insertProfile at h
  split at h
  · cases h
    refine ⟨rfl, rfl, ?_, ?_⟩
    · intro other
      unfold State.pointsOf
      dsimp only
      rw [Table.get_insert]
      split
      next same =>
        subst same
        cases hold : st.userProfileMap[other]? with
        | none =>
          rw [hold] at edits
          exact edits.1
        | some p =>
          rw [hold] at edits
          exact edits.1
      next => rfl
    · intro other has
      unfold State.HasProfile at has ⊢
      dsimp only
      rw [Table.get_insert]
      split
      · rfl
      · exact has
  · cases h

/-! ## The inversion -/

/-- What a segment does, from its cause to the frame it leaves behind. -/
inductive Does (env : Env) (a : Ambient) (st : State) :
    Cause Message Frame Rep → State → Option Frame → Prop
  /-- Nothing that matters. -/
  | idle {cause st' frame?} (passes : causePasses cause = true) (keeps : Keeps st st')
      (free : dutyOf frame? = .free) : Does env a st cause st' frame?
  /-- The type of a token is looked up, and the token is called. -/
  | looked {call reply type st'} (keeps : Keeps st st') :
    Does env a st (.resumed (.getToken call) reply) st' (some (.ledger type call))
  /-- `reply_update` counts a reply. -/
  | replied {fomoIdx st'} (ends : replyUpdate env a.time fomoIdx st = some st') :
    Does env a st (.received (.replyUpdate fomoIdx)) st' none
  /-- `spending_points` is called by a canister. -/
  | spent {caller userPid busiName st'}
      (ends : spendingPoints env a.time caller userPid busiName st = some st') :
    Does env a st (.received (.spendingPoints caller userPid busiName)) st' none
  /-- The owner adds points. -/
  | airdropped {caller userPid amount busiName st'}
      (ends : airdropPoints env a.time caller userPid amount busiName st = some st') :
    Does env a st (.received (.airdropPoints caller userPid amount busiName)) st' none
  /-- `edit_user` starts, and has to pay. -/
  | began {m e st'} (passes : causePasses (.received m) = true) (keeps : Keeps st st')
      (has : st.HasProfile e.caller) (asks : e.asks = true) :
    Does env a st (.received m) st' (some (.spendingPoints e))
  /-- `edit_user` uploads the avatar of a new profile. -/
  | beganUpload {m e url} (passes : causePasses (.received m) = true)
      (absent : ¬ st.HasProfile e.caller) (asks : e.asks = true) :
    Does env a st (.received m) st (some (.httpRequest url (.editUser e)))
  /-- The launcher executes the call of `edit_user`. -/
  | deducted {e st'}
      (ends : spendingPoints env a.time env.id e.caller "EDIT_AVATAR" st = some st') :
    Does env a st (.delivered (.spendingPoints e)) st' (some (.spendingPointsDone e))
  /-- The call of `edit_user` is rejected. -/
  | refused {e reply} : Does env a st (.resumed (.spendingPoints e) reply) st none
  /-- `edit_user` uploads an avatar it has paid for. -/
  | uploaded {e reply url} :
    Does env a st (.resumed (.spendingPointsDone e) reply) st (some (.httpRequest url (.editUser e)))
  /-- `edit_user` writes the profile. -/
  | wrote {frame reply e imageUrl st' next} (duty : frame.duty = .paid e ∨ frame.duty = .uploads e)
      (ends : editUserWrite env a.time e imageUrl st = some (st', next)) (keeps : Keeps st st')
      (free : dutyOf next.frame? = .free) :
    Does env a st (.resumed frame reply) st' next.frame?
  /-- A charge is collected. -/
  | charged {type charge reply st' next} (ok : transferFromResult reply = .ok ())
      (ends : chargeReturn env a.time charge st = some (st', next)) :
    Does env a st (.resumed (.ledger type (.transferFrom charge)) reply) st' next.frame?
  /-- `set_buy_or_sell` writes its copy back. -/
  | traded {type q supply st' next} (ends : setBuyOrSellSupply env a.time q supply st = some (st', next)) :
    Does env a st (.resumed (.ledger type (.totalSupply q)) supply) st' none
  /-- `update_progress` writes back what it measured. -/
  | finished {cause order addrConfig map maxMarketCap maxIdx st' next}
      (passes : causePasses cause = true)
      (ends : finishProgress env order a.time addrConfig map maxMarketCap maxIdx st =
        some (st', next))
      (free : dutyOf next.frame? = .free) :
    Does env a st cause st' next.frame?
  /-- `create_fomo` stores its project. -/
  | installed {c res st' next} (ends : createFomoInstalled env a.time c res st = some (st', next)) :
    Does env a st (.resumed (.installCode c) res) st' none
  /-- `ownership_transfer` has removed the controllers. -/
  | removed {o frame} (owes : frame.duty = .owes (o.charge env)) :
    Does env a st (.resumed (.removeTokensControllers o) (.ok ())) st (some frame)

/-! ## Segments that are idle -/

section

variable {env : Env} {time : Nat} {st st' : State} {next : Next Frame Answer}

/-- A segment that keeps what matters and leaves no duty behind. -/
def Idle (st st' : State) (next : Next Frame Answer) : Prop :=
  Keeps st st' ∧ dutyOf next.frame? = .free

theorem Idle.does {a : Ambient} {cause : Cause Message Frame Rep} (h : Idle st st' next)
    (passes : causePasses cause = true) : Does env a st cause st' next.frame? :=
  .idle passes h.1 h.2

theorem Idle.trans {st'' : State} (h : Keeps st st') (h' : Idle st' st'' next) :
    Idle st st'' next := ⟨h.trans h'.1, h'.2⟩

/-- A run that calls a token has the duty of the call. -/
theorem callToken_eq {call : TokenCall} (h : callToken time call st = some (st', next)) :
    st' = st ∧ dutyOf next.frame? = call.duty := by
  obtain ⟨rfl, rfl | ⟨type, rfl⟩⟩ := callToken_cases h
  · exact ⟨rfl, rfl⟩
  · exact ⟨rfl, rfl⟩

theorem callToken_idle {call : TokenCall} (free : call.duty = .free)
    (h : callToken time call st = some (st', next)) : Idle st st' next := by
  obtain ⟨rfl, duty⟩ := callToken_eq h
  exact ⟨.refl st', duty.trans free⟩

theorem feeReturn_idle {fee : Fee} {quote : Except String Nat}
    (h : feeReturn env time fee quote st = some (st', next)) : Idle st st' next := by
  obtain ⟨_, _, _, _, h⟩ | ⟨_, _, _, _, h⟩ | ⟨rfl, ⟨_, rfl⟩ | ⟨_, rfl⟩⟩ := feeReturn_cases h
  · exact callToken_idle rfl h
  · exact callToken_idle rfl h
  · exact ⟨.refl st', rfl⟩
  · exact ⟨.refl st', rfl⟩

/-- A charge that is collected leaves no charge to collect. -/
theorem chargeReturn_free {charge : Charge}
    (h : chargeReturn env time charge st = some (st', next)) : dutyOf next.frame? = .free := by
  obtain ⟨_, _, hnext, _⟩ | ⟨_, _, _, rfl⟩ | ⟨_, _, hnext⟩ := chargeReturn_cases h
  · rw [hnext]
    rfl
  · rfl
  · rw [hnext]
    rfl

theorem editUserReturn_idle {e : Edit} {result : Except String Principal}
    (h : editUserReturn env time e result st = some (st', next)) : Idle st st' next := by
  obtain ⟨rfl, _, rfl⟩ | ⟨_, _, _, _, h⟩ := editUserReturn_cases h
  · exact ⟨.refl st', rfl⟩
  · exact callToken_idle rfl h

/-- The end of `edit_user` keeps everybody's points. -/
theorem editUserWrite_idle {e : Edit} {imageUrl : String}
    (h : editUserWrite env time e imageUrl st = some (st', next)) : Idle st st' next := by
  obtain ⟨profile, hprofile, h⟩ := Option.bind_eq_some_iff.mp h
  obtain ⟨written, hwrite, h⟩ := Option.bind_eq_some_iff.mp h
  exact .trans (.of_edit (Edit.write_edits hprofile) hwrite) (editUserReturn_idle h)

/-- **The start of `edit_user`**: it is over, or it has to pay for the edit of a profile, or it
uploads the avatar of a new one. -/
theorem editUser_does {a : Ambient} {m : Message} {e : Edit}
    (passes : causePasses (.received m) = true) (h : editUser env time e st = some (st', next)) :
    Does env a st (.received m) st' next.frame? := by
  obtain ⟨_, h⟩ | ⟨hnone, h⟩ | ⟨p, p', written, hp, edits, hwrite, h⟩ := editUser_cases h
  · exact (editUserReturn_idle h).does passes
  · obtain hwrite | ⟨rfl, asks, url, rfl⟩ := editUserUpload_cases h
    · exact (editUserWrite_idle hwrite).does passes
    · refine .beganUpload passes ?_ asks
      unfold State.HasProfile
      rw [hnone]
      exact Bool.false_ne_true
  · have has : st.HasProfile e.caller := Option.isSome_of_eq_some hp
    rw [← hp] at edits
    have keeps := Keeps.of_edit edits hwrite
    obtain ⟨empty, h⟩ | ⟨asks, rfl, rfl⟩ := h
    · obtain hwrite | ⟨_, asks, _, _⟩ := editUserUpload_cases h
      · exact (Idle.trans keeps (editUserWrite_idle hwrite)).does passes
      · -- an empty edit has no avatar to upload
        rw [empty] at asks
        cases asks
    · exact .began passes keeps has asks

/-! ## The messages -/

variable {a : Ambient}

theorem topupPoints_does {caller : Principal} {pointsAmount : Nat}
    (h : topupPoints env time caller pointsAmount st = some (st', next)) :
    Does env a st (.received (.topupPoints caller pointsAmount)) st' next.frame? := by
  obtain ⟨rfl, _, rfl⟩ | h := topupPoints_cases h
  · exact .idle rfl (.refl st') rfl
  · exact editUser_does rfl h

theorem createFomo_idle {caller : Principal} {fomoCreate : FomoProjectCreate}
    (h : createFomo env time caller fomoCreate st = some (st', next)) : Idle st st' next := by
  obtain ⟨rfl, _, rfl⟩ | ⟨fee, _, _, h⟩ := createFomo_cases h
  · exact ⟨.refl st', rfl⟩
  · exact callToken_idle rfl h

theorem ownershipTransfer_idle {caller fomoPid : Principal} {new : Option Principal}
    (h : ownershipTransfer env time caller fomoPid new st = some (st', next)) :
    Idle st st' next := by
  obtain ⟨fee, _, _, h⟩ := ownershipTransfer_cases h
  exact callToken_idle rfl h

theorem progressNext_does {cause : Cause Message Frame Rep} {order : HashOrder}
    {addrConfig : AddrConfig} {list : List FomoProject}
    {map : ExtTreeMap Nat (Nat × Nat) compare} {maxMarketCap maxIdx : Nat}
    (passes : causePasses cause = true)
    (h : progressNext env order a.time addrConfig list map maxMarketCap maxIdx st =
      some (st', next)) : Does env a st cause st' next.frame? := by
  obtain ⟨rfl, _, _, _, rfl⟩ | ⟨_, h⟩ := progressNext_cases h
  · exact .idle passes (.refl st') rfl
  · have free : dutyOf next.frame? = .free := by
      obtain ⟨acc, _, hnext⟩ := Option.bind_eq_some_iff.mp h
      obtain ⟨_, rfl | ⟨_, _, rfl, _⟩⟩ := handOffNext_eq hnext
      · rfl
      · rfl
    exact .finished passes h free

theorem receive_does {m : Message} (h : receive env a m st = some (st', next)) :
    Does env a st (.received m) st' next.frame? := by
  cases m with
  | setBuyOrSell caller recordSignal =>
    obtain ⟨⟨userName, userAvatar⟩, _, h⟩ := Option.bind_eq_some_iff.mp h
    cases h
    exact .idle rfl (.refl st) rfl
  | updateProgress => exact progressNext_does rfl h
  | topupPoints caller pointsAmount => exact topupPoints_does h
  | editUser caller userInfo => exact editUser_does rfl h
  | createFomo caller fomoCreate => exact (createFomo_idle h).does rfl
  | replyUpdate fomoIdx =>
    obtain ⟨written, hwrite, h⟩ := Option.map_eq_some_iff.mp h
    cases h
    exact .replied hwrite
  | ownershipTransfer caller fomoPid new => exact (ownershipTransfer_idle h).does rfl
  | spendingPoints caller userPid busiName =>
    obtain ⟨written, hwrite, h⟩ := Option.map_eq_some_iff.mp h
    cases h
    exact .spent hwrite
  | lockPool caller lockPoolPid =>
    obtain ⟨rfl, rfl⟩ := lockPool_eq h
    exact .idle rfl (.refl st') rfl
  | airdropPoints caller userPid amount busiName =>
    obtain ⟨written, hwrite, h⟩ := Option.map_eq_some_iff.mp h
    cases h
    exact .airdropped hwrite
  | count =>
    cases h
    exact .idle rfl (.of_same rfl ⟨rfl, rfl, Nat.le_refl _⟩) rfl
  | countPoint =>
    cases h
    exact .idle rfl (.of_same rfl ⟨rfl, rfl, Nat.le_succ _⟩) rfl
  | addTokenControllers caller token user =>
    obtain ⟨rfl, _, rfl⟩ := addTokenControllers_eq h
    exact .idle rfl (.refl st') rfl

/-! ## The replies -/

theorem resumeLedger_does {type : TokenType} {call : TokenCall} {reply : call.Rep}
    (h : resumeLedger env a type call reply st = some (st', next)) :
    Does env a st (.resumed (.ledger type call) reply) st' next.frame? := by
  cases call with
  | balanceOf fee =>
    obtain ⟨totalBalance, _, h⟩ := Option.bind_eq_some_iff.mp h
    exact (callToken_idle rfl h).does rfl
  | allowance fee totalBalance =>
    obtain ⟨allowanceBalance, _, h⟩ := Option.bind_eq_some_iff.mp h
    cases h
    exact .idle rfl (.refl st) rfl
  | transferFrom charge =>
    obtain ⟨_, ok, h⟩ := Option.bind_eq_some_iff.mp h
    exact .charged (unwrap_eq_some.mp ok) h
  | approve c tokenPid =>
    obtain ⟨_, _, h⟩ := Option.bind_eq_some_iff.mp h
    cases h
    exact .idle rfl (.refl st) rfl
  | totalSupply q =>
    obtain ⟨_, _, _, _, _, rfl⟩ := setBuyOrSellSupply_stores h
    exact .traded h

theorem updateProgressHandOff_idle {stage : Stage} {hand : HandOff}
    {reply : CallResult (Except String Unit)}
    (h : updateProgressHandOff env stage hand reply st = some (st', next)) : Idle st st' next := by
  obtain ⟨rfl, rfl | ⟨_, _, rfl, _⟩⟩ := updateProgressHandOff_eq h
  · exact ⟨.refl st', rfl⟩
  · exact ⟨.refl st', rfl⟩

theorem ownershipTransferRemoved_does {o : Ownership} {res : CallResult Unit}
    (h : ownershipTransferRemoved env a.time o res st = some (st', next)) :
    Does env a st (.resumed (.removeTokensControllers o) res) st' next.frame? := by
  obtain ⟨_, ok, h⟩ := Option.bind_eq_some_iff.mp h
  cases res with
  | error e => cases ok
  | ok _ =>
    obtain ⟨rfl, duty⟩ := callToken_eq h
    cases next with
    | returned answer => cases duty
    | awaits frame => exact .removed duty

theorem resume_does {frame : Frame} {reply : Rep frame}
    (h : resume env a frame reply st = some (st', next)) :
    Does env a st (.resumed frame reply) st' next.frame? := by
  cases frame with
  | querySwapStatus b =>
    obtain ⟨rfl, _, rfl, _⟩ := setBuyOrSellSwap_eq h
    exact .idle rfl (.refl st') rfl
  | getIcpPrice s poolInfo => exact (callToken_idle rfl h).does rfl
  | marketCapBatch p =>
    obtain ⟨_, _, _, h⟩ := updateProgressItem_cases h
    exact progressNext_does rfl h
  | handOff stage hand => exact (updateProgressHandOff_idle h).does rfl
  | spendingPoints e =>
    replace h : editUserReturn env a.time e (.error reply.2) st = some (st', next) := h
    obtain ⟨rfl, _, rfl⟩ | ⟨_, _, _, hresult, _⟩ := editUserReturn_cases h
    · exact .refused
    · cases hresult
  | spendingPointsDone e =>
    obtain hwrite | ⟨rfl, _, url, rfl⟩ := editUserUpload_cases h
    · have idle := editUserWrite_idle hwrite
      exact .wrote (.inl rfl) hwrite idle.1 idle.2
    · exact .uploaded
  | httpRequest url k =>
    cases k with
    | editUser e =>
      obtain ⟨imageUrl, _, h⟩ := Option.bind_eq_some_iff.mp h
      have idle := editUserWrite_idle h
      exact .wrote (.inr rfl) h idle.1 idle.2
    | createFomo c tokenPid poolPid tid =>
      obtain ⟨imgUrl, _, h⟩ := Option.bind_eq_some_iff.mp h
      cases h
      exact .idle rfl (.refl st) rfl
  | getToken call =>
    obtain ⟨rfl, type, rfl⟩ := callLedger_eq h
    exact .looked (.of_same rfl ⟨rfl, rfl, Nat.le_refl _⟩)
  | ledger type call => exact resumeLedger_does h
  | pricesBatch fee totalBalance allowanceBalance =>
    obtain ⟨res, _, h⟩ := Option.bind_eq_some_iff.mp h
    obtain ⟨price, _, h⟩ := Option.bind_eq_some_iff.mp h
    obtain ⟨quote, _, h⟩ := Option.bind_eq_some_iff.mp h
    exact (feeReturn_idle h).does rfl
  | createToken c =>
    obtain ⟨tokenPid, _, h⟩ := Option.bind_eq_some_iff.mp h
    exact (callToken_idle rfl h).does rfl
  | canisterStatus c =>
    obtain ⟨rfl, rfl⟩ := createFomoStatus_eq h
    exact .idle rfl (.refl st') rfl
  | installCode c =>
    obtain ⟨_, _, _, _, _, hnext⟩ := createFomoInstalled_cases h
    rw [hnext]
    exact .installed h
  | removeTokensControllers o => exact ownershipTransferRemoved_does h
  | getPoolInfo _ | createCommonPool _ _ | createCanister _ _ _ | icrc2Approve _ | lockPool _
  | tokenStatus _ _ | updateSettings _ _ =>
    obtain ⟨_, _, h⟩ := Option.bind_eq_some_iff.mp h
    cases h
    exact .idle rfl (.refl st) rfl

/-- **The inversion by causes.** -/
theorem segment_does {cause : Cause Message Frame Rep}
    (h : (program env).segment a cause st = some (st', next)) :
    Does env a st cause st' next.frame? := by
  cases cause with
  | received m => exact receive_does h
  | delivered frame =>
    obtain ⟨e, rfl, hspent, rfl⟩ := segment_delivered h
    exact .deducted hspent
  | resumed frame reply => exact resume_does h

end

end Fomowell.Launcher
