import Fomowell.Launcher.Duties

/-!
# The runs of `topup_points`

`topup_points` awaits inside `edit_user`, inside the quote and inside the charge, and each of the three
keeps in its frame where it returns to: `Frame.topup?` reads off it whose top-up a run is for, and of
how many points. `segment_carries` is the inversion: a segment goes on with the top-up it was resumed
with, the profile is made before the quote, and the memo of a charge tells whether a top-up made it.
-/

namespace Fomowell.Launcher

open Std Canister Token

/-- A top-up: whose, and of how many points. -/
structure Topup where
  user : Principal
  pointsAmount : Nat

/-- The top-up that an edit belongs to. -/
def Edit.topup? (e : Edit) : Option Topup :=
  match e.k with
  | .topupPoints pointsAmount => some ⟨e.caller, pointsAmount⟩
  | .editUser => none

/-- The top-up that a quote is for. -/
def Fee.topup? (fee : Fee) : Option Topup :=
  match fee.k with
  | .topupPoints pointsAmount => some ⟨fee.caller, pointsAmount⟩
  | _ => none

/-- The top-up that a charge pays for. -/
def Charge.topup? (charge : Charge) : Option Topup :=
  match charge.k with
  | .topupPoints pointsAmount => some ⟨charge.sender, pointsAmount⟩
  | _ => none

def TokenCall.topup? : TokenCall → Option Topup
  | .balanceOf fee => fee.topup?
  | .allowance fee _ => fee.topup?
  | .transferFrom charge => charge.topup?
  | _ => none

/-- The top-up of a run that has edited the profile. -/
def Frame.quoted? : Frame → Option Topup
  | .getToken call => call.topup?
  | .ledger _ call => call.topup?
  | .pricesBatch fee .. => fee.topup?
  | _ => none

/-- The top-up of a run. -/
def Frame.topup? : Frame → Option Topup
  | .spendingPoints e => e.topup?
  | .spendingPointsDone e => e.topup?
  | .httpRequest _ (.editUser e) => e.topup?
  | frame => frame.quoted?

/-- A run of `topup_points` is in flight. -/
def ToppingUp (s : System) : Prop :=
  ∃ (run : Nat) (frame : Frame), s.suspended[run]? = some frame ∧ frame.topup?.isSome = true

/-- The charge that a run collects. -/
def TokenCall.charge? : TokenCall → Option Charge
  | .transferFrom charge => some charge
  | _ => none

def Frame.charge? : Frame → Option Charge
  | .getToken call => call.charge?
  | .ledger _ call => call.charge?
  | _ => none

/-- The charges of top-ups, and no others, are for points. -/
def Charge.Labelled (charge : Charge) : Prop := charge.memo = "points" ↔ charge.topup?.isSome = true

/-- The top-up that a segment goes on with. -/
def topupOf : Cause Message Frame Rep → Option Topup
  | .received (.topupPoints caller pointsAmount) => some ⟨caller, pointsAmount⟩
  | .received _ => none
  | .delivered frame => frame.topup?
  | .resumed frame _ => frame.topup?

/-- What a segment leaves behind of a top-up: its own, if any, with a profile once it is quoted, and
with the memo of its charge. -/
structure Carries (topup? : Option Topup) (st' : State) (frame? : Option Frame) : Prop where
  same : ∀ topup, frame?.bind Frame.topup? = some topup → topup? = some topup
  profile : ∀ topup, frame?.bind Frame.quoted? = some topup → st'.HasProfile topup.user
  label : ∀ charge, frame?.bind Frame.charge? = some charge → charge.Labelled

section

variable {env : Env} {time : Nat} {st st' : State} {next : Next Frame Answer} {topup? : Option Topup}

/-- A frame without a top-up and without a charge. -/
theorem Carries.of_none {frame? : Option Frame} (topup : frame?.bind Frame.topup? = none)
    (quoted : frame?.bind Frame.quoted? = none) (charge : frame?.bind Frame.charge? = none) :
    Carries topup? st' frame? := by
  refine ⟨fun _ h => ?_, fun _ h => ?_, fun _ h => ?_⟩
  · rw [topup] at h
    cases h
  · rw [quoted] at h
    cases h
  · rw [charge] at h
    cases h

/-- A call of a token for a user who has a profile. -/
theorem callLedger_carries {call : TokenCall} (h : callLedger call st = some (st', next))
    (same : ∀ topup, call.topup? = some topup → topup? = some topup)
    (profile : ∀ topup, call.topup? = some topup → st.HasProfile topup.user)
    (label : ∀ charge, call.charge? = some charge → charge.Labelled) :
    Carries topup? st' next.frame? := by
  obtain ⟨rfl, type, rfl⟩ := callLedger_eq h
  exact ⟨same, profile, label⟩

theorem callToken_carries {call : TokenCall} (h : callToken time call st = some (st', next))
    (same : ∀ topup, call.topup? = some topup → topup? = some topup)
    (profile : ∀ topup, call.topup? = some topup → st.HasProfile topup.user)
    (label : ∀ charge, call.charge? = some charge → charge.Labelled) :
    Carries topup? st' next.frame? := by
  obtain ⟨rfl, rfl | ⟨type, rfl⟩⟩ := callToken_cases h
  · exact ⟨same, profile, label⟩
  · exact ⟨same, profile, label⟩

/-- A call of a token that is not for a top-up. -/
theorem callToken_carries_none {call : TokenCall} (h : callToken time call st = some (st', next))
    (topup : call.topup? = none) (label : ∀ charge, call.charge? = some charge → charge.Labelled) :
    Carries topup? st' next.frame? := by
  refine callToken_carries h (fun _ h => ?_) (fun _ h => ?_) label
  · rw [topup] at h
    cases h
  · rw [topup] at h
    cases h

/-- What follows a quote charges for points in a top-up, and only there. -/
theorem feeReturn_carries {fee : Fee} {quote : Except String Nat}
    (h : feeReturn env time fee quote st = some (st', next))
    (same : ∀ topup, fee.topup? = some topup → topup? = some topup)
    (profile : ∀ topup, fee.topup? = some topup → st.HasProfile topup.user) :
    Carries topup? st' next.frame? := by
  obtain ⟨pointsAmount, value, hk, _, h⟩ | ⟨_, _, _, _, h⟩ | ⟨_, ⟨_, rfl⟩ | ⟨_, rfl⟩⟩ := feeReturn_cases h
  · have hfee : fee.topup? = some ⟨fee.caller, pointsAmount⟩ := by
      unfold Fee.topup?
      rw [hk]
    refine callToken_carries h (fun topup htopup => ?_) (fun topup htopup => ?_) fun charge hcharge => ?_
    · cases htopup
      exact same _ hfee
    · cases htopup
      exact profile _ hfee
    · cases hcharge
      exact ⟨fun _ => rfl, fun _ => rfl⟩
  · refine callToken_carries_none h rfl fun charge hcharge => ?_
    cases hcharge
    refine ⟨fun memo => ?_, fun topup => nomatch topup⟩
    replace memo : "fomo" = "points" := memo
    cases of_decide_eq_false (p := "fomo" = "points") rfl memo
  · exact .of_none rfl rfl rfl
  · exact .of_none rfl rfl rfl

/-- `edit_user` returns to `topup_points` with a profile. -/
theorem editUserReturn_carries {e : Edit} {result : Except String Principal}
    (h : editUserReturn env time e result st = some (st', next))
    (same : ∀ topup, e.topup? = some topup → topup? = some topup)
    (profile : ∀ user, result = .ok user → st.HasProfile e.caller) :
    Carries topup? st' next.frame? := by
  obtain ⟨_, _, rfl⟩ | ⟨pointsAmount, user, hk, hresult, h⟩ := editUserReturn_cases h
  · exact .of_none rfl rfl rfl
  · have he : e.topup? = some ⟨e.caller, pointsAmount⟩ := by
      unfold Edit.topup?
      rw [hk]
    refine callToken_carries h (fun topup htopup => ?_) (fun topup htopup => ?_) fun _ h => nomatch h
    · cases htopup
      exact same _ he
    · cases htopup
      exact profile user hresult

theorem editUserWrite_carries {e : Edit} {imageUrl : String}
    (h : editUserWrite env time e imageUrl st = some (st', next))
    (same : ∀ topup, e.topup? = some topup → topup? = some topup) :
    Carries topup? st' next.frame? := by
  obtain ⟨profile, _, h⟩ := Option.bind_eq_some_iff.mp h
  obtain ⟨written, hwrite, h⟩ := Option.bind_eq_some_iff.mp h
  refine editUserReturn_carries h same fun _ _ => ?_
  unfold State.insertProfile at hwrite
  split at hwrite
  · cases hwrite
    unfold State.HasProfile
    dsimp only
    rw [ExtTreeMap.getElem?_insert_self]
    rfl
  · cases hwrite

/-- An edit goes on at an upload or at the call that spends points, for the same top-up. -/
theorem Carries.of_edit {e : Edit} {frame : Frame} (topup : frame.topup? = e.topup?)
    (quoted : frame.quoted? = none) (charge : frame.charge? = none)
    (same : ∀ topup, e.topup? = some topup → topup? = some topup) :
    Carries topup? st' (some frame) := by
  refine ⟨fun t ht => same t (topup ▸ ht), fun _ h => ?_, fun _ h => ?_⟩
  · replace h : frame.quoted? = some _ := h
    rw [quoted] at h
    cases h
  · replace h : frame.charge? = some _ := h
    rw [charge] at h
    cases h

theorem editUserUpload_carries {e : Edit}
    (h : editUserUpload env time e st = some (st', next))
    (same : ∀ topup, e.topup? = some topup → topup? = some topup) :
    Carries topup? st' next.frame? := by
  obtain hwrite | ⟨_, _, url, rfl⟩ := editUserUpload_cases h
  · exact editUserWrite_carries hwrite same
  · exact .of_edit rfl rfl rfl same

theorem editUser_carries {e : Edit} (h : editUser env time e st = some (st', next))
    (same : ∀ topup, e.topup? = some topup → topup? = some topup) :
    Carries topup? st' next.frame? := by
  obtain ⟨_, h⟩ | ⟨_, h⟩ | ⟨_, _, _, _, _, _, ⟨_, h⟩ | ⟨_, _, rfl⟩⟩ := editUser_cases h
  · exact editUserReturn_carries h same fun _ hresult => nomatch hresult
  · exact editUserUpload_carries h same
  · exact editUserUpload_carries h same
  · exact .of_edit rfl rfl rfl same

theorem createFomo_carries {caller : Principal} {fomoCreate : FomoProjectCreate}
    (h : createFomo env time caller fomoCreate st = some (st', next)) :
    Carries topup? st' next.frame? := by
  obtain ⟨_, _, rfl⟩ | ⟨fee, cut, hk, h⟩ := createFomo_cases h
  · exact .of_none rfl rfl rfl
  · refine callToken_carries_none h ?_ fun _ h => nomatch h
    simp only [TokenCall.topup?, Fee.topup?, hk]

theorem ownershipTransfer_carries {caller fomoPid : Principal} {new : Option Principal}
    (h : ownershipTransfer env time caller fomoPid new st = some (st', next)) :
    Carries topup? st' next.frame? := by
  obtain ⟨fee, tokenPid, hk, h⟩ := ownershipTransfer_cases h
  refine callToken_carries_none h ?_ fun _ h => nomatch h
  simp only [TokenCall.topup?, Fee.topup?, hk]

theorem progressNext_carries {order : HashOrder} {addrConfig : AddrConfig}
    {list : List FomoProject} {map : ExtTreeMap Nat (Nat × Nat) compare} {maxMarketCap maxIdx : Nat}
    (h : progressNext env order time addrConfig list map maxMarketCap maxIdx st =
      some (st', next)) : Carries topup? st' next.frame? := by
  obtain ⟨_, _, _, _, rfl⟩ | ⟨_, ends⟩ := progressNext_cases h
  · exact .of_none rfl rfl rfl
  · obtain ⟨acc, _, hnext⟩ := Option.bind_eq_some_iff.mp ends
    obtain ⟨_, rfl | ⟨_, _, rfl, _⟩⟩ := handOffNext_eq hnext
    · exact .of_none rfl rfl rfl
    · exact .of_none rfl rfl rfl

variable {a : Ambient}

theorem receive_carries {m : Message} (h : receive env a m st = some (st', next)) :
    Carries (topupOf (.received m)) st' next.frame? := by
  cases m with
  | setBuyOrSell caller recordSignal =>
    obtain ⟨⟨userName, userAvatar⟩, _, h⟩ := Option.bind_eq_some_iff.mp h
    cases h
    exact .of_none rfl rfl rfl
  | updateProgress => exact progressNext_carries h
  | topupPoints caller pointsAmount =>
    replace h : topupPoints env a.time caller pointsAmount st = some (st', next) := h
    obtain ⟨_, _, rfl⟩ | h := topupPoints_cases h
    · exact .of_none rfl rfl rfl
    · exact editUser_carries h fun _ h => h
  | editUser caller userInfo => exact editUser_carries h fun _ h => nomatch h
  | createFomo caller fomoCreate => exact createFomo_carries h
  | ownershipTransfer caller fomoPid new => exact ownershipTransfer_carries h
  | lockPool caller lockPoolPid =>
    obtain ⟨_, rfl⟩ := lockPool_eq h
    exact .of_none rfl rfl rfl
  | addTokenControllers caller token user =>
    obtain ⟨_, _, rfl⟩ := addTokenControllers_eq h
    exact .of_none rfl rfl rfl
  | count =>
    cases h
    exact .of_none rfl rfl rfl
  | countPoint =>
    cases h
    exact .of_none rfl rfl rfl
  | replyUpdate fomoIdx =>
    obtain ⟨written, _, h⟩ := Option.map_eq_some_iff.mp h
    cases h
    exact .of_none rfl rfl rfl
  | spendingPoints caller userPid busiName =>
    obtain ⟨written, _, h⟩ := Option.map_eq_some_iff.mp h
    cases h
    exact .of_none rfl rfl rfl
  | airdropPoints caller userPid amount busiName =>
    obtain ⟨written, _, h⟩ := Option.map_eq_some_iff.mp h
    cases h
    exact .of_none rfl rfl rfl

theorem resumeLedger_carries {type : TokenType} {call : TokenCall} {reply : call.Rep}
    (h : resumeLedger env a type call reply st = some (st', next))
    (profile : ∀ topup, call.topup? = some topup → st.HasProfile topup.user) :
    Carries call.topup? st' next.frame? := by
  cases call with
  | balanceOf fee =>
    obtain ⟨totalBalance, _, h⟩ := Option.bind_eq_some_iff.mp h
    exact callToken_carries h (fun _ h => h) profile fun _ h => nomatch h
  | allowance fee totalBalance =>
    obtain ⟨allowanceBalance, _, h⟩ := Option.bind_eq_some_iff.mp h
    cases h
    exact ⟨fun _ h => h, profile, fun _ h => nomatch h⟩
  | transferFrom charge =>
    obtain ⟨_, _, h⟩ := Option.bind_eq_some_iff.mp h
    obtain ⟨_, _, hnext, _⟩ | ⟨_, _, _, rfl⟩ | ⟨_, _, hnext⟩ := chargeReturn_cases h
    · rw [hnext]
      exact .of_none rfl rfl rfl
    · exact .of_none rfl rfl rfl
    · rw [hnext]
      exact .of_none rfl rfl rfl
  | approve c tokenPid =>
    obtain ⟨_, _, h⟩ := Option.bind_eq_some_iff.mp h
    cases h
    exact .of_none rfl rfl rfl
  | totalSupply q =>
    obtain ⟨_, _, _, _, _, rfl⟩ := setBuyOrSellSupply_stores h
    exact .of_none rfl rfl rfl

theorem resume_carries {frame : Frame} {reply : Rep frame}
    (h : resume env a frame reply st = some (st', next))
    (profile : ∀ topup, frame.quoted? = some topup → st.HasProfile topup.user)
    (label : ∀ charge, frame.charge? = some charge → charge.Labelled) :
    Carries frame.topup? st' next.frame? := by
  cases frame with
  | querySwapStatus b =>
    obtain ⟨_, _, rfl, _⟩ := setBuyOrSellSwap_eq h
    exact .of_none rfl rfl rfl
  | getIcpPrice s poolInfo => exact callToken_carries_none h rfl fun _ h => nomatch h
  | marketCapBatch p =>
    obtain ⟨_, _, _, h⟩ := updateProgressItem_cases h
    exact progressNext_carries h
  | handOff stage hand =>
    obtain ⟨_, rfl | ⟨_, _, rfl, _⟩⟩ := updateProgressHandOff_eq h
    · exact .of_none rfl rfl rfl
    · exact .of_none rfl rfl rfl
  | spendingPoints e =>
    replace h : editUserReturn env a.time e (.error reply.2) st = some (st', next) := h
    exact editUserReturn_carries h (fun _ h => h) fun _ hresult => nomatch hresult
  | spendingPointsDone e => exact editUserUpload_carries h fun _ h => h
  | httpRequest url k =>
    cases k with
    | editUser e =>
      obtain ⟨imageUrl, _, h⟩ := Option.bind_eq_some_iff.mp h
      exact editUserWrite_carries h fun _ h => h
    | createFomo c tokenPid poolPid tid =>
      obtain ⟨imgUrl, _, h⟩ := Option.bind_eq_some_iff.mp h
      cases h
      exact .of_none rfl rfl rfl
  | getToken call => exact callLedger_carries h (fun _ h => h) profile label
  | ledger type call => exact resumeLedger_carries h profile
  | pricesBatch fee totalBalance allowanceBalance =>
    obtain ⟨res, _, h⟩ := Option.bind_eq_some_iff.mp h
    obtain ⟨price, _, h⟩ := Option.bind_eq_some_iff.mp h
    obtain ⟨quote, _, h⟩ := Option.bind_eq_some_iff.mp h
    exact feeReturn_carries h (fun _ h => h) profile
  | createToken c =>
    obtain ⟨tokenPid, _, h⟩ := Option.bind_eq_some_iff.mp h
    exact callToken_carries_none h rfl fun _ h => nomatch h
  | canisterStatus c =>
    obtain ⟨_, rfl⟩ := createFomoStatus_eq h
    exact .of_none rfl rfl rfl
  | installCode c =>
    obtain ⟨_, _, _, _, _, hnext⟩ := createFomoInstalled_cases h
    rw [hnext]
    exact .of_none rfl rfl rfl
  | removeTokensControllers o =>
    obtain ⟨_, _, h⟩ := Option.bind_eq_some_iff.mp h
    refine callToken_carries_none h rfl fun charge hcharge => ?_
    cases hcharge
    refine ⟨fun memo => ?_, fun topup => nomatch topup⟩
    replace memo : "fomo_ot" = "points" := memo
    cases of_decide_eq_false (p := "fomo_ot" = "points") rfl memo
  | getPoolInfo _ | createCommonPool _ _ | createCanister _ _ _ | icrc2Approve _ | lockPool _
  | tokenStatus _ _ | updateSettings _ _ =>
    obtain ⟨_, _, h⟩ := Option.bind_eq_some_iff.mp h
    cases h
    exact .of_none rfl rfl rfl

/-- **Top-ups are carried along**, from the message to the charge. -/
theorem segment_carries {cause : Cause Message Frame Rep}
    (h : (program env).segment a cause st = some (st', next))
    (profile : ∀ topup, cause.frame?.bind Frame.quoted? = some topup → st.HasProfile topup.user)
    (label : ∀ charge, cause.frame?.bind Frame.charge? = some charge → charge.Labelled) :
    Carries (topupOf cause) st' next.frame? := by
  cases cause with
  | received m => exact receive_carries h
  | delivered frame =>
    obtain ⟨e, rfl, _, rfl⟩ := segment_delivered h
    exact .of_edit rfl rfl rfl fun _ h => h
  | resumed frame reply => exact resume_carries h profile label

end

end Fomowell.Launcher
