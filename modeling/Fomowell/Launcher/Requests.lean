import Fomowell.Launcher.Segments

/-!
# The runs of `create_fomo`

`create_fomo` checks its request and cuts the description before its first await, and carries the
request through the quote, the charge and the calls after it: `Frame.request?` reads it off a frame.
`segment_request` is the inversion: a segment that leaves a request behind was resumed with it, or
accepted it. So what a suspended run carries is in the log, as the message that started the run
(`requests_logged`).
-/

namespace Fomowell.Launcher

open Std Canister Token

/-- A request with its description cut: whose, and what for. -/
structure Request where
  caller : Principal
  fomoCreate : FomoProjectCreate

/-- The checks pass, and the description is cut. -/
structure Accepts (st : State) (caller : Principal) (fomoCreate : FomoProjectCreate) (r : Request) :
    Prop where
  whose : r.caller = caller
  passes : createFomoCheck st caller fomoCreate = .ok ()
  cuts : ∃ description,
    sliceTo fomoCreate.description (min fomoCreate.description.utf8ByteSize 2000) =
        some description ∧
      r.fomoCreate = { fomoCreate with description }

/-- The request that a quote is for. -/
def Fee.request? (fee : Fee) : Option Request :=
  match fee.k with
  | .createFomo fomoCreate => some ⟨fee.caller, fomoCreate⟩
  | _ => none

/-- The request that a charge pays for. -/
def Charge.request? (charge : Charge) : Option Request :=
  match charge.k with
  | .createFomo fomoCreate => some ⟨charge.sender, fomoCreate⟩
  | _ => none

/-- The request of a run that has drawn its index. -/
def Create.request (c : Create) : Request := ⟨c.caller, c.fomoCreate⟩

/-- The request that a call of a token is made for. -/
def TokenCall.request? : TokenCall → Option Request
  | .balanceOf fee => fee.request?
  | .allowance fee _ => fee.request?
  | .transferFrom charge => charge.request?
  | .approve c _ => some c.request
  | .totalSupply _ => none

/-- The request that a run carries. -/
def Frame.request? : Frame → Option Request
  | .httpRequest _ (.createFomo c ..) => some c.request
  | .getToken call => call.request?
  | .ledger _ call => call.request?
  | .pricesBatch fee .. => fee.request?
  | .createToken c => some c.request
  | .createCommonPool c _ => some c.request
  | .createCanister c .. => some c.request
  | .canisterStatus c => some c.request
  | .installCode c => some c.request
  | _ => none

/-- The run goes on with the request it had, if with one. -/
def GoesOn (request? : Option Request) (next : Next Frame Answer) : Prop :=
  ∀ r, next.frame?.bind Frame.request? = some r → request? = some r

section

variable {env : Env} {time : Nat} {st st' : State} {next : Next Frame Answer}
  {request? : Option Request}

/-- A run that goes on without a request. -/
theorem GoesOn.of_none (h : next.frame?.bind Frame.request? = none) : GoesOn request? next := by
  intro r hr
  rw [h] at hr
  cases hr

/-! ## Functions -/

/-- A call of a token carries the request it is made for. -/
theorem callToken_goesOn {call : TokenCall} (h : callToken time call st = some (st', next)) :
    GoesOn call.request? next := by
  obtain ⟨_, rfl | ⟨type, rfl⟩⟩ := callToken_cases h
  · exact fun _ h => h
  · exact fun _ h => h

/-- A call of a token for no request carries none. -/
theorem callToken_without {call : TokenCall} (h : callToken time call st = some (st', next))
    (none : call.request? = none) : GoesOn request? next := by
  intro r hr
  have hcall := callToken_goesOn h r hr
  rw [none] at hcall
  cases hcall

/-- The quote of a fee: `create_fomo` goes on to the charge with its request. -/
theorem feeReturn_goesOn {fee : Fee} {quote : Except String Nat}
    (h : feeReturn env time fee quote st = some (st', next)) : GoesOn fee.request? next := by
  obtain ⟨_, _, _, _, h⟩ | ⟨fomoCreate, _, hk, _, h⟩ | ⟨_, ⟨_, rfl⟩ | ⟨_, rfl⟩⟩ := feeReturn_cases h
  · exact callToken_without h rfl
  · have hfee : fee.request? = some ⟨fee.caller, fomoCreate⟩ := by
      unfold Fee.request?
      rw [hk]
    rw [hfee]
    exact callToken_goesOn h
  · exact .of_none rfl
  · exact .of_none rfl

/-- The end of an edit asks for the fee of a topup, or answers. -/
theorem editUserReturn_goesOn {e : Edit} {result : Except String Principal}
    (h : editUserReturn env time e result st = some (st', next)) : GoesOn request? next := by
  obtain ⟨_, _, rfl⟩ | ⟨_, _, _, _, h⟩ := editUserReturn_cases h
  · exact .of_none rfl
  · exact callToken_without h rfl

/-- The write of a profile carries no request. -/
theorem editUserWrite_goesOn {e : Edit} {imageUrl : String}
    (h : editUserWrite env time e imageUrl st = some (st', next)) : GoesOn request? next := by
  obtain ⟨profile, _, h⟩ := Option.bind_eq_some_iff.mp h
  obtain ⟨written, _, h⟩ := Option.bind_eq_some_iff.mp h
  exact editUserReturn_goesOn h

/-- The upload of an avatar is no request's either. -/
theorem editUserUpload_goesOn {e : Edit} (h : editUserUpload env time e st = some (st', next)) :
    GoesOn request? next := by
  obtain hwrite | ⟨_, _, _, rfl⟩ := editUserUpload_cases h
  · exact editUserWrite_goesOn hwrite
  · exact .of_none rfl

/-- `edit_user` carries no request, as an edit or as a topup. -/
theorem editUser_goesOn {e : Edit} (h : editUser env time e st = some (st', next)) :
    GoesOn request? next := by
  obtain ⟨_, h⟩ | ⟨_, h⟩ | ⟨_, _, _, _, _, _, ⟨_, h⟩ | ⟨_, _, rfl⟩⟩ := editUser_cases h
  · exact editUserReturn_goesOn h
  · exact editUserUpload_goesOn h
  · exact editUserUpload_goesOn h
  · exact .of_none rfl

/-- A round of `update_progress` carries none, whether it asks the oracle or hands projects off. -/
theorem progressNext_goesOn {order : HashOrder} {addrConfig : AddrConfig}
    {list : List FomoProject} {map : ExtTreeMap Nat (Nat × Nat) compare} {maxMarketCap maxIdx : Nat}
    (h : progressNext env order time addrConfig list map maxMarketCap maxIdx st =
      some (st', next)) : GoesOn request? next := by
  obtain ⟨_, _, _, _, rfl⟩ | ⟨_, ends⟩ := progressNext_cases h
  · exact .of_none rfl
  · obtain ⟨acc, _, hnext⟩ := Option.bind_eq_some_iff.mp ends
    obtain ⟨_, rfl | ⟨_, _, rfl, _⟩⟩ := handOffNext_eq hnext
    · exact .of_none rfl
    · exact .of_none rfl

/-- A method that ends in its first segment leaves nothing behind. -/
theorem finish_goesOn {answer : Answer} {result : Option State}
    (h : finish answer result = some (st', next)) : GoesOn request? next := by
  obtain ⟨written, _, h⟩ := Option.map_eq_some_iff.mp h
  cases h
  exact .of_none rfl

/-- What `create_fomo` goes on with it has accepted. -/
theorem createFomo_accepts {caller : Principal} {fomoCreate : FomoProjectCreate} {r : Request}
    (h : createFomo env time caller fomoCreate st = some (st', next))
    (hr : next.frame?.bind Frame.request? = some r) : Accepts st caller fomoCreate r := by
  unfold createFomo at h
  split at h
  next =>
    cases h
    cases hr
  next hcheck =>
    obtain ⟨description, hdescription, h⟩ := Option.bind_eq_some_iff.mp h
    cases callToken_goesOn h r hr
    exact ⟨rfl, hcheck, description, hdescription, rfl⟩

end

/-! ## Segments -/

section

variable {env : Env} {a : Ambient} {st st' : State} {next : Next Frame Answer}

/-- **The first segment**: only `create_fomo` leaves a request behind, the caller's own. -/
theorem receive_request {m : Message} {r : Request} (h : receive env a m st = some (st', next))
    (hr : next.frame?.bind Frame.request? = some r) :
    ∃ fomoCreate, m = .createFomo r.caller fomoCreate ∧ Accepts st r.caller fomoCreate r := by
  have without : ¬ ∀ request? : Option Request, GoesOn request? next := fun goes => nomatch goes none r hr
  cases m with
  | createFomo caller fomoCreate =>
    have accepts := createFomo_accepts h hr
    refine ⟨fomoCreate, ?_, ?_⟩
    · rw [accepts.whose]
    · rwa [accepts.whose]
  | setBuyOrSell caller recordSignal =>
    obtain ⟨shown, _, h⟩ := Option.bind_eq_some_iff.mp h
    cases h
    cases hr
  | updateProgress => exact absurd (fun _ => progressNext_goesOn h) without
  | topupPoints caller pointsAmount =>
    replace h : topupPoints env a.time caller pointsAmount st = some (st', next) := h
    obtain ⟨_, _, rfl⟩ | h := topupPoints_cases h
    · cases hr
    · exact absurd (fun _ => editUser_goesOn h) without
  | editUser caller userInfo => exact absurd (fun _ => editUser_goesOn h) without
  | ownershipTransfer caller fomoPid new =>
    obtain ⟨fee, tokenPid, hk, h⟩ := ownershipTransfer_cases h
    refine absurd (fun _ => callToken_without h ?_) without
    simp only [TokenCall.request?, Fee.request?, hk]
  | lockPool caller lockPoolPid =>
    obtain ⟨_, rfl⟩ := lockPool_eq h
    cases hr
  | addTokenControllers caller token user =>
    obtain ⟨_, _, rfl⟩ := addTokenControllers_eq h
    cases hr
  | count | countPoint =>
    cases h
    cases hr
  | replyUpdate fomoIdx => exact absurd (fun _ => finish_goesOn h) without
  | spendingPoints caller userPid busiName => exact absurd (fun _ => finish_goesOn h) without
  | airdropPoints caller userPid amount busiName => exact absurd (fun _ => finish_goesOn h) without

/-- The reply of a ledger: a quote and a charge keep their request, the supply has none. -/
theorem resumeLedger_request {type : TokenType} {call : TokenCall} {reply : call.Rep}
    (h : resumeLedger env a type call reply st = some (st', next)) : GoesOn call.request? next := by
  cases call with
  | balanceOf fee =>
    obtain ⟨totalBalance, _, h⟩ := Option.bind_eq_some_iff.mp h
    have goesOn := callToken_goesOn h
    exact goesOn
  | allowance fee totalBalance =>
    obtain ⟨allowanceBalance, _, h⟩ := Option.bind_eq_some_iff.mp h
    cases h
    exact fun _ h => h
  | transferFrom charge =>
    obtain ⟨_, _, h⟩ := Option.bind_eq_some_iff.mp h
    obtain ⟨_, _, hnext, _⟩ | ⟨fomoCreate, hk, _, rfl⟩ | ⟨_, _, hnext⟩ := chargeReturn_cases h
    · exact .of_none (by rw [hnext]; rfl)
    · have hcharge : charge.request? = some ⟨charge.sender, fomoCreate⟩ := by
        unfold Charge.request?
        rw [hk]
      intro r hr
      cases hr
      exact hcharge
    · exact .of_none (by rw [hnext]; rfl)
  | approve c tokenPid =>
    obtain ⟨_, _, h⟩ := Option.bind_eq_some_iff.mp h
    cases h
    exact fun _ h => h
  | totalSupply q =>
    obtain ⟨_, _, _, _, _, rfl⟩ := setBuyOrSellSupply_stores h
    exact .of_none rfl

/-- **A later segment** keeps the request it was resumed with, or drops it. -/
theorem resume_request {frame : Frame} {reply : Rep frame}
    (h : resume env a frame reply st = some (st', next)) : GoesOn frame.request? next := by
  cases frame with
  | querySwapStatus b =>
    obtain ⟨_, _, rfl, _⟩ := setBuyOrSellSwap_eq h
    exact .of_none rfl
  | getIcpPrice s poolInfo => exact callToken_without h rfl
  | marketCapBatch p =>
    obtain ⟨_, _, _, h⟩ := updateProgressItem_cases h
    exact progressNext_goesOn h
  | handOff stage hand =>
    obtain ⟨_, rfl | ⟨_, _, rfl, _⟩⟩ := updateProgressHandOff_eq h
    · exact .of_none rfl
    · exact .of_none rfl
  | spendingPoints e =>
    replace h : editUserReturn env a.time e (.error reply.2) st = some (st', next) := h
    exact editUserReturn_goesOn h
  | spendingPointsDone e => exact editUserUpload_goesOn h
  | httpRequest url k =>
    cases k with
    | editUser e =>
      obtain ⟨imageUrl, _, h⟩ := Option.bind_eq_some_iff.mp h
      exact editUserWrite_goesOn h
    | createFomo c tokenPid poolPid tid =>
      obtain ⟨imgUrl, _, h⟩ := Option.bind_eq_some_iff.mp h
      cases h
      exact fun _ h => h
  | getToken call =>
    obtain ⟨_, _, rfl⟩ := callLedger_eq h
    exact fun _ h => h
  | ledger type call => exact resumeLedger_request h
  | pricesBatch fee totalBalance allowanceBalance =>
    obtain ⟨res, _, h⟩ := Option.bind_eq_some_iff.mp h
    obtain ⟨price, _, h⟩ := Option.bind_eq_some_iff.mp h
    obtain ⟨quote, _, h⟩ := Option.bind_eq_some_iff.mp h
    exact feeReturn_goesOn h
  | createToken c =>
    obtain ⟨tokenPid, _, h⟩ := Option.bind_eq_some_iff.mp h
    exact callToken_goesOn h
  | canisterStatus c =>
    obtain ⟨_, rfl⟩ := createFomoStatus_eq h
    exact fun _ h => h
  | installCode c =>
    obtain ⟨_, _, _, _, _, hnext⟩ := createFomoInstalled_cases h
    exact .of_none (by rw [hnext]; rfl)
  | removeTokensControllers o =>
    obtain ⟨_, _, h⟩ := Option.bind_eq_some_iff.mp h
    exact callToken_without h rfl
  | createCommonPool _ _ | createCanister _ _ _ =>
    obtain ⟨_, _, h⟩ := Option.bind_eq_some_iff.mp h
    cases h
    exact fun _ h => h
  | getPoolInfo _ | icrc2Approve _ | lockPool _ | tokenStatus _ _ | updateSettings _ _ =>
    obtain ⟨_, _, h⟩ := Option.bind_eq_some_iff.mp h
    cases h
    exact .of_none rfl

/-- **A request that a segment leaves behind** it was resumed with, or accepted. -/
theorem segment_request {cause : Cause Message Frame Rep} {r : Request}
    (h : (program env).segment a cause st = some (st', next))
    (hr : next.frame?.bind Frame.request? = some r) :
    cause.frame?.bind Frame.request? = some r ∨
      ∃ fomoCreate, cause = .received (.createFomo r.caller fomoCreate) ∧
        Accepts st r.caller fomoCreate r := by
  cases cause with
  | received m =>
    obtain ⟨fomoCreate, rfl, accepts⟩ := receive_request h hr
    exact .inr ⟨fomoCreate, rfl, accepts⟩
  | delivered frame =>
    obtain ⟨e, rfl, _, rfl⟩ := segment_delivered h
    cases hr
  | resumed frame reply => exact .inl (resume_request h r hr)

end

/-! ## Runs -/

/-- The request of a run is in the log, as the message that started the run. -/
def Logged (s : System) (run : Nat) (r : Request) : Prop :=
  ∃ fomoCreate st outcome, ⟨run, .received (.createFomo r.caller fomoCreate), outcome⟩ ∈ s.log ∧
    Accepts st r.caller fomoCreate r

/-- Every run that carries a request was started by it. -/
def RequestsLogged (s : System) : Prop :=
  ∀ (run : Nat) frame, s.suspended[run]? = some frame →
    ∀ r, frame.request? = some r → Logged s run r

/-- Every step keeps the requests logged: the log only grows, and the new frame has what its segment
took up or accepted. -/
theorem step_requestsLogged {env : Env} (s : System) (choice : Choice) (logged : RequestsLogged s) :
    RequestsLogged ((program env).step s choice) := by
  obtain e | ⟨a, run, cause, _, enabled, _, e⟩ := step_cases (program env) s choice
  · rw [e]
    exact logged
  rw [e]
  have longer : ∀ {run' : Nat} {r : Request} {result}, Logged s run' r →
      Logged (s.after run cause result) run' r := by
    rintro run' r result ⟨fomoCreate, st, outcome, hmem, accepts⟩
    exact ⟨fomoCreate, st, outcome, List.mem_cons_of_mem _ hmem, accepts⟩
  refine frames_after logged (fun run' frame h r hr => longer (h r hr)) fun frame hframe r hr => ?_
  cases hsegment : (program env).segment a cause s.state with
  | none =>
    rw [hsegment] at hframe
    cases hframe
  | some result =>
    rw [hsegment] at hframe
    have hnext : result.2.frame?.bind Frame.request? = some r := by
      replace hframe : result.2.frame? = some frame := hframe
      rw [hframe]
      exact hr
    obtain htook | ⟨fomoCreate, rfl, accepts⟩ := segment_request hsegment hnext
    · -- the run carried the request before
      obtain ⟨taken, htaken, hrequest⟩ := Option.bind_eq_some_iff.mp htook
      refine longer (logged run taken ?_ r hrequest)
      cases cause with
      | received m => cases htaken
      | delivered frame =>
        cases htaken
        exact enabled
      | resumed frame reply =>
        cases htaken
        exact enabled
    · exact ⟨fomoCreate, s.state, _, List.mem_cons_self, accepts⟩

/-- **Requests come from the log** in every reachable launcher. -/
theorem requests_logged (env : Env) (st : State) (choices : List Choice) :
    RequestsLogged (choices.foldl (program env).step (Sys.start st)) :=
  Runs.foldl_invariant step_requestsLogged (frames_start st) choices

end Fomowell.Launcher
