import Fomowell.Lib.Origins
import Fomowell.Launcher.References

/-!
# Whom a run acts for

A method goes on long after the message that called it, from what it keeps in its frames: whose profile to
write, whom to charge and how much to ask for, which request to create. `Frame.Serves` says what of this each
await has to do with the message: the user is its caller, the amount is the one it names, a quote is in ICP at
the price of the method, a transfer of ownership is for the creator of the project, and the owner's methods
are for the owner.

`receive_serves` and `resume_serves` are the inversions: the first segment of a run leaves such a frame, and
each later one passes it on. So no run is ever about anybody but its caller (`runs_serve_callers`).
-/

namespace Fomowell.Launcher

open Std Canister Table Runs Token Pmm

/-! ## What a frame has to do with a message -/

/-- The message asks for this project, with the description cut. -/
def Message.Creates (m : Message) (caller : Principal) (fomoCreate : FomoProjectCreate) : Prop :=
  ∃ asked description, m = .createFomo caller asked ∧
    sliceTo asked.description (min asked.description.utf8ByteSize 2000) = some description ∧
    fomoCreate = { asked with description }

/-- The message transfers the token of a project, and the caller created the project. -/
def Message.Transfers (st : State) (m : Message) (caller tokenPid : Principal)
    (toNewControllerPid : Option Principal) : Prop :=
  ∃ (k : Nat) (p : FomoProject), m = .ownershipTransfer caller p.fomoPid toNewControllerPid ∧
    st.bornAt k = some p ∧ p.tokenPid = tokenPid ∧ p.createUserPid = caller

/-- An edit is of the caller's own profile, and one that is part of a top-up edits nothing. -/
def Edit.Serves (e : Edit) (m : Message) : Prop :=
  match e.k with
  | .editUser => m = .editUser e.caller e.userInfo
  | .topupPoints pointsAmount =>
    m = .topupPoints e.caller pointsAmount ∧ e.userInfo = { userName := none, avatar := none }

/-- A quote is for the caller, in ICP, and at the price of the method. -/
def Fee.Serves (env : Env) (st : State) (fee : Fee) (m : Message) : Prop :=
  fee.tokenId = env.icpAddr ∧
    match fee.k with
    | .topupPoints pointsAmount =>
      m = .topupPoints fee.caller pointsAmount ∧ fee.usdAmount = pointsAmount * nat18 / 10
    | .createFomo fomoCreate => m.Creates fee.caller fomoCreate ∧ fee.usdAmount = nat18 * 6
    | .ownershipTransfer tokenPid new =>
      m.Transfers st fee.caller tokenPid new ∧ fee.usdAmount = nat18 * 2

/-- A charge takes the caller's ICP, for the launcher. -/
def Charge.Serves (env : Env) (st : State) (charge : Charge) (m : Message) : Prop :=
  charge.tokenId = env.icpAddr ∧ charge.recipient = env.id ∧
    match charge.k with
    | .topupPoints pointsAmount => m = .topupPoints charge.sender pointsAmount
    | .createFomo fomoCreate => m.Creates charge.sender fomoCreate
    | .ownershipTransfer => ∃ tokenPid new, m.Transfers st charge.sender tokenPid new

def TokenCall.Serves (env : Env) (st : State) (m : Message) : TokenCall → Prop
  | .balanceOf fee => fee.Serves env st m
  | .allowance fee _ => fee.Serves env st m
  | .transferFrom charge => charge.Serves env st m
  | .approve c _ => m.Creates c.caller c.fomoCreate
  | .totalSupply q => m = .setBuyOrSell q.caller q.recordSignal

/-- What an await has to do with the message that started its run. -/
def Frame.Serves (env : Env) (st : State) (m : Message) : Frame → Prop
  | .querySwapStatus b => m = .setBuyOrSell b.caller b.recordSignal
  | .getPoolInfo s => m = .setBuyOrSell s.caller s.recordSignal
  | .getIcpPrice s _ => m = .setBuyOrSell s.caller s.recordSignal
  | .marketCapBatch _ => m = .updateProgress
  | .handOff .. => m = .updateProgress
  | .spendingPoints e => e.Serves m ∧ e.asks = true
  | .spendingPointsDone e => e.Serves m ∧ e.asks = true
  | .httpRequest _ (.editUser e) => e.Serves m
  | .httpRequest _ (.createFomo c ..) => m.Creates c.caller c.fomoCreate
  | .getToken call => call.Serves env st m
  | .ledger _ call => call.Serves env st m
  | .pricesBatch fee .. => fee.Serves env st m
  | .createToken c => m.Creates c.caller c.fomoCreate
  | .createCommonPool c _ => m.Creates c.caller c.fomoCreate
  | .createCanister c .. => m.Creates c.caller c.fomoCreate
  | .canisterStatus c => m.Creates c.caller c.fomoCreate
  | .installCode c => m.Creates c.caller c.fomoCreate
  | .icrc2Approve o => m.Transfers st o.caller o.tokenPid o.toNewControllerPid
  | .removeTokensControllers o => m.Transfers st o.caller o.tokenPid o.toNewControllerPid
  | .lockPool lockPoolPid => m = .lockPool st.context.owner lockPoolPid
  | .tokenStatus token controllers =>
    ∃ user, m = .addTokenControllers st.context.owner token user ∧
      controllers = if user = env.id then [env.id] else [env.id, user]
  | .updateSettings token controllers =>
    ∃ user, m = .addTokenControllers st.context.owner token user ∧
      controllers = if user = env.id then [env.id] else [env.id, user]

/-- The await that a segment ends with, if with one, serves the message. -/
def Serving (env : Env) (st : State) (m : Message) (next : Next Frame Answer) : Prop :=
  ∀ frame, next.frame? = some frame → frame.Serves env st m

section

variable {env : Env} {time : Nat} {st mid st' : State} {next : Next Frame Answer} {m : Message}

/-! ## What is served stays so -/

theorem Message.Transfers.mono {caller tokenPid : Principal} {new : Option Principal}
    (h : m.Transfers st caller tokenPid new) (kept : BirthsKept st st') :
    m.Transfers st' caller tokenPid new := by
  obtain ⟨k, p, hm, hp, token, creator⟩ := h
  exact ⟨k, p, hm, kept k p hp, token, creator⟩

theorem Fee.Serves.mono {fee : Fee} (h : fee.Serves env st m) (kept : BirthsKept st st') :
    fee.Serves env st' m := by
  refine ⟨h.1, ?_⟩
  have serves := h.2
  split at serves
  next => exact serves
  next => exact serves
  next => exact ⟨serves.1.mono kept, serves.2⟩

theorem TokenCall.Serves.mono {call : TokenCall} (h : call.Serves env st m)
    (kept : BirthsKept st st') : call.Serves env st' m := by
  cases call with
  | balanceOf fee => exact Fee.Serves.mono h kept
  | allowance fee totalBalance => exact Fee.Serves.mono h kept
  | transferFrom charge =>
    refine ⟨h.1, h.2.1, ?_⟩
    have serves := h.2.2
    split at serves
    next => exact serves
    next => exact serves
    next =>
      obtain ⟨tokenPid, new, transfers⟩ := serves
      exact ⟨tokenPid, new, transfers.mono kept⟩
  | approve c tokenPid => exact h
  | totalSupply q => exact h

/-- A frame goes on to serve its message while projects stay and the owner does. -/
theorem Frame.Serves.mono {frame : Frame} (h : frame.Serves env st m) (kept : BirthsKept st st')
    (owner : st'.context.owner = st.context.owner) : frame.Serves env st' m := by
  cases frame with
  | httpRequest url k =>
    cases k with
    | editUser e => exact h
    | createFomo c tokenPid poolPid tid => exact h
  | getToken call => exact TokenCall.Serves.mono h kept
  | ledger type call => exact TokenCall.Serves.mono h kept
  | pricesBatch fee totalBalance allowanceBalance => exact Fee.Serves.mono h kept
  | icrc2Approve o => exact Message.Transfers.mono h kept
  | removeTokensControllers o => exact Message.Transfers.mono h kept
  | lockPool lockPoolPid =>
    replace h : m = .lockPool st.context.owner lockPoolPid := h
    rw [← owner] at h
    exact h
  | tokenStatus token controllers =>
    obtain ⟨user, hm, hcontrollers⟩ := h
    rw [← owner] at hm
    exact ⟨user, hm, hcontrollers⟩
  | updateSettings token controllers =>
    obtain ⟨user, hm, hcontrollers⟩ := h
    rw [← owner] at hm
    exact ⟨user, hm, hcontrollers⟩
  | _ => exact h

/-! ## Functions -/

theorem Serving.returned (answer : Answer) : Serving env st m (.returned answer) :=
  fun _ hframe => nomatch hframe

theorem Serving.awaits {frame : Frame} (h : frame.Serves env st m) :
    Serving env st m (.awaits frame) := by
  intro frame' hframe
  cases hframe
  exact h

theorem callLedger_serves {call : TokenCall} (h : callLedger call mid = some (st', next))
    (serves : call.Serves env st m) : Serving env st m next := by
  obtain ⟨_, type, rfl⟩ := callLedger_eq h
  exact .awaits serves

theorem callToken_serves {call : TokenCall} (h : callToken time call mid = some (st', next))
    (serves : call.Serves env st m) : Serving env st m next := by
  obtain ⟨_, rfl | ⟨type, rfl⟩⟩ := callToken_cases h
  · exact .awaits serves
  · exact .awaits serves

theorem feeReturn_serves {fee : Fee} {quote : Except String Nat}
    (h : feeReturn env time fee quote mid = some (st', next)) (serves : fee.Serves env st m) :
    Serving env st m next := by
  obtain ⟨token, serves⟩ := serves
  unfold feeReturn at h
  split at h
  next hk =>
    rw [hk] at serves
    exact callToken_serves h ⟨token, rfl, serves.1⟩
  next =>
    cases h
    exact .returned _
  next hk =>
    rw [hk] at serves
    exact callToken_serves h ⟨token, rfl, serves.1⟩
  next => cases h
  next hk =>
    rw [hk] at serves
    cases h
    exact .awaits serves.1
  next => cases h

theorem editUserReturn_serves {e : Edit} {result : Except String Principal}
    (h : editUserReturn env time e result mid = some (st', next)) (serves : e.Serves m) :
    Serving env st m next := by
  obtain ⟨_, answer, rfl⟩ | ⟨pointsAmount, user, hk, _, h⟩ := editUserReturn_cases h
  · exact .returned _
  · unfold Edit.Serves at serves
    rw [hk] at serves
    exact callToken_serves h ⟨rfl, serves.1, rfl⟩

theorem editUserWrite_serves {e : Edit} {imageUrl : String}
    (h : editUserWrite env time e imageUrl mid = some (st', next)) (serves : e.Serves m) :
    Serving env st m next := by
  obtain ⟨profile, _, h⟩ := Option.bind_eq_some_iff.mp h
  obtain ⟨written, _, h⟩ := Option.bind_eq_some_iff.mp h
  exact editUserReturn_serves h serves

theorem editUserUpload_serves {e : Edit} (h : editUserUpload env time e mid = some (st', next))
    (serves : e.Serves m) : Serving env st m next := by
  obtain hwrite | ⟨_, _, url, rfl⟩ := editUserUpload_cases h
  · exact editUserWrite_serves hwrite serves
  · exact .awaits serves

theorem editUser_serves {e : Edit} (h : editUser env time e mid = some (st', next))
    (serves : e.Serves m) : Serving env st m next := by
  obtain ⟨_, h⟩ | ⟨_, h⟩ | ⟨_, _, _, _, _, _, ⟨_, h⟩ | ⟨asks, _, rfl⟩⟩ := editUser_cases h
  · exact editUserReturn_serves h serves
  · exact editUserUpload_serves h serves
  · exact editUserUpload_serves h serves
  · exact .awaits ⟨serves, asks⟩

theorem handOffNext_serves {addrConfig : AddrConfig} {l : List Nat}
    (h : handOffNext env addrConfig l mid = some (st', next)) : Serving env st .updateProgress next := by
  obtain ⟨_, rfl | ⟨stage, hand, rfl, _⟩⟩ := handOffNext_eq h
  · exact .returned _
  · exact .awaits rfl

theorem progressNext_serves {order : HashOrder} {addrConfig : AddrConfig} {list : List FomoProject}
    {map : ExtTreeMap Nat (Nat × Nat) compare} {maxMarketCap maxIdx : Nat}
    (h : progressNext env order time addrConfig list map maxMarketCap maxIdx mid =
      some (st', next)) : Serving env st .updateProgress next := by
  obtain ⟨_, _, _, _, rfl⟩ | ⟨_, ends⟩ := progressNext_cases h
  · exact .awaits rfl
  · obtain ⟨acc, _, hnext⟩ := Option.bind_eq_some_iff.mp ends
    exact handOffNext_serves hnext

theorem finish_serves {answer : Answer} {result : Option State}
    (h : finish answer result = some (st', next)) : Serving env st m next := by
  obtain ⟨written, _, h⟩ := Option.map_eq_some_iff.mp h
  cases h
  exact .returned _

/-- The project that `get_fomo_by_fomo_pid` finds is stored, and names that canister. -/
theorem getFomoByFomoPid_eq_some {fomoPid : Principal} {p : FomoProject}
    (h : st.getFomoByFomoPid fomoPid = some p) :
    ∃ k : Nat, st.fomoProjectMap[k]? = some p ∧ p.fomoPid = fomoPid := by
  obtain ⟨⟨k, found⟩, hfind, rfl⟩ := Option.map_eq_some_iff.mp h
  have hmem := List.mem_of_find?_eq_some hfind
  have hpid := List.find?_some hfind
  exact ⟨k, ExtTreeMap.mem_toList_iff_getElem?_eq_some.mp hmem, of_decide_eq_true hpid⟩

theorem ownershipTransfer_serves {caller fomoPid : Principal} {new : Option Principal}
    (h : ownershipTransfer env time caller fomoPid new st = some (st', next)) :
    Serving env st (.ownershipTransfer caller fomoPid new) next := by
  obtain ⟨fomo, hfomo, hgoes⟩ := Option.bind_eq_some_iff.mp h
  obtain ⟨k, hp, rfl⟩ := getFomoByFomoPid_eq_some hfomo
  split at hgoes
  next => cases hgoes
  next hcreator =>
    have creator : fomo.createUserPid = caller := Classical.byContradiction hcreator
    exact callToken_serves hgoes ⟨rfl, ⟨k, fomo.born, rfl, bornAt_of_stored hp, rfl, creator⟩, rfl⟩

theorem createFomo_serves {caller : Principal} {fomoCreate : FomoProjectCreate}
    (h : createFomo env time caller fomoCreate mid = some (st', next)) :
    Serving env st (.createFomo caller fomoCreate) next := by
  unfold createFomo at h
  split at h
  next =>
    cases h
    exact .returned _
  next =>
    obtain ⟨description, hdescription, h⟩ := Option.bind_eq_some_iff.mp h
    exact callToken_serves h ⟨rfl, ⟨fomoCreate, description, rfl, hdescription, rfl⟩, rfl⟩

theorem chargeReturn_serves {charge : Charge}
    (h : chargeReturn env time charge mid = some (st', next)) (serves : charge.Serves env st m) :
    Serving env st m next := by
  obtain ⟨_, _, serves⟩ := serves
  obtain ⟨_, _, hnext, _⟩ | ⟨fomoCreate, hk, _, rfl⟩ | ⟨_, _, hnext⟩ := chargeReturn_cases h
  · intro frame hframe
    rw [hnext] at hframe
    cases hframe
  · rw [hk] at serves
    exact .awaits serves
  · intro frame hframe
    rw [hnext] at hframe
    cases hframe

/-- The swap that `set_buy_or_sell` looks at is of the caller who reported it. -/
theorem setBuyOrSellSwap_serves {b : BuySell} {reply : CallResult (List SwapTxRecord)}
    (h : setBuyOrSellSwap b reply mid = some (st', next)) :
    Serving env st (.setBuyOrSell b.caller b.recordSignal) next := by
  obtain ⟨records, _, h⟩ := Option.bind_eq_some_iff.mp h
  obtain ⟨record, _, h⟩ := Option.bind_eq_some_iff.mp h
  split at h
  · cases h
  split at h
  · cases h
  · obtain ⟨v, _, h⟩ := Option.bind_eq_some_iff.mp h
    obtain ⟨item, _, h⟩ := Option.bind_eq_some_iff.mp h
    cases h
    exact .awaits rfl

/-! ## Segments -/

/-- The first segment of a run. -/
theorem receive_serves {a : Ambient} (h : receive env a m st = some (st', next)) :
    Serving env st m next := by
  cases m with
  | setBuyOrSell caller recordSignal =>
    obtain ⟨⟨userName, userAvatar⟩, _, h⟩ := Option.bind_eq_some_iff.mp h
    cases h
    exact .awaits rfl
  | updateProgress => exact progressNext_serves h
  | topupPoints caller pointsAmount =>
    obtain ⟨_, answer, rfl⟩ | h := topupPoints_cases h
    · exact .returned _
    · exact editUser_serves h ⟨rfl, rfl⟩
  | editUser caller userInfo => exact editUser_serves h rfl
  | createFomo caller fomoCreate => exact createFomo_serves h
  | replyUpdate fomoIdx => exact finish_serves h
  | ownershipTransfer caller fomoPid new => exact ownershipTransfer_serves h
  | spendingPoints caller userPid busiName => exact finish_serves h
  | lockPool caller lockPoolPid =>
    replace h : lockPool caller lockPoolPid st = some (st', next) := h
    unfold lockPool at h
    split at h
    next => cases h
    next howner =>
      cases h
      have hcaller : caller = st.context.owner := Classical.byContradiction howner
      exact .awaits (congrArg (Message.lockPool · lockPoolPid) hcaller)
  | airdropPoints caller userPid amount busiName => exact finish_serves h
  | count =>
    cases h
    exact .returned _
  | countPoint =>
    cases h
    exact .returned _
  | addTokenControllers caller token user =>
    replace h : addTokenControllers env caller token user st = some (st', next) := h
    unfold addTokenControllers at h
    split at h
    next => cases h
    next howner =>
      cases h
      have hcaller : caller = st.context.owner := Classical.byContradiction howner
      exact .awaits ⟨user, congrArg (Message.addTokenControllers · token user) hcaller, rfl⟩

/-- The segment that the reply of a ledger resumes. -/
theorem resumeLedger_serves {a : Ambient} {type : TokenType} {call : TokenCall} {reply : call.Rep}
    (h : resumeLedger env a type call reply st = some (st', next)) (serves : call.Serves env st m) :
    Serving env st m next := by
  cases call with
  | balanceOf fee =>
    obtain ⟨totalBalance, _, h⟩ := Option.bind_eq_some_iff.mp h
    exact callToken_serves h serves
  | allowance fee totalBalance =>
    obtain ⟨allowanceBalance, _, h⟩ := Option.bind_eq_some_iff.mp h
    cases h
    exact .awaits serves
  | transferFrom charge =>
    obtain ⟨_, _, h⟩ := Option.bind_eq_some_iff.mp h
    exact chargeReturn_serves h serves
  | approve c tokenPid =>
    obtain ⟨_, _, h⟩ := Option.bind_eq_some_iff.mp h
    cases h
    exact .awaits serves
  | totalSupply q =>
    obtain ⟨_, _, _, _, _, rfl⟩ := setBuyOrSellSupply_ends h
    exact .returned _

/-- A later segment of a run. -/
theorem resume_serves {a : Ambient} {frame : Frame} {reply : Rep frame}
    (h : resume env a frame reply st = some (st', next)) (serves : frame.Serves env st m) :
    Serving env st m next := by
  cases frame with
  | querySwapStatus b =>
    cases serves
    exact setBuyOrSellSwap_serves h
  | getPoolInfo s =>
    obtain ⟨poolInfo, _, h⟩ := Option.bind_eq_some_iff.mp h
    cases h
    exact .awaits serves
  | getIcpPrice s poolInfo => exact callToken_serves h serves
  | marketCapBatch p =>
    cases serves
    obtain ⟨_, _, _, h⟩ := updateProgressItem_cases h
    exact progressNext_serves h
  | handOff stage hand =>
    cases serves
    obtain ⟨_, rfl | ⟨_, _, rfl, _⟩⟩ := updateProgressHandOff_eq h
    · exact .returned _
    · exact .awaits rfl
  | spendingPoints e =>
    replace h : editUserReturn env a.time e (.error reply.2) st = some (st', next) := h
    exact editUserReturn_serves h serves.1
  | spendingPointsDone e => exact editUserUpload_serves h serves.1
  | httpRequest url k =>
    cases k with
    | editUser e =>
      obtain ⟨imageUrl, _, h⟩ := Option.bind_eq_some_iff.mp h
      exact editUserWrite_serves h serves
    | createFomo c tokenPid poolPid tid =>
      obtain ⟨imgUrl, _, h⟩ := Option.bind_eq_some_iff.mp h
      cases h
      exact .awaits serves
  | getToken call => exact callLedger_serves h serves
  | ledger type call => exact resumeLedger_serves h serves
  | pricesBatch fee totalBalance allowanceBalance =>
    obtain ⟨res, _, h⟩ := Option.bind_eq_some_iff.mp h
    obtain ⟨price, _, h⟩ := Option.bind_eq_some_iff.mp h
    obtain ⟨quote, _, h⟩ := Option.bind_eq_some_iff.mp h
    exact feeReturn_serves h serves
  | createToken c =>
    obtain ⟨tokenPid, _, h⟩ := Option.bind_eq_some_iff.mp h
    exact callToken_serves h serves
  | canisterStatus c =>
    obtain ⟨_, rfl⟩ := createFomoStatus_eq h
    exact .awaits serves
  | installCode c =>
    obtain ⟨_, _, _, _, hnext⟩ := createFomoInstalled_ends h
    intro frame hframe
    rw [hnext] at hframe
    cases hframe
  | removeTokensControllers o =>
    obtain ⟨_, _, h⟩ := Option.bind_eq_some_iff.mp h
    exact callToken_serves h ⟨rfl, rfl, o.tokenPid, o.toNewControllerPid, serves⟩
  | createCommonPool c tokenPid | createCanister c tokenPid poolPid =>
    obtain ⟨_, _, h⟩ := Option.bind_eq_some_iff.mp h
    cases h
    exact .awaits serves
  | icrc2Approve o | tokenStatus token controllers =>
    obtain ⟨_, _, h⟩ := Option.bind_eq_some_iff.mp h
    cases h
    exact .awaits serves
  | lockPool _ | updateSettings _ _ =>
    obtain ⟨_, _, h⟩ := Option.bind_eq_some_iff.mp h
    cases h
    exact .returned _

/-! ## The owner -/

theorem insertProject_owner {k : Nat} {p : FomoProject} (h : st.insertProject env k p = some st') :
    st'.context.owner = st.context.owner := by
  rw [insertProject_context h]

/-- No segment changes the owner. -/
theorem Writes.owner {a : Ambient} {cause : Cause Message Frame Rep}
    (h : Writes env a st cause st' next) : st'.context.owner = st.context.owner := by
  have rounds : ∀ {order : HashOrder} {time : Nat} {addrConfig : AddrConfig} {list : List FomoProject}
      {map : ExtTreeMap Nat (Nat × Nat) compare} {maxMarketCap maxIdx : Nat},
      progressNext env order time addrConfig list map maxMarketCap maxIdx st = some (st', next) →
        st'.context.owner = st.context.owner := by
    intro order time addrConfig list map maxMarketCap maxIdx h
    obtain ⟨rfl, _⟩ | ⟨_, ends⟩ := progressNext_cases h
    · rfl
    · rw [finishProgress_context ends]
  cases h with
  | accounts accounting => rw [accounting.writes.context_eq]
  | replied ends =>
    obtain ⟨v, _, ends⟩ := Option.bind_eq_some_iff.mp ends
    exact insertProject_owner ends
  | started ends => exact rounds ends
  | measured ends =>
    rw [updateProgressItem_eq] at ends
    exact rounds ends
  | traded ends =>
    obtain ⟨_, _, _, _, hwrite, _⟩ := setBuyOrSellSupply_ends ends
    rw [insertProject_owner hwrite]
    rfl
  | installed ends =>
    obtain ⟨written, lastCreateFomo, hwrite, ⟨granted, hgrant, hadd⟩, _⟩ := createFomoInstalled_ends ends
    have writes : AccountWrites env _ st' := (initPoints_writes hgrant).trans (addPoints_writes hadd)
    rw [writes.context_eq]
    have kept : written.context.owner = st.context.owner := insertProject_owner hwrite
    exact kept

end

/-! ## Every run -/

/-- The invariant under which frames serve: what is stored was created, and stays. -/
def Lasting (env : Env) (s : System) : Prop := Identifying env s ∧ Born s

/-- A frame of the launcher serves a message, at the state of the system. -/
def ServesAt (env : Env) (s : System) (m : Message) (frame : Frame) : Prop :=
  frame.Serves env s.state m

theorem step_owner {env : Env} (s : System) (choice : Choice) :
    ((program env).step s choice).state.context.owner = s.state.context.owner := by
  refine step_state (R := fun st st' : State => st'.context.owner = st.context.owner) (fun _ => rfl) ?_
  intro a run cause st' next _ _ hsegment
  exact (segment_writes hsegment).owner

/-- **Every segment serves** the message that started its run. -/
theorem program_serves (env : Env) : (program env).Tells (Lasting env) (ServesAt env) := by
  refine ⟨?_, ?_, ?_, ?_⟩
  · intro s choice message frame lasting serves
    exact Frame.Serves.mono serves (step_born lasting.1.inv lasting.2 choice).2 (step_owner s choice)
  · intro s a message st' frame h _
    exact receive_serves h frame rfl
  · intro s a message frame st' frame' h _ serves
    have hsegment : (program env).segment a (.delivered frame) s.state = some (st', .awaits frame') :=
      Option.map_eq_some_iff.mpr ⟨(st', frame'), h, rfl⟩
    obtain ⟨e, rfl, _, hnext⟩ := segment_delivered hsegment
    cases hnext
    exact serves
  · intro s a message frame reply st' frame' h _ serves
    exact resume_serves h serves frame' rfl

/-- An upgrade leaves what frames serve alone. -/
theorem told_upgraded {env : Env} {s : System} {st' : State} {optAddrConfig : Option AddrConfig}
    (preserved : Preserved optAddrConfig s.state st') (told : Told (ServesAt env) s) :
    Told (ServesAt env) { s with state := st' } := by
  have kept : BirthsKept s.state st' := by
    intro k p hp
    exact (bornAt_congr preserved.projects k).trans hp
  have serves : ∀ {m frame}, ServesAt env s m frame → ServesAt env { s with state := st' } m frame :=
    fun serves => Frame.Serves.mono serves kept preserved.owner
  refine ⟨fun run frame hframe => ?_, fun entry hentry frame hframe => ?_⟩
  · obtain ⟨m, began, told⟩ := told.suspended run frame hframe
    exact ⟨m, began, serves told⟩
  · obtain ⟨m, began, told⟩ := told.logged entry hentry frame hframe
    exact ⟨m, began, serves told⟩

/-- **Every event** goes on serving. -/
theorem live_told {env : Env} {s : System} (event : LifeEvent)
    (so : Lasting env s ∧ Told (ServesAt env) s) :
    Lasting env (live env s event) ∧ Told (ServesAt env) (live env s event) := by
  obtain ⟨lasting, told⟩ := so
  refine ⟨(live_born event lasting).1, ?_⟩
  obtain ⟨choice, e⟩ | e | ⟨st', _, _, preserved, e⟩ := live_cases lasting.1.fits event
  · rw [e]
    exact (program_serves env).step lasting told choice
  · rw [e]
    exact told
  · rw [e]
    exact told_upgraded preserved told

theorem lasting_start (env : Env) (caller : Principal) (time : Nat) (addrConfig : AddrConfig)
    (icpAddr : Principal) : Lasting env (Sys.start (init env caller time addrConfig icpAddr)) :=
  ⟨identifying_start env caller time addrConfig icpAddr, born_start env caller time addrConfig icpAddr⟩

theorem served_start (env : Env) (caller : Principal) (time : Nat) (addrConfig : AddrConfig)
    (icpAddr : Principal) :
    Lasting env (Sys.start (init env caller time addrConfig icpAddr)) ∧
      Told (ServesAt env) (Sys.start (init env caller time addrConfig icpAddr)) :=
  ⟨lasting_start env caller time addrConfig icpAddr, told_start _⟩

/-- **A run acts for its caller**: whatever it awaits, and whatever came in between, is what the message that
started it asked for. -/
theorem runs_serve_callers (env : Env) (caller : Principal) (time : Nat) (addrConfig : AddrConfig)
    (icpAddr : Principal) (events : List LifeEvent) :
    Told (ServesAt env) (lived env caller time addrConfig icpAddr events) :=
  (foldl_invariant (I := fun s => Lasting env s ∧ Told (ServesAt env) s)
    (fun _ event so => live_told event so) (served_start env caller time addrConfig icpAddr) events).2

end Fomowell.Launcher
