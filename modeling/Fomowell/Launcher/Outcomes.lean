import Fomowell.Launcher.System
import Fomowell.Launcher.PointSteps

/-!
# How the shared functions end

One lemma for each function that several segments of the launcher go through, or whose body has a branch:
from the equation that it ended to what it did and where the run is suspended. The inversions of whole
segments (`segment_effect`, `segment_does`, `segment_writes`, `segment_carries`, `segment_request`) are put
together from these, and look into none of the functions again.
-/

namespace Fomowell.Launcher

open Std Canister Token

section

variable {env : Env} {time : Nat} {st st' : State} {next : Next Frame Answer}

/-! ## Calls of itself -/

/-- **The one call that the launcher sends to itself** is the deduction for an edit. -/
theorem segment_delivered {a : Ambient} {frame : Frame}
    (h : (program env).segment a (.delivered frame) st = some (st', next)) :
    ∃ e, frame = .spendingPoints e ∧
      spendingPoints env a.time env.id e.caller "EDIT_AVATAR" st = some st' ∧
      next = .awaits (.spendingPointsDone e) := by
  obtain ⟨delivered, hdeliver, h⟩ := Option.map_eq_some_iff.mp h
  cases h
  cases frame with
  | spendingPoints e =>
    obtain ⟨spent, hspent, hdeliver⟩ := Option.map_eq_some_iff.mp hdeliver
    cases hdeliver
    exact ⟨e, rfl, hspent, rfl⟩
  | _ => cases hdeliver

/-! ## Calls of tokens -/

/-- A run that calls a token does not touch the state. -/
theorem callLedger_eq {call : TokenCall} (h : callLedger call st = some (st', next)) :
    st' = st ∧ ∃ type, next = .awaits (.ledger type call) := by
  unfold callLedger at h
  dsimp only at h
  split at h
  · cases h
    exact ⟨rfl, _, rfl⟩
  · cases h

/-- The type of the token may have to be looked up before. -/
theorem callToken_cases {call : TokenCall} (h : callToken time call st = some (st', next)) :
    st' = st ∧ (next = .awaits (.getToken call) ∨ ∃ type, next = .awaits (.ledger type call)) := by
  unfold callToken at h
  split at h
  · cases h
    exact ⟨rfl, .inl rfl⟩
  · obtain ⟨same, calls⟩ := callLedger_eq h
    exact ⟨same, .inr calls⟩

/-- A call of a token traps where the cached type is one for which the call reaches no ledger. -/
theorem callLedger_eq_none {call : TokenCall} :
    callLedger call st = none ↔ call.supports (st.tokenCache.tokenType call.cid) = false := by
  unfold callLedger
  dsimp only
  split
  next h => simp only [h, reduceCtorEq]
  next h => simpa using h

theorem callToken_eq_none {call : TokenCall} :
    callToken time call st = none ↔ st.tokenCache.needsRefresh call.cid time = false ∧
      call.supports (st.tokenCache.tokenType call.cid) = false := by
  unfold callToken
  split
  next h => simp only [h, reduceCtorEq, Bool.true_eq_false, false_and]
  next h =>
    rw [callLedger_eq_none, Bool.not_eq_true] at *
    simp only [h, true_and]

/-! ## The platform fee -/

/-- A quote is charged, under the memo of the method that asked for it, or the run does without a
charge for now. -/
theorem feeReturn_cases {fee : Fee} {quote : Except String Nat}
    (h : feeReturn env time fee quote st = some (st', next)) :
    (∃ pointsAmount value, fee.k = .topupPoints pointsAmount ∧ quote = .ok value ∧
        chargeFee env time fee value "points" (.topupPoints pointsAmount) st = some (st', next)) ∨
      (∃ fomoCreate value, fee.k = .createFomo fomoCreate ∧ quote = .ok value ∧
        chargeFee env time fee value "fomo" (.createFomo fomoCreate) st = some (st', next)) ∨
      (st' = st ∧ ((∃ answer, next = .returned answer) ∨ ∃ o, next = .awaits (.icrc2Approve o))) := by
  unfold feeReturn at h
  split at h
  next pointsAmount value hk => exact .inl ⟨pointsAmount, value, hk, rfl, h⟩
  next =>
    cases h
    exact .inr (.inr ⟨rfl, .inl ⟨_, rfl⟩⟩)
  next fomoCreate value hk => exact .inr (.inl ⟨fomoCreate, value, hk, rfl, h⟩)
  next => cases h
  next =>
    cases h
    exact .inr (.inr ⟨rfl, .inr ⟨_, rfl⟩⟩)
  next => cases h

/-! ## Profiles -/

/-- The edit asks for a name or an avatar. -/
def Edit.asks (e : Edit) : Bool := e.userInfo.userName.isSome || e.userInfo.avatar.isSome

/-- `edit_user` is over, or returns to `topup_points`, which asks for a quote. -/
theorem editUserReturn_cases {e : Edit} {result : Except String Principal}
    (h : editUserReturn env time e result st = some (st', next)) :
    (st' = st ∧ ∃ answer, next = .returned answer) ∨
      ∃ pointsAmount user, e.k = .topupPoints pointsAmount ∧ result = .ok user ∧
        getIcpPlatformFee time
          { tokenId := env.icpAddr
            caller := e.caller
            usdAmount := pointsAmount * Pmm.nat18 / 10
            k := .topupPoints pointsAmount } st = some (st', next) := by
  unfold editUserReturn at h
  split at h
  next =>
    cases h
    exact .inl ⟨rfl, _, rfl⟩
  next pointsAmount hk =>
    split at h
    next =>
      cases h
      exact .inl ⟨rfl, _, rfl⟩
    next user => exact .inr ⟨pointsAmount, user, hk, rfl, h⟩

/-- From the upload on, `edit_user` writes the profile, or awaits the upload. -/
theorem editUserUpload_cases {e : Edit} (h : editUserUpload env time e st = some (st', next)) :
    editUserWrite env time e "" st = some (st', next) ∨
      (st' = st ∧ e.asks = true ∧ ∃ url, next = .awaits (.httpRequest url (.editUser e))) := by
  unfold editUserUpload at h
  split at h
  · exact .inl h
  next avatar havatar =>
    split at h
    · cases h
      refine .inr ⟨rfl, ?_, _, rfl⟩
      unfold Edit.asks
      rw [havatar, Option.isSome_some, Bool.or_true]
    · exact .inl h

/-- **The start of `edit_user`**: it is refused; it makes a profile; or it writes the one it finds, and
goes on without a payment, where nothing is asked for, or asks for one. -/
theorem editUser_cases {e : Edit} (h : editUser env time e st = some (st', next)) :
    (∃ error, editUserReturn env time e (.error error) st = some (st', next)) ∨
      (st.userProfileMap[e.caller]? = none ∧ editUserUpload env time e st = some (st', next)) ∨
      ∃ p p' written, st.userProfileMap[e.caller]? = some p ∧ p'.Edits (some p) ∧
        st.insertProfile env e.caller p' = some written ∧
        ((e.asks = false ∧ editUserUpload env time e written = some (st', next)) ∨
          (e.asks = true ∧ st' = written ∧ next = .awaits (.spendingPoints e))) := by
  unfold editUser at h
  split at h
  · exact .inl ⟨_, h⟩
  split at h
  next hnone => exact .inr (.inl ⟨hnone, h⟩)
  next p hp =>
    obtain ⟨written, hwrite, h⟩ := Option.bind_eq_some_iff.mp h
    refine .inr (.inr ⟨p, _, written, hp, edits_of_reset p, hwrite, ?_⟩)
    unfold Edit.asks
    split at h
    next hempty =>
      refine .inl ⟨?_, h⟩
      rw [Option.isNone_iff_eq_none.mp hempty.1, Option.isNone_iff_eq_none.mp hempty.2]
      rfl
    next hasks =>
      cases h
      refine .inr ⟨?_, rfl, rfl⟩
      rw [Option.isNone_iff_eq_none, Option.isNone_iff_eq_none, ← Option.not_isSome_iff_eq_none,
        ← Option.not_isSome_iff_eq_none, not_and_or, not_not, not_not] at hasks
      rw [Bool.or_eq_true]
      exact hasks

/-! ## Messages -/

theorem topupPoints_cases {caller : Principal} {pointsAmount : Nat}
    (h : topupPoints env time caller pointsAmount st = some (st', next)) :
    (st' = st ∧ ∃ answer, next = .returned answer) ∨
      editUser env time ⟨caller, ⟨none, none⟩, .topupPoints pointsAmount⟩ st = some (st', next) := by
  unfold topupPoints at h
  split at h
  · cases h
    exact .inl ⟨rfl, _, rfl⟩
  · exact .inr h

/-- `create_fomo` is refused, or asks for a quote. -/
theorem createFomo_cases {caller : Principal} {fomoCreate : FomoProjectCreate}
    (h : createFomo env time caller fomoCreate st = some (st', next)) :
    (st' = st ∧ ∃ answer, next = .returned answer) ∨
      ∃ fee cut, fee.k = .createFomo cut ∧ getIcpPlatformFee time fee st = some (st', next) := by
  unfold createFomo at h
  split at h
  · cases h
    exact .inl ⟨rfl, _, rfl⟩
  · obtain ⟨description, _, h⟩ := Option.bind_eq_some_iff.mp h
    exact .inr ⟨_, _, rfl, h⟩

/-- `ownership_transfer` asks for a quote. -/
theorem ownershipTransfer_cases {caller fomoPid : Principal} {new : Option Principal}
    (h : ownershipTransfer env time caller fomoPid new st = some (st', next)) :
    ∃ fee tokenPid, fee.k = .ownershipTransfer tokenPid new ∧
      getIcpPlatformFee time fee st = some (st', next) := by
  obtain ⟨fomo, _, h⟩ := Option.bind_eq_some_iff.mp h
  split at h
  · cases h
  · exact ⟨_, _, rfl, h⟩

theorem lockPool_eq {caller lockPoolPid : Principal}
    (h : lockPool caller lockPoolPid st = some (st', next)) :
    st' = st ∧ next = .awaits (.lockPool lockPoolPid) := by
  unfold lockPool at h
  split at h
  · cases h
  · cases h
    exact ⟨rfl, rfl⟩

theorem addTokenControllers_eq {caller token user : Principal}
    (h : addTokenControllers env caller token user st = some (st', next)) :
    st' = st ∧ ∃ controllers, next = .awaits (.tokenStatus token controllers) := by
  unfold addTokenControllers at h
  split at h
  · cases h
  · cases h
    exact ⟨rfl, _, rfl⟩

/-- `set_buy_or_sell` goes on with the copy that it read before the call. -/
theorem setBuyOrSellSwap_eq {b : BuySell} {swapResult : CallResult (List SwapTxRecord)}
    (h : setBuyOrSellSwap b swapResult st = some (st', next)) :
    st' = st ∧ ∃ s : Swap, next = .awaits (.getPoolInfo s) ∧ b.fomo = some s.v ∧
      s.recordSignal = b.recordSignal := by
  obtain ⟨records, _, h⟩ := Option.bind_eq_some_iff.mp h
  obtain ⟨record, _, h⟩ := Option.bind_eq_some_iff.mp h
  split at h
  · cases h
  split at h
  · cases h
  · obtain ⟨v, hv, h⟩ := Option.bind_eq_some_iff.mp h
    obtain ⟨item, _, h⟩ := Option.bind_eq_some_iff.mp h
    cases h
    exact ⟨rfl, _, rfl, hv, rfl⟩

theorem createFomoStatus_eq {c : Created} {res : CallResult CanisterStatus}
    (h : createFomoStatus c res st = some (st', next)) :
    st' = st ∧ next = .awaits (.installCode c) := by
  obtain ⟨status, _, h⟩ := Option.bind_eq_some_iff.mp h
  split at h
  · cases h
  · cases h
    exact ⟨rfl, rfl⟩

/-! ## `update_progress` -/

variable {order : HashOrder} {addrConfig : AddrConfig} {map : ExtTreeMap Nat (Nat × Nat) compare}
  {maxMarketCap maxIdx : Nat}

/-- A round goes on to the next project, or is the last one. -/
theorem progressNext_cases {list : List FomoProject}
    (h : progressNext env order time addrConfig list map maxMarketCap maxIdx st =
      some (st', next)) :
    (st' = st ∧ ∃ item rest, list = item :: rest ∧
        next = .awaits (.marketCapBatch ⟨addrConfig, item, rest, map, maxMarketCap, maxIdx⟩)) ∨
      (list = [] ∧
        finishProgress env order time addrConfig map maxMarketCap maxIdx st = some (st', next)) := by
  unfold progressNext at h
  split at h
  · cases h
    exact .inl ⟨rfl, _, _, rfl, rfl⟩
  · exact .inr ⟨rfl, h⟩

/-- A reply of the oracle ends a round. -/
theorem updateProgressItem_cases {p : Progress} {mcRes : CallResult (PrincipalMap Nat)}
    (h : updateProgressItem env order time p mcRes st = some (st', next)) :
    ∃ map maxMarketCap maxIdx,
      progressNext env order time p.addrConfig p.list map maxMarketCap maxIdx st =
        some (st', next) := by
  unfold updateProgressItem at h
  dsimp only at h
  split at h
  · exact ⟨_, _, _, h⟩
  · exact ⟨_, _, _, h⟩

theorem fromDogmi_eq {h : HandOff} {frame : Frame} (hframe : h.fromDogmi env = some frame) :
    ∃ stage, frame = .handOff stage h ∧ (h.call env stage).isSome := by
  unfold HandOff.fromDogmi at hframe
  split at hframe
  · obtain ⟨dogmiPid, hpid, hframe⟩ := Option.bind_eq_some_iff.mp hframe
    cases hframe
    refine ⟨.dogmi, rfl, ?_⟩
    unfold HandOff.call
    rw [hpid]
    rfl
  · cases hframe
    exact ⟨.lock, rfl, rfl⟩

theorem fromSneed_eq {h : HandOff} {frame : Frame} (hframe : h.fromSneed env = some frame) :
    ∃ stage, frame = .handOff stage h ∧ (h.call env stage).isSome := by
  unfold HandOff.fromSneed at hframe
  split at hframe
  · cases hframe
    exact ⟨.sneed, rfl, rfl⟩
  · exact fromDogmi_eq hframe

/-- The last loop awaits a call of the hand-off that it has the address for, or is over. -/
theorem handOffNext_eq {l : List Nat} (h : handOffNext env addrConfig l st = some (st', next)) :
    st' = st ∧ (next = .returned .unit ∨
      ∃ stage hand, next = .awaits (.handOff stage hand) ∧ (hand.call env stage).isSome) := by
  unfold handOffNext at h
  split at h
  · cases h
    exact ⟨rfl, .inl rfl⟩
  · obtain ⟨v, _, h⟩ := Option.bind_eq_some_iff.mp h
    obtain ⟨frame, hframe, h⟩ := Option.bind_eq_some_iff.mp h
    cases h
    obtain ⟨stage, rfl, called⟩ := fromSneed_eq hframe
    exact ⟨rfl, .inr ⟨stage, _, rfl, called⟩⟩

theorem updateProgressHandOff_eq {stage : Stage} {hand : HandOff}
    {res : CallResult (Except String Unit)}
    (h : updateProgressHandOff env stage hand res st = some (st', next)) :
    st' = st ∧ (next = .returned .unit ∨
      ∃ stage hand, next = .awaits (.handOff stage hand) ∧ (hand.call env stage).isSome) := by
  cases stage with
  | sneed =>
    obtain ⟨_, _, h⟩ := Option.bind_eq_some_iff.mp h
    obtain ⟨frame, hframe, h⟩ := Option.bind_eq_some_iff.mp h
    cases h
    obtain ⟨stage, rfl, called⟩ := fromDogmi_eq hframe
    exact ⟨rfl, .inr ⟨stage, _, rfl, called⟩⟩
  | dogmi =>
    obtain ⟨_, _, h⟩ := Option.bind_eq_some_iff.mp h
    cases h
    exact ⟨rfl, .inr ⟨_, _, rfl, rfl⟩⟩
  | lock => exact handOffNext_eq h

/-- One entry of the write-back: its project is not stored, or is measured and stored again, with the
marker where it is put on the list. -/
theorem writeBackOne_stores {acc acc' : State × List Nat} {entry : Nat × (Nat × Nat)}
    (h : writeBackOne env time maxMarketCap acc entry = some acc') :
    (acc.1.fomoProjectMap[entry.1]? = none ∧ acc' = acc) ∨
      ∃ pj v p, acc.1.fomoProjectMap[entry.1]? = some pj ∧
        { pj with poolProgress := entry.2.1, marketCap := entry.2.2 }.updateWells time entry.2.2
          maxMarketCap = some v ∧
        acc.1.insertProject env entry.1 p = some acc'.1 ∧
        ((v.poolProgressDoneTime = none ∧ p = { v with poolProgressDoneTime := some time } ∧
            acc'.2 = acc.2 ++ [v.fomoIdx]) ∨
          (p = v ∧ acc'.2 = acc.2)) := by
  unfold writeBackOne at h
  dsimp only at h
  split at h
  next hnone =>
    cases h
    exact .inl ⟨hnone, rfl⟩
  next pj hpj =>
    obtain ⟨v, hv, h⟩ := Option.bind_eq_some_iff.mp h
    refine .inr ⟨pj, v, ?_⟩
    split at h
    next marks =>
      obtain ⟨written, hwrite, h⟩ := Option.bind_eq_some_iff.mp h
      cases h
      exact ⟨_, hpj, hv, hwrite, .inl ⟨Option.isNone_iff_eq_none.mp marks.2, rfl, rfl⟩⟩
    next =>
      obtain ⟨written, hwrite, h⟩ := Option.bind_eq_some_iff.mp h
      cases h
      exact ⟨_, hpj, hv, hwrite, .inr ⟨rfl, rfl⟩⟩

/-- A rule for `foldlM`: what every round keeps, the loop keeps. -/
theorem foldlM_invariant {α β : Type} {I : β → Prop} {f : β → α → Option β}
    (keep : ∀ b a b', f b a = some b' → I b → I b') {l : List α} {b b' : β}
    (h : l.foldlM f b = some b') (hb : I b) : I b' := by
  induction l generalizing b with
  | nil =>
    cases h
    exact hb
  | cons a l ih =>
    rw [List.foldlM_cons] at h
    obtain ⟨c, hc, h⟩ := Option.bind_eq_some_iff.mp h
    exact ih h (keep b a c hc hb)

/-- **A rule for the write-back**: what setting the god of wells and storing projects keep, it keeps. -/
theorem finishProgress_invariant {I : State → Prop}
    (h : finishProgress env order time addrConfig map maxMarketCap maxIdx st = some (st', next))
    (start : I { st with context := { st.context with godOfWellsIdx := maxIdx } })
    (store : ∀ st k p st', st.insertProject env k p = some st' → I st → I st') : I st' := by
  obtain ⟨acc, hfold, h⟩ := Option.bind_eq_some_iff.mp h
  rw [(handOffNext_eq h).1]
  refine foldlM_invariant (I := fun acc : State × List Nat => I acc.1) ?_ hfold start
  intro acc entry acc' hone so
  obtain ⟨_, rfl⟩ | ⟨_, _, p, _, _, hwrite, _⟩ := writeBackOne_stores hone
  · exact so
  · exact store _ _ p _ hwrite so

end

end Fomowell.Launcher
