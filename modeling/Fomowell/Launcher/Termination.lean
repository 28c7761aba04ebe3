import Fomowell.Launcher.Segments
import Fomowell.Lib.Descent

/-!
# Every run of the launcher ends

No method of the launcher can be kept going. `Frame.left` says how many more segments a run can have at
each of its awaits, whatever the other canisters answer: a constant for all methods but `update_progress`,
which awaits the oracle once for each project that it read and the router at most three times for each of
those. `program_descends` is the step: every delivery and every reply leaves less than there was.
`Message.calls` is what the first segment of a method leaves at most, from the number of projects stored.
-/

namespace Fomowell.Launcher

open Std Canister Token

/-! ## What is left at an await -/

/-- What is left of `topup_points` once `edit_user` is over: the quote, and the charge. -/
def EditCont.left : EditCont → Nat
  | .editUser => 0
  | .topupPoints _ => 7

/-- What is left once a charge is collected. -/
def ChargeCont.left : ChargeCont → Nat
  | .topupPoints _ => 0
  | .createFomo _ => 8
  | .ownershipTransfer => 0

/-- What is left once a fee is quoted. A charge may await the type of the token before the ledger. -/
def FeeCont.left : FeeCont → Nat
  | .topupPoints pointsAmount => 2 + (ChargeCont.topupPoints pointsAmount).left
  | .createFomo fomoCreate => 2 + (ChargeCont.createFomo fomoCreate).left
  | .ownershipTransfer .. => 4 + ChargeCont.ownershipTransfer.left

/-- What is left at the await of a ledger. -/
def TokenCall.left : TokenCall → Nat
  | .balanceOf fee => 4 + fee.k.left
  | .allowance fee _ => 2 + fee.k.left
  | .transferFrom charge => 1 + charge.k.left
  | .approve .. => 6
  | .totalSupply _ => 1

/-- The calls of the router for one project, from a stage on. -/
def Stage.left : Stage → Nat
  | .sneed => 3
  | .dogmi => 2
  | .lock => 1

/-- How many segments a run has left at an await, at most. -/
def Frame.left : Frame → Nat
  | .querySwapStatus _ => 5
  | .getPoolInfo _ => 4
  | .getIcpPrice .. => 3
  | .marketCapBatch p => 1 + p.list.length + 3 * (p.map.size + 1 + p.list.length)
  | .handOff stage h => stage.left + 3 * h.rest.length
  | .spendingPoints e => 3 + e.k.left
  | .spendingPointsDone e => 2 + e.k.left
  | .httpRequest _ (.editUser e) => 1 + e.k.left
  | .httpRequest _ (.createFomo ..) => 3
  | .getToken call => 1 + call.left
  | .ledger _ call => call.left
  | .pricesBatch fee .. => 1 + fee.k.left
  | .createToken _ => 8
  | .createCommonPool .. => 5
  | .createCanister .. => 4
  | .canisterStatus _ => 2
  | .installCode _ => 1
  | .icrc2Approve _ => 4
  | .removeTokensControllers _ => 3
  | .lockPool _ => 1
  | .tokenStatus .. => 2
  | .updateSettings .. => 1

/-- How many segments a method has after its first, at most. -/
def Message.calls (st : State) : Message → Nat
  | .setBuyOrSell .. => 5
  | .updateProgress => 4 * st.fomoProjectMap.size
  | .topupPoints .. => 7
  | .editUser .. => 3
  | .createFomo .. => 15
  | .ownershipTransfer .. => 9
  | .lockPool .. => 1
  | .addTokenControllers .. => 2
  | _ => 0

theorem TokenCall.left_pos (call : TokenCall) : 0 < call.left := by
  cases call with
  | _ =>
    simp only [TokenCall.left]
    omega

theorem Stage.left_pos (stage : Stage) : 0 < stage.left := by
  cases stage <;> decide

theorem Frame.left_pos (frame : Frame) : 0 < frame.left := by
  cases frame with
  | httpRequest url k =>
    cases k with
    | _ =>
      simp only [Frame.left]
      omega
  | getToken call => exact Nat.lt_of_lt_of_le Nat.one_pos (Nat.le_add_right _ _)
  | ledger type call => exact call.left_pos
  | handOff stage h => exact Nat.lt_of_lt_of_le stage.left_pos (Nat.le_add_right _ _)
  | _ =>
    simp only [Frame.left]
    omega

section

variable {env : Env} {time : Nat} {st st' : State} {next : Next Frame Answer}

/-! ## The shared functions -/

/-- What a run has left where a segment of it ends. -/
abbrev leftAfter (next : Next Frame Answer) : Nat := weigh Frame.left next.frame?

/-- The call of a ledger is the first of its awaits. -/
theorem callLedger_left {call : TokenCall} (h : callLedger call st = some (st', next)) :
    leftAfter next = call.left := by
  obtain ⟨_, type, rfl⟩ := callLedger_eq h
  rfl

/-- The lookup of a type is one await more. -/
theorem callToken_left {call : TokenCall} (h : callToken time call st = some (st', next)) :
    leftAfter next ≤ 1 + call.left := by
  obtain ⟨_, rfl | ⟨type, rfl⟩⟩ := callToken_cases h
  · exact Nat.le_refl _
  · exact Nat.le_add_left _ _

/-- What a quote leads to was counted with the quote. -/
theorem feeReturn_left {fee : Fee} {quote : Except String Nat}
    (h : feeReturn env time fee quote st = some (st', next)) : leftAfter next ≤ fee.k.left := by
  obtain ⟨_, _, hk, _, h⟩ | ⟨_, _, hk, _, h⟩ | ⟨_, ⟨_, rfl⟩ | ⟨o, rfl⟩⟩ := feeReturn_cases h
  · rw [hk]
    exact callToken_left h
  · rw [hk]
    exact Nat.le_trans (callToken_left h) (Nat.le_refl _)
  · exact Nat.zero_le _
  · unfold feeReturn at h
    split at h
    next => exact absurd (callToken_cases h).2 (by simp)
    next => cases h
    next => exact absurd (callToken_cases h).2 (by simp)
    next => cases h
    next _ _ _ hk =>
      rw [hk]
      exact Nat.le_refl 4
    next => cases h

theorem editUserReturn_left {e : Edit} {result : Except String Principal}
    (h : editUserReturn env time e result st = some (st', next)) : leftAfter next ≤ e.k.left := by
  obtain ⟨_, _, rfl⟩ | ⟨_, _, hk, _, h⟩ := editUserReturn_cases h
  · exact Nat.zero_le _
  · rw [hk]
    exact callToken_left h

theorem editUserWrite_left {e : Edit} {imageUrl : String}
    (h : editUserWrite env time e imageUrl st = some (st', next)) : leftAfter next ≤ e.k.left := by
  obtain ⟨profile, _, h⟩ := Option.bind_eq_some_iff.mp h
  obtain ⟨written, _, h⟩ := Option.bind_eq_some_iff.mp h
  exact editUserReturn_left h

theorem editUserUpload_left {e : Edit} (h : editUserUpload env time e st = some (st', next)) :
    leftAfter next ≤ 1 + e.k.left := by
  obtain h | ⟨_, _, _, rfl⟩ := editUserUpload_cases h
  · exact Nat.le_trans (editUserWrite_left h) (Nat.le_add_left _ _)
  · exact Nat.le_refl _

/-- `edit_user` awaits the payment, its delivery and the upload, before what follows the edit. -/
theorem editUser_left {e : Edit} (h : editUser env time e st = some (st', next)) :
    leftAfter next ≤ 3 + e.k.left := by
  obtain ⟨_, h⟩ | ⟨_, h⟩ | ⟨_, _, _, _, _, _, ⟨_, h⟩ | ⟨_, _, rfl⟩⟩ := editUser_cases h
  · have := editUserReturn_left h
    omega
  · have := editUserUpload_left h
    omega
  · have := editUserUpload_left h
    omega
  · exact Nat.le_refl _

/-- An edit that asks for nothing is not charged, and awaits nothing of its own. -/
theorem editUser_left_of_empty {e : Edit} (hempty : e.userInfo = ⟨none, none⟩)
    (h : editUser env time e st = some (st', next)) : leftAfter next ≤ e.k.left := by
  have hasks : e.asks = false := by
    unfold Edit.asks
    rw [hempty]
    rfl
  have uploads : ∀ {st st'}, editUserUpload env time e st = some (st', next) →
      leftAfter next ≤ e.k.left := by
    intro st st' h
    obtain h | ⟨_, asks, _⟩ := editUserUpload_cases h
    · exact editUserWrite_left h
    · rw [hasks] at asks
      cases asks
  obtain ⟨_, h⟩ | ⟨_, h⟩ | ⟨_, _, _, _, _, _, ⟨_, h⟩ | ⟨asks, _, _⟩⟩ := editUser_cases h
  · exact editUserReturn_left h
  · exact uploads h
  · exact uploads h
  · rw [hasks] at asks
    cases asks

/-! ## `update_progress` -/

variable {order : HashOrder} {addrConfig : AddrConfig} {map : ExtTreeMap Nat (Nat × Nat) compare}
  {maxMarketCap maxIdx : Nat}

/-- A hash map is visited at most once for each of its entries. -/
theorem length_entries_le {V : Type} (order : HashOrder) (map : ExtTreeMap Nat V compare) :
    (order.entries map).length ≤ map.size := by
  refine Nat.le_trans (List.length_filterMap_le _ _) ?_
  rw [(order.perm _).length_eq, List.length_map, ExtTreeMap.length_toList]

/-- A hand-off that comes to the Dogmi share: that transfer, the lock, and three for each project left. -/
theorem fromDogmi_left {h : HandOff} {frame : Frame} (hframe : h.fromDogmi env = some frame) :
    frame.left ≤ 2 + 3 * h.rest.length := by
  unfold HandOff.fromDogmi at hframe
  split at hframe
  · obtain ⟨_, _, hframe⟩ := Option.bind_eq_some_iff.mp hframe
    cases hframe
    exact Nat.le_refl _
  · cases hframe
    exact Nat.add_le_add_right (by decide) _

/-- A hand-off from its beginning: two transfers, the lock, and three for each project left. -/
theorem fromSneed_left {h : HandOff} {frame : Frame} (hframe : h.fromSneed env = some frame) :
    frame.left ≤ 3 + 3 * h.rest.length := by
  unfold HandOff.fromSneed at hframe
  split at hframe
  · cases hframe
    exact Nat.le_refl _
  · exact Nat.le_trans (fromDogmi_left hframe) (Nat.add_le_add_right (by decide) _)

theorem handOffNext_left {l : List Nat} (h : handOffNext env addrConfig l st = some (st', next)) :
    leftAfter next ≤ 3 * l.length := by
  unfold handOffNext at h
  split at h
  · cases h
    exact Nat.le_refl _
  next fomoPid rest =>
    obtain ⟨v, _, h⟩ := Option.bind_eq_some_iff.mp h
    obtain ⟨frame, hframe, h⟩ := Option.bind_eq_some_iff.mp h
    cases h
    have hfrom := fromSneed_left hframe
    rw [List.length_cons, Nat.mul_succ, Nat.add_comm (3 * _)]
    exact hfrom

/-- Each reply to a hand-off leaves fewer awaits than before. -/
theorem updateProgressHandOff_left {stage : Stage} {hand : HandOff}
    {res : CallResult (Except String Unit)}
    (h : updateProgressHandOff env stage hand res st = some (st', next)) :
    leftAfter next < stage.left + 3 * hand.rest.length := by
  cases stage with
  | sneed =>
    obtain ⟨_, _, h⟩ := Option.bind_eq_some_iff.mp h
    obtain ⟨frame, hframe, h⟩ := Option.bind_eq_some_iff.mp h
    cases h
    exact Nat.lt_of_le_of_lt (fromDogmi_left hframe) (Nat.add_lt_add_right (by decide) _)
  | dogmi =>
    obtain ⟨_, _, h⟩ := Option.bind_eq_some_iff.mp h
    cases h
    exact Nat.add_lt_add_right (by decide) _
  | lock =>
    refine Nat.lt_of_le_of_lt (handOffNext_left h) ?_
    exact Nat.lt_add_of_pos_left (by decide)

/-- The write-back puts at most one project on the list for each entry. -/
theorem writeBack_length {entries : List (Nat × (Nat × Nat))} {acc acc' : State × List Nat}
    (h : entries.foldlM (writeBackOne env time maxMarketCap) acc = some acc') :
    acc'.2.length ≤ acc.2.length + entries.length := by
  induction entries generalizing acc with
  | nil =>
    cases h
    exact Nat.le_refl _
  | cons entry entries ih =>
    rw [List.foldlM_cons] at h
    obtain ⟨acc₁, hone, h⟩ := Option.bind_eq_some_iff.mp h
    have hrest := ih h
    have hstep : acc₁.2.length ≤ acc.2.length + 1 := by
      obtain ⟨_, rfl⟩ | ⟨_, _, _, _, _, _, ⟨_, _, hlist⟩ | ⟨_, hlist⟩⟩ := writeBackOne_stores hone
      · exact Nat.le_succ _
      · rw [hlist, List.length_append, List.length_singleton]
      · rw [hlist]
        exact Nat.le_succ _
    rw [List.length_cons]
    omega

/-- The projects handed off are among those measured. -/
theorem finishProgress_left
    (h : finishProgress env order time addrConfig map maxMarketCap maxIdx st = some (st', next)) :
    leftAfter next ≤ 3 * map.size := by
  obtain ⟨⟨written, l⟩, hfold, h⟩ := Option.bind_eq_some_iff.mp h
  have hlist := writeBack_length hfold
  have hentries := length_entries_le order map
  rw [List.length_nil, Nat.zero_add] at hlist
  exact Nat.le_trans (handOffNext_left h) (Nat.mul_le_mul_left 3 (Nat.le_trans hlist hentries))

/-- A round leaves the projects that it has not asked for, and the hand-off of all. -/
theorem progressNext_left {list : List FomoProject}
    (h : progressNext env order time addrConfig list map maxMarketCap maxIdx st =
      some (st', next)) : leftAfter next ≤ list.length + 3 * (map.size + list.length) := by
  obtain ⟨_, item, rest, rfl, rfl⟩ | ⟨rfl, h⟩ := progressNext_cases h
  · simp only [leftAfter, weigh, Next.frame?, Option.elim_some, Frame.left, List.length_cons]
    omega
  · have := finishProgress_left h
    rw [List.length_nil]
    omega

/-- Each reply of the oracle leaves one item fewer to measure. -/
theorem updateProgressItem_left {p : Progress} {mcRes : CallResult (PrincipalMap Nat)}
    (h : updateProgressItem env order time p mcRes st = some (st', next)) :
    leftAfter next < 1 + p.list.length + 3 * (p.map.size + 1 + p.list.length) := by
  have hinsert : ∀ entry, (p.map.insert p.item.fomoIdx entry).size ≤ p.map.size + 1 :=
    fun entry => ExtTreeMap.size_insert_le
  unfold updateProgressItem at h
  dsimp only at h
  split at h
  all_goals
    have hround := progressNext_left h
    have := hinsert (capProgress (poolProgressOf (reportedCap p.item.tokenPid mcRes)),
      reportedCap p.item.tokenPid mcRes)
    omega

/-! ## The step -/

variable {a : Ambient}

theorem chargeReturn_left {charge : Charge}
    (h : chargeReturn env time charge st = some (st', next)) : leftAfter next ≤ charge.k.left := by
  unfold chargeReturn at h
  split at h
  · obtain ⟨granted, _, h⟩ := Option.bind_eq_some_iff.mp h
    obtain ⟨added, _, h⟩ := Option.bind_eq_some_iff.mp h
    cases h
    exact Nat.zero_le _
  next hk =>
    cases h
    rw [hk]
    exact Nat.le_refl 8
  · cases h
    exact Nat.zero_le _

/-- Each reply of a ledger leaves fewer awaits than before. -/
theorem resumeLedger_left {type : TokenType} {call : TokenCall} {reply : call.Rep}
    (h : resumeLedger env a type call reply st = some (st', next)) :
    leftAfter next < call.left := by
  cases call with
  | balanceOf fee =>
    obtain ⟨totalBalance, _, h⟩ := Option.bind_eq_some_iff.mp h
    have := callToken_left h
    simp only [TokenCall.left] at this ⊢
    omega
  | allowance fee totalBalance =>
    obtain ⟨allowanceBalance, _, h⟩ := Option.bind_eq_some_iff.mp h
    cases h
    exact Nat.add_lt_add_right (by decide) _
  | transferFrom charge =>
    obtain ⟨_, _, h⟩ := Option.bind_eq_some_iff.mp h
    exact Nat.lt_of_le_of_lt (chargeReturn_left h) (Nat.lt_add_of_pos_left Nat.one_pos)
  | approve c tokenPid =>
    obtain ⟨_, _, h⟩ := Option.bind_eq_some_iff.mp h
    cases h
    exact Nat.lt_succ_self 5
  | totalSupply q =>
    obtain ⟨_, _, h⟩ := Option.bind_eq_some_iff.mp h
    obtain ⟨_, _, h⟩ := Option.bind_eq_some_iff.mp h
    obtain ⟨_, _, h⟩ := Option.bind_eq_some_iff.mp h
    obtain ⟨_, _, h⟩ := Option.bind_eq_some_iff.mp h
    cases h
    exact Nat.one_pos

/-- **Every reply leaves less.** -/
theorem resume_left {frame : Frame} {reply : Rep frame}
    (h : resume env a frame reply st = some (st', next)) : leftAfter next < frame.left := by
  cases frame with
  | querySwapStatus b =>
    obtain ⟨_, s, rfl, _, _⟩ := setBuyOrSellSwap_eq h
    exact Nat.lt_succ_self 4
  | getIcpPrice s poolInfo => exact Nat.lt_succ_of_le (callToken_left h)
  | marketCapBatch p => exact updateProgressItem_left h
  | handOff stage hand => exact updateProgressHandOff_left h
  | spendingPoints e =>
    replace h : editUserReturn env a.time e (.error reply.2) st = some (st', next) := h
    have := editUserReturn_left h
    simp only [Frame.left]
    omega
  | spendingPointsDone e =>
    have := editUserUpload_left h
    simp only [Frame.left]
    omega
  | httpRequest url k =>
    cases k with
    | editUser e =>
      obtain ⟨imageUrl, _, h⟩ := Option.bind_eq_some_iff.mp h
      have := editUserWrite_left h
      simp only [Frame.left]
      omega
    | createFomo c tokenPid poolPid tid =>
      obtain ⟨imgUrl, _, h⟩ := Option.bind_eq_some_iff.mp h
      cases h
      exact Nat.lt_succ_self 2
  | getToken call =>
    rw [callLedger_left h]
    exact Nat.lt_add_of_pos_left Nat.one_pos
  | ledger type call => exact resumeLedger_left h
  | pricesBatch fee totalBalance allowanceBalance =>
    obtain ⟨res, _, h⟩ := Option.bind_eq_some_iff.mp h
    obtain ⟨price, _, h⟩ := Option.bind_eq_some_iff.mp h
    obtain ⟨quote, _, h⟩ := Option.bind_eq_some_iff.mp h
    exact Nat.lt_of_le_of_lt (feeReturn_left h) (Nat.lt_add_of_pos_left Nat.one_pos)
  | createToken c =>
    obtain ⟨tokenPid, _, h⟩ := Option.bind_eq_some_iff.mp h
    exact Nat.lt_succ_of_le (callToken_left h)
  | canisterStatus c =>
    obtain ⟨_, rfl⟩ := createFomoStatus_eq h
    exact Nat.lt_succ_self 1
  | installCode c =>
    obtain ⟨_, _, _, _, hnext⟩ := createFomoInstalled_ends h
    rw [leftAfter, hnext]
    exact Nat.one_pos
  | removeTokensControllers o =>
    obtain ⟨_, _, h⟩ := Option.bind_eq_some_iff.mp h
    exact Nat.lt_succ_of_le (callToken_left h)
  | getPoolInfo _ | createCommonPool _ _ | createCanister _ _ _ | icrc2Approve _ | lockPool _
  | tokenStatus _ _ | updateSettings _ _ =>
    obtain ⟨_, _, h⟩ := Option.bind_eq_some_iff.mp h
    cases h
    simp only [leftAfter, weigh, Next.frame?, Option.elim_some, Option.elim_none, Frame.left]
    omega

/-- **The launcher descends.** -/
theorem program_descends (env : Env) : (program env).Descends Frame.left where
  positive := Frame.left_pos
  delivered h := by
    obtain ⟨e, rfl, _, hnext⟩ := segment_delivered (Option.map_eq_some_iff.mpr ⟨_, h, rfl⟩)
    cases hnext
    exact Nat.add_lt_add_right (by decide) _
  resumed h := resume_left h

/-- **What the first segment of a method leaves.** -/
theorem receive_left {m : Message} (h : receive env a m st = some (st', next)) :
    leftAfter next ≤ m.calls st := by
  cases m with
  | setBuyOrSell caller recordSignal =>
    obtain ⟨⟨userName, userAvatar⟩, _, h⟩ := Option.bind_eq_some_iff.mp h
    cases h
    exact Nat.le_refl _
  | updateProgress =>
    have hleft := progressNext_left h
    rw [List.length_map, ExtTreeMap.length_toList, ExtTreeMap.size_empty] at hleft
    simp only [Message.calls]
    omega
  | topupPoints caller pointsAmount =>
    obtain ⟨_, _, rfl⟩ | h := topupPoints_cases h
    · exact Nat.zero_le _
    · exact editUser_left_of_empty rfl h
  | editUser caller userInfo => exact editUser_left h
  | createFomo caller fomoCreate =>
    obtain ⟨_, _, rfl⟩ | ⟨fee, cut, hk, h⟩ := createFomo_cases h
    · exact Nat.zero_le _
    · have hcall := callToken_left h
      simp only [TokenCall.left, hk] at hcall
      exact hcall
  | ownershipTransfer caller fomoPid toNewControllerPid =>
    obtain ⟨fee, tokenPid, hk, h⟩ := ownershipTransfer_cases h
    have hcall := callToken_left h
    simp only [TokenCall.left, hk] at hcall
    exact hcall
  | lockPool caller lockPoolPid =>
    obtain ⟨_, rfl⟩ := lockPool_eq h
    exact Nat.le_refl _
  | addTokenControllers caller token user =>
    obtain ⟨_, _, rfl⟩ := addTokenControllers_eq h
    exact Nat.le_refl _
  | replyUpdate _ | spendingPoints _ _ _ | airdropPoints _ _ _ _ =>
    obtain ⟨_, _, h⟩ := Option.map_eq_some_iff.mp h
    cases h
    exact Nat.le_refl _
  | count | countPoint =>
    cases h
    exact Nat.le_refl _

end

end Fomowell.Launcher
