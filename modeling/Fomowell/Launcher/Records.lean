import Fomowell.Launcher.Accounts
import Fomowell.Launcher.Duties

/-!
# What a segment records

The cause of a segment says which records it adds to `POINT_HISTORY_MAP`, if it ends: `movesOf` lists
them. `Does.lays` is the one inversion for the history: the records lie under the next indices, one
after another. Records are never changed, since each has a new index, so a sum by the moves grows by
the sum over what the segment adds (`Does.adds`), whatever it sums.
-/

namespace Fomowell.Launcher

open Std Canister Table Token

/-- What a record says, but for its time and its index. -/
structure Move where
  userPid : Principal
  opType : OpType
  busiName : String
  amount : Option Nat

def PointHistory.move (record : PointHistory) : Move where
  userPid := record.userPid
  opType := record.opType
  busiName := record.busiName
  amount := record.amount

/-- A number summed over the records. -/
def State.sumMoves (st : State) (w : Move → Nat) : Nat :=
  sumOf (fun _ (record : PointHistory) => w record.move) st.pointHistoryMap

/-- The records of some moves are added. -/
def Adds (st st' : State) (moves : List Move) : Prop :=
  ∀ w : Move → Nat, st'.sumMoves w = (moves.map w).sum + st.sumMoves w

/-- The moves that a segment records, latest first. -/
def movesOf : Cause Message Frame Rep → List Move
  | .received (.spendingPoints _ userPid busiName) =>
    [⟨userPid, .DEDUCT, busiName, spendingAmount busiName⟩]
  | .received (.airdropPoints _ userPid amount busiName) => [⟨userPid, .ADD, busiName, some amount⟩]
  | .delivered (.spendingPoints e) => [⟨e.caller, .DEDUCT, "EDIT_AVATAR", some 8⟩]
  | .resumed (.ledger _ (.transferFrom charge)) reply =>
    match charge.k, transferFromResult reply with
    | .topupPoints pointsAmount, .ok _ =>
      [⟨charge.sender, .ADD, "TOPUP", some pointsAmount⟩, ⟨charge.sender, .INIT, "INIT", some 20⟩]
    | _, _ => []
  | .resumed (.installCode c) _ =>
    [⟨c.caller, .ADD, "CREATEFOMO", some 10⟩, ⟨c.caller, .INIT, "INIT", some 20⟩]
  | _ => []

/-- The records of some moves, latest first, are stored under the indices that are drawn next. -/
inductive Lays (st : State) : List Move → State → Prop
  | nothing {st'} (history : st'.pointHistoryMap = st.pointHistoryMap) : Lays st [] st'
  | record {moves move st' st''} (earlier : Lays st moves st') (record : PointHistory)
      (about : record.move = move)
      (history : st''.pointHistoryMap =
        st'.pointHistoryMap.insert (st.counter.pointCount + moves.length + 1) record) :
    Lays st (move :: moves) st''

section

variable {env : Env} {time : Nat} {st mid st' : State} {moves : List Move}

/-! ## Additions -/

/-- No record lies above the indices that the moves take. -/
theorem Lays.drawn (h : Lays st moves st')
    (drawn : ∀ (k : Nat) record, st.pointHistoryMap[k]? = some record → k ≤ st.counter.pointCount) :
    ∀ (k : Nat) record, st'.pointHistoryMap[k]? = some record →
      k ≤ st.counter.pointCount + moves.length := by
  induction h with
  | nothing history =>
    rw [history]
    exact drawn
  | record earlier record about history ih =>
    rw [history]
    exact forall_get_insert (fun k record hrecord => Nat.le_succ_of_le (ih k record hrecord))
      (Nat.le_refl _)

/-- So each record is stored where there is none. -/
theorem Lays.fresh (h : Lays st moves st')
    (drawn : ∀ (k : Nat) record, st.pointHistoryMap[k]? = some record → k ≤ st.counter.pointCount) :
    st'.pointHistoryMap[st.counter.pointCount + moves.length + 1]? = none := by
  cases hold : st'.pointHistoryMap[st.counter.pointCount + moves.length + 1]? with
  | none => rfl
  | some record => exact absurd (h.drawn drawn _ record hold) (Nat.not_succ_le_self _)

/-- The latest move has its record. -/
theorem Lays.latest {move : Move} (h : Lays st (move :: moves) st') :
    ∃ record, st'.pointHistoryMap[st.counter.pointCount + moves.length + 1]? = some record ∧
      record.move = move := by
  cases h with
  | record earlier record about history =>
    rw [history, ExtTreeMap.getElem?_insert_self]
    exact ⟨record, rfl, about⟩

/-- A record that is laid under a new index is added to every sum. -/
theorem Lays.adds (h : Lays st moves st')
    (drawn : ∀ (k : Nat) record, st.pointHistoryMap[k]? = some record → k ≤ st.counter.pointCount) :
    Adds st st' moves := by
  intro w
  induction h with
  | nothing history =>
    unfold State.sumMoves
    rw [history]
    exact (Nat.zero_add _).symm
  | record earlier record about history ih =>
    have fresh := earlier.fresh drawn
    rw [List.map_cons, List.sum_cons, Nat.add_assoc, ← ih, ← about]
    unfold State.sumMoves
    rw [history, sumOf_insert, erase_of_get_none fresh]

/-! ## Functions that record -/

/-- The three functions write a profile and its record. -/
theorem Lays.recorded {user : Principal} {p' : UserProfile} {op : OpType} {busiName : String}
    {amount : Nat} {written : State} (earlier : Lays st moves mid)
    (count : mid.counter.pointCount = st.counter.pointCount + moves.length)
    (hwrite : mid.insertProfile env user p' = some written)
    (h : recordPoints env time user op busiName amount written = some st') :
    Lays st (⟨user, op, busiName, some amount⟩ :: moves) st' ∧
      st'.counter.pointCount = st.counter.pointCount + moves.length + 1 := by
  rw [recordPoints_eq hwrite h]
  refine ⟨.record earlier
    { time, idx := mid.counter.pointCount + 1, userPid := user, opType := op, busiName
      amount := some amount } rfl ?_, congrArg Nat.succ count⟩
  rw [← count]
  rfl

theorem initPoints_lays {user : Principal} (earlier : Lays st moves mid)
    (count : mid.counter.pointCount = st.counter.pointCount + moves.length)
    (h : initPoints env time user mid = some st') :
    Lays st (⟨user, .INIT, "INIT", some 20⟩ :: moves) st' ∧
      st'.counter.pointCount = st.counter.pointCount + moves.length + 1 := by
  obtain ⟨p, _, h⟩ := Option.bind_eq_some_iff.mp h
  obtain ⟨written, hwrite, h⟩ := Option.bind_eq_some_iff.mp h
  exact earlier.recorded count hwrite h

theorem addPoints_lays {amount : Nat} {user : Principal} {busiName : String}
    (earlier : Lays st moves mid)
    (count : mid.counter.pointCount = st.counter.pointCount + moves.length)
    (h : addPoints env time amount user busiName mid = some st') :
    Lays st (⟨user, .ADD, busiName, some amount⟩ :: moves) st' := by
  obtain ⟨p, _, h⟩ := Option.bind_eq_some_iff.mp h
  obtain ⟨written, hwrite, h⟩ := Option.bind_eq_some_iff.mp h
  exact (earlier.recorded count hwrite h).1

theorem spendingPoints_lays {caller userPid : Principal} {busiName : String}
    (h : spendingPoints env time caller userPid busiName st = some st') :
    Lays st [⟨userPid, .DEDUCT, busiName, spendingAmount busiName⟩] st' := by
  unfold spendingPoints at h
  split at h
  · cases h
  · obtain ⟨amount, hamount, h⟩ := Option.bind_eq_some_iff.mp h
    obtain ⟨p, _, h⟩ := Option.bind_eq_some_iff.mp h
    obtain ⟨p', _, h⟩ := Option.bind_eq_some_iff.mp h
    obtain ⟨written, hwrite, h⟩ := Option.bind_eq_some_iff.mp h
    rw [hamount]
    exact (Lays.recorded (.nothing rfl) rfl hwrite h).1

theorem Rewards.lays {amount : Nat} {user : Principal} {busiName : String}
    (h : Rewards env time amount user busiName mid st')
    (history : mid.pointHistoryMap = st.pointHistoryMap)
    (count : mid.counter.pointCount = st.counter.pointCount) :
    Lays st [⟨user, .ADD, busiName, some amount⟩, ⟨user, .INIT, "INIT", some 20⟩] st' := by
  obtain ⟨granted, hgrant, hadd⟩ := h
  obtain ⟨grants, hcount⟩ := initPoints_lays (.nothing history) count hgrant
  exact addPoints_lays grants hcount hadd

theorem chargeReturn_lays {a : Ambient} {type : TokenType} {charge : Charge}
    {reply : CallResult (Except String Nat)} {next : Next Frame Answer}
    (ok : transferFromResult reply = .ok ())
    (h : chargeReturn env a.time charge st = some (st', next)) :
    Lays st (movesOf (.resumed (.ledger type (.transferFrom charge)) reply)) st' := by
  obtain ⟨_, hk, _, rewards⟩ | ⟨_, hk, rfl, _⟩ | ⟨hk, rfl, _⟩ := chargeReturn_cases h
  · simp only [movesOf, hk, ok]
    exact rewards.lays rfl rfl
  · simp only [movesOf, hk]
    exact .nothing rfl
  · simp only [movesOf, hk]
    exact .nothing rfl

theorem createFomoInstalled_lays {c : Created} {res : CallResult Unit} {next : Next Frame Answer}
    (h : createFomoInstalled env time c res st = some (st', next)) :
    Lays st (movesOf (.resumed (.installCode c) res)) st' := by
  obtain ⟨stored, _, same, count, rewards, _⟩ := createFomoInstalled_cases h
  exact rewards.lays same.history count

/-- A cause that passes adds no record. -/
theorem movesOf_of_passes {cause : Cause Message Frame Rep} (h : causePasses cause = true) :
    movesOf cause = [] := by
  unfold movesOf
  split
  next => cases h
  next => cases h
  next => cases h
  next => cases h
  next => cases h
  next => rfl

/-- **What a segment records** is what its cause says. -/
theorem Does.lays {a : Ambient} {cause : Cause Message Frame Rep} {frame? : Option Frame}
    (does : Does env a st cause st' frame?) : Lays st (movesOf cause) st' := by
  cases does with
  | idle passes keeps free =>
    rw [movesOf_of_passes passes]
    exact .nothing keeps.history
  | looked keeps => exact .nothing keeps.history
  | replied ends =>
    obtain ⟨v, _, ends⟩ := Option.bind_eq_some_iff.mp ends
    exact .nothing (insertProject_accounts ends).history
  | spent ends => exact spendingPoints_lays ends
  | airdropped ends =>
    unfold airdropPoints at ends
    split at ends
    · cases ends
    · exact addPoints_lays (.nothing rfl) rfl ends
  | began passes keeps has asks =>
    rw [movesOf_of_passes passes]
    exact .nothing keeps.history
  | beganUpload passes absent asks =>
    rw [movesOf_of_passes passes]
    exact .nothing rfl
  | deducted ends => exact spendingPoints_lays ends
  | refused => exact .nothing rfl
  | uploaded => exact .nothing rfl
  | wrote duty ends keeps free =>
    obtain rfl | ⟨url, rfl⟩ := Frame.of_edit_duty duty
    · exact .nothing keeps.history
    · exact .nothing keeps.history
  | charged ok ends => exact chargeReturn_lays ok ends
  | traded ends =>
    obtain ⟨_, _, _, _, same, _⟩ := setBuyOrSellSupply_stores ends
    exact .nothing same.history
  | finished passes ends free =>
    rw [movesOf_of_passes passes]
    exact .nothing (finishProgress_accounts ends).history
  | installed ends => exact createFomoInstalled_lays ends
  | removed owes => exact .nothing rfl

theorem Does.adds {a : Ambient} {cause : Cause Message Frame Rep} {frame? : Option Frame}
    (does : Does env a st cause st' frame?) (accounted : Accounted st) :
    Adds st st' (movesOf cause) :=
  does.lays.adds accounted.drawn

end

end Fomowell.Launcher
