import Fomowell.Launcher.Segments

/-!
# The accounts of the users

Every user's points are accounted for by the records of `POINT_HISTORY_MAP`. A profile `Agrees` with
the sums of its `ADD` and `DEDUCT` records: what it has and what it spent are the grant of twenty and
what was added, or, before the grant, the pre-reward is what was added; and what it spent is what was
deducted. A user without a profile has no such records.

The invariant needs one thing more, that records are kept under the indices drawn so far: the next
record is then a new entry, and overwrites none. `points_accounted` carries it to every schedule.
-/

namespace Fomowell.Launcher

open Std Canister Table Runs Token

/-! ## The law of one profile -/

/-- A profile agrees with the sums of its records. -/
structure UserProfile.Agrees (p : UserProfile) (added deducted : Nat) : Prop where
  granted : ∀ points, p.userPoints = some points →
    points + p.userAllSpendPoints.getD 0 = 20 + added
  waiting : p.userPoints = none →
    p.userPreRewardPoints.getD 0 = added ∧ p.userAllSpendPoints.getD 0 = 0
  spent : p.userAllSpendPoints.getD 0 = deducted

/-- The law of a user, with a profile or without. -/
def Agree (added deducted : Nat) : Option UserProfile → Prop
  | none => added = 0 ∧ deducted = 0
  | some p => p.Agrees added deducted

theorem UserProfile.Edits.agrees {p' : UserProfile} {old? : Option UserProfile}
    {added deducted : Nat} (h : p'.Edits old?) (agree : Agree added deducted old?) :
    p'.Agrees added deducted := by
  cases old? with
  | none =>
    obtain ⟨hpoints, hpre, hspend⟩ := h
    obtain ⟨rfl, rfl⟩ := agree
    refine ⟨fun points hsome => ?_, fun _ => ⟨hpre, hspend⟩, hspend⟩
    rw [hpoints] at hsome
    cases hsome
  | some p =>
    obtain ⟨hpoints, hpre, hspend⟩ := h
    -- a reset changes nothing: without points nothing was spent
    have spend : p'.userAllSpendPoints.getD 0 = p.userAllSpendPoints.getD 0 := by
      rcases hspend with same | ⟨hnone, reset⟩
      · exact same
      · rw [reset, (agree.waiting hnone).2]
    refine ⟨fun points hsome => ?_, fun hnone => ?_, spend.trans agree.spent⟩
    · rw [spend]
      exact agree.granted points (hpoints.symm.trans hsome)
    · rw [spend, hpre]
      exact agree.waiting (hpoints.symm.trans hnone)

/-- What a record of one kind adds to the sum of another. -/
def amountOf (op op' : OpType) (amount : Nat) : Nat := if op = op' then amount else 0

theorem UserProfile.Agrees.initPoints {p : UserProfile} {added deducted : Nat}
    (agree : p.Agrees added deducted) : p.initPoints.Agrees added deducted := by
  unfold UserProfile.initPoints
  cases hpoints : p.userPoints with
  | none =>
    simp only [Option.isNone_none, if_true]
    obtain ⟨hpre, hspend⟩ := agree.waiting hpoints
    refine ⟨fun points hsome => ?_, fun hnone => (nomatch hnone), agree.spent⟩
    cases hsome
    rw [hspend, hpre]
    rfl
  | some n =>
    simp only [Option.isNone_some, Bool.false_eq_true, if_false]
    exact agree

theorem UserProfile.Agrees.addPoints {p : UserProfile} {added deducted : Nat}
    (agree : p.Agrees added deducted) (amount : Nat) :
    (p.addPoints amount).Agrees (amount + added) deducted := by
  unfold UserProfile.addPoints
  cases hpoints : p.userPoints with
  | some n =>
    dsimp only
    refine ⟨fun points hsome => ?_, fun hnone => (nomatch hnone), agree.spent⟩
    cases hsome
    have := agree.granted n hpoints
    dsimp only
    omega
  | none =>
    obtain ⟨hpre, hspend⟩ := agree.waiting hpoints
    cases hold : p.userPreRewardPoints with
    | some preReward =>
      rw [hold, Option.getD_some] at hpre
      dsimp only
      refine ⟨fun points hsome => ?_, fun _ => ⟨?_, hspend⟩, agree.spent⟩
      · cases hsome
      · rw [Option.getD_some, hpre, Nat.add_comm]
    | none =>
      rw [hold, Option.getD_none] at hpre
      dsimp only
      refine ⟨fun points hsome => ?_, fun _ => ⟨?_, hspend⟩, agree.spent⟩
      · cases hsome
      · rw [Option.getD_some, ← hpre, Nat.add_zero]

theorem UserProfile.Agrees.deductPoints {p p' : UserProfile} {added deducted amount : Nat}
    (agree : p.Agrees added deducted) (h : p.deductPoints amount = some p') :
    p'.Agrees added (amount + deducted) := by
  obtain ⟨n, hpoints, h⟩ := Option.bind_eq_some_iff.mp h
  split at h
  · cases h
  · cases h
    have := agree.granted n hpoints
    refine ⟨fun points hsome => ?_, fun hnone => (nomatch hnone), ?_⟩
    · cases hsome
      simp only [Option.getD_some]
      omega
    · rw [Option.getD_some, agree.spent, Nat.add_comm]

/-- A move keeps the law, with its record. -/
theorem UserProfile.Moves.agrees {op : OpType} {amount : Nat} {p p' : UserProfile}
    {added deducted : Nat} (h : Moves op amount p p') (agree : p.Agrees added deducted) :
    p'.Agrees (amountOf op .ADD amount + added) (amountOf op .DEDUCT amount + deducted) := by
  cases h with
  | init =>
    simp only [amountOf, reduceCtorEq, if_false, Nat.zero_add]
    exact agree.initPoints
  | add =>
    simp only [amountOf, reduceCtorEq, if_true, if_false, Nat.zero_add]
    exact agree.addPoints amount
  | deduct deducts =>
    simp only [amountOf, reduceCtorEq, if_true, if_false, Nat.zero_add]
    exact agree.deductPoints deducts

/-! ## The law of the launcher -/

/-- What a record counts for a user, under one kind. -/
def recordAmount (op : OpType) (user : Principal) (record : PointHistory) : Nat :=
  if record.userPid = user ∧ record.opType = op then record.amount.getD 0 else 0

/-- The sum of a user's records of one kind. -/
def recorded (op : OpType) (user : Principal) (st : State) : Nat :=
  sumOf (fun _ => recordAmount op user) st.pointHistoryMap

/-- Every user's account agrees with the records, and records are kept under indices drawn. -/
structure Accounted (st : State) : Prop where
  drawn : ∀ (k : Nat) record, st.pointHistoryMap[k]? = some record → k ≤ st.counter.pointCount
  agree : ∀ user, Agree (recorded .ADD user st) (recorded .DEDUCT user st) st.userProfileMap[user]?

section

variable {st st' : State}

/-- A record under a new index is one more, whatever is summed. -/
theorem sumOf_insert_record (accounted : Accounted st) (record : PointHistory)
    (w : PointHistory → Nat) :
    sumOf (fun _ => w) (st.pointHistoryMap.insert (st.counter.pointCount + 1) record) =
      w record + sumOf (fun _ => w) st.pointHistoryMap := by
  have hnone : st.pointHistoryMap[st.counter.pointCount + 1]? = none := by
    cases hold : st.pointHistoryMap[st.counter.pointCount + 1]? with
    | none => rfl
    | some record => exact absurd (accounted.drawn _ _ hold) (Nat.not_succ_le_self _)
  rw [sumOf_insert, erase_of_get_none hnone]

/-- A record under a new index adds its amount to the sums. -/
theorem recorded_insert (accounted : Accounted st) {record : PointHistory}
    (history : st'.pointHistoryMap =
      st.pointHistoryMap.insert (st.counter.pointCount + 1) record) (op : OpType)
    (user : Principal) :
    recorded op user st' = recordAmount op user record + recorded op user st := by
  unfold recorded
  rw [history]
  exact sumOf_insert_record accounted record (recordAmount op user)

theorem SameAccounts.accounted (same : SameAccounts st st') (accounted : Accounted st) :
    Accounted st' := by
  refine ⟨fun k record hrecord => ?_, fun user => ?_⟩
  · rw [same.history] at hrecord
    exact Nat.le_trans (accounted.drawn k record hrecord) same.count
  · unfold recorded
    rw [same.history, same.profiles]
    exact accounted.agree user

/-- **One step keeps every account.** -/
theorem PointStep.accounted (h : PointStep st st') (accounted : Accounted st) : Accounted st' := by
  cases h with
  | same same => exact same.accounted accounted
  | edited user p' edits profiles history count =>
    refine ⟨fun k record hrecord => ?_, fun user' => ?_⟩
    · rw [history] at hrecord
      exact Nat.le_trans (accounted.drawn k record hrecord) count
    · have agree := accounted.agree user'
      unfold recorded at agree ⊢
      rw [history, profiles, get_insert]
      split
      next same =>
        subst same
        exact edits.agrees agree
      next => exact agree
  | moved user p p' op amount record stored moves profiles history count about =>
    obtain ⟨huser, hop, hamount⟩ := about
    refine ⟨fun k record' hrecord => ?_, fun user' => ?_⟩
    · rw [count]
      rw [history, get_insert] at hrecord
      split at hrecord
      next same => exact Nat.le_of_eq same
      next => exact Nat.le_succ_of_le (accounted.drawn k record' hrecord)
    · rw [recorded_insert accounted history, recorded_insert accounted history, profiles,
        get_insert]
      unfold recordAmount
      rw [huser, hop, hamount, Option.getD_some]
      have agree := accounted.agree user'
      by_cases hne : user' = user
      · subst hne
        rw [stored] at agree
        simp only [true_and, if_true]
        exact moves.agrees agree
      · rw [if_neg (fun e => hne e.1.symm), if_neg (fun e => hne e.1.symm), if_neg hne,
          Nat.zero_add, Nat.zero_add]
        exact agree

/-- A segment keeps every account. -/
theorem PointSteps.accounted (h : PointSteps st st') (accounted : Accounted st) :
    Accounted st' := by
  induction h with
  | refl => exact accounted
  | tail _ step ih => exact step.accounted ih

end

theorem accounted_init (env : Env) (caller : Principal) (time : Nat) (addrConfig : AddrConfig)
    (icpAddr : Principal) : Accounted (init env caller time addrConfig icpAddr) := by
  refine ⟨fun k record h => ?_, fun user => ?_⟩
  · rw [init, ExtTreeMap.getElem?_empty] at h
    cases h
  · rw [init, ExtTreeMap.getElem?_empty]
    exact ⟨rfl, rfl⟩

/-- **Every point is accounted for**: in every reachable launcher, the profile of a user agrees with
the sums of the user's records. -/
theorem points_accounted (env : Env) (caller : Principal) (time : Nat) (addrConfig : AddrConfig)
    (icpAddr : Principal) (choices : List Choice) (user : Principal) (p : UserProfile)
    (stored : (choices.foldl (program env).step
      (Sys.start (init env caller time addrConfig icpAddr))).state.userProfileMap[user]? = some p) :
    p.Agrees
      (recorded .ADD user (choices.foldl (program env).step
        (Sys.start (init env caller time addrConfig icpAddr))).state)
      (recorded .DEDUCT user (choices.foldl (program env).step
        (Sys.start (init env caller time addrConfig icpAddr))).state) := by
  have accounted := state_invariant (P := program env) (I := Accounted)
    (fun a cause st st' next hsegment => (segment_effect hsegment).points.accounted)
    (accounted_init env caller time addrConfig icpAddr) choices
  have agree := accounted.agree user
  rw [stored] at agree
  exact agree

/-- The creator of the sample project has the grant and the reward for it. -/
theorem points_accounted_sample :
    ∃ p, (sampleSchedule.foldl (program sampleEnv).step sampleStart).state.userProfileMap[sampleUser]? =
        some p ∧ p.userPoints = some 30 ∧
      p.Agrees
        (recorded .ADD sampleUser (sampleSchedule.foldl (program sampleEnv).step sampleStart).state)
        (recorded .DEDUCT sampleUser (sampleSchedule.foldl (program sampleEnv).step sampleStart).state) := by
  have hstored : ((sampleSchedule.foldl (program sampleEnv).step
      sampleStart).state.userProfileMap[sampleUser]?.any fun p => p.userPoints = some 30) = true := by
    decide +kernel
  obtain ⟨p, hp, hpoints⟩ := (Option.any_eq_true _ _).mp hstored
  exact ⟨p, hp, of_decide_eq_true hpoints, points_accounted _ _ _ _ _ _ _ p hp⟩

end Fomowell.Launcher
