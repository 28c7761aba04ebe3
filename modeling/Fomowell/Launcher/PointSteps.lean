import Mathlib.Logic.Relation
import Fomowell.Launcher.User

/-!
# What a segment does to points

A segment changes profiles and the point history by a sequence of `PointStep`s: an edit, which moves
no points, or a move of points, which writes the profile and its record together. The lemmas here
give the steps of the functions that do either; the invariant of the accounts is derived from the
steps alone.
-/

namespace Fomowell.Launcher

open Std Token

/-! ## Steps -/

/-- An edit of a profile: a new one is empty, and an old one keeps its points and its pre-reward. What
it spent may be reset where it has no points. -/
def UserProfile.Edits (p' : UserProfile) : Option UserProfile → Prop
  | none =>
    p'.userPoints = none ∧ p'.userPreRewardPoints.getD 0 = 0 ∧ p'.userAllSpendPoints.getD 0 = 0
  | some p =>
    p'.userPoints = p.userPoints ∧
      p'.userPreRewardPoints.getD 0 = p.userPreRewardPoints.getD 0 ∧
      (p'.userAllSpendPoints.getD 0 = p.userAllSpendPoints.getD 0 ∨
        p.userPoints = none ∧ p'.userAllSpendPoints.getD 0 = 0)

/-- A move of points, under the name that its record gives it. -/
inductive UserProfile.Moves : OpType → Nat → UserProfile → UserProfile → Prop
  | init (p : UserProfile) : Moves .INIT 20 p p.initPoints
  | add (p : UserProfile) (amount : Nat) : Moves .ADD amount p (p.addPoints amount)
  | deduct {p p' : UserProfile} {amount : Nat} (deducts : p.deductPoints amount = some p') :
    Moves .DEDUCT amount p p'

/-- Profiles and records are the same; at most an index is drawn. -/
structure SameAccounts (st st' : State) : Prop where
  profiles : st'.userProfileMap = st.userProfileMap
  history : st'.pointHistoryMap = st.pointHistoryMap
  count : st.counter.pointCount ≤ st'.counter.pointCount

theorem SameAccounts.refl (st : State) : SameAccounts st st := ⟨rfl, rfl, Nat.le_refl _⟩

theorem SameAccounts.trans {st st' st'' : State} (h : SameAccounts st st')
    (h' : SameAccounts st' st'') : SameAccounts st st'' :=
  ⟨h'.profiles.trans h.profiles, h'.history.trans h.history, Nat.le_trans h.count h'.count⟩

/-- One step of the accounts. -/
inductive PointStep (st st' : State) : Prop
  /-- Nobody's account changes. -/
  | same (same : SameAccounts st st')
  /-- A profile is edited. -/
  | edited (user : Principal) (p' : UserProfile) (edits : p'.Edits st.userProfileMap[user]?)
      (profiles : st'.userProfileMap = st.userProfileMap.insert user p')
      (history : st'.pointHistoryMap = st.pointHistoryMap)
      (count : st.counter.pointCount ≤ st'.counter.pointCount)
  /-- Points are moved, and recorded under the next index. -/
  | moved (user : Principal) (p p' : UserProfile) (op : OpType) (amount : Nat)
      (record : PointHistory) (stored : st.userProfileMap[user]? = some p)
      (moves : UserProfile.Moves op amount p p')
      (profiles : st'.userProfileMap = st.userProfileMap.insert user p')
      (history : st'.pointHistoryMap =
        st.pointHistoryMap.insert (st.counter.pointCount + 1) record)
      (count : st'.counter.pointCount = st.counter.pointCount + 1)
      (about : record.userPid = user ∧ record.opType = op ∧ record.amount = some amount)

/-- Any number of steps. -/
abbrev PointSteps : State → State → Prop := Relation.ReflTransGen PointStep

section

variable {env : Env} {time : Nat} {st st' : State}

/-- Where the accounts stay, no point moves. -/
theorem SameAccounts.points (h : SameAccounts st st') : PointSteps st st' := .single (.same h)

/-! ## The functions that move points -/

/-- The state after a profile and its record are written. -/
def State.withRecord (st : State) (user : Principal) (p' : UserProfile) (record : PointHistory) :
    State :=
  { st with
    counter := { st.counter with pointCount := st.counter.pointCount + 1 }
    userProfileMap := st.userProfileMap.insert user p'
    pointHistoryMap := st.pointHistoryMap.insert (st.counter.pointCount + 1) record }

/-- The three functions write the profile and then its record. -/
theorem recordPoints_eq {user : Principal} {p' : UserProfile} {op : OpType} {busiName : String}
    {amount : Nat} {written : State} (hwrite : st.insertProfile env user p' = some written)
    (h : recordPoints env time user op busiName amount written = some st') :
    st' = st.withRecord user p'
      { time, idx := st.counter.pointCount + 1, userPid := user, opType := op, busiName
        amount := some amount } := by
  unfold State.insertProfile at hwrite
  split at hwrite
  · cases hwrite
    unfold recordPoints State.insertHistory at h
    dsimp only at h
    split at h
    · cases h
      rfl
    · cases h
  · cases hwrite

/-- Where the profile and the record fit, both are written. -/
theorem recordPoints_of_fits {user : Principal} {p' : UserProfile} {op : OpType}
    {busiName : String} {amount : Nat} (profile : env.profileSize p' ≤ 2048)
    (record : env.historySize
      { time, idx := st.counter.pointCount + 1, userPid := user, opType := op, busiName
        amount := some amount } ≤ 4096) :
    (st.insertProfile env user p').bind (recordPoints env time user op busiName amount) =
      some (st.withRecord user p'
        { time, idx := st.counter.pointCount + 1, userPid := user, opType := op, busiName
          amount := some amount }) := by
  unfold State.insertProfile
  rw [if_pos profile, Option.bind_some]
  unfold recordPoints State.insertHistory
  exact if_pos record

/-- A profile with its points moved, and the record of it, are one step. -/
theorem moved_of_record {user : Principal} {p p' : UserProfile} {op : OpType} {busiName : String}
    {amount : Nat} {written : State} (stored : st.userProfileMap[user]? = some p)
    (moves : UserProfile.Moves op amount p p') (hwrite : st.insertProfile env user p' = some written)
    (h : recordPoints env time user op busiName amount written = some st') : PointSteps st st' := by
  rw [recordPoints_eq hwrite h]
  exact .single (.moved user p p' op amount _ stored moves rfl rfl rfl ⟨rfl, rfl, rfl⟩)

/-- `init_points` moves the initial points to a profile. -/
theorem initPoints_points {user : Principal} (h : initPoints env time user st = some st') :
    PointSteps st st' := by
  obtain ⟨p, hp, h⟩ := Option.bind_eq_some_iff.mp h
  obtain ⟨written, hwrite, h⟩ := Option.bind_eq_some_iff.mp h
  exact moved_of_record hp (.init p) hwrite h

/-- `add_points` adds the amount it records. -/
theorem addPoints_points {amount : Nat} {user : Principal} {busiName : String}
    (h : addPoints env time amount user busiName st = some st') : PointSteps st st' := by
  obtain ⟨p, hp, h⟩ := Option.bind_eq_some_iff.mp h
  obtain ⟨written, hwrite, h⟩ := Option.bind_eq_some_iff.mp h
  exact moved_of_record hp (.add p amount) hwrite h

/-- `deduct_points` takes the amount it records, which the profile has. -/
theorem deductPoints_points {amount : Nat} {user : Principal} {busiName : String}
    (h : deductPoints env time amount user busiName st = some st') : PointSteps st st' := by
  obtain ⟨p, hp, h⟩ := Option.bind_eq_some_iff.mp h
  obtain ⟨p', deducts, h⟩ := Option.bind_eq_some_iff.mp h
  obtain ⟨written, hwrite, h⟩ := Option.bind_eq_some_iff.mp h
  exact moved_of_record hp (.deduct deducts) hwrite h

/-! ## The edits of `edit_user` -/

/-- A write that edits a profile leaves its points. -/
theorem insertProfile_points {user : Principal} {p' : UserProfile}
    (edits : p'.Edits st.userProfileMap[user]?) (h : st.insertProfile env user p' = some st') :
    PointSteps st st' := by
  unfold State.insertProfile at h
  split at h
  · cases h
    exact .single (.edited user p' edits rfl rfl (Nat.le_refl _))
  · cases h

/-- The profile that the first segment of `edit_user` writes. -/
theorem edits_of_reset (p : UserProfile) :
    (if p.userPoints = none ∧ p.userAllSpendPoints = none then
      { p with userAllSpendPoints := some 0 } else p).Edits (some p) := by
  split
  next reset => exact ⟨rfl, rfl, .inr ⟨reset.1, rfl⟩⟩
  next => exact ⟨rfl, rfl, .inl rfl⟩

/-- `edit_user` sets the name and the avatar, of the profile stored then. -/
theorem Edit.write_edits {e : Edit} {imageUrl : String} {old? : Option UserProfile}
    {p' : UserProfile} (h : e.write env time imageUrl old? = some p') : p'.Edits old? := by
  cases old? with
  | none =>
    obtain ⟨userName, _, h⟩ := Option.bind_eq_some_iff.mp h
    cases h
    exact ⟨rfl, rfl, rfl⟩
  | some p =>
    cases h
    refine ⟨rfl, rfl, ?_⟩
    unfold Edit.apply
    by_cases hp : p.userPoints = none
    · exact .inr ⟨hp, by simp only [hp, if_true, Option.getD_some]⟩
    · exact .inl (by simp only [hp, if_false, Option.getD_some])

end

end Fomowell.Launcher
