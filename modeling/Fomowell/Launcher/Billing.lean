import Fomowell.Launcher.Projects

/-!
# What `create_fomo` is paid for

A run of `create_fomo` charges its caller and then draws the index of its project; the project is
stored at its very end. `Billed` follows every run: one that holds an index has charged exactly once,
and a run that is over either never charged, or has stored its project, or trapped in between. What
a trap leaves behind is then for good: the index is drawn and nobody holds it, so nothing is ever
stored there (`Lost`).

No segment returns a charge. `createFomo_billed` is what holds of every run that is over, and
`not_createFomo_charges_iff` is a run that charged and stored nothing.
-/

namespace Fomowell.Launcher

open Std Canister Table Token

/-! ## What a run did -/

theorem drawn_le_one (idx : Nat) (st : State) : drawn idx st ≤ 1 := by
  unfold drawn
  split <;> omega

/-- The index that a segment draws for a project. -/
def drawnIndex (entry : Entry Message Frame Answer Rep) : Option Nat :=
  match entry.outcome with
  | some (.awaits (.createToken c)) => if paidBy entry.cause then some c.idx else none
  | _ => none

/-- Whether a segment draws an index. -/
def drawsIndex (idx : Nat) (entry : Entry Message Frame Answer Rep) : Nat :=
  if drawnIndex entry = some idx then 1 else 0

/-- How often the segments of a run charged for a project. -/
def charges (history : List (Entry Message Frame Answer Rep)) : Nat :=
  history.countP fun entry => paidBy entry.cause

theorem charges_cons (entry : Entry Message Frame Answer Rep)
    (history : List (Entry Message Frame Answer Rep)) :
    charges (entry :: history) = charges history + if paidBy entry.cause then 1 else 0 :=
  List.countP_cons

/-- The project of a run is stored: under the index that the run drew. -/
def Delivered (s : System) (run : Nat) : Prop :=
  ∃ idx ∈ (s.history run).filterMap drawnIndex, s.state.fomoProjectMap[idx]?.isSome

/-- The last segment of a run trapped. -/
def Trapped (s : System) (run : Nat) : Prop :=
  ∃ entry, (s.history run).head? = some entry ∧ entry.outcome = none

/-- The index that a role holds. -/
def Role.index? : Role → Option Nat
  | .creates idx => some idx
  | _ => none

theorem Role.eq_creates {r : Role} {idx : Nat} (h : r.index? = some idx) : r = .creates idx := by
  cases r with
  | creates i =>
    cases h
    rfl
  | _ => cases h

theorem Role.holds_of_index {r : Role} {idx : Nat} (h : r.index? = some idx) :
    r.holds idx = 1 := by
  rw [Role.eq_creates h]
  exact if_pos rfl

theorem drawnIndex_of_unpaid {run : Nat} {cause : Cause Message Frame Rep}
    (h : paidBy cause = false) (outcome : Option (Next Frame Answer)) :
    drawnIndex ⟨run, cause, outcome⟩ = none := by
  unfold drawnIndex
  split
  · rw [h]
    rfl
  · rfl

/-- A segment pays and draws an index; or its run keeps the index that it holds, or none; or its run
stores what it held the index for. -/
theorem ProjectStep.index_cases {env : Env} {paid : Bool} {st st' : State} {r r' : Role}
    (step : ProjectStep env st paid r st' r') :
    (paid = true ∧ r.index? = none) ∨ (paid = false ∧ r'.index? = r.index?) ∨
      (paid = false ∧ r'.index? = none ∧ ∃ idx, r.index? = some idx ∧ stored idx st' = 1) := by
  cases step with
  | drew projects count => exact .inl ⟨rfl, rfl⟩
  | created c stores =>
    refine .inr (.inr ⟨rfl, rfl, c.idx, rfl, ?_⟩)
    unfold stored
    rw [stores.projects, ExtTreeMap.getElem?_insert_self]
    rfl
  | quiet same role => cases role <;> exact .inr (.inl ⟨rfl, rfl⟩)
  | counted projects count => exact .inr (.inl ⟨rfl, rfl⟩)
  | replied stored stores => exact .inr (.inl ⟨rfl, rfl⟩)
  | read stored => exact .inr (.inl ⟨rfl, rfl⟩)
  | traded same marker stores => exact .inr (.inl ⟨rfl, rfl⟩)
  | finished ends =>
    obtain ⟨acc, _, h⟩ := Option.bind_eq_some_iff.mp ends
    obtain ⟨_, ⟨_, hnext⟩ | ⟨_, _, _, _, hnext, _⟩⟩ := handOffNext_cases h <;> rw [hnext] <;>
      exact .inr (.inl ⟨rfl, rfl⟩)
  | handedOff ends =>
    rcases updateProgressHandOff_cases ends with ⟨_, _, hnext, _⟩ | ⟨_, h⟩
    · rw [hnext]
      exact .inr (.inl ⟨rfl, rfl⟩)
    · obtain ⟨_, ⟨_, hnext⟩ | ⟨_, _, _, _, hnext, _⟩⟩ := handOffNext_cases h <;> rw [hnext] <;>
        exact .inr (.inl ⟨rfl, rfl⟩)

/-- Indices are only drawn upwards. -/
theorem ProjectStep.count_le {env : Env} {paid : Bool} {st st' : State} {r r' : Role}
    (step : ProjectStep env st paid r st' r') (keyed : Keyed st) :
    st.counter.count ≤ st'.counter.count := by
  cases step with
  | quiet same role => exact Nat.le_of_eq same.2.symm
  | counted projects count => exact Nat.le_of_lt (Nat.lt_of_succ_le (Nat.le_of_eq count.symm))
  | drew projects count => exact Nat.le_of_lt (Nat.lt_of_succ_le (Nat.le_of_eq count.symm))
  | created c stores => exact Nat.le_of_eq stores.count.symm
  | replied stored stores => exact Nat.le_of_eq stores.count.symm
  | read stored => exact Nat.le_refl _
  | traded same marker stores => exact Nat.le_of_eq stores.count.symm
  | finished ends =>
    obtain ⟨acc, wrote, hnext⟩ := finishProgress_cases ends keyed
    obtain ⟨rfl, _⟩ := handOffNext_cases hnext
    exact Nat.le_of_eq wrote.count.symm
  | handedOff ends =>
    rw [(updateProgressHandOff_eq ends).1]

theorem drawn_le_of_count_le {st st' : State} (h : st.counter.count ≤ st'.counter.count)
    (idx : Nat) : drawn idx st ≤ drawn idx st' := by
  unfold drawn
  split_ifs <;> omega

/-! ## The bill of a run -/

/-- A history that drew some indices, and charged once for each. -/
structure Draws (history : List (Entry Message Frame Answer Rep)) (indices : List Nat) : Prop where
  drew : history.filterMap drawnIndex = indices
  charged : charges history = indices.length

/-- An index that was drawn and will never have a project. -/
structure Lost (s : System) (idx : Nat) : Prop where
  isDrawn : drawn idx s.state = 1
  unused : sumOf (fun _ frame => frame.role.holds idx) s.suspended + stored idx s.state = 0

/-- A run that is over: it charged nothing; or it stored its project, and did not trap; or it trapped,
and lost its index. -/
def Over (s : System) (run : Nat) : Prop :=
  Draws (s.history run) [] ∨
    ∃ idx, Draws (s.history run) [idx] ∧
      ((¬ Trapped s run ∧ stored idx s.state = 1) ∨ (Trapped s run ∧ Lost s idx))

/-- The bill of a run, by where it is suspended: a run drew what it holds. -/
def Bill (s : System) (run : Nat) : Option Frame → Prop
  | some frame => Draws (s.history run) frame.role.index?.toList
  | none => Over s run

/-- Every run has its bill, and no index is drawn twice. -/
structure Billed (s : System) : Prop where
  inv : Inv s
  fresh : ∀ idx, s.tally (drawsIndex idx) ≤ drawn idx s.state
  bill : ∀ run, Bill s run s.suspended[run]?

section

variable {env : Env} {s : System} {a : Ambient} {run : Nat} {cause : Cause Message Frame Rep}

theorem Draws.unpaid {history : List (Entry Message Frame Answer Rep)} {indices : List Nat}
    (h : Draws history indices) (hpaid : paidBy cause = false)
    (outcome : Option (Next Frame Answer)) : Draws (⟨run, cause, outcome⟩ :: history) indices := by
  refine ⟨?_, ?_⟩
  · rw [List.filterMap_cons_none (drawnIndex_of_unpaid hpaid outcome)]
    exact h.drew
  · rw [charges_cons, hpaid]
    exact h.charged

/-- What is lost stays lost. -/
theorem Lost.after {idx : Nat} (lost : Lost s idx) (inv : Inv s) (enabled : s.Enabled run cause) :
    Lost (s.after run cause ((program env).segment a cause s.state)) idx := by
  have hsum := sumOf_after (fun frame : Frame => frame.role.holds idx) enabled inv.ordered
    ((program env).segment a cause s.state)
  rw [weigh_role (w := Role.holds idx) rfl, weigh_role (w := Role.holds idx) rfl] at hsum
  have hkept := (inv.kept env a enabled).owned idx
  have hle := drawn_le_one idx (s.after run cause ((program env).segment a cause s.state)).state
  have := lost.isDrawn
  have := lost.unused
  exact ⟨by omega, by omega⟩

theorem stored_eq_one {idx : Nat} {st : State} :
    stored idx st = 1 ↔ st.fomoProjectMap[idx]?.isSome := by
  unfold stored
  split <;> simp_all

/-- The bill of another run stands. -/
theorem Bill.after {run' : Nat} {frame? : Option Frame} (bill : Bill s run' frame?) (inv : Inv s)
    (enabled : s.Enabled run cause) (hne : run' ≠ run) :
    Bill (s.after run cause ((program env).segment a cause s.state)) run' frame? := by
  have history := history_after_of_ne s cause ((program env).segment a cause s.state) hne
  have evolves := (inv.kept env a enabled).evolves
  cases frame? with
  | some frame =>
    unfold Bill
    rw [history]
    exact bill
  | none =>
    unfold Bill Over Trapped
    rw [history]
    rcases bill with nothing | ⟨idx, draws, ⟨trapped, hstored⟩ | ⟨trapped, lost⟩⟩
    · exact .inl nothing
    · obtain ⟨p, hp⟩ := Option.isSome_iff_exists.mp (stored_eq_one.mp hstored)
      exact .inr ⟨idx, draws, .inl ⟨trapped, stored_of_known (evolves idx p (.of_get hp))⟩⟩
    · exact .inr ⟨idx, draws, .inr ⟨trapped, lost.after inv enabled⟩⟩

/-- Before a segment, its run drew what it holds. -/
theorem Billed.draws (billed : Billed s) (enabled : s.Enabled run cause) :
    Draws (s.history run) (roleOf cause.frame?).index?.toList := by
  cases cause with
  | received message =>
    rw [history_eq_nil billed.inv.ordered (Nat.le_of_eq enabled.symm)]
    exact ⟨rfl, rfl⟩
  | delivered frame =>
    have bill := billed.bill run
    rw [enabled.get_eq billed.inv.ordered] at bill
    exact bill
  | resumed frame reply =>
    have bill := billed.bill run
    rw [enabled.get_eq billed.inv.ordered] at bill
    exact bill

/-- A run that traps with an index loses it. -/
theorem Inv.lost (inv : Inv s) {idx : Nat} (enabled : s.Enabled run cause)
    (h : (roleOf cause.frame?).index? = some idx) : Lost (s.after run cause none) idx := by
  have hsum := sumOf_after (fun frame : Frame => frame.role.holds idx) enabled inv.ordered none
  rw [weigh_role (w := Role.holds idx) rfl, weigh_role (w := Role.holds idx) rfl,
    Role.holds_of_index h] at hsum
  have howned := inv.owned idx
  have hle := drawn_le_one idx s.state
  have hzero : (roleOf (frameOf (none : Segment))).holds idx = 0 := rfl
  rw [hzero] at hsum
  refine ⟨?_, ?_⟩
  · change drawn idx s.state = 1
    omega
  · change sumOf _ _ + stored idx s.state = 0
    omega

/-- A segment that traps pays for nothing. -/
theorem paidBy_of_trap {st : State} (h : (program env).segment a cause st = none) :
    paidBy cause = false := by
  cases hpaid : paidBy cause with
  | false => rfl
  | true =>
    obtain ⟨c, hsegment, _⟩ := segment_of_paid env a st hpaid
    rw [h] at hsegment
    cases hsegment

/-- A run that traps has its bill: what it drew is lost. -/
theorem Billed.own_of_trap (billed : Billed s) (enabled : s.Enabled run cause)
    (hpaid : paidBy cause = false) : Bill (s.after run cause none) run none := by
  have draws := billed.draws enabled
  unfold Bill Over Trapped
  rw [history_after]
  cases hindex : (roleOf cause.frame?).index? with
  | none =>
    rw [hindex] at draws
    exact .inl (draws.unpaid hpaid _)
  | some idx =>
    rw [hindex] at draws
    exact .inr ⟨idx, draws.unpaid hpaid _,
      .inr ⟨⟨_, rfl, rfl⟩, billed.inv.lost enabled hindex⟩⟩

/-- A run has its bill after its own segment. -/
theorem Billed.own (billed : Billed s) (enabled : s.Enabled run cause) :
    Bill (s.after run cause ((program env).segment a cause s.state)) run
      (frameOf ((program env).segment a cause s.state)) := by
  have draws := billed.draws enabled
  cases hsegment : (program env).segment a cause s.state with
  | none => exact billed.own_of_trap enabled (paidBy_of_trap hsegment)
  | some result =>
    obtain ⟨st', next⟩ := result
    have notTrapped : ¬ Trapped (s.after run cause (some (st', next))) run := by
      rintro ⟨entry, hentry, hout⟩
      rw [history_after] at hentry
      cases hentry
      cases hout
    rcases (segment_effect hsegment).projects.index_cases with
      ⟨hpaid, hindex⟩ | ⟨hpaid, hindex⟩ | ⟨hpaid, hnone, idx, hindex, hstored⟩
    · obtain ⟨c, h, _⟩ := segment_of_paid env a s.state hpaid
      rw [hsegment] at h
      cases h
      rw [hindex] at draws
      refine ⟨?_, ?_⟩
      · rw [history_after, List.filterMap_cons_some (b := c.idx), draws.drew]
        · rfl
        · simp only [drawnIndex, Option.map_some, hpaid, if_true]
      · rw [history_after, charges_cons, hpaid, draws.charged]
        rfl
    · have draws' : Draws ((s.after run cause (some (st', next))).history run)
          (roleOf next.frame?).index?.toList := by
        rw [history_after, hindex]
        exact draws.unpaid hpaid _
      cases next with
      | awaits frame => exact draws'
      | returned answer => exact .inl draws'
    · have draws' : Draws ((s.after run cause (some (st', next))).history run) [idx] := by
        rw [history_after]
        rw [hindex] at draws
        exact draws.unpaid hpaid _
      cases next with
      | awaits frame =>
        have role := (segment_effect hsegment).stays idx frame (Role.eq_creates hindex) rfl
        change frame.role.index? = none at hnone
        rw [role] at hnone
        cases hnone
      | returned answer => exact .inr ⟨idx, draws', .inl ⟨notTrapped, hstored⟩⟩

/-- A segment draws no index that was drawn before. -/
theorem Billed.fresh_after (billed : Billed s) (idx : Nat) :
    (s.after run cause ((program env).segment a cause s.state)).tally (drawsIndex idx) ≤
      drawn idx (s.after run cause ((program env).segment a cause s.state)).state := by
  have fresh := billed.fresh idx
  rw [tally_after]
  cases hpaid : paidBy cause with
  | true =>
    obtain ⟨c, hsegment, hidx⟩ := segment_of_paid env a s.state hpaid
    have drawsOne : drawsIndex idx ⟨run, cause, some (.awaits (.createToken c))⟩ ≤
        if idx = s.state.counter.count + 1 then 1 else 0 := by
      unfold drawsIndex drawnIndex
      simp only [hpaid, if_true, hidx, State.count, Option.some.injEq]
      exact Nat.le_of_eq (if_congr eq_comm rfl rfl)
    have hdrawn : (if idx = s.state.counter.count + 1 then 1 else 0) + drawn idx s.state ≤
        drawn idx s.state.count.1 := by
      have hcount : s.state.count.1.counter.count = s.state.counter.count + 1 := rfl
      unfold drawn
      rw [hcount]
      split_ifs <;> omega
    rw [hsegment]
    exact Nat.le_trans (Nat.add_le_add drawsOne fresh) hdrawn
  | false =>
    rw [drawsIndex, drawnIndex_of_unpaid hpaid]
    simp only [reduceCtorEq, if_false, Nat.zero_add]
    refine Nat.le_trans fresh ?_
    cases hsegment : (program env).segment a cause s.state with
    | none => exact Nat.le_refl _
    | some result =>
      exact drawn_le_of_count_le ((segment_effect hsegment).projects.count_le billed.inv.keyed) idx

/-- **Every step keeps every bill.** -/
theorem step_billed (s : System) (choice : Choice) (billed : Billed s) :
    Billed ((program env).step s choice) := by
  have inv : Inv ((program env).step s choice) := step_inv s choice billed.inv
  rcases step_cases (program env) s choice with e | ⟨a, run, cause, _, enabled, _, e⟩
  · rw [e]
    exact billed
  rw [e] at inv ⊢
  refine ⟨inv, billed.fresh_after, fun run' => ?_⟩
  by_cases hne : run' = run
  · subst hne
    rw [get_after]
    exact billed.own enabled
  · rw [get_after_of_ne s cause _ hne]
    exact (billed.bill run').after billed.inv enabled hne

end

theorem billed_start (env : Env) (caller : Principal) (time : Nat) (addrConfig : AddrConfig)
    (icpAddr : Principal) : Billed (Sys.start (init env caller time addrConfig icpAddr)) := by
  refine ⟨inv_start env caller time addrConfig icpAddr, fun _ => Nat.zero_le _, fun run => ?_⟩
  rw [get_start]
  exact .inl ⟨rfl, rfl⟩

/-! ## Runs that are over -/

/-- What holds of a run that is over: it charged at most once, it stored its project exactly where it
charged and did not trap, and the index of its project is its own. -/
structure FairBill (s : System) (run : Nat) : Prop where
  once : charges (s.history run) ≤ 1
  delivered_iff : Delivered s run ↔ charges (s.history run) = 1 ∧ ¬ Trapped s run
  fresh : ∀ idx, s.tally (drawsIndex idx) ≤ 1

theorem Billed.fairBill {s : System} (billed : Billed s) {run : Nat}
    (ended : s.suspended[run]? = none) : FairBill s run := by
  have bill := billed.bill run
  rw [ended] at bill
  have fresh : ∀ idx, s.tally (drawsIndex idx) ≤ 1 := fun idx =>
    Nat.le_trans (billed.fresh idx) (drawn_le_one idx s.state)
  rcases bill with draws | ⟨idx, draws, rest⟩
  · refine ⟨by rw [draws.charged]; exact Nat.zero_le _, ?_, fresh⟩
    unfold Delivered
    rw [draws.drew, draws.charged]
    exact ⟨fun ⟨_, hidx, _⟩ => (nomatch hidx), fun ⟨h, _⟩ => (nomatch h)⟩
  · refine ⟨by rw [draws.charged]; exact Nat.le_refl _, ?_, fresh⟩
    unfold Delivered
    rw [draws.drew, draws.charged]
    simp only [List.mem_singleton, exists_eq_left, List.length_singleton, true_and]
    rw [← stored_eq_one]
    rcases rest with ⟨trapped, hstored⟩ | ⟨trapped, lost⟩
    · exact ⟨fun _ => trapped, fun _ => hstored⟩
    · refine ⟨fun hstored => ?_, fun h => absurd trapped h⟩
      have := lost.unused
      omega

/-- **A run that is over has charged at most once, and has stored the project of its own index
exactly where it charged and did not trap.** -/
theorem createFomo_billed (env : Env) (caller : Principal) (time : Nat) (addrConfig : AddrConfig)
    (icpAddr : Principal) (choices : List Choice) (run : Nat)
    (ended : (choices.foldl (program env).step
      (Sys.start (init env caller time addrConfig icpAddr))).suspended[run]? = none) :
    FairBill (choices.foldl (program env).step
      (Sys.start (init env caller time addrConfig icpAddr))) run := by
  have billed : Billed (choices.foldl (program env).step
      (Sys.start (init env caller time addrConfig icpAddr))) :=
    Runs.foldl_invariant step_billed (billed_start env caller time addrConfig icpAddr) choices
  exact billed.fairBill ended

/-- The sample project was charged for and stored. -/
theorem createFomo_billed_sample :
    FairBill (sampleSchedule.foldl (program sampleEnv).step sampleStart) 1 := by
  have hover : ((sampleSchedule.foldl (program sampleEnv).step
      sampleStart).suspended[1]?.isNone) = true := by
    decide +kernel
  exact createFomo_billed _ _ _ _ _ _ 1 (Option.isNone_iff_eq_none.mp hover)

/-- The backend rejects the call of `createToken`. -/
def createTokenRejected : (frame : Frame) → Rep frame
  | .createToken _ => .error (.CanisterReject, "")
  | frame => sampleReply frame

/-- The sample project is charged for, and its run traps at the next call. -/
def rejectedSchedule : List Choice :=
  sampleSchedule.take 7 ++ [.resume sampleAmbient 1 createTokenRejected]

/-- **A charge without a project.** -/
theorem not_createFomo_charges_iff :
    ¬ ∀ env caller time addrConfig icpAddr (choices : List Choice) (run : Nat),
      (choices.foldl (program env).step
        (Sys.start (init env caller time addrConfig icpAddr))).suspended[run]? = none →
      (charges ((choices.foldl (program env).step
        (Sys.start (init env caller time addrConfig icpAddr))).history run) = 1 ↔
        Delivered (choices.foldl (program env).step
          (Sys.start (init env caller time addrConfig icpAddr))) run) := by
  intro all
  have hover : ((rejectedSchedule.foldl (program sampleEnv).step
      sampleStart).suspended[1]?.isNone) = true := by
    decide +kernel
  have hcharged : charges ((rejectedSchedule.foldl (program sampleEnv).step
      sampleStart).history 1) = 1 := by
    decide +kernel
  obtain ⟨idx, _, hstored⟩ := (all sampleEnv sampleUser 0
    ⟨sampleCanister, sampleCanister, sampleCanister, sampleCanister, sampleCanister⟩ sampleIcp
    rejectedSchedule 1 (Option.isNone_iff_eq_none.mp hover)).mp hcharged
  have hempty : ((rejectedSchedule.foldl (program sampleEnv).step
      sampleStart).state.fomoProjectMap.isEmpty) = true := by
    decide +kernel
  change ((rejectedSchedule.foldl (program sampleEnv).step
    sampleStart).state.fomoProjectMap[idx]?.isSome) = true at hstored
  rw [Table.get_of_isEmpty hempty] at hstored
  cases hstored

end Fomowell.Launcher
