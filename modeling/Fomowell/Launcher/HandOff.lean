import Fomowell.Launcher.Projects

/-!
# Liquidity is handed over once

`update_progress` marks a project that has reached the goal with the time, and for each project that
it marked it calls the router: `transferLiquidity` for either DAO that has a share, and
`lockLiquidity`. The marker is what keeps a later run from calling again, so each call is issued at
most once for a project as long as no marker is taken away.

`set_buy_or_sell` takes one away: it copies the project before four awaits and writes the copy back
after them. A choice is `Stale` where it resumes such a run for a copy older than the marker.
`handOff_once_iff`: the markers are kept, and no call is issued twice, exactly in the schedules
without a stale choice. `not_handOff_once` runs one.
-/

namespace Fomowell.Launcher

open Std Canister Table Runs Token

/-! ## Calls and markers -/

/-- Whether a segment ends at a call of the last loop, for a project. -/
def issued (stage : Stage) (idx : Nat) (entry : Entry Message Frame Answer Rep) : Nat :=
  match entry.outcome with
  | some (.awaits (.handOff current h)) => if current = stage ∧ h.fomoPid = idx then 1 else 0
  | _ => 0

/-- No marker is taken away. -/
def MarkersKept (st st' : State) : Prop := ∀ idx, marked idx st ≤ marked idx st'

/-- A choice that resumes `set_buy_or_sell` at its last await: the segment ends, and writes back a
copy without a marker of a project that has one by now. -/
def Stale (env : Env) (s : System) (choice : Choice) : Prop :=
  ∃ a run type q reply,
    s.starts choice = some (a, run, .resumed (.ledger type (.totalSupply q)) reply) ∧
    (setBuyOrSellSupply env a.time q reply s.state).isSome ∧
    q.v.poolProgressDoneTime = none ∧ marked q.recordSignal.fomoIdx s.state = 1

/-- The call that a run has just issued. -/
def Role.issues (stage : Stage) (idx : Nat) : Role → Nat
  | .handsOff current h => if current = stage ∧ h.fomoPid = idx then 1 else 0
  | _ => 0

/-- The calls that a run may still issue: for its project at a later stage, and for every project
left on its list. -/
def Role.pending (stage : Stage) (idx : Nat) : Role → Nat
  | .handsOff current h =>
    (if current.rank < stage.rank ∧ h.fomoPid = idx then 1 else 0) + h.rest.count idx
  | _ => 0

theorem issued_after (stage : Stage) (idx run : Nat) (cause : Cause Message Frame Rep)
    (result : Segment) :
    issued stage idx ⟨run, cause, result.map Prod.snd⟩ =
      (roleOf (frameOf result)).issues stage idx := by
  rcases result with _ | ⟨st, answer | frame⟩
  · rfl
  · rfl
  · cases frame with
    | handOff current h => rfl
    | querySwapStatus b =>
      cases hfomo : b.fomo <;>
        simp only [frameOf, Next.frame?, roleOf_some, Frame.role, hfomo] <;> rfl
    | httpRequest url k => cases k <;> rfl
    | getToken call => cases call <;> rfl
    | ledger type call => cases call <;> rfl
    | _ => rfl

theorem marked_le_one (idx : Nat) (st : State) : marked idx st ≤ 1 := by
  unfold marked
  split <;> omega

theorem SameProjects.marked {st st' : State} (same : SameProjects st st') (idx : Nat) :
    marked idx st' = marked idx st := by
  unfold Launcher.marked
  rw [same.1]

theorem marked_of_get {st : State} {idx : Nat} {p : FomoProject}
    (h : st.fomoProjectMap[idx]? = some p) :
    marked idx st = if p.poolProgressDoneTime.isSome then 1 else 0 := by
  unfold marked
  rw [h]
  rfl

section

variable {env : Env} {st st' : State} {k : Nat} {p : FomoProject} {r r' : Role}

theorem Stores.marked_self (h : Stores st k p st') :
    marked k st' = if p.poolProgressDoneTime.isSome then 1 else 0 :=
  marked_of_get (by rw [h.projects, ExtTreeMap.getElem?_insert_self])

theorem Stores.marked_of_ne (h : Stores st k p st') {idx : Nat} (hne : idx ≠ k) :
    marked idx st' = marked idx st := by
  unfold marked
  rw [h.projects, get_insert_of_ne _ _ hne]

/-- A project stored with a marker, or where there was none, takes no marker away. -/
theorem Stores.markersKept (h : Stores st k p st')
    (fresh : p.poolProgressDoneTime = none → marked k st = 0) : MarkersKept st st' := by
  intro idx
  by_cases hne : idx = k
  · subst hne
    rw [h.marked_self]
    cases hp : p.poolProgressDoneTime with
    | none => rw [fresh hp]; exact Nat.zero_le _
    | some time => exact marked_le_one idx st
  · exact Nat.le_of_eq (h.marked_of_ne hne).symm

/-! ## One step -/

/-- The calls that a run issues and may still issue are paid for by markers that it adds. -/
def Paid (st st' : State) (r r' : Role) : Prop :=
  ∀ stage idx, r'.issues stage idx + r'.pending stage idx + marked idx st ≤
    r.pending stage idx + marked idx st'

/-- A run that hands nothing over pays with any markers that are kept. -/
theorem MarkersKept.paid (kept : MarkersKept st st') (issues : ∀ stage idx, r'.issues stage idx = 0)
    (pending : ∀ stage idx, r'.pending stage idx = 0) : Paid st st' r r' := by
  intro stage idx
  rw [issues, pending]
  have := kept idx
  omega

theorem Follows.issues_eq (h : Follows r r') (stage : Stage) (idx : Nat) :
    r'.issues stage idx = 0 := by
  cases h <;> rfl

theorem Follows.pending_eq (h : Follows r r') (stage : Stage) (idx : Nat) :
    r'.pending stage idx = 0 := by
  cases h <;> rfl

/-- At a stage, a run issues that call and may still issue the later ones, each of them once. -/
theorem handsOff_calls_le (current : Stage) (hand : HandOff) (stage : Stage) (idx : Nat) :
    (Role.handsOff current hand).issues stage idx + (Role.handsOff current hand).pending stage idx ≤
      (if current.rank ≤ stage.rank ∧ hand.fomoPid = idx then 1 else 0) + hand.rest.count idx := by
  simp only [Role.issues, Role.pending]
  by_cases hidx : hand.fomoPid = idx
  · simp only [hidx, and_true]
    by_cases hstage : current = stage
    · subst hstage
      rw [if_pos rfl, if_neg (Nat.lt_irrefl _), if_pos (Nat.le_refl _)]
      omega
    · rw [if_neg hstage]
      split
      next hlt =>
        rw [if_pos (Nat.le_of_lt hlt)]
        omega
      next => omega
  · simp only [hidx, and_false, if_false]
    omega

/-- The last loop at the next project: that project's calls, and those of the projects left, are
what the list allows. -/
theorem handOffNext_allowed {addrConfig : AddrConfig} {l : List Nat} {next : Next Frame Answer}
    (h : handOffNext env addrConfig l st = some (st', next)) (stage : Stage) (idx : Nat) :
    (roleOf next.frame?).issues stage idx + (roleOf next.frame?).pending stage idx ≤
      l.count idx := by
  obtain ⟨_, ⟨_, hnext⟩ | ⟨hand, current, rfl, _, hnext, _⟩⟩ := handOffNext_cases h
  · rw [hnext]
    exact Nat.zero_le _
  · rw [hnext, roleOf_some, Frame.role, List.count_cons]
    have hcalls := handsOff_calls_le current hand stage idx
    simp only [beq_iff_eq]
    by_cases hidx : hand.fomoPid = idx
    · rw [if_pos hidx]
      split at hcalls <;> omega
    · rw [if_neg fun h => hidx h.2] at hcalls
      omega

/-- The calls of a step are paid for, if a copy without a marker is only written back over a project
without one. -/
theorem ProjectStep.paid {paid : Bool} (step : ProjectStep env st paid r st' r') (keyed : Keyed st)
    (owned : ∀ idx, r.holds idx + stored idx st ≤ drawn idx st)
    (fresh : ∀ k v, r = .settles k v → v.poolProgressDoneTime = none → marked k st = 0) :
    MarkersKept st st' ∧ Paid st st' r r' := by
  have quiet : ∀ {st'}, MarkersKept st st' → MarkersKept st st' ∧ Paid st st' r .plain :=
    fun kept => ⟨kept, kept.paid (fun _ _ => rfl) (fun _ _ => rfl)⟩
  cases step with
  | quiet same role =>
    have kept : MarkersKept st st' := fun idx => Nat.le_of_eq (same.marked idx).symm
    exact ⟨kept, kept.paid role.issues_eq role.pending_eq⟩
  | counted projects count =>
    refine quiet fun idx => ?_
    unfold marked
    rw [projects]
  | drew projects count =>
    have kept : MarkersKept st st' := fun idx => by
      unfold marked
      rw [projects]
    exact ⟨kept, kept.paid (fun _ _ => rfl) (fun _ _ => rfl)⟩
  | created c stores =>
    refine quiet (stores.markersKept fun _ => ?_)
    unfold marked
    rw [absent_of_held owned]
    rfl
  | replied stored stores =>
    refine quiet (stores.markersKept fun hnone => ?_)
    rw [marked_of_get stored, hnone]
    rfl
  | read stored =>
    have kept : MarkersKept st st := fun idx => Nat.le_refl _
    exact ⟨kept, kept.paid (fun _ _ => rfl) (fun _ _ => rfl)⟩
  | traded same marker stores =>
    exact quiet (stores.markersKept fun hnone => fresh _ _ rfl (marker.symm.trans hnone))
  | finished ends =>
    obtain ⟨⟨st₁, l⟩, wrote, hnext⟩ := finishProgress_cases ends keyed
    obtain ⟨rfl, _⟩ := handOffNext_cases hnext
    refine ⟨fun idx => ?_, fun stage idx => ?_⟩
    · have := wrote.listed idx
      dsimp only at this
      omega
    · have := wrote.listed idx
      have := handOffNext_allowed hnext stage idx
      dsimp only at *
      omega
  | @handedOff current hand res _ next ends =>
    rcases updateProgressHandOff_cases ends with ⟨rfl, current', hnext, from1⟩ | ⟨rfl, hnext⟩
    · refine ⟨fun idx => Nat.le_refl _, fun stage idx => ?_⟩
      rw [hnext, roleOf_some, Frame.role]
      have hrank : current.rank < current'.rank := from1.le
      have hcalls := handsOff_calls_le current' hand stage idx
      -- what the next stage may issue, this one may still issue
      have hlater : (if current'.rank ≤ stage.rank ∧ hand.fomoPid = idx then 1 else 0) +
          hand.rest.count idx ≤ (Role.handsOff current hand).pending stage idx := by
        simp only [Role.pending]
        split
        next hle =>
          rw [if_pos ⟨Nat.lt_of_lt_of_le hrank hle.1, hle.2⟩]
        next => omega
      omega
    · have allowed := handOffNext_allowed hnext
      obtain ⟨rfl, _⟩ := handOffNext_cases hnext
      refine ⟨fun idx => Nat.le_refl _, fun stage idx => ?_⟩
      have rest : hand.rest.count idx ≤ Role.pending stage idx (.handsOff .lock hand) :=
        Nat.le_add_left _ _
      have := allowed stage idx
      omega

end

/-! ## Every schedule -/

/-- What holds of every reachable launcher until a choice is stale: the calls issued and those still
to be issued are paid for by markers. -/
structure Budget (s : System) : Prop where
  inv : Inv s
  paid : ∀ stage idx,
    s.tally (issued stage idx) +
        sumOf (fun _ frame => frame.role.pending stage idx) s.suspended ≤ marked idx s.state

/-- A run that is about to settle awaits the supply of a token. -/
theorem totalSupply_of_settles {frame? : Option Frame} {k : Nat} {v : FomoProject}
    (h : roleOf frame? = .settles k v) :
    ∃ type q, frame? = some (.ledger type (.totalSupply q)) ∧ q.recordSignal.fomoIdx = k ∧
      q.v = v := by
  cases frame? with
  | none => cases h
  | some frame =>
    cases frame with
    | ledger type call =>
      cases call with
      | totalSupply q =>
        cases h
        exact ⟨type, q, rfl, rfl, rfl⟩
      | _ => cases h
    | querySwapStatus b =>
      cases hfomo : b.fomo <;> simp only [roleOf_some, Frame.role, hfomo, reduceCtorEq] at h
    | httpRequest url k => cases k <;> cases h
    | getToken call => cases call <;> cases h
    | _ => cases h

theorem Budget.step_paid {env : Env} {s : System} {choice : Choice} (budget : Budget s)
    {a : Ambient} {run : Nat} {cause : Cause Message Frame Rep}
    (starts : s.starts choice = some (a, run, cause)) (enabled : s.Enabled run cause)
    (fresh : ¬ Stale env s choice) :
    MarkersKept s.state (s.after run cause ((program env).segment a cause s.state)).state ∧
      Paid s.state (s.after run cause ((program env).segment a cause s.state)).state
        (roleOf cause.frame?) (roleOf (frameOf ((program env).segment a cause s.state))) := by
  cases hsegment : (program env).segment a cause s.state with
  | none =>
    have kept : MarkersKept s.state s.state := fun idx => Nat.le_refl _
    exact ⟨kept, kept.paid (fun _ _ => rfl) (fun _ _ => rfl)⟩
  | some result =>
    refine (segment_effect hsegment).projects.paid budget.inv.keyed (budget.inv.roleOwned enabled) ?_
    intro k v hrole hnone
    obtain ⟨type, q, hframe, rfl, rfl⟩ := totalSupply_of_settles hrole
    cases cause with
    | received message => cases hframe
    | delivered frame =>
      cases hframe
      cases hsegment
    | resumed frame reply =>
      cases hframe
      -- an unmarked copy written back over a marker would be a stale choice
      refine Nat.lt_one_iff.mp (Nat.lt_of_le_of_ne (marked_le_one _ _) fun hmarked => fresh ?_)
      exact ⟨a, run, type, q, reply, starts, Option.isSome_iff_exists.mpr ⟨result, hsegment⟩,
        hnone, hmarked⟩

/-- **Every step that is not stale keeps the budget, and every marker.** -/
theorem step_budget {env : Env} {s : System} {choice : Choice} (budget : Budget s)
    (fresh : ¬ Stale env s choice) :
    Budget ((program env).step s choice) ∧
      MarkersKept s.state ((program env).step s choice).state := by
  have inv : Inv ((program env).step s choice) := step_inv s choice budget.inv
  rcases step_cases (program env) s choice with e | ⟨a, run, cause, starts, enabled, _, e⟩
  · rw [e]
    exact ⟨budget, fun idx => Nat.le_refl _⟩
  rw [e] at inv ⊢
  obtain ⟨kept, paid⟩ := budget.step_paid starts enabled fresh
  refine ⟨⟨inv, fun stage idx => ?_⟩, kept⟩
  have hsum := sumOf_after (fun frame : Frame => frame.role.pending stage idx) enabled
    budget.inv.ordered ((program env).segment a cause s.state)
  rw [weigh_role (w := Role.pending stage idx) rfl, weigh_role (w := Role.pending stage idx) rfl]
    at hsum
  rw [tally_after, issued_after]
  have := budget.paid stage idx
  have := paid stage idx
  omega

/-- A stale choice takes a marker away. -/
theorem Stale.not_markersKept {env : Env} {s : System} {choice : Choice} (h : Stale env s choice) :
    ¬ MarkersKept s.state ((program env).step s choice).state := by
  obtain ⟨a, run, type, q, reply, starts, ends, hnone, hmarked⟩ := h
  obtain ⟨⟨st', next⟩, hsegment⟩ := Option.isSome_iff_exists.mp ends
  have hstep := step_resumed (P := program env) starts
  have hsegment' : (program env).segment a (.resumed (.ledger type (.totalSupply q)) reply) s.state =
    some (st', next) := hsegment
  rw [hsegment'] at hstep
  rw [hstep]
  intro kept
  have hle : marked q.recordSignal.fomoIdx s.state ≤ marked q.recordSignal.fomoIdx st' := kept _
  obtain ⟨v, _, marker, stores, _⟩ := setBuyOrSellSupply_stores hsegment
  rw [hmarked, stores.marked_self, marker, hnone] at hle
  exact absurd hle (by decide)

/-- The pool that a call of the router is about. -/
def RouterCall.poolPid : RouterCall → Principal
  | .transferLiquidity _ poolPid _ _ => poolPid
  | .lockLiquidity _ poolPid _ _ => poolPid

/-- The law of the hand-off, for the schedule of some choices from a launcher: no marker is ever taken
away, each call is issued at most once for a project, and every call is about its project's pool. -/
structure HandsOffOnce (env : Env) (s : System) (choices : List Choice) : Prop where
  markersKept : Along (program env).step
    (fun s choice => MarkersKept s.state ((program env).step s choice).state) s choices
  once : ∀ stage idx, (choices.foldl (program env).step s).tally (issued stage idx) ≤ 1
  ownPool : ∀ entry ∈ (choices.foldl (program env).step s).log, ∀ stage h,
    entry.outcome = some (.awaits (.handOff stage h)) →
      ∃ p, (choices.foldl (program env).step s).state.fomoProjectMap[h.fomoPid]? = some p ∧
        (h.call env stage).map RouterCall.poolPid = some p.poolPid

theorem budget_start (env : Env) (caller : Principal) (time : Nat) (addrConfig : AddrConfig)
    (icpAddr : Principal) : Budget (Sys.start (init env caller time addrConfig icpAddr)) :=
  ⟨inv_start env caller time addrConfig icpAddr, fun _ _ => Nat.zero_le _⟩

/-- Every call that was issued had its address. -/
def Addressed (env : Env) (s : System) : Prop :=
  ∀ entry ∈ s.log, ∀ stage h, entry.outcome = some (.awaits (.handOff stage h)) →
    (h.call env stage).isSome

theorem handOff_of_role {frame? : Option Frame} {stage : Stage} {h : HandOff}
    (hrole : roleOf frame? = .handsOff stage h) : frame? = some (.handOff stage h) := by
  cases frame? with
  | none => cases hrole
  | some frame =>
    cases frame with
    | handOff stage h =>
      cases hrole
      rfl
    | querySwapStatus b =>
      cases hfomo : b.fomo <;> simp only [roleOf_some, Frame.role, hfomo, reduceCtorEq] at hrole
    | httpRequest url k => cases k <;> cases hrole
    | getToken call => cases call <;> cases hrole
    | ledger type call => cases call <;> cases hrole
    | _ => cases hrole

/-- What the last loop awaits, it has the address for. -/
theorem ProjectStep.addressed {env : Env} {st st' : State} {paid : Bool} {r r' : Role}
    (step : ProjectStep env st paid r st' r') {stage : Stage} {h : HandOff}
    (hrole : r' = .handsOff stage h) : (h.call env stage).isSome := by
  have loop : ∀ {next : Next Frame Answer}, (next = .returned .unit ∨
      ∃ stage hand, next = .awaits (.handOff stage hand) ∧ (hand.call env stage).isSome) →
        roleOf next.frame? = .handsOff stage h → (h.call env stage).isSome := by
    rintro next (rfl | ⟨stage', hand, rfl, called⟩) hrole
    · cases hrole
    · cases hrole
      exact called
  cases step with
  | quiet same role => cases role <;> cases hrole
  | finished ends =>
    obtain ⟨acc, _, hnext⟩ := Option.bind_eq_some_iff.mp ends
    exact loop (handOffNext_eq hnext).2 hrole
  | handedOff ends => exact loop (updateProgressHandOff_eq ends).2 hrole
  | _ => cases hrole

theorem step_addressed {env : Env} (s : System) (choice : Choice) (addressed : Addressed env s) :
    Addressed env ((program env).step s choice) := by
  obtain e | ⟨a, run, cause, _, _, _, e⟩ := step_cases (program env) s choice
  · rw [e]
    exact addressed
  rw [e]
  intro entry hentry stage h hout
  rcases List.mem_cons.mp hentry with rfl | hold
  · cases hsegment : (program env).segment a cause s.state with
    | none =>
      rw [hsegment] at hout
      cases hout
    | some result =>
      rw [hsegment] at hout
      have hrole : roleOf result.2.frame? = .handsOff stage h := by
        rw [Option.some.inj hout]
        rfl
      exact (segment_effect hsegment).projects.addressed hrole
  · exact addressed entry hold stage h hout

theorem Inv.ownPool {env : Env} {s : System} (inv : Inv s) (addressed : Addressed env s) :
    ∀ entry ∈ s.log, ∀ stage h, entry.outcome = some (.awaits (.handOff stage h)) →
      ∃ p, s.state.fomoProjectMap[h.fomoPid]? = some p ∧
        (h.call env stage).map RouterCall.poolPid = some p.poolPid := by
  intro entry hentry stage h hout
  have sound := inv.logged entry hentry
  rw [hout] at sound
  obtain ⟨p, hp, same⟩ := sound.1
  obtain ⟨call, hcall⟩ := Option.isSome_iff_exists.mp (addressed entry hentry stage h hout)
  refine ⟨p, hp, ?_⟩
  rw [hcall, Option.map_some, ← same.poolPid]
  cases stage with
  | sneed =>
    cases hcall
    rfl
  | dogmi =>
    obtain ⟨dogmiPid, _, hcall⟩ := Option.bind_eq_some_iff.mp hcall
    cases hcall
    rfl
  | lock =>
    cases hcall
    rfl

/-- **Each project is handed over at most once**, and no marker is taken away, in exactly the
schedules in which no choice is stale. -/
theorem handOff_once_iff (env : Env) (caller : Principal) (time : Nat) (addrConfig : AddrConfig)
    (icpAddr : Principal) (choices : List Choice) :
    HandsOffOnce env (Sys.start (init env caller time addrConfig icpAddr)) choices ↔
      Along (program env).step (fun s choice => ¬ Stale env s choice)
        (Sys.start (init env caller time addrConfig icpAddr)) choices := by
  have start := budget_start env caller time addrConfig icpAddr
  have agree : ∀ (s : System) (choice : Choice), Budget s →
      (MarkersKept s.state ((program env).step s choice).state ↔ ¬ Stale env s choice) :=
    fun s choice budget =>
      ⟨fun kept stale => stale.not_markersKept kept, fun fresh => (step_budget budget fresh).2⟩
  have along := along_congr_of_invariant agree
    (fun _ _ budget fresh => (step_budget budget fresh).1) start choices
  refine ⟨fun law => along.mp law.markersKept, fun fresh => ⟨along.mpr fresh, fun stage idx => ?_, ?_⟩⟩
  · have budget := fresh.invariant (fun _ _ budget fresh => (step_budget budget fresh).1) start
    have := budget.paid stage idx
    have := marked_le_one idx (choices.foldl (program env).step
      (Sys.start (init env caller time addrConfig icpAddr))).state
    omega
  · have none : Addressed env (Sys.start (init env caller time addrConfig icpAddr)) :=
      fun _ hentry => nomatch hentry
    have addressed := foldl_invariant (I := Addressed env) step_addressed none choices
    exact (inv_run env caller time addrConfig icpAddr choices).ownPool addressed

/-- A trade is suspended at its last await while the project is marked and its first call issued; it
writes its copy back, and the next `update_progress` marks and calls again. -/
def staleSchedule : List Choice :=
  sampleSchedule ++
    [sampleMessage (.setBuyOrSell sampleUser ⟨1, 0, "buy", 0⟩),
      sampleAnswer 15, sampleAnswer 15, sampleAnswer 15,
      sampleMessage .updateProgress, sampleAnswer 19,
      sampleAnswer 15,
      sampleMessage .updateProgress, sampleAnswer 22]

/-- **A project handed over twice.** -/
theorem not_handOff_once :
    ¬ ∀ env caller time addrConfig icpAddr choices,
      HandsOffOnce env (Sys.start (init env caller time addrConfig icpAddr)) choices := by
  intro all
  have law : HandsOffOnce sampleEnv sampleStart staleSchedule := all _ _ _ _ _ _
  have twice : (staleSchedule.foldl (program sampleEnv).step sampleStart).tally (issued .sneed 1) = 2 := by
    decide +kernel
  have once := law.once .sneed 1
  rw [twice] at once
  exact absurd once (by decide)

end Fomowell.Launcher
