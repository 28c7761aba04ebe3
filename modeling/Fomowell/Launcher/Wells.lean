import Fomowell.Launcher.WriteBack

/-!
# Progress stays in its bounds

A project's share of the goal and its wells progress are at most ten thousand, and one that has
reached ten thousand in the wells has the time at which it did (`FomoProject.WellFormed`).

Two writers compute these values, from different largest market caps, and clamp them in different
places: `update_progress` clamps what the oracle reports before it has asked for the next project, and
`set_buy_or_sell` writes a copy that it read four awaits earlier. So the invariant, `Bounded`, is about
the stored projects, the copies that suspended trades hold, and the measurements that suspended runs
of `update_progress` hold. `progress_wellFormed` carries it to every schedule.
-/

namespace Fomowell.Launcher

open Std Canister Table Token

/-- Progress in its bounds. -/
structure FomoProject.WellFormed (v : FomoProject) : Prop where
  poolProgress : v.poolProgress ≤ 10000
  godOfWellsProgress : v.godOfWellsProgress ≤ 10000
  godOfWellsTime : v.godOfWellsProgress = 10000 → v.godOfWellsTime.isSome

/-- Every stored project has its progress in its bounds. -/
def InBounds (st : State) : Prop :=
  ∀ (k : Nat) (p : FomoProject), st.fomoProjectMap[k]? = some p → p.WellFormed

/-- Every measurement is clamped. -/
def Progress.Clamped (p : Progress) : Prop :=
  ∀ (k : Nat) (measurement : Nat × Nat), p.map[k]? = some measurement → measurement.1 ≤ 10000

/-- A run holds clamped measurements, if it holds any. -/
def Measures (frame? : Option Frame) : Prop :=
  ∀ p, frame?.bind Frame.measures = some p → p.Clamped

/-! ## The values -/

theorem capProgress_le (progress : Nat) : capProgress progress ≤ 10000 := by
  unfold capProgress
  split <;> omega

/-- The wells progress comes out in its bounds, whatever the share of the goal is set to. -/
theorem updateWells_wellFormed {v v' : FomoProject} {time marketCap maxMarketCap : Nat}
    (h : v.updateWells time marketCap maxMarketCap = some v') (so : v.WellFormed) : v'.WellFormed := by
  unfold FomoProject.updateWells at h
  split at h
  · cases h
    exact ⟨so.poolProgress, Nat.zero_le _, fun e => nomatch e⟩
  split at h
  · obtain ⟨progress, _, h⟩ := Option.bind_eq_some_iff.mp h
    split at h
    · cases h
      exact ⟨so.poolProgress, Nat.le_refl _, fun _ => rfl⟩
    next below =>
      cases h
      refine ⟨so.poolProgress, ?_, fun e => ?_⟩
      · exact Nat.le_of_not_le below
      · exact absurd (Nat.le_of_eq e.symm) below
  split at h
  next above => exact absurd so.godOfWellsProgress (Nat.not_le.mpr above)
  split at h
  · cases h
    exact ⟨so.poolProgress, so.godOfWellsProgress, fun _ => rfl⟩
  · cases h
    exact so

theorem FomoProject.WellFormed.measured {v : FomoProject} (so : v.WellFormed) {poolProgress : Nat}
    (clamped : poolProgress ≤ 10000) (marketCap : Nat) :
    { v with poolProgress, marketCap }.WellFormed :=
  ⟨clamped, so.godOfWellsProgress, so.godOfWellsTime⟩

theorem Created.wellFormed (c : Created) : c.fomoProject.WellFormed :=
  ⟨Nat.zero_le _, Nat.zero_le _, fun e => nomatch e⟩

theorem Rewritten.wellFormed {time maxMarketCap : Nat} {measurement : Nat × Nat}
    {old new : Option FomoProject} (h : Rewritten time maxMarketCap measurement old new)
    (clamped : measurement.1 ≤ 10000) (so : ∀ p, old = some p → p.WellFormed) :
    ∀ p, new = some p → p.WellFormed := by
  intro p hp
  obtain ⟨pj, v, hold, hv, hnew⟩ := h.eq_some hp
  have wells := updateWells_wellFormed hv ((so pj hold).measured clamped measurement.2)
  obtain rfl | rfl := hnew
  · exact wells
  · exact ⟨wells.poolProgress, wells.godOfWellsProgress, wells.godOfWellsTime⟩

/-! ## One step -/

section

variable {env : Env} {a : Ambient} {st st' : State} {next : Next Frame Answer}

/-- A well-formed project is stored. -/
theorem InBounds.insert (bounds : InBounds st) {k : Nat} {p : FomoProject}
    (h : st'.fomoProjectMap = st.fomoProjectMap.insert k p) (so : p.WellFormed) : InBounds st' := by
  unfold InBounds
  rw [h]
  exact forall_get_insert bounds so

/-- A round of `update_progress` keeps the projects and the measurements in their bounds. -/
theorem progressNext_bounded {order : HashOrder} {time : Nat} {addrConfig : AddrConfig}
    {list : List FomoProject} {map : ExtTreeMap Nat (Nat × Nat) compare} {maxMarketCap maxIdx : Nat}
    (h : progressNext env order time addrConfig list map maxMarketCap maxIdx st =
      some (st', next)) (bounds : InBounds st)
    (clamped : ∀ (k : Nat) measurement, map[k]? = some measurement → measurement.1 ≤ 10000) :
    InBounds st' ∧ Measures next.frame? := by
  obtain ⟨rfl, item, rest, _, rfl⟩ | ⟨_, ends⟩ := progressNext_cases h
  · refine ⟨bounds, fun p hp => ?_⟩
    cases hp
    exact clamped
  · refine ⟨fun k p hp => ?_, fun p hp => ?_⟩
    · obtain ⟨unmeasured, measured⟩ := finishProgress_get ends k
      cases hmap : map[k]? with
      | none =>
        rw [unmeasured hmap] at hp
        exact bounds k p hp
      | some measurement =>
        exact (measured measurement hmap).wellFormed (clamped k measurement hmap) (bounds k) p hp
    · rw [finishProgress_measures ends] at hp
      cases hp

/-- **A segment keeps the projects and the measurements in their bounds.** -/
theorem Writes.bounded {cause : Cause Message Frame Rep} (h : Writes env a st cause st' next)
    (bounds : InBounds st) (copy : (roleOf cause.frame?).Copy fun _ v => v.WellFormed)
    (measures : Measures cause.frame?) : InBounds st' ∧ Measures next.frame? := by
  cases h with
  | accounts accounting =>
    refine ⟨fun k p hp => ?_, fun p hp => ?_⟩
    · rw [accounting.writes.projects_eq] at hp
      exact bounds k p hp
    · rw [accounting.measures] at hp
      cases hp
  | replied ends =>
    obtain ⟨v, hv, projects⟩ := replyUpdate_writes ends
    have so := bounds _ v hv
    exact ⟨bounds.insert projects ⟨so.poolProgress, so.godOfWellsProgress, so.godOfWellsTime⟩,
      fun _ hp => nomatch hp⟩
  | started ends =>
    refine progressNext_bounded ends bounds fun k measurement hk => ?_
    rw [ExtTreeMap.getElem?_empty] at hk
    cases hk
  | @measured p reply _ _ ends =>
    rw [updateProgressItem_eq] at ends
    refine progressNext_bounded ends bounds fun k measurement hk => ?_
    rw [Progress.mapAfter, get_insert] at hk
    split at hk
    · cases hk
      exact capProgress_le _
    · exact measures p rfl k measurement hk
  | traded ends =>
    obtain ⟨marketCap, v, _, hv, projects⟩ := setBuyOrSellSupply_writes ends
    have wells := updateWells_wellFormed hv copy
    obtain ⟨_, _, _, _, _, hnext⟩ := setBuyOrSellSupply_stores ends
    rw [hnext]
    exact ⟨bounds.insert projects ⟨capProgress_le _, wells.godOfWellsProgress, wells.godOfWellsTime⟩,
      fun _ hp => nomatch hp⟩
  | @installed c _ _ _ ends =>
    obtain ⟨_, _, _, _, _, hnext⟩ := createFomoInstalled_cases ends
    rw [hnext]
    exact ⟨bounds.insert (createFomoInstalled_writes ends) c.wellFormed, fun _ hp => nomatch hp⟩

end

/-! ## Every schedule -/

/-- The invariant: of the stored projects, of the copies to be written back, and of the measurements. -/
structure Bounded (s : System) : Prop where
  stored : InBounds s.state
  copies : ∀ (run : Nat) frame, s.suspended[run]? = some frame →
    frame.role.Copy fun _ v => v.WellFormed
  measures : ∀ (run : Nat) frame, s.suspended[run]? = some frame → Measures (some frame)

theorem Bounded.copy {s : System} (bounded : Bounded s) {run : Nat} {cause : Cause Message Frame Rep}
    (enabled : s.Enabled run cause) : (roleOf cause.frame?).Copy fun _ v => v.WellFormed := by
  cases cause with
  | received message => trivial
  | delivered frame => exact bounded.copies run frame enabled
  | resumed frame reply => exact bounded.copies run frame enabled

theorem Bounded.measured {s : System} (bounded : Bounded s) {run : Nat}
    {cause : Cause Message Frame Rep} (enabled : s.Enabled run cause) : Measures cause.frame? := by
  cases cause with
  | received message => exact fun _ hp => nomatch hp
  | delivered frame => exact bounded.measures run frame enabled
  | resumed frame reply => exact bounded.measures run frame enabled

/-- **Every step keeps the bounds.** -/
theorem step_bounded {env : Env} (s : System) (choice : Choice) (bounded : Bounded s) :
    Bounded ((program env).step s choice) := by
  obtain e | ⟨a, run, cause, _, enabled, _, e⟩ := step_cases (program env) s choice
  · rw [e]
    exact bounded
  rw [e]
  cases hsegment : (program env).segment a cause s.state with
  | none =>
    refine ⟨bounded.stored, ?_, ?_⟩
    · exact frames_after bounded.copies (fun _ _ h => h) fun frame hframe => nomatch hframe
    · exact frames_after bounded.measures (fun _ _ h => h) fun frame hframe => nomatch hframe
  | some result =>
    have copy := bounded.copy enabled
    obtain ⟨stored, measures⟩ :=
      (segment_writes hsegment).bounded bounded.stored copy (bounded.measured enabled)
    have copied := (segment_effect hsegment).projects.copy bounded.stored copy
    refine ⟨stored, ?_, ?_⟩
    · refine frames_after bounded.copies (fun _ _ h => h) fun frame hframe => ?_
      replace hframe : result.2.frame? = some frame := hframe
      rw [hframe] at copied
      exact copied
    · refine frames_after bounded.measures (fun _ _ h => h) fun frame hframe => ?_
      replace hframe : result.2.frame? = some frame := hframe
      rw [hframe] at measures
      exact measures

theorem bounded_start (env : Env) (caller : Principal) (time : Nat) (addrConfig : AddrConfig)
    (icpAddr : Principal) : Bounded (Sys.start (init env caller time addrConfig icpAddr)) := by
  have nothing : ∀ {run : Nat} {frame : Frame}, (∅ : ExtTreeMap Nat Frame compare)[run]? ≠ some frame := by
    intro run frame h
    rw [ExtTreeMap.getElem?_empty] at h
    cases h
  refine ⟨fun k p hp => ?_, fun _ _ h => (nothing h).elim, fun _ _ h => (nothing h).elim⟩
  rw [Sys.start, init, ExtTreeMap.getElem?_empty] at hp
  cases hp

/-- **Progress stays in its bounds** in every schedule, and neither writer ever divides by zero. -/
theorem progress_wellFormed (env : Env) (caller : Principal) (time : Nat) (addrConfig : AddrConfig)
    (icpAddr : Principal) (choices : List Choice) :
    InBounds (choices.foldl (program env).step
        (Sys.start (init env caller time addrConfig icpAddr))).state ∧
      ∀ (v : FomoProject) (time marketCap maxMarketCap : Nat),
        (v.updateWells time marketCap maxMarketCap).isSome :=
  ⟨(Runs.foldl_invariant step_bounded (bounded_start env caller time addrConfig icpAddr)
    choices).stored, updateWells_isSome⟩

end Fomowell.Launcher
