import Fomowell.Launcher.WriteBack

/-!
# The time of a god of wells

A project that reaches ten thousand in the wells is stamped with the time. The stamp is no milestone:
a project whose wells progress has been reset since, because no eligible project had a market cap, is
stamped again when it gets there again, and a trade writes back the time that its copy had.

A choice `Rewrites` where it ends `update_progress` or `set_buy_or_sell` so that the stored time of a
project is replaced. `milestones_kept_iff`: a time that is stored stays stored in exactly the schedules
without such a choice. `not_milestones_kept` is a project stamped twice.
-/

namespace Fomowell.Launcher

open Std Canister Table Runs Token

/-- The time at which a project became the god of wells. -/
def State.godOfWellsTime (st : State) (k : Nat) : Option Nat :=
  st.fomoProjectMap[k]?.bind (·.godOfWellsTime)

/-- Every time that is stored stays stored. -/
def MilestonesKept (st st' : State) : Prop :=
  ∀ k t, st.godOfWellsTime k = some t → st'.godOfWellsTime k = some t

/-- The last reply of the oracle ends the measurements of `update_progress`, and by then a project that
has a time is to be stamped with another one. -/
def MeasureRewrites (env : Env) (a : Ambient) (p : Progress)
    (mcRes : CallResult (PrincipalMap Nat)) (st : State) : Prop :=
  (updateProgressItem env a.order a.time p mcRes st).isSome ∧ p.list = [] ∧
    ∃ (k : Nat) (measurement : Nat × Nat) (pj : FomoProject) (t : Nat),
      (p.mapAfter mcRes)[k]? = some measurement ∧ st.fomoProjectMap[k]? = some pj ∧
        pj.godOfWellsTime = some t ∧ pj.Stamps measurement.2 (p.maxAfter mcRes) ∧ a.time ≠ t

/-- `set_buy_or_sell` ends for a project that has a time by now, and its copy is to be stamped with
another one, or is not and has another one or none. -/
def TradeRewrites (env : Env) (a : Ambient) (q : Quote) (supply : CallResult Nat) (st : State) :
    Prop :=
  (setBuyOrSellSupply env a.time q supply st).isSome ∧
    ∃ marketCap t, q.marketCap supply = some marketCap ∧
      st.godOfWellsTime q.recordSignal.fomoIdx = some t ∧
        if q.v.Stamps marketCap st.largestMarketCap then a.time ≠ t else q.v.godOfWellsTime ≠ some t

/-- A choice that ends a run of `update_progress` or `set_buy_or_sell` so that a stored time is
replaced. -/
def Rewrites (env : Env) (s : System) (choice : Choice) : Prop :=
  (∃ a run p mcRes, s.starts choice = some (a, run, .resumed (.marketCapBatch p) mcRes) ∧
      MeasureRewrites env a p mcRes s.state) ∨
    ∃ a run type q supply,
      s.starts choice = some (a, run, .resumed (.ledger type (.totalSupply q)) supply) ∧
        TradeRewrites env a q supply s.state

/-- Between any two states of a schedule, every time that is stored stays stored. -/
def MilestonesStay (env : Env) (s : System) (choices : List Choice) : Prop :=
  ∀ earlier between later : List Choice, choices = earlier ++ between ++ later →
    MilestonesKept (earlier.foldl (program env).step s).state
      ((earlier ++ between).foldl (program env).step s).state

theorem MilestonesKept.refl (st : State) : MilestonesKept st st := fun _ _ h => h

theorem MilestonesKept.trans {st st' st'' : State} (h : MilestonesKept st st')
    (h' : MilestonesKept st' st'') : MilestonesKept st st'' := fun k t ht => h' k t (h k t ht)

/-! ## One step -/

section

variable {env : Env} {a : Ambient} {st st' : State} {next : Next Frame Answer}

theorem godOfWellsTime_of_get {k : Nat} {p : FomoProject} (h : st.fomoProjectMap[k]? = some p) :
    st.godOfWellsTime k = p.godOfWellsTime := by
  unfold State.godOfWellsTime
  rw [h]
  rfl

theorem get_of_godOfWellsTime {k t : Nat} (h : st.godOfWellsTime k = some t) :
    ∃ p, st.fomoProjectMap[k]? = some p ∧ p.godOfWellsTime = some t :=
  Option.bind_eq_some_iff.mp h

/-- A project stored with the time that is stored, or where there is none. -/
theorem MilestonesKept.of_insert {k : Nat} {p : FomoProject}
    (h : st'.fomoProjectMap = st.fomoProjectMap.insert k p)
    (kept : ∀ t, st.godOfWellsTime k = some t → p.godOfWellsTime = some t) :
    MilestonesKept st st' := by
  intro k' t ht
  unfold State.godOfWellsTime
  rw [h, get_insert]
  split
  next e =>
    rw [e] at ht
    exact kept t ht
  next => exact ht

/-- The time that `set_buy_or_sell` writes. -/
theorem setBuyOrSellSupply_time {time : Nat} {q : Quote} {supply : CallResult Nat}
    (h : setBuyOrSellSupply env time q supply st = some (st', next)) :
    ∃ marketCap, q.marketCap supply = some marketCap ∧
      st'.godOfWellsTime q.recordSignal.fomoIdx =
        if q.v.Stamps marketCap st.largestMarketCap then some time else q.v.godOfWellsTime := by
  obtain ⟨marketCap, v, hcap, hv, projects⟩ := setBuyOrSellSupply_writes h
  have hwritten := congrArg (·[q.recordSignal.fomoIdx]?) projects
  rw [ExtTreeMap.getElem?_insert_self] at hwritten
  have htime := updateWells_time hv
  exact ⟨marketCap, hcap, (godOfWellsTime_of_get hwritten).trans htime⟩

/-- A trade that rewrites no time keeps them all. -/
theorem setBuyOrSellSupply_kept {q : Quote} {supply : CallResult Nat}
    (h : setBuyOrSellSupply env a.time q supply st = some (st', next))
    (current : ¬ TradeRewrites env a q supply st) : MilestonesKept st st' := by
  obtain ⟨marketCap, v, hcap, hv, projects⟩ := setBuyOrSellSupply_writes h
  refine .of_insert projects fun t ht => ?_
  show v.godOfWellsTime = some t
  by_contra hne
  refine current ⟨Option.isSome_iff_exists.mpr ⟨_, h⟩, marketCap, t, hcap, ht, ?_⟩
  rw [updateWells_time hv] at hne
  split at hne
  next stamps =>
    rw [if_pos stamps]
    exact fun e => hne (congrArg some e)
  next keeps =>
    rw [if_neg keeps]
    exact hne

/-- A round of `update_progress` keeps every time, unless it is the last one and stamps a project that
has another. -/
theorem progressNext_kept {order : HashOrder} {time : Nat} {addrConfig : AddrConfig}
    {list : List FomoProject} {map : ExtTreeMap Nat (Nat × Nat) compare} {maxMarketCap maxIdx : Nat}
    (h : progressNext env order time addrConfig list map maxMarketCap maxIdx st =
      some (st', next))
    (current : list = [] → ∀ (k : Nat) (measurement : Nat × Nat) pj t, map[k]? = some measurement →
      st.fomoProjectMap[k]? = some pj → pj.godOfWellsTime = some t →
        pj.Stamps measurement.2 maxMarketCap → time = t) : MilestonesKept st st' := by
  obtain ⟨rfl, _⟩ | ⟨hlist, ends⟩ := progressNext_cases h
  · exact .refl _
  intro k t ht
  obtain ⟨unmeasured, measured⟩ := finishProgress_get ends k
  obtain ⟨pj, hpj, htime⟩ := get_of_godOfWellsTime ht
  cases hmap : map[k]? with
  | none =>
    rw [← unmeasured hmap] at hpj
    exact (godOfWellsTime_of_get hpj).trans htime
  | some measurement =>
    have rewritten := measured measurement hmap
    rw [hpj] at rewritten
    obtain ⟨v, hv, hstamp⟩ := rewritten.stamped
    rw [godOfWellsTime_of_get hv, hstamp]
    split
    next stamps => exact congrArg some (current hlist k measurement pj t hmap hpj htime stamps)
    next => exact htime

/-- **A segment keeps every time**, unless it ends one of the two writers and rewrites one. -/
theorem Writes.milestonesKept {cause : Cause Message Frame Rep} (h : Writes env a st cause st' next)
    (owned : ∀ idx, (roleOf cause.frame?).holds idx + stored idx st ≤ drawn idx st)
    (measured : ∀ p mcRes, cause = .resumed (.marketCapBatch p) mcRes →
      ¬ MeasureRewrites env a p mcRes st)
    (traded : ∀ type q supply, cause = .resumed (.ledger type (.totalSupply q)) supply →
      ¬ TradeRewrites env a q supply st) : MilestonesKept st st' := by
  cases h with
  | accounts accounting =>
    intro k t ht
    unfold State.godOfWellsTime
    rw [accounting.writes.projects_eq]
    exact ht
  | replied ends =>
    obtain ⟨v, hv, projects⟩ := replyUpdate_writes ends
    exact .of_insert projects fun t ht => (godOfWellsTime_of_get hv).symm.trans ht
  | started ends =>
    refine progressNext_kept ends fun _ k measurement pj t hmap => ?_
    rw [ExtTreeMap.getElem?_empty] at hmap
    cases hmap
  | @measured p mcRes _ _ ends =>
    have still := measured p mcRes rfl
    have hsome := Option.isSome_iff_exists.mpr ⟨_, ends⟩
    rw [updateProgressItem_eq] at ends
    refine progressNext_kept ends fun hlist k measurement pj t hmap hpj htime stamps => ?_
    by_contra hne
    exact still ⟨hsome, hlist, k, measurement, pj, t, hmap, hpj, htime, stamps, hne⟩
  | traded ends => exact setBuyOrSellSupply_kept ends (traded _ _ _ rfl)
  | @installed c _ _ _ ends =>
    refine .of_insert (createFomoInstalled_writes ends) fun t ht => ?_
    -- no project is stored under an index that the run still holds
    obtain ⟨p, hp, _⟩ := get_of_godOfWellsTime ht
    rw [absent_of_held owned] at hp
    cases hp

/-- The end of a writer that rewrites a time does not keep it. -/
theorem MeasureRewrites.not_kept {p : Progress} {mcRes : CallResult (PrincipalMap Nat)}
    (h : MeasureRewrites env a p mcRes st) :
    ∃ st' next, updateProgressItem env a.order a.time p mcRes st = some (st', next) ∧
      ¬ MilestonesKept st st' := by
  obtain ⟨hsome, hlist, k, measurement, pj, t, hmap, hpj, htime, stamps, hne⟩ := h
  obtain ⟨⟨st', next⟩, ends⟩ := Option.isSome_iff_exists.mp hsome
  refine ⟨st', next, ends, fun kept => hne ?_⟩
  rw [updateProgressItem_eq, hlist] at ends
  have rewritten := (finishProgress_get ends k).2 measurement hmap
  rw [hpj] at rewritten
  obtain ⟨v, hv, hstamp⟩ := rewritten.stamped
  have hkept := kept k t ((godOfWellsTime_of_get hpj).trans htime)
  rw [godOfWellsTime_of_get hv, hstamp, if_pos stamps, Option.some.injEq] at hkept
  exact hkept

theorem TradeRewrites.not_kept {q : Quote} {supply : CallResult Nat}
    (h : TradeRewrites env a q supply st) :
    ∃ st' next, setBuyOrSellSupply env a.time q supply st = some (st', next) ∧
      ¬ MilestonesKept st st' := by
  obtain ⟨hsome, marketCap, t, hcap, htime, rewrites⟩ := h
  obtain ⟨⟨st', next⟩, ends⟩ := Option.isSome_iff_exists.mp hsome
  refine ⟨st', next, ends, fun kept => ?_⟩
  obtain ⟨marketCap', hcap', hwritten⟩ := setBuyOrSellSupply_time ends
  rw [hcap, Option.some.injEq] at hcap'
  subst hcap'
  rw [kept _ t htime] at hwritten
  split at rewrites
  next stamps =>
    rw [if_pos stamps, Option.some.injEq] at hwritten
    exact rewrites hwritten.symm
  next keeps =>
    rw [if_neg keeps] at hwritten
    exact rewrites hwritten.symm

end

/-! ## Every schedule -/

/-- **A step keeps every time exactly where its choice rewrites none.** -/
theorem step_milestonesKept_iff (env : Env) {s : System} (inv : Inv s) (choice : Choice) :
    MilestonesKept s.state ((program env).step s choice).state ↔ ¬ Rewrites env s choice := by
  constructor
  · rintro kept (⟨a, run, p, mcRes, starts, rewrites⟩ | ⟨a, run, type, q, supply, starts, rewrites⟩)
    · obtain ⟨st', next, ends, not⟩ := rewrites.not_kept
      rw [step_resumed_state (P := program env) starts ends] at kept
      exact not kept
    · obtain ⟨st', next, ends, not⟩ := rewrites.not_kept
      rw [step_resumed_state (P := program env) starts ends] at kept
      exact not kept
  · intro current
    refine step_state (R := MilestonesKept) .refl fun a run cause st' next starts enabled ends => ?_
    refine (segment_writes ends).milestonesKept (inv.roleOwned enabled) ?_ ?_
    · rintro p mcRes rfl rewrites
      exact current (.inl ⟨a, run, p, mcRes, starts, rewrites⟩)
    · rintro type q supply rfl rewrites
      exact current (.inr ⟨a, run, type, q, supply, starts, rewrites⟩)

/-- **The time of a god of wells, once stored, stays** in exactly the schedules in which no choice
rewrites one. -/
theorem milestones_kept_iff (env : Env) (caller : Principal) (time : Nat) (addrConfig : AddrConfig)
    (icpAddr : Principal) (choices : List Choice) :
    MilestonesStay env (Sys.start (init env caller time addrConfig icpAddr)) choices ↔
      Along (program env).step (fun s choice => ¬ Rewrites env s choice)
        (Sys.start (init env caller time addrConfig icpAddr)) choices := by
  exact between_iff_along (R := fun s s' : System => MilestonesKept s.state s'.state)
    (fun s => .refl s.state) (fun _ _ _ h h' => h.trans h')
    (fun s choice inv => step_milestonesKept_iff env inv choice) (fun s choice inv => step_inv s choice inv)
    (inv_start env caller time addrConfig icpAddr) choices

/-- A reply of the oracle, of a token worth next to nothing or nothing. -/
def capReply (marketCap : Nat) : (frame : Frame) → Rep frame
  | .marketCapBatch p => .ok ((∅ : PrincipalMap Nat).insert p.item.tokenPid marketCap)
  | frame => sampleReply frame

/-- A run of `update_progress` for the one project, at a time and with a market cap. -/
def measureAt (run time marketCap : Nat) : List Choice :=
  [.receive { sampleAmbient with time } .updateProgress,
    .resume { sampleAmbient with time } run (capReply marketCap)]

/-- A project becomes the god of wells, loses its market cap, and becomes it again. -/
def rewrittenSchedule : List Choice :=
  sampleSchedule ++ measureAt 15 0 1 ++ (measureAt 17 3 0 ++ measureAt 19 7 1)

/-- **A god of wells whose time is replaced**, at the third measurement. -/
theorem not_milestones_kept :
    ¬ ∀ env caller time addrConfig icpAddr choices,
      MilestonesStay env (Sys.start (init env caller time addrConfig icpAddr)) choices := by
  intro all
  have law : MilestonesStay sampleEnv sampleStart rewrittenSchedule := all _ _ _ _ _ _
  have kept := law (sampleSchedule ++ measureAt 15 0 1) (measureAt 17 3 0 ++ measureAt 19 7 1) []
    (List.append_nil _).symm
  have before : ((sampleSchedule ++ measureAt 15 0 1).foldl (program sampleEnv).step
      sampleStart).state.godOfWellsTime 1 = some 0 := by
    decide +kernel
  have after : (rewrittenSchedule.foldl (program sampleEnv).step
      sampleStart).state.godOfWellsTime 1 = some 7 := by
    decide +kernel
  have stays := kept 1 0 before
  rw [show sampleSchedule ++ measureAt 15 0 1 ++ (measureAt 17 3 0 ++ measureAt 19 7 1) =
    rewrittenSchedule from rfl, after, Option.some.injEq] at stays
  omega

end Fomowell.Launcher
