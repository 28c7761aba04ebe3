import Fomowell.Launcher.Identifiers

/-!
# A project is what was created

Eight fields of a project are measured or counted: its progress, its wells progress, their times, its
market cap, its replies and two times. The other fifteen come from the request, the upload and the canisters
that `create_fomo` awaits, and no method changes one of them: `FomoProject.born` is the record with what is
measured as `create_fomo` writes it. `projects_born` says of every stored project that a `create_fomo` run
stored exactly this record under this index, and of every event that the record stays.

Two writers put back a project that they did not just read. `update_progress` reads again before it writes;
`set_buy_or_sell` writes a copy from before its awaits, so the invariant `Born` is also about copies: each
is of a project that is still stored, as it was born.
-/

namespace Fomowell.Launcher

open Std Canister Table Runs Token

/-- The project with what is measured or counted as `create_fomo` writes it. -/
def FomoProject.born (p : FomoProject) : FomoProject :=
  { p with
    poolProgress := 0
    poolProgressDoneTime := none
    godOfWellsProgress := 0
    godOfWellsTime := none
    marketCap := 0
    replyCount := 0
    recentlyReplyTime := 0
    recentlyBumpTime := 0 }

/-- What was born is stored under a key, if a project is. -/
def State.bornAt (st : State) (k : Nat) : Option FomoProject :=
  st.fomoProjectMap[k]?.map FomoProject.born

/-- The project that a segment stores as a new one, if it ends. -/
def bornBy : Cause Message Frame Rep → Option FomoProject
  | .resumed (.installCode c) _ => some c.fomoProject
  | _ => none

/-- A run of `create_fomo` stored a project. -/
def CreatedAs (s : System) (p : FomoProject) : Prop :=
  ∃ entry ∈ s.log, entry.outcome.isSome ∧ bornBy entry.cause = some p

/-- The law of an event: every project stays, as it was born. -/
def KeepsBirths (env : Env) (s : System) (event : LifeEvent) : Prop :=
  ∀ (k : Nat) p, s.state.bornAt k = some p → (live env s event).state.bornAt k = some p

@[simp] theorem Created.born (c : Created) : c.fomoProject.born = c.fomoProject := rfl

/-! ## Writers -/

section

variable {env : Env} {a : Ambient} {st st' : State} {next : Next Frame Answer}

theorem bornAt_of_stored {k : Nat} {p : FomoProject} (hp : st.fomoProjectMap[k]? = some p) :
    st.bornAt k = some p.born := by
  unfold State.bornAt
  rw [hp]
  rfl

theorem bornAt_of_absent {k : Nat} (absent : st.fomoProjectMap[k]? = none) : st.bornAt k = none := by
  unfold State.bornAt
  rw [absent]
  rfl

theorem bornAt_congr (h : st'.fomoProjectMap = st.fomoProjectMap) (k : Nat) :
    st'.bornAt k = st.bornAt k := by
  unfold State.bornAt
  rw [h]

theorem bornAt_init (env : Env) (caller : Principal) (time : Nat) (addrConfig : AddrConfig)
    (icpAddr : Principal) (k : Nat) : (init env caller time addrConfig icpAddr).bornAt k = none := by
  refine bornAt_of_absent ?_
  unfold init
  exact ExtTreeMap.getElem?_empty

theorem bornAt_insert {k : Nat} {p : FomoProject}
    (h : st'.fomoProjectMap = st.fomoProjectMap.insert k p) (k' : Nat) :
    st'.bornAt k' = if k' = k then some p.born else st.bornAt k' := by
  unfold State.bornAt
  rw [h, get_insert]
  split <;> rfl

/-- A project is stored over one that was born the same. -/
theorem bornAt_rewrite {k : Nat} {p p' : FomoProject}
    (h : st'.fomoProjectMap = st.fomoProjectMap.insert k p') (hp : st.bornAt k = some p.born)
    (same : p'.born = p.born) (k' : Nat) : st'.bornAt k' = st.bornAt k' := by
  rw [bornAt_insert h]
  split
  next e => rw [e, hp, same]
  next => rfl

theorem updateWells_born {v v' : FomoProject} {time marketCap maxMarketCap : Nat}
    (h : v.updateWells time marketCap maxMarketCap = some v') : v'.born = v.born := by
  obtain ⟨_, _, rfl⟩ := updateWells_eq h
  rfl

theorem Rewritten.born {time maxMarketCap : Nat} {measurement : Nat × Nat}
    {old new : Option FomoProject} (h : Rewritten time maxMarketCap measurement old new) :
    new.map FomoProject.born = old.map FomoProject.born := by
  cases old with
  | none =>
    replace h : new = none := h
    rw [h]
  | some pj =>
    obtain ⟨v, hv, hnew⟩ := h
    have same : v.born = pj.born := (updateWells_born hv).trans rfl
    obtain rfl | rfl := hnew
    · exact congrArg some same
    · exact congrArg some same

theorem progressNext_born {order : HashOrder} {time : Nat} {addrConfig : AddrConfig}
    {list : List FomoProject} {map : ExtTreeMap Nat (Nat × Nat) compare} {maxMarketCap maxIdx : Nat}
    (h : progressNext env order time addrConfig list map maxMarketCap maxIdx st =
      some (st', next)) (k : Nat) : st'.bornAt k = st.bornAt k := by
  obtain ⟨rfl, _⟩ | ⟨_, ends⟩ := progressNext_cases h
  · rfl
  · obtain ⟨unmeasured, measured⟩ := finishProgress_get ends k
    unfold State.bornAt
    cases hmap : map[k]? with
    | none => rw [unmeasured hmap]
    | some measurement => exact (measured measurement hmap).born

/-- **What a segment does to what was born**: nothing, or it stores the project of a `create_fomo`. The
copy that it writes back, if any, is of a project that is stored. -/
theorem Writes.born {cause : Cause Message Frame Rep} (h : Writes env a st cause st' next)
    (copy : (roleOf cause.frame?).Copy fun k v => st.bornAt k = some v.born) :
    (∀ k, st'.bornAt k = st.bornAt k) ∨
      ∃ c reply, cause = .resumed (.installCode c) reply ∧
        ∀ k, st'.bornAt k = if k = c.idx then some c.fomoProject else st.bornAt k := by
  cases h with
  | accounts accounting =>
    exact .inl (bornAt_congr accounting.writes.projects_eq)
  | replied ends =>
    obtain ⟨v, hv, projects⟩ := replyUpdate_writes ends
    exact .inl (bornAt_rewrite projects (bornAt_of_stored hv) rfl)
  | started ends => exact .inl (progressNext_born ends)
  | measured ends =>
    rw [updateProgressItem_eq] at ends
    exact .inl (progressNext_born ends)
  | traded ends =>
    obtain ⟨marketCap, v, _, hv, projects⟩ := setBuyOrSellSupply_writes ends
    have same := updateWells_born hv
    exact .inl (bornAt_rewrite projects copy same)
  | @installed c reply _ _ ends =>
    exact .inr ⟨c, reply, rfl, bornAt_insert (createFomoInstalled_writes ends)⟩

end

/-! ## Every event -/

/-- The invariant: what is stored was created under its index, and a copy that a suspended trade holds is
of a project that is stored, as it was born. -/
structure Born (s : System) : Prop where
  stored : ∀ (k : Nat) p, s.state.bornAt k = some p → p.fomoIdx = k ∧ CreatedAs s p
  copies : ∀ (run : Nat) frame, s.suspended[run]? = some frame →
    frame.role.Copy fun k v => s.state.bornAt k = some v.born

theorem Born.copy {s : System} (born : Born s) {run : Nat} {cause : Cause Message Frame Rep}
    (enabled : s.Enabled run cause) :
    (roleOf cause.frame?).Copy fun k v => s.state.bornAt k = some v.born := by
  cases cause with
  | received message => trivial
  | delivered frame => exact born.copies run frame enabled
  | resumed frame reply => exact born.copies run frame enabled

/-- **Every step keeps what was born**, where an index that is held is not a key. -/
theorem step_born {env : Env} {s : System} (inv : Inv s) (born : Born s) (choice : Choice) :
    Born ((program env).step s choice) ∧
      ∀ (k : Nat) p, s.state.bornAt k = some p →
        ((program env).step s choice).state.bornAt k = some p := by
  obtain e | ⟨a, run, cause, _, enabled, _, e⟩ := step_cases (program env) s choice
  · rw [e]
    exact ⟨born, fun _ _ h => h⟩
  rw [e]
  have older : ∀ {result p}, CreatedAs s p → CreatedAs (s.after run cause result) p := by
    rintro result p ⟨entry, hentry, created⟩
    exact ⟨entry, List.mem_cons_of_mem _ hentry, created⟩
  cases hsegment : (program env).segment a cause s.state with
  | none =>
    refine ⟨⟨fun k p hp => ?_, ?_⟩, fun _ _ h => h⟩
    · exact ⟨(born.stored k p hp).1, older (born.stored k p hp).2⟩
    · exact frames_after born.copies (fun _ _ h => h) fun frame hframe => nomatch hframe
  | some result =>
    obtain ⟨st', next⟩ := result
    have copy := born.copy enabled
    have wrote := (segment_writes hsegment).born copy
    -- a new project is stored where there was none, so what was born stays either way
    have kept : ∀ (k : Nat) p, s.state.bornAt k = some p → st'.bornAt k = some p := by
      intro k p hp
      obtain same | ⟨c, reply, rfl, insert⟩ := wrote
      · rw [same]
        exact hp
      · rw [insert]
        split
        next hk =>
          have absent := bornAt_of_absent (absent_of_held fun idx => inv.roleOwned enabled idx)
          rw [hk, absent] at hp
          cases hp
        next => exact hp
    refine ⟨⟨fun k p hp => ?_, ?_⟩, kept⟩
    · replace hp : st'.bornAt k = some p := hp
      obtain same | ⟨c, reply, rfl, insert⟩ := wrote
      · rw [same] at hp
        exact ⟨(born.stored k p hp).1, older (born.stored k p hp).2⟩
      · rw [insert] at hp
        split at hp
        next hk =>
          cases hp
          exact ⟨hk.symm, _, List.mem_cons_self, rfl, rfl⟩
        next => exact ⟨(born.stored k p hp).1, older (born.stored k p hp).2⟩
    · refine frames_after born.copies (fun _ _ copy => copy.imp fun k v h => kept k _ h)
        fun frame hframe => ?_
      replace hframe : next.frame? = some frame := hframe
      have copied := (segment_effect hsegment).projects.copy (fun _ _ hp => bornAt_of_stored hp) copy
      rw [hframe] at copied
      exact copied.imp fun k v h => kept k _ h

/-- **Every event keeps what was born.** -/
theorem live_born {env : Env} {s : System} (event : LifeEvent)
    (so : Identifying env s ∧ Born s) :
    (Identifying env (live env s event) ∧ Born (live env s event)) ∧ KeepsBirths env s event := by
  obtain ⟨identifying, born⟩ := so
  have identifying' := (live_identifying event identifying).1
  unfold KeepsBirths
  obtain ⟨choice, e⟩ | e | ⟨st', _, _, preserved, e⟩ := live_cases identifying.fits event
  · rw [e] at identifying' ⊢
    exact ⟨⟨identifying', (step_born identifying.inv born choice).1⟩,
      (step_born identifying.inv born choice).2⟩
  · rw [e] at identifying' ⊢
    exact ⟨⟨identifying', born⟩, fun _ _ h => h⟩
  · rw [e] at identifying' ⊢
    have same := bornAt_congr preserved.projects
    refine ⟨⟨identifying', fun k p hp => ?_, fun run frame hframe => ?_⟩, fun k p hp => ?_⟩
    · replace hp : st'.bornAt k = some p := hp
      rw [same] at hp
      exact born.stored k p hp
    · exact (born.copies run frame hframe).imp fun k v h => (same k).trans h
    · exact (same k).trans hp

theorem born_start (env : Env) (caller : Principal) (time : Nat) (addrConfig : AddrConfig)
    (icpAddr : Principal) : Born (Sys.start (init env caller time addrConfig icpAddr)) := by
  refine ⟨fun k p hp => ?_, frames_start _⟩
  have nothing := bornAt_init env caller time addrConfig icpAddr k
  exact absurd (nothing.symm.trans hp) (by simp)

/-- **A project is what was created**, in every reachable launcher: a `create_fomo` run stored it under this
index with these fields, and no event changes one of them. -/
theorem projects_born (env : Env) (caller : Principal) (time : Nat) (addrConfig : AddrConfig)
    (icpAddr : Principal) (events : List LifeEvent) :
    (∀ (k : Nat) p, (lived env caller time addrConfig icpAddr events).state.fomoProjectMap[k]? = some p →
        p.fomoIdx = k ∧ CreatedAs (lived env caller time addrConfig icpAddr events) p.born) ∧
      Along (live env) (KeepsBirths env) (Sys.start (init env caller time addrConfig icpAddr))
        events := by
  have start := And.intro (identifying_start env caller time addrConfig icpAddr)
    (born_start env caller time addrConfig icpAddr)
  have keep : ∀ s event, Identifying env s ∧ Born s →
      Identifying env (live env s event) ∧ Born (live env s event) :=
    fun s event so => (live_born event so).1
  constructor
  · intro k p hp
    exact (foldl_invariant keep start events).2.stored k p.born (bornAt_of_stored hp)
  · exact .of_invariant keep (fun s event so => (live_born event so).2) start events

end Fomowell.Launcher
