import Fomowell.Launcher.Callers
import Fomowell.Lib.Ranges
import Mathlib.Data.List.Nodup

/-!
# What a user has created

`get_fomo_by_create_user_pid` answers the projects of a user. The log says which these are: a project
is created where the code of its canister is installed, in a run that a `create_fomo` of its creator
started. `Recorded` says that the table is what the log says, `creations_listed` that the query
answers for every user what was created for the user's messages: all of it, nothing else, and nothing
twice.
-/

namespace Fomowell.Launcher

open Std Canister Table Runs Token

/-- `get_fomo_by_create_user_pid`. -/
def State.getFomoByCreateUserPid (st : State) (userPid : Principal) : Option (List FomoProject) :=
  let fps := st.fomoProjectMap.toList.filter fun entry => entry.2.createUserPid = userPid
  if fps.length = 0 then none else some (fps.map Prod.snd)

/-- The project that a segment of the log stored. -/
def bornIn (entry : Entry Message Frame Answer Rep) : Option FomoProject :=
  if entry.outcome.isSome then bornBy entry.cause else none

/-- The projects that were stored, the latest first. -/
def System.births (s : System) : List FomoProject := s.log.filterMap bornIn

/-- What is stored is what was created, each under an index of its own. -/
structure Recorded (s : System) : Prop where
  distinct : ((System.births s).map FomoProject.fomoIdx).Nodup
  stored : ∀ k, s.state.bornAt k = (System.births s).find? fun p => p.fomoIdx = k

/-- What was created was asked for by the message of its creator, in the same run. -/
def CreatorsAsked (s : System) : Prop :=
  ∀ entry ∈ s.log, ∀ p, bornIn entry = some p →
    ∃ fomoCreate, s.Began entry.run (.createFomo p.createUserPid fomoCreate)

section

variable {env : Env} {s : System}

theorem bornBy_eq_some {cause : Cause Message Frame Rep} {p : FomoProject} (h : bornBy cause = some p) :
    ∃ c reply, cause = .resumed (.installCode c) reply ∧ p = c.fomoProject := by
  unfold bornBy at h
  split at h
  next c reply => exact ⟨c, reply, rfl, (Option.some.inj h).symm⟩
  next => cases h

/-- **Every step** records what it stores. -/
theorem step_recorded (inv : Inv s) (born : Born s) (recorded : Recorded s) (choice : Choice) :
    Recorded ((program env).step s choice) := by
  obtain e | ⟨a, run, cause, _, enabled, _, e⟩ := step_cases (program env) s choice
  · rw [e]
    exact recorded
  rw [e]
  cases hsegment : (program env).segment a cause s.state with
  | none =>
    have births : System.births (s.after run cause none) = System.births s :=
      List.filterMap_cons_none rfl
    exact ⟨births ▸ recorded.distinct, births ▸ recorded.stored⟩
  | some result =>
    obtain ⟨st', next⟩ := result
    have wrote := (segment_writes hsegment).born (born.copy enabled)
    cases hborn : bornBy cause with
    | none =>
      have births : System.births (s.after run cause (some (st', next))) = System.births s :=
        List.filterMap_cons_none hborn
      refine ⟨births ▸ recorded.distinct, fun k => ?_⟩
      obtain same | ⟨c, reply, rfl, _⟩ := wrote
      · exact (same k).trans (births ▸ recorded.stored k)
      · cases hborn
    | some p =>
      obtain ⟨c, reply, rfl, rfl⟩ := bornBy_eq_some hborn
      have births : System.births (s.after run (.resumed (.installCode c) reply) (some (st', next))) =
          c.fomoProject :: System.births s := List.filterMap_cons_some rfl
      have insert := bornAt_insert (createFomoInstalled_writes hsegment)
      have absent := bornAt_of_absent (absent_of_held fun idx => inv.roleOwned enabled idx)
      rw [recorded.stored, List.find?_eq_none] at absent
      constructor
      · rw [births, List.map_cons, List.nodup_cons]
        refine ⟨fun hmem => ?_, recorded.distinct⟩
        obtain ⟨q, hq, same⟩ := List.mem_map.mp hmem
        exact absent q hq (decide_eq_true same)
      · intro k
        show st'.bornAt k = _
        rw [births, insert, recorded.stored]
        by_cases hk : k = c.idx
        · have first : decide (c.fomoProject.fomoIdx = k) = true := decide_eq_true hk.symm
          rw [if_pos hk, List.find?_cons, first]
          rfl
        · have other : decide (c.fomoProject.fomoIdx = k) = false := decide_eq_false (Ne.symm hk)
          rw [if_neg hk, List.find?_cons, other]

/-- **Every event** records what it stores. -/
theorem live_recorded (event : LifeEvent)
    (so : (Lasting env s ∧ Told (ServesAt env) s) ∧ Recorded s) :
    (Lasting env (live env s event) ∧ Told (ServesAt env) (live env s event)) ∧
      Recorded (live env s event) := by
  obtain ⟨⟨lasting, told⟩, recorded⟩ := so
  refine ⟨live_told event ⟨lasting, told⟩, ?_⟩
  obtain ⟨choice, e⟩ | e | ⟨st', _, _, preserved, e⟩ := live_cases lasting.1.fits event
  · rw [e]
    exact step_recorded lasting.1.inv lasting.2 recorded choice
  · rw [e]
    exact recorded
  · rw [e]
    refine ⟨recorded.distinct, fun k => ?_⟩
    exact (bornAt_congr preserved.projects k).trans (recorded.stored k)

/-! ## The query -/

/-- What a user is answered: the projects that it has created, each once and in the order of their
indices, and nothing where there are none. -/
structure Lists (s : System) (user : Principal) : Prop where
  ascending : ((s.state.getFomoByCreateUserPid user).getD []).Pairwise fun p q => p.fomoIdx < q.fomoIdx
  created : (((s.state.getFomoByCreateUserPid user).getD []).map FomoProject.born).Perm
    ((System.births s).filter fun p => p.createUserPid = user)
  nothing : s.state.getFomoByCreateUserPid user = none ↔
    ∀ p ∈ System.births s, p.createUserPid ≠ user

/-- What is answered, with its keys. -/
theorem getFomoByCreateUserPid_getD (st : State) (user : Principal) :
    (st.getFomoByCreateUserPid user).getD [] =
      (st.fomoProjectMap.toList.filter fun entry => entry.2.createUserPid = user).map Prod.snd := by
  unfold State.getFomoByCreateUserPid
  dsimp only
  split
  next h =>
    rw [List.length_eq_zero_iff.mp h]
    rfl
  next => rfl

theorem getFomoByCreateUserPid_eq_none {st : State} {user : Principal} :
    st.getFomoByCreateUserPid user = none ↔ (st.getFomoByCreateUserPid user).getD [] = [] := by
  rw [getFomoByCreateUserPid_getD, List.map_eq_nil_iff, ← List.length_eq_zero_iff]
  unfold State.getFomoByCreateUserPid
  dsimp only
  split
  next h => exact iff_of_true rfl h
  next h => exact iff_of_false (by simp) h

/-- What was created is what is stored under its index. -/
theorem Recorded.mem_births (recorded : Recorded s) {p : FomoProject} :
    p ∈ System.births s ↔ s.state.bornAt p.fomoIdx = some p := by
  rw [recorded.stored]
  constructor
  · intro hp
    have found : ((System.births s).find? fun q => q.fomoIdx = p.fomoIdx).isSome :=
      List.find?_isSome.mpr ⟨p, hp, decide_eq_true rfl⟩
    obtain ⟨q, hq⟩ := Option.isSome_iff_exists.mp found
    have same := List.find?_some hq
    replace same : q.fomoIdx = p.fomoIdx := of_decide_eq_true same
    rw [hq, List.inj_on_of_nodup_map recorded.distinct (List.mem_of_find?_eq_some hq) hp same]
  · exact List.mem_of_find?_eq_some

/-- A project is answered as it was created. -/
theorem mem_answered {st : State} {user : Principal} {p : FomoProject} :
    p ∈ ((st.getFomoByCreateUserPid user).getD []).map FomoProject.born ↔
      p.createUserPid = user ∧ ∃ k : Nat, st.bornAt k = some p := by
  rw [getFomoByCreateUserPid_getD, List.map_map, List.mem_map]
  constructor
  · rintro ⟨⟨k, q⟩, hmem, rfl⟩
    obtain ⟨stored, creator⟩ := List.mem_filter.mp hmem
    have hq := ExtTreeMap.mem_toList_iff_getElem?_eq_some.mp stored
    exact ⟨of_decide_eq_true creator, k, bornAt_of_stored hq⟩
  · rintro ⟨creator, k, hp⟩
    obtain ⟨q, stored, rfl⟩ := Option.map_eq_some_iff.mp hp
    refine ⟨(k, q), List.mem_filter.mpr ⟨?_, decide_eq_true creator⟩, rfl⟩
    exact ExtTreeMap.mem_toList_iff_getElem?_eq_some.mpr stored

theorem answered_ascending (keyed : ∀ (k : Nat) p, s.state.bornAt k = some p → p.fomoIdx = k)
    (user : Principal) :
    ((s.state.getFomoByCreateUserPid user).getD []).Pairwise fun p q => p.fomoIdx < q.fomoIdx := by
  have hkeyed : ∀ e ∈ s.state.fomoProjectMap.toList, e.2.fomoIdx = e.1 := by
    intro e he
    exact keyed e.1 e.2.born (bornAt_of_stored (ExtTreeMap.mem_toList_iff_getElem?_eq_some.mp he))
  rw [getFomoByCreateUserPid_getD, List.pairwise_map]
  refine ((Pages.toList_ascending _).filter _).imp_of_mem fun ha hb hab => ?_
  rw [hkeyed _ (List.mem_of_mem_filter ha), hkeyed _ (List.mem_of_mem_filter hb)]
  exact hab

theorem Recorded.answered_created (recorded : Recorded s)
    (keyed : ∀ (k : Nat) p, s.state.bornAt k = some p → p.fomoIdx = k) (user : Principal) :
    (((s.state.getFomoByCreateUserPid user).getD []).map FomoProject.born).Perm
      ((System.births s).filter fun p => p.createUserPid = user) := by
  have answeredOnce : (((s.state.getFomoByCreateUserPid user).getD []).map FomoProject.born).Nodup := by
    refine List.Nodup.of_map FomoProject.fomoIdx ?_
    rw [List.map_map]
    refine (List.pairwise_map.mpr (answered_ascending keyed user)).imp fun hab => ?_
    exact Nat.ne_of_lt hab
  have createdOnce : (System.births s).Nodup := List.Nodup.of_map _ recorded.distinct
  rw [List.perm_ext_iff_of_nodup answeredOnce (createdOnce.filter _)]
  intro p
  rw [mem_answered, List.mem_filter, recorded.mem_births, decide_eq_true_eq, and_comm]
  refine and_congr_left fun _ => ⟨?_, fun hp => ⟨_, hp⟩⟩
  rintro ⟨k, hp⟩
  rw [keyed k p hp]
  exact hp

/-- **The query answers what was created**, where the table has it under its indices. -/
theorem Recorded.lists (recorded : Recorded s)
    (keyed : ∀ (k : Nat) p, s.state.bornAt k = some p → p.fomoIdx = k) (user : Principal) :
    Lists s user := by
  have created := recorded.answered_created keyed user
  refine ⟨answered_ascending keyed user, created, ?_⟩
  rw [getFomoByCreateUserPid_eq_none, ← List.map_eq_nil_iff (f := FomoProject.born)]
  constructor
  · intro none p hp creator
    rw [none] at created
    have hmem : p ∈ (System.births s).filter fun p => p.createUserPid = user :=
      List.mem_filter.mpr ⟨hp, decide_eq_true creator⟩
    rw [created.symm.eq_nil] at hmem
    cases hmem
  · intro others
    have empty : ((System.births s).filter fun p => p.createUserPid = user) = [] :=
      List.filter_eq_nil_iff.mpr fun p hp creator => others p hp (of_decide_eq_true creator)
    rw [empty] at created
    exact created.eq_nil

/-- What was created was asked for by its creator. -/
theorem births_asked (told : Told (ServesAt env) s)
    {entry : Entry Message Frame Answer Rep} (hentry : entry ∈ s.log) {p : FomoProject}
    (hborn : bornIn entry = some p) :
    ∃ fomoCreate, s.Began entry.run (.createFomo p.createUserPid fomoCreate) := by
  unfold bornIn at hborn
  split at hborn
  next =>
    obtain ⟨c, reply, hcause, rfl⟩ := bornBy_eq_some hborn
    obtain ⟨m, began, asked, description, rfl, _⟩ :=
      told.logged entry hentry (.installCode c) (congrArg Cause.frame? hcause)
    exact ⟨asked, began⟩
  next => cases hborn

end

/-- **The query answers what a user has created**, in every reachable launcher: the projects that runs
of `create_fomo` stored which the user had started. -/
theorem creations_listed (env : Env) (caller : Principal) (time : Nat) (addrConfig : AddrConfig)
    (icpAddr : Principal) (events : List LifeEvent) :
    (∀ user, Lists (lived env caller time addrConfig icpAddr events) user) ∧
      CreatorsAsked (lived env caller time addrConfig icpAddr events) := by
  have nothing : Recorded (Sys.start (init env caller time addrConfig icpAddr)) :=
    ⟨.nil, bornAt_init env caller time addrConfig icpAddr⟩
  obtain ⟨⟨lasting, told⟩, recorded⟩ := foldl_invariant
    (I := fun s => (Lasting env s ∧ Told (ServesAt env) s) ∧ Recorded s)
    (fun _ event so => live_recorded event so)
    ⟨served_start env caller time addrConfig icpAddr, nothing⟩ events
  exact ⟨recorded.lists fun k p hp => (lasting.2.stored k p hp).1,
    fun entry hentry p hborn => births_asked told hentry hborn⟩

end Fomowell.Launcher
