import Fomowell.Lib.Countdown
import Fomowell.Lib.Ranking
import Fomowell.Launcher.WriteBack

/-!
# The election of the god of wells

`update_progress` asks the oracle for the market cap of every project and keeps the first of the largest
among those that are eligible (`GodOfWells`). Its last segment of measurements makes that project the god
of wells, rewrites every project for the largest market cap, and starts handing over the ones that have
reached the goal (`Election`).

A run measures the projects that it read at its start, and writes into what is stored at its end. So the
law is about runs during which nobody else writes a project: `updateProgress_elects` carries it to every
schedule by an invariant of the measurements, `Measured`, that each reply extends by one project.
-/

namespace Fomowell.Launcher

open Std Canister Table Token Checked Ranking Runs

/-! ## What an election is for -/

/-- A project that may become the god of wells with a market cap. -/
def FomoProject.Eligible (v : FomoProject) (marketCap : Nat) : Prop :=
  poolProgressOf marketCap ≤ 10000 ∧ v.poolProgressDoneTime = none ∨
    10000 ≤ poolProgressOf marketCap ∧ v.godOfWellsTime = none

instance (v : FomoProject) (marketCap : Nat) : Decidable (v.Eligible marketCap) :=
  inferInstanceAs (Decidable (_ ∨ _))

/-- A project that reaches the goal with a market cap, and had not been done. -/
def FomoProject.Reaches (v : FomoProject) (marketCap : Nat) : Prop :=
  10000 ≤ poolProgressOf marketCap ∧ v.poolProgressDoneTime = none

instance (v : FomoProject) (marketCap : Nat) : Decidable (v.Reaches marketCap) :=
  inferInstanceAs (Decidable (_ ∧ _))

/-- The largest market cap of the eligible projects, and the smallest index of those that have it; zero
and zero where no eligible project has a market cap. -/
inductive GodOfWells (projects : ExtTreeMap Nat FomoProject compare) (cap : FomoProject → Nat) :
    Nat → Nat → Prop
  | nobody : (∀ (k : Nat) v, projects[k]? = some v → v.Eligible (cap v) → cap v = 0) →
    GodOfWells projects cap 0 0
  | king (k : Nat) (v : FomoProject) : projects[k]? = some v → v.Eligible (cap v) → 0 < cap v →
    (∀ (k' : Nat) w, projects[k']? = some w → w.Eligible (cap w) →
      cap w ≤ cap v ∧ (cap w = cap v → k ≤ k')) → GodOfWells projects cap (cap v) k

/-- A project once it is measured against the largest market cap. -/
def FomoProject.remeasured (v : FomoProject) (time marketCap maxMarketCap : Nat) : FomoProject :=
  { v with
    poolProgress := min 10000 (poolProgressOf marketCap)
    marketCap
    godOfWellsProgress :=
      if maxMarketCap = 0 then 0
      else if 10000 ≤ v.godOfWellsProgress then 10000
      else min 10000 (marketCap * 10000 / maxMarketCap)
    godOfWellsTime := if v.Stamps marketCap maxMarketCap then some time else v.godOfWellsTime
    poolProgressDoneTime := if v.Reaches marketCap then some time else v.poolProgressDoneTime }

/-- The projects that a run is to hand over from where it is. -/
def handsOver : Next Frame Answer → List Nat
  | .awaits (.handOff _ h) => h.fomoPid :: h.rest
  | _ => []

/-- What an election leaves. -/
structure Elected (projects : ExtTreeMap Nat FomoProject compare) (cap : FomoProject → Nat)
    (time maxMarketCap idx : Nat) (st : State) (next : Next Frame Answer) : Prop where
  godOfWells : st.context.godOfWellsIdx = idx
  rewritten : ∀ k : Nat, st.fomoProjectMap[k]? =
    projects[k]?.map fun v => v.remeasured time (cap v) maxMarketCap
  crowned : 0 < maxMarketCap → ∃ v king, projects[idx]? = some v ∧
    st.fomoProjectMap[idx]? = some king ∧ king.godOfWellsProgress = 10000 ∧
      (v.godOfWellsProgress ≤ 10000 → king.godOfWellsTime.isSome)
  locked : ∀ k : Nat, k ∈ handsOver next ↔ ∃ v, projects[k]? = some v ∧ v.Reaches (cap v)
  once : (handsOver next).Nodup

/-- The last loop of `update_progress` cannot begin with this project: its first call is the transfer to the
Dogmi DAO, and the build has no address of it. -/
def FomoProject.Unaddressed (env : Env) (v : FomoProject) (marketCap : Nat) : Prop :=
  env.dogmiDaoAddr = none ∧ v.Reaches marketCap ∧ v.sneedDaoLock = none ∧ v.dogmiDaoLock.isSome

/-- The law of the segment that ends an election. It traps where a project does not fit its record, and
where the build has no address for the first call of a project. -/
def Election (env : Env) (projects : ExtTreeMap Nat FomoProject compare) (cap : FomoProject → Nat)
    (time : Nat) (result : Segment) : Prop :=
  ∃ maxMarketCap idx, GodOfWells projects cap maxMarketCap idx ∧
    match result with
    | some (st, next) => Elected projects cap time maxMarketCap idx st next
    | none => ∃ (k : Nat) (v : FomoProject), projects[k]? = some v ∧
      (4096 < env.projectSize (v.remeasured time (cap v) maxMarketCap) ∨ v.Unaddressed env (cap v))

/-- The market cap of a project that an oracle answers. -/
def capOf (oracle : FomoProject → CallResult (PrincipalMap Nat)) (v : FomoProject) : Nat :=
  reportedCap v.tokenPid (oracle v)

/-! ## The projects in the order of their indices -/

section

variable {projects : ExtTreeMap Nat FomoProject compare} {cap : FomoProject → Nat}

/-- The projects of a map, by index. -/
def listed (projects : ExtTreeMap Nat FomoProject compare) : List FomoProject :=
  projects.toList.map Prod.snd

theorem mem_listed (keyed : ∀ (k : Nat) v, projects[k]? = some v → v.fomoIdx = k) {v : FomoProject} :
    v ∈ listed projects ↔ projects[v.fomoIdx]? = some v := by
  unfold listed
  rw [List.mem_map]
  constructor
  · rintro ⟨⟨k, w⟩, hmem, rfl⟩
    have hget := ExtTreeMap.mem_toList_iff_getElem?_eq_some.mp hmem
    dsimp only
    rwa [keyed k w hget]
  · intro hget
    exact ⟨(v.fomoIdx, v), ExtTreeMap.mem_toList_iff_getElem?_eq_some.mpr hget, rfl⟩

theorem listed_sorted (keyed : ∀ (k : Nat) v, projects[k]? = some v → v.fomoIdx = k) :
    (listed projects).Pairwise fun v w => v.fomoIdx < w.fomoIdx := by
  have sorted := (ExtTreeMap.ordered_keys_toList (t := projects)).imp Nat.compare_eq_lt.mp
  unfold listed
  rw [List.pairwise_map]
  refine sorted.imp_of_mem fun {a b} ha hb hlt => ?_
  rw [keyed a.1 a.2 (ExtTreeMap.mem_toList_iff_getElem?_eq_some.mp ha),
    keyed b.1 b.2 (ExtTreeMap.mem_toList_iff_getElem?_eq_some.mp hb)]
  exact hlt

/-- The market cap that counts: that of an eligible project. -/
def score (cap : FomoProject → Nat) (v : FomoProject) : Nat := if v.Eligible (cap v) then cap v else 0

/-- The index of a leader. -/
def leaderIdx (leader : Option FomoProject) : Nat := (leader.map (·.fomoIdx)).getD 0

/-- **The leader of the projects in their order** is the god of wells. -/
theorem godOfWells_of_leads (keyed : ∀ (k : Nat) v, projects[k]? = some v → v.fomoIdx = k)
    {maxMarketCap : Nat} {leader : Option FomoProject}
    (leads : Leads (score cap) (listed projects) maxMarketCap leader) :
    GodOfWells projects cap maxMarketCap (leaderIdx leader) := by
  have member : ∀ {k : Nat} {v}, projects[k]? = some v → v ∈ listed projects := by
    intro k v hget
    rw [mem_listed keyed, keyed k v hget]
    exact hget
  cases leads with
  | nobody none =>
    refine .nobody fun k v hget eligible => ?_
    have hscore := none v (member hget)
    unfold score at hscore
    rwa [if_pos eligible] at hscore
  | first pre v post split positive below upto =>
    have eligible : v.Eligible (cap v) := by
      by_contra h
      unfold score at positive
      rw [if_neg h] at positive
      exact Nat.lt_irrefl 0 positive
    have hscore : score cap v = cap v := if_pos eligible
    have hv : projects[v.fomoIdx]? = some v := by
      rw [← mem_listed keyed, split]
      exact List.mem_append_right pre List.mem_cons_self
    rw [hscore] at positive ⊢
    refine .king v.fomoIdx v hv eligible positive fun k w hget eligible' => ?_
    have hscore' : score cap w = cap w := if_pos eligible'
    have hk := keyed k w hget
    have hmem := member hget
    have sorted := listed_sorted keyed
    rw [split] at hmem sorted
    obtain hpre | hmem := List.mem_append.mp hmem
    · -- an earlier one is strictly below the leader
      have hlt := below w hpre
      rw [hscore, hscore'] at hlt
      exact ⟨Nat.le_of_lt hlt, fun e => absurd e (Nat.ne_of_lt hlt)⟩
    obtain rfl | hpost := List.mem_cons.mp hmem
    · exact ⟨Nat.le_refl _, fun _ => Nat.le_of_eq hk⟩
    · have hle := upto w hpost
      rw [hscore, hscore'] at hle
      have hlt := (List.pairwise_cons.mp (List.pairwise_append.mp sorted).2.1).1 w hpost
      exact ⟨hle, fun _ => hk ▸ Nat.le_of_lt hlt⟩

end

/-! ## The measurements -/

section

variable {projects : ExtTreeMap Nat FomoProject compare} {cap : FomoProject → Nat}
  {oracle : FomoProject → CallResult (PrincipalMap Nat)}

/-- What is measured of a project. -/
def measurementOf (cap : FomoProject → Nat) (v : FomoProject) : Nat × Nat :=
  (capProgress (poolProgressOf (cap v)), cap v)

/-- The measurements of some projects, and their leader. -/
structure Measured (cap : FomoProject → Nat) (done : List FomoProject)
    (map : ExtTreeMap Nat (Nat × Nat) compare) (maxMarketCap idx : Nat) : Prop where
  entry : ∀ v ∈ done, map[v.fomoIdx]? = some (measurementOf cap v)
  only : ∀ (k : Nat) measurement, map[k]? = some measurement → ∃ v ∈ done, v.fomoIdx = k
  leads : ∃ leader, Leads (score cap) done maxMarketCap leader ∧ idx = leaderIdx leader

theorem Measured.nil (cap : FomoProject → Nat) : Measured cap [] ∅ 0 0 := by
  refine ⟨fun _ h => (nomatch h), fun k measurement h => ?_, none, .nil _, rfl⟩
  rw [ExtTreeMap.getElem?_empty] at h
  cases h

/-- The two branches that make a project the leader ask for a score above the largest one so far. -/
theorem isGreater_iff (cap : FomoProject → Nat) (v : FomoProject) (maxMarketCap : Nat) :
    isGreater (cap v) maxMarketCap v.poolProgressDoneTime v.godOfWellsTime = true ↔
      maxMarketCap < score cap v := by
  have hgreater : isGreater (cap v) maxMarketCap v.poolProgressDoneTime v.godOfWellsTime = true ↔
      maxMarketCap < cap v ∧ v.Eligible (cap v) := by
    unfold isGreater FomoProject.Eligible
    simp only [gt_iff_lt, ge_iff_le, Bool.and_eq_true, Bool.or_eq_true, decide_eq_true_eq,
      Option.isNone_iff_eq_none]
  rw [hgreater]
  unfold score
  by_cases eligible : v.Eligible (cap v)
  · rw [if_pos eligible]
    exact and_iff_left eligible
  · rw [if_neg eligible]
    exact iff_of_false (fun h => eligible h.2) (Nat.not_lt_zero _)

/-- **A reply of the oracle** measures one project more. -/
theorem Measured.snoc {done : List FomoProject} {p : Progress}
    (measured : Measured (capOf oracle) done p.map p.maxMarketCap p.maxMarketCapFomoIdx)
    (distinct : ∀ v ∈ done, v.fomoIdx ≠ p.item.fomoIdx) :
    Measured (capOf oracle) (done ++ [p.item]) (p.mapAfter (oracle p.item))
      (p.maxAfter (oracle p.item)) (p.idxAfter (oracle p.item)) := by
  have hmap : p.mapAfter (oracle p.item) =
      p.map.insert p.item.fomoIdx (measurementOf (capOf oracle) p.item) := rfl
  refine ⟨fun v hv => ?_, fun k measurement hk => ?_, ?_⟩
  · rw [hmap]
    obtain hv | hv := List.mem_append.mp hv
    · rw [get_insert_of_ne _ _ (distinct v hv)]
      exact measured.entry v hv
    · obtain rfl := List.mem_singleton.mp hv
      exact ExtTreeMap.getElem?_insert_self
  · rw [hmap, get_insert] at hk
    split at hk
    next e => exact ⟨p.item, List.mem_append_right done (List.mem_singleton_self _), e.symm⟩
    next =>
      obtain ⟨v, hv, hidx⟩ := measured.only k measurement hk
      exact ⟨v, List.mem_append_left _ hv, hidx⟩
  · obtain ⟨leader, leads, hidx⟩ := measured.leads
    have hgreater := isGreater_iff (capOf oracle) p.item p.maxMarketCap
    unfold Progress.maxAfter Progress.idxAfter
    by_cases h : p.isGreater (oracle p.item) = true
    · rw [if_pos h, if_pos h]
      have hlt := hgreater.mp h
      have hscore : score (capOf oracle) p.item = capOf oracle p.item := by
        unfold score at hlt ⊢
        split at hlt
        next eligible => exact if_pos eligible
        next => exact absurd hlt (Nat.not_lt_zero _)
      have leads' := leads.greater hlt
      rw [hscore] at leads'
      exact ⟨some p.item, leads', rfl⟩
    · rw [if_neg h, if_neg h]
      exact ⟨leader, leads.keep (Nat.not_lt.mp (mt hgreater.mpr h)), hidx⟩

end

/-! ## The write-back -/

section

variable {env : Env} {time maxMarketCap : Nat} {cap : FomoProject → Nat}

theorem capProgress_eq (progress : Nat) : capProgress progress = min 10000 progress := by
  unfold capProgress
  split <;> omega

/-- The wells progress after `updateWells`. -/
theorem updateWells_progress {v v' : FomoProject} {marketCap : Nat}
    (h : v.updateWells time marketCap maxMarketCap = some v') :
    v'.godOfWellsProgress =
      if maxMarketCap = 0 then 0
      else if 10000 ≤ v.godOfWellsProgress then 10000
      else min 10000 (marketCap * 10000 / maxMarketCap) := by
  unfold FomoProject.updateWells at h
  split at h
  next hmax =>
    cases h
    rw [if_pos hmax]
  next hmax =>
    rw [if_neg hmax]
    split at h
    next hlt =>
      rw [div_of_pos (Nat.pos_of_ne_zero hmax)] at h
      dsimp only [Option.bind_eq_bind, Option.bind_some] at h
      rw [if_neg (Nat.not_le.mpr hlt)]
      split at h
      next hreaches =>
        cases h
        exact (Nat.min_eq_left hreaches).symm
      next hreaches =>
        cases h
        exact (Nat.min_eq_right (Nat.le_of_not_le hreaches)).symm
    next hlt =>
      rw [if_pos (Nat.le_of_not_lt hlt)]
      split at h
      · cases h
        rfl
      next hgt =>
        have hprogress : v.godOfWellsProgress = 10000 := by omega
        split at h
        · cases h
          exact hprogress
        · cases h
          exact hprogress

/-- What `updateWells` makes of a measured project. -/
theorem updateWells_measured (v : FomoProject) (time marketCap maxMarketCap : Nat) :
    ∃ v', { v with poolProgress := capProgress (poolProgressOf marketCap), marketCap }.updateWells
        time marketCap maxMarketCap = some v' ∧
      v'.poolProgressDoneTime = v.poolProgressDoneTime ∧ v'.fomoIdx = v.fomoIdx ∧
      v.remeasured time marketCap maxMarketCap =
        { v' with poolProgressDoneTime :=
            if v.Reaches marketCap then some time else v.poolProgressDoneTime } := by
  obtain ⟨v', hv'⟩ := Option.isSome_iff_exists.mp (updateWells_isSome
    { v with poolProgress := capProgress (poolProgressOf marketCap), marketCap } time marketCap
      maxMarketCap)
  have hprogress := updateWells_progress hv'
  have htime := updateWells_time hv'
  obtain ⟨progress, wellsTime, rfl⟩ := updateWells_eq hv'
  refine ⟨_, hv', rfl, rfl, ?_⟩
  dsimp only at hprogress htime
  unfold FomoProject.remeasured
  rw [hprogress, htime, capProgress_eq]
  rfl

/-- A measured project fits its record. -/
def RemeasuredFits (env : Env) (cap : FomoProject → Nat) (time maxMarketCap : Nat)
    (v : FomoProject) : Prop :=
  env.projectSize (v.remeasured time (cap v) maxMarketCap) ≤ 4096

instance (v : FomoProject) : Decidable (RemeasuredFits env cap time maxMarketCap v) :=
  inferInstanceAs (Decidable (_ ≤ _))

/-- **One project is written back** as it is remeasured, and listed where it reaches the goal. -/
theorem writeBackOne_eq {st : State} {v : FomoProject} (hv : st.fomoProjectMap[v.fomoIdx]? = some v)
    (l : List Nat) :
    writeBackOne env time maxMarketCap (st, l) (v.fomoIdx, measurementOf cap v) =
      if RemeasuredFits env cap time maxMarketCap v then
        some ({ st with fomoProjectMap :=
            st.fomoProjectMap.insert v.fomoIdx (v.remeasured time (cap v) maxMarketCap) },
          if v.Reaches (cap v) then l ++ [v.fomoIdx] else l)
      else none := by
  obtain ⟨v', hwells, hdone, hidx, hremeasured⟩ := updateWells_measured v time (cap v) maxMarketCap
  have hmarks : (capProgress (poolProgressOf (cap v)) = 10000 ∧ v'.poolProgressDoneTime.isNone) ↔
      v.Reaches (cap v) := by
    unfold FomoProject.Reaches
    rw [hdone, Option.isNone_iff_eq_none, capProgress_eq]
    exact and_congr_left fun _ => min_eq_left_iff
  have hinsert : st.insertProject env v.fomoIdx (v.remeasured time (cap v) maxMarketCap) =
      if RemeasuredFits env cap time maxMarketCap v then
        some { st with fomoProjectMap :=
          st.fomoProjectMap.insert v.fomoIdx (v.remeasured time (cap v) maxMarketCap) }
      else none := rfl
  unfold writeBackOne measurementOf
  dsimp only
  rw [hv]
  dsimp only
  rw [hwells]
  dsimp only [Option.bind_eq_bind, Option.bind_some]
  by_cases reaches : v.Reaches (cap v)
  · rw [if_pos reaches] at hremeasured
    rw [if_pos (hmarks.mpr reaches), if_pos reaches, ← hremeasured, hinsert, hidx]
    split <;> rfl
  · rw [if_neg reaches, ← hdone] at hremeasured
    rw [if_neg (mt hmarks.mp reaches), if_neg reaches, ← show _ = v' from hremeasured, hinsert]
    split <;> rfl

/-- The projects after a write-back. -/
def writtenBack (cap : FomoProject → Nat) (time maxMarketCap : Nat)
    (projects : ExtTreeMap Nat FomoProject compare) (l : List FomoProject) :
    ExtTreeMap Nat FomoProject compare :=
  l.foldl (fun projects v => projects.insert v.fomoIdx (v.remeasured time (cap v) maxMarketCap)) projects

/-- The projects that a write-back lists. -/
def reaching (cap : FomoProject → Nat) (l : List FomoProject) : List Nat :=
  (l.filter fun v => v.Reaches (cap v)).map (·.fomoIdx)

theorem append_reaching (cap : FomoProject → Nat) (listed : List Nat) (v : FomoProject)
    (l : List FomoProject) :
    (if v.Reaches (cap v) then listed ++ [v.fomoIdx] else listed) ++ reaching cap l =
      listed ++ reaching cap (v :: l) := by
  unfold reaching
  rw [List.filter_cons]
  by_cases reaches : v.Reaches (cap v)
  · rw [if_pos reaches, if_pos (decide_eq_true reaches), List.map_cons, List.append_assoc]
    rfl
  · rw [if_neg reaches, if_neg (by rwa [decide_eq_true_eq])]

/-- **The write-back**, over the measurements of any projects that are stored. -/
theorem writeBack_eq (cap : FomoProject → Nat) {l : List FomoProject} (st : State) {listed : List Nat}
    (stored : ∀ v ∈ l, st.fomoProjectMap[v.fomoIdx]? = some v) (nodup : (l.map (·.fomoIdx)).Nodup) :
    (l.map fun v => (v.fomoIdx, measurementOf cap v)).foldlM (writeBackOne env time maxMarketCap)
        (st, listed) =
      if ∀ v ∈ l, RemeasuredFits env cap time maxMarketCap v then
        some ({ st with fomoProjectMap := writtenBack cap time maxMarketCap st.fomoProjectMap l },
          listed ++ reaching cap l)
      else none := by
  induction l generalizing st listed with
  | nil =>
    rw [if_pos fun _ h => nomatch h]
    rw [show reaching cap [] = [] from rfl, List.append_nil]
    rfl
  | cons v l ih =>
    rw [List.map_cons, List.nodup_cons] at nodup
    rw [List.map_cons, List.foldlM_cons, writeBackOne_eq (stored v List.mem_cons_self)]
    by_cases fits : RemeasuredFits env cap time maxMarketCap v
    · have stored' : ∀ w ∈ l, (st.fomoProjectMap.insert v.fomoIdx
          (v.remeasured time (cap v) maxMarketCap))[w.fomoIdx]? = some w := by
        intro w hw
        have hne : w.fomoIdx ≠ v.fomoIdx := fun e => nodup.1 (e ▸ List.mem_map_of_mem hw)
        rw [get_insert_of_ne _ _ hne]
        exact stored w (List.mem_cons_of_mem v hw)
      rw [if_pos fits]
      refine (ih { st with fomoProjectMap := _ } stored' nodup.2).trans ?_
      rw [append_reaching]
      simp only [List.forall_mem_cons, fits, true_and]
      rfl
    · rw [if_neg fits, if_neg fun all => fits (all v List.mem_cons_self)]
      rfl

end

/-! ## The end of an election -/

section

variable {env : Env} {order : HashOrder} {time maxMarketCap idx : Nat} {addrConfig : AddrConfig}
  {cap : FomoProject → Nat} {map : ExtTreeMap Nat (Nat × Nat) compare} {st : State}

/-- A list of values of a function is the function of a list. -/
theorem exists_map_eq {α β : Type} {f : α → β} {P : α → Prop} {l : List β}
    (h : ∀ b ∈ l, ∃ a, P a ∧ f a = b) : ∃ as : List α, as.map f = l ∧ ∀ a ∈ as, P a := by
  induction l with
  | nil => exact ⟨[], rfl, fun _ h => nomatch h⟩
  | cons b l ih =>
    obtain ⟨a, ha, rfl⟩ := h b List.mem_cons_self
    obtain ⟨as, rfl, has⟩ := ih fun c hc => h c (List.mem_cons_of_mem _ hc)
    exact ⟨a :: as, rfl, List.forall_mem_cons.mpr ⟨ha, has⟩⟩

/-- The measurements of all projects, in whatever order they are visited. -/
theorem entries_measured (keyed : Keyed st)
    (measured : Measured cap (listed st.fomoProjectMap) map maxMarketCap idx) (order : HashOrder) :
    ∃ l : List FomoProject, order.entries map = l.map (fun v => (v.fomoIdx, measurementOf cap v)) ∧
      (l.map (·.fomoIdx)).Nodup ∧ ∀ v, v ∈ l ↔ st.fomoProjectMap[v.fomoIdx]? = some v := by
  have visited : ∀ entry ∈ order.entries map, ∃ v, v ∈ listed st.fomoProjectMap ∧
      (v.fomoIdx, measurementOf cap v) = entry := by
    rintro ⟨k, measurement⟩ hentry
    have hget := (order.mem_entries map).mp hentry
    obtain ⟨v, hv, rfl⟩ := measured.only k measurement hget
    rw [measured.entry v hv] at hget
    cases hget
    exact ⟨v, hv, rfl⟩
  obtain ⟨l, hl, hmem⟩ := exists_map_eq visited
  have nodup := order.nodup_entries map
  rw [← hl, List.map_map] at nodup
  refine ⟨l, hl.symm, nodup, fun v => ⟨fun hv => (mem_listed keyed).mp (hmem v hv), fun hv => ?_⟩⟩
  have hentry := (order.mem_entries map).mpr (measured.entry v ((mem_listed keyed).mpr hv))
  rw [← hl] at hentry
  obtain ⟨w, hw, e⟩ := List.mem_map.mp hentry
  obtain ⟨hidx, _⟩ := Prod.mk.inj e
  have hw' := (mem_listed keyed).mp (hmem w hw)
  rw [hidx, hv, Option.some.injEq] at hw'
  exact hw' ▸ hw

/-- The last loop starts on its list, where its projects are stored and it has the address for its first
call. -/
theorem handOffNext_list (env : Env) (addrConfig : AddrConfig) {l : List Nat}
    (stored : ∀ k ∈ l, ∃ v, st.fomoProjectMap[k]? = some v) :
    match handOffNext env addrConfig l st with
    | some (st', next) => st' = st ∧ handsOver next = l
    | none => ∃ k ∈ l, ∃ v, st.fomoProjectMap[k]? = some v ∧ v.sneedDaoLock = none ∧
      v.dogmiDaoLock.isSome ∧ env.dogmiDaoAddr = none := by
  cases l with
  | nil => exact ⟨rfl, rfl⟩
  | cons k rest =>
    obtain ⟨v, hv⟩ := stored k List.mem_cons_self
    unfold handOffNext
    dsimp only
    rw [hv, Option.bind_eq_bind, Option.bind_some]
    cases hframe : HandOff.fromSneed env ⟨addrConfig, k, v, rest⟩ with
    | none => exact ⟨k, List.mem_cons_self, v, hv, HandOff.fromSneed_eq_none.mp hframe⟩
    | some frame =>
      obtain ⟨stage, rfl, _⟩ := HandOff.fromSneed_cases hframe
      exact ⟨rfl, rfl⟩

/-- Every project reads as it was remeasured. -/
theorem get_writtenBack {l : List FomoProject} (keyed : Keyed st) (nodup : (l.map (·.fomoIdx)).Nodup)
    (hmem : ∀ v, v ∈ l ↔ st.fomoProjectMap[v.fomoIdx]? = some v) (k : Nat) :
    (writtenBack cap time maxMarketCap st.fomoProjectMap l)[k]? =
      st.fomoProjectMap[k]?.map fun v => v.remeasured time (cap v) maxMarketCap := by
  unfold writtenBack
  cases hget : st.fomoProjectMap[k]? with
  | none =>
    have hne : ∀ v ∈ l, k ≠ v.fomoIdx := by
      rintro v hv rfl
      rw [(hmem v).mp hv] at hget
      cases hget
    exact (get_foldl_insert_of_ne FomoProject.fomoIdx _ _ hne).trans hget
  | some v =>
    obtain rfl := keyed k v hget
    exact get_foldl_insert_of_mem FomoProject.fomoIdx _ _ nodup ((hmem v).mpr hget)

/-- The god of wells comes out with all of the wells progress, and with a time. -/
theorem remeasured_king {v : FomoProject} (hcap : 0 < cap v) :
    (v.remeasured time (cap v) (cap v)).godOfWellsProgress = 10000 ∧
      (v.godOfWellsProgress ≤ 10000 → (v.remeasured time (cap v) (cap v)).godOfWellsTime.isSome) := by
  have hwhole : cap v * 10000 / cap v = 10000 := Nat.mul_div_cancel_left 10000 hcap
  have hmax : cap v ≠ 0 := Nat.pos_iff_ne_zero.mp hcap
  unfold FomoProject.remeasured
  dsimp only
  rw [if_neg hmax, hwhole]
  refine ⟨by split <;> rfl, fun hle => ?_⟩
  split
  · rfl
  next keeps =>
    cases htime : v.godOfWellsTime with
    | some t => rfl
    | none =>
      obtain hlt | heq := Nat.lt_or_eq_of_le hle
      · exact absurd ⟨hmax, .inl ⟨hlt, Nat.le_of_eq hwhole.symm⟩⟩ keeps
      · exact absurd ⟨hmax, .inr ⟨heq, htime⟩⟩ keeps

/-- What is written back and listed, over all stored projects, is what an election leaves. -/
theorem elected_of_writtenBack {l : List FomoProject} (keyed : Keyed st)
    (god : GodOfWells st.fomoProjectMap cap maxMarketCap idx) (nodup : (l.map (·.fomoIdx)).Nodup)
    (hmem : ∀ v, v ∈ l ↔ st.fomoProjectMap[v.fomoIdx]? = some v) {st' : State}
    {next : Next Frame Answer} (hidx : st'.context.godOfWellsIdx = idx)
    (hprojects : st'.fomoProjectMap = writtenBack cap time maxMarketCap st.fomoProjectMap l)
    (hlist : handsOver next = reaching cap l) :
    Elected st.fomoProjectMap cap time maxMarketCap idx st' next := by
  have rewritten : ∀ k : Nat, st'.fomoProjectMap[k]? =
      st.fomoProjectMap[k]?.map fun v => v.remeasured time (cap v) maxMarketCap := by
    intro k
    rw [hprojects]
    exact get_writtenBack keyed nodup hmem k
  refine ⟨hidx, rewritten, fun hpositive => ?_, fun k => ?_, ?_⟩
  · cases god with
    | nobody => exact absurd hpositive (Nat.lt_irrefl 0)
    | king k v hv eligible hcap first =>
      refine ⟨v, v.remeasured time (cap v) (cap v), hv, ?_, remeasured_king hcap⟩
      rw [rewritten, hv]
      rfl
  · rw [hlist]
    unfold reaching
    rw [List.mem_map]
    constructor
    · rintro ⟨v, hv, rfl⟩
      obtain ⟨hv, reaches⟩ := List.mem_filter.mp hv
      exact ⟨v, (hmem v).mp hv, of_decide_eq_true reaches⟩
    · rintro ⟨v, hv, reaches⟩
      obtain rfl := keyed k v hv
      exact ⟨v, List.mem_filter.mpr ⟨(hmem v).mpr hv, decide_eq_true reaches⟩, rfl⟩
  · rw [hlist]
    exact nodup.sublist (List.filter_sublist.map _)

/-- **The end of the measurements** is an election among the projects that are stored. -/
theorem finishProgress_election (keyed : Keyed st)
    (measured : Measured cap (listed st.fomoProjectMap) map maxMarketCap idx) :
    Election env st.fomoProjectMap cap time
      (finishProgress env order time addrConfig map maxMarketCap idx st) := by
  obtain ⟨l, hentries, nodup, hmem⟩ := entries_measured keyed measured order
  obtain ⟨leader, leads, hidx⟩ := measured.leads
  have god := godOfWells_of_leads keyed leads
  rw [← hidx] at god
  refine ⟨maxMarketCap, idx, god, ?_⟩
  let st₀ : State := { st with context := { st.context with godOfWellsIdx := idx } }
  have hfinish : finishProgress env order time addrConfig map maxMarketCap idx st =
      ((order.entries map).foldlM (writeBackOne env time maxMarketCap) (st₀, [])).bind
        fun written => handOffNext env addrConfig written.2 written.1 := rfl
  rw [hfinish, hentries, writeBack_eq cap st₀ (fun v hv => (hmem v).mp hv) nodup]
  by_cases fits : ∀ v ∈ l, RemeasuredFits env cap time maxMarketCap v
  · rw [if_pos fits]
    let st₁ : State := { st₀ with
      fomoProjectMap := writtenBack cap time maxMarketCap st.fomoProjectMap l }
    have stored : ∀ k ∈ reaching cap l, ∃ v, st.fomoProjectMap[k]? = some v ∧ v.Reaches (cap v) ∧
        st₁.fomoProjectMap[k]? = some (v.remeasured time (cap v) maxMarketCap) := by
      intro k hk
      obtain ⟨v, hv, rfl⟩ := List.mem_map.mp hk
      obtain ⟨hv, reaches⟩ := List.mem_filter.mp hv
      have hget := (hmem v).mp hv
      refine ⟨v, hget, of_decide_eq_true reaches, ?_⟩
      rw [show st₁.fomoProjectMap = writtenBack _ _ _ _ _ from rfl, get_writtenBack keyed nodup hmem, hget]
      rfl
    have starts := handOffNext_list env addrConfig fun k hk =>
      have ⟨_, _, _, hget⟩ := stored k hk
      ⟨_, hget⟩
    rw [Option.bind_some, List.nil_append]
    cases hnext : handOffNext env addrConfig (reaching cap l) st₁ with
    | some result =>
      obtain ⟨st', next⟩ := result
      rw [hnext] at starts
      obtain ⟨rfl, hlist⟩ := starts
      exact elected_of_writtenBack keyed god nodup hmem rfl rfl hlist
    | none =>
      rw [hnext] at starts
      obtain ⟨k, hk, w, hw, hsneed, hdogmi, unknown⟩ := starts
      obtain ⟨v, hget, reaches, hget'⟩ := stored k hk
      rw [hget'] at hw
      cases hw
      exact ⟨k, v, hget, .inr ⟨unknown, reaches, hsneed, hdogmi⟩⟩
  · rw [if_neg fits]
    obtain ⟨v, hv, not⟩ : ∃ v ∈ l, ¬ RemeasuredFits env cap time maxMarketCap v := by
      simpa only [not_forall, exists_prop] using fits
    exact ⟨v.fomoIdx, v, (hmem v).mp hv, .inl (Nat.not_le.mp not)⟩

end

/-! ## One segment -/

/-- A run that has measured the projects up to the one it asks for. -/
def Measuring (cap : FomoProject → Nat) (projects : ExtTreeMap Nat FomoProject compare)
    (p : Progress) : Prop :=
  ∃ done, listed projects = done ++ p.item :: p.list ∧
    Measured cap done p.map p.maxMarketCap p.maxMarketCapFomoIdx

/-- A segment goes on measuring and writes nothing, or it ends the election. -/
def Measures.Goes (env : Env) (cap : FomoProject → Nat) (time : Nat) (st : State) (result : Segment) :
    Prop :=
  (∃ p, result = some (st, .awaits (.marketCapBatch p)) ∧ Measuring cap st.fomoProjectMap p) ∨
    (frameOf result).bind Frame.measures = none ∧ Election env st.fomoProjectMap cap time result

section

variable {env : Env} {order : HashOrder} {time maxMarketCap idx : Nat} {addrConfig : AddrConfig}
  {cap : FomoProject → Nat} {map : ExtTreeMap Nat (Nat × Nat) compare} {st : State}
  {oracle : FomoProject → CallResult (PrincipalMap Nat)}

theorem progressNext_goes (keyed : Keyed st) {done rest : List FomoProject}
    (split : listed st.fomoProjectMap = done ++ rest)
    (measured : Measured cap done map maxMarketCap idx) :
    Measures.Goes env cap time st
      (progressNext env order time addrConfig rest map maxMarketCap idx st) := by
  cases rest with
  | cons item rest => exact .inl ⟨_, rfl, done, split, measured⟩
  | nil =>
    rw [List.append_nil] at split
    have election : Election env st.fomoProjectMap cap time
        (finishProgress env order time addrConfig map maxMarketCap idx st) :=
      finishProgress_election keyed (split ▸ measured)
    refine .inr ⟨?_, election⟩
    show (frameOf (finishProgress env order time addrConfig map maxMarketCap idx st)).bind
      Frame.measures = none
    cases hresult : finishProgress env order time addrConfig map maxMarketCap idx st with
    | none => rfl
    | some result => exact finishProgress_measures hresult

/-- **The start** has measured nothing. -/
theorem updateProgress_goes (keyed : Keyed st) :
    Measures.Goes env cap time st (updateProgress env order time st) :=
  progressNext_goes keyed rfl (.nil cap)

/-- **A reply** measures the project that was asked for. -/
theorem updateProgressItem_goes (keyed : Keyed st) {p : Progress}
    (measuring : Measuring (capOf oracle) st.fomoProjectMap p) :
    Measures.Goes env (capOf oracle) time st
      (updateProgressItem env order time p (oracle p.item) st) := by
  obtain ⟨done, split, measured⟩ := measuring
  have sorted := listed_sorted keyed
  rw [split] at sorted
  have distinct : ∀ v ∈ done, v.fomoIdx ≠ p.item.fomoIdx := fun v hv =>
    Nat.ne_of_lt ((List.pairwise_append.mp sorted).2.2 v hv p.item List.mem_cons_self)
  rw [updateProgressItem_eq]
  refine progressNext_goes keyed ?_ (measured.snoc distinct)
  rw [split, List.append_assoc, List.singleton_append]

end

/-! ## Every schedule -/

/-- The oracle answers for every project. -/
def OracleAnswers (oracle : FomoProject → CallResult (PrincipalMap Nat)) :
    (frame : Frame) → Rep frame → Prop
  | .marketCapBatch p, (reply : CallResult (PrincipalMap Nat)) => reply = oracle p.item
  | _, _ => True

/-- While a run measures, no other run writes a project. -/
def Undisturbed (env : Env) (run : Nat) (s : System) (choice : Choice) : Prop :=
  (s.suspended[run]?.bind Frame.measures).isSome →
    (∀ a cause, s.starts choice ≠ some (a, run, cause)) →
      ((program env).step s choice).state.fomoProjectMap = s.state.fomoProjectMap

/-- A segment that measures. -/
def OfMeasurements : Cause Message Frame Rep → Prop
  | .received message => message = .updateProgress
  | .delivered _ => False
  | .resumed frame _ => frame.measures.isSome

/-- A choice ends the measurements of a run, at a time and with the result of its segment. -/
def Concludes (env : Env) (run : Nat) (s : System) (choice : Choice) (time : Nat)
    (result : Segment) : Prop :=
  ∃ a cause, s.starts choice = some (a, run, cause) ∧ OfMeasurements cause ∧ a.time = time ∧
    result = (program env).segment a cause s.state ∧ (frameOf result).bind Frame.measures = none

/-- The invariant of a run: while it measures, the projects are those that it read. -/
structure Electing (cap : FomoProject → Nat) (projects : ExtTreeMap Nat FomoProject compare)
    (run : Nat) (s : System) : Prop where
  started : run < s.log.length
  measuring : ∀ p, s.suspended[run]? = some (.marketCapBatch p) →
    s.state.fomoProjectMap = projects ∧ Measuring cap projects p

section

variable {env : Env} {projects : ExtTreeMap Nat FomoProject compare} {run : Nat} {s : System}
  {choice : Choice} {oracle : FomoProject → CallResult (PrincipalMap Nat)}

/-- A reply that the oracle gives to a run that measures. -/
theorem answered_of_starts (answered : choice.AnsweredBy (OracleAnswers oracle) run) {a : Ambient}
    {p : Progress} {reply : Rep (.marketCapBatch p)}
    (starts : s.starts choice = some (a, run, .resumed (.marketCapBatch p) reply)) :
    reply = oracle p.item := by
  cases choice with
  | receive a' message => cases starts
  | deliver a' run' =>
    obtain ⟨frame, _, h⟩ := Option.map_eq_some_iff.mp starts
    cases h
  | resume a' run' reply' =>
    obtain ⟨frame, _, h⟩ := Option.map_eq_some_iff.mp starts
    cases h
    exact answered rfl (.marketCapBatch p)

/-- **A segment of a run that measures** goes on measuring, or ends the election. -/
theorem Electing.goes (env : Env) (electing : Electing (capOf oracle) projects run s)
    (keyed : ∀ (k : Nat) v, projects[k]? = some v → v.fomoIdx = k)
    (answered : choice.AnsweredBy (OracleAnswers oracle) run) {a : Ambient} {p : Progress}
    {reply : Rep (.marketCapBatch p)}
    (starts : s.starts choice = some (a, run, .resumed (.marketCapBatch p) reply)) :
    s.state.fomoProjectMap = projects ∧
      Measures.Goes env (capOf oracle) a.time s.state
        ((program env).segment a (.resumed (.marketCapBatch p) reply) s.state) := by
  obtain ⟨hprojects, measuring⟩ := electing.measuring p (enabled_of_starts starts)
  obtain rfl := answered_of_starts answered starts
  rw [← hprojects] at measuring keyed
  exact ⟨hprojects, updateProgressItem_goes keyed measuring⟩

/-- **The end of the measurements** is an election among the projects that the run read. -/
theorem Electing.election (electing : Electing (capOf oracle) projects run s)
    (keyed : ∀ (k : Nat) v, projects[k]? = some v → v.fomoIdx = k)
    (answered : choice.AnsweredBy (OracleAnswers oracle) run) {time : Nat} {result : Segment}
    (concludes : Concludes env run s choice time result) :
    Election env projects (capOf oracle) time result := by
  obtain ⟨a, cause, starts, ofMeasurements, rfl, rfl, ends⟩ := concludes
  cases cause with
  | received message => exact absurd (enabled_of_starts starts) (Nat.ne_of_lt electing.started)
  | delivered frame => exact ofMeasurements.elim
  | resumed frame reply =>
    cases frame with
    | marketCapBatch p =>
      obtain ⟨hprojects, ⟨p', hresult, _⟩ | ⟨_, election⟩⟩ := electing.goes env keyed answered starts
      · rw [hresult] at ends
        cases ends
      · rwa [hprojects] at election
    | _ => cases ofMeasurements

/-- Only a segment that measures leaves a run measuring. -/
theorem ofMeasurements_of_measures {a : Ambient} {cause : Cause Message Frame Rep} {st : State}
    {p : Progress} (h : (frameOf ((program env).segment a cause st)).bind Frame.measures = some p) :
    OfMeasurements cause := by
  cases hsegment : (program env).segment a cause st with
  | none =>
    rw [hsegment] at h
    cases h
  | some result =>
    replace h : result.2.frame?.bind Frame.measures = some p := by
      rw [hsegment] at h
      exact h
    generalize hnext : result.2 = next at h
    cases hnext ▸ segment_writes hsegment with
    | accounts accounting =>
      rw [accounting.measures] at h
      cases h
    | replied ends => cases h
    | started ends => rfl
    | measured ends => rfl
    | traded ends =>
      obtain ⟨_, _, _, _, _, hnext⟩ := setBuyOrSellSupply_stores ends
      rw [hnext] at h
      cases h
    | installed ends =>
      obtain ⟨_, _, _, _, _, hnext⟩ := createFomoInstalled_cases ends
      rw [hnext] at h
      cases h

theorem measures_eq_some {frame : Frame} {p : Progress} :
    frame.measures = some p ↔ frame = .marketCapBatch p := by
  cases frame with
  | marketCapBatch p' => simp only [Frame.measures, Option.some.injEq, Frame.marketCapBatch.injEq]
  | _ => simp only [Frame.measures, reduceCtorEq]

/-- **One step**: a run that measures goes on with the projects that it read, or measures no more. -/
theorem step_electing (electing : Electing (capOf oracle) projects run s)
    (keyed : ∀ (k : Nat) v, projects[k]? = some v → v.fomoIdx = k)
    (answered : choice.AnsweredBy (OracleAnswers oracle) run)
    (undisturbed : Undisturbed env run s choice) :
    Electing (capOf oracle) projects run ((program env).step s choice) := by
  refine ⟨Nat.lt_of_lt_of_le electing.started (length_log_le_step _ s choice), fun p hp => ?_⟩
  obtain e | ⟨a, run', cause, starts, enabled, _, e⟩ := step_cases (program env) s choice
  · rw [e] at hp ⊢
    exact electing.measuring p hp
  by_cases hne : run = run'
  · subst hne
    rw [e, get_after] at hp
    have hmeasures : (frameOf ((program env).segment a cause s.state)).bind Frame.measures = some p := by
      rw [hp]
      rfl
    have ofMeasurements := ofMeasurements_of_measures hmeasures
    cases cause with
    | received message => exact absurd enabled (Nat.ne_of_lt electing.started)
    | delivered frame => exact ofMeasurements.elim
    | resumed frame reply =>
      obtain ⟨p₀, hp₀⟩ := Option.isSome_iff_exists.mp ofMeasurements
      obtain rfl := measures_eq_some.mp hp₀
      obtain ⟨hprojects, ⟨p', hresult, measuring⟩ | ⟨ends, _⟩⟩ :=
        electing.goes env keyed answered starts
      · rw [hresult] at hp
        cases hp
        rw [e, hresult]
        exact ⟨hprojects, hprojects ▸ measuring⟩
      · rw [ends] at hmeasures
        cases hmeasures
  · -- another run: the projects are what they were
    have hframe : s.suspended[run]? = some (.marketCapBatch p) := by
      rw [← hp, e, get_after_of_ne s cause _ hne]
    obtain ⟨hprojects, measuring⟩ := electing.measuring p hframe
    have hsome : (s.suspended[run]?.bind Frame.measures).isSome := by
      rw [hframe]
      rfl
    refine ⟨(undisturbed hsome fun a' cause' h => hne ?_).trans hprojects, measuring⟩
    rw [starts, Option.some.injEq, Prod.mk.injEq, Prod.mk.injEq] at h
    exact h.2.1.symm

/-- **The schedule**: wherever the measurements of the run end, that is an election. -/
theorem Electing.along (electing : Electing (capOf oracle) projects run s)
    (keyed : ∀ (k : Nat) v, projects[k]? = some v → v.fomoIdx = k) {choices : List Choice}
    (answered : ∀ choice ∈ choices, choice.AnsweredBy (OracleAnswers oracle) run)
    (undisturbed : Along (program env).step (Undisturbed env run) s choices) :
    Along (program env).step
      (fun s choice => ∀ time result, Concludes env run s choice time result →
        Election env projects (capOf oracle) time result) s choices := by
  have both := along_and.mpr ⟨undisturbed, along_of_forall fun choice hmem _ => answered choice hmem⟩
  refine both.imp_of_invariant (fun s choice electing h => ?_) (fun s choice electing h => ?_) electing
  · exact step_electing electing keyed h.2 h.1
  · exact fun time result concludes => electing.election keyed h.2 concludes

end

/-- **The election is right**, in every schedule: where the measurements of a run end, among projects that
no other run wrote while it measured, the god of wells is the smallest index of those with the largest
market cap. -/
theorem updateProgress_elects (env : Env) (s : System) (keyed : Keyed s.state) (a : Ambient)
    (later : List Choice) (oracle : FomoProject → CallResult (PrincipalMap Nat))
    (answered : ∀ choice ∈ later, choice.AnsweredBy (OracleAnswers oracle) s.log.length)
    (undisturbed : Along (program env).step (Undisturbed env s.log.length)
      ((program env).step s (.receive a .updateProgress)) later) :
    Along (program env).step
      (fun s' choice => ∀ time result, Concludes env s.log.length s' choice time result →
        Election env s.state.fomoProjectMap (capOf oracle) time result)
      s (.receive a .updateProgress :: later) := by
  have goes : Measures.Goes env (capOf oracle) a.time s.state
      ((program env).segment a (.received .updateProgress) s.state) := updateProgress_goes keyed
  refine ⟨?_, ?_⟩
  · rintro time result ⟨a', cause, starts, _, rfl, rfl, ends⟩
    cases starts
    obtain ⟨p, hresult, _⟩ | ⟨_, election⟩ := goes
    · rw [hresult] at ends
      cases ends
    · exact election
  · have electing : Electing (capOf oracle) s.state.fomoProjectMap s.log.length
        ((program env).step s (.receive a .updateProgress)) := by
      refine ⟨Nat.lt_succ_self _, fun p hp => ?_⟩
      rw [step_receive] at hp ⊢
      rw [get_after] at hp
      obtain ⟨p', hresult, measuring⟩ | ⟨ends, _⟩ := goes
      · rw [hresult] at hp ⊢
        cases hp
        exact ⟨rfl, measuring⟩
      · rw [hp] at ends
        cases ends
    exact electing.along keyed answered undisturbed

/-! ## Elections to try -/

/-- The replies of an oracle. -/
def oracleReply (oracle : FomoProject → CallResult (PrincipalMap Nat)) : (frame : Frame) → Rep frame
  | .marketCapBatch p => oracle p.item
  | frame => sampleReply frame

/-- A run disturbs no measurements of its own. -/
theorem undisturbed_resume (env : Env) (run : Nat) (s : System) (a : Ambient)
    (reply : (frame : Frame) → Rep frame) : Undisturbed env run s (.resume a run reply) := by
  intro hsome others
  obtain ⟨p, hp⟩ := Option.isSome_iff_exists.mp hsome
  obtain ⟨frame, hframe, _⟩ := Option.bind_eq_some_iff.mp hp
  refine absurd ?_ (others a (.resumed frame (reply frame)))
  simp only [Sys.starts, hframe, Option.map_some]

/-- A state with a project more, stored under its index. -/
def State.withProject (st : State) (v : FomoProject) : State :=
  { st with fomoProjectMap := st.fomoProjectMap.insert v.fomoIdx v }

theorem keyed_withProject {st : State} (keyed : Keyed st) (v : FomoProject) : Keyed (st.withProject v) :=
  Stores.keyed (k := v.fomoIdx) (p := v) ⟨rfl, rfl⟩ rfl keyed

/-- Two projects, both with a wells progress. -/
def electionStart (godOfWellsProgress : Nat) : System :=
  .start ((sampleStart.state.withProject { sampleFomo with godOfWellsProgress }).withProject
    { sampleFomo with fomoIdx := 2, tokenPid := .managementCanister, godOfWellsProgress })

theorem electionStart_keyed (godOfWellsProgress : Nat) : Keyed (electionStart godOfWellsProgress).state := by
  have none : Keyed sampleStart.state := by
    intro k v h
    rw [show sampleStart.state.fomoProjectMap = ∅ from rfl, ExtTreeMap.getElem?_empty] at h
    cases h
  exact keyed_withProject (keyed_withProject none _) _

/-- An oracle that reports the index of a project for its market cap. -/
def sampleOracle (v : FomoProject) : CallResult (PrincipalMap Nat) :=
  .ok ((∅ : PrincipalMap Nat).insert v.tokenPid v.fomoIdx)

/-- The two replies that an election between them takes. -/
def sampleReplies : List Choice := List.replicate 2 (.resume sampleAmbient 0 (oracleReply sampleOracle))

theorem updateProgress_elects_sample :
    Along (program sampleEnv).step
      (fun s' choice => ∀ time result, Concludes sampleEnv 0 s' choice time result →
        Election sampleEnv (electionStart 0).state.fomoProjectMap (capOf sampleOracle) time result)
      (electionStart 0) (.receive sampleAmbient .updateProgress :: sampleReplies) := by
  have answered : ∀ choice ∈ sampleReplies, choice.AnsweredBy (OracleAnswers sampleOracle) 0 := by
    intro choice hmem
    rw [List.eq_of_mem_replicate hmem]
    intro _ frame
    cases frame with
    | marketCapBatch p => rfl
    | _ => trivial
  have undisturbed : ∀ choice ∈ sampleReplies, ∀ s, Undisturbed sampleEnv 0 s choice := by
    intro choice hmem s
    rw [List.eq_of_mem_replicate hmem]
    exact undisturbed_resume sampleEnv 0 s _ _
  exact updateProgress_elects sampleEnv (electionStart 0) (electionStart_keyed 0) sampleAmbient
    sampleReplies sampleOracle answered (along_of_forall undisturbed)

/-- The election between the two projects. -/
def electionEnd (env : Env) (godOfWellsProgress : Nat) : System :=
  (.receive sampleAmbient .updateProgress :: sampleReplies).foldl (program env).step
    (electionStart godOfWellsProgress)

/-- One project at its goal, with a share for the Dogmi DAO only, in a build that has no address of it. -/
def unaddressedEnd : System :=
  [.receive sampleAmbient .updateProgress, .resume sampleAmbient 0 sampleReply].foldl
    (program { sampleEnv with dogmiDaoAddr := none }).step
    (.start (sampleStart.state.withProject
      { sampleFomo with fomoIdx := 2, sneedDaoLock := none, dogmiDaoLock := some (Pmm.nat18 / 2) }))

/-- **Where an election is another one**: a wells progress past ten thousand becomes ten thousand, also
that of the project with half of the largest market cap, and the king with such a progress gets no time;
and where the records are too large, or the first call has no address, nobody is elected. -/
theorem not_updateProgress_elects :
    (Keyed (electionStart 20000).state ∧
        (electionEnd sampleEnv 20000).state.context.godOfWellsIdx = 2 ∧
        ((electionEnd sampleEnv 20000).state.fomoProjectMap[1]?.map (·.godOfWellsProgress)) ≠
          some (min 10000 (1 * 10000 / 2)) ∧
        ((electionEnd sampleEnv 20000).state.fomoProjectMap[2]?.bind (·.godOfWellsTime)) = none) ∧
      Keyed (electionStart 0).state ∧
        (electionEnd { sampleEnv with projectSize := fun _ => 4097 } 0).state.context.godOfWellsIdx ≠ 2 ∧
          unaddressedEnd.state.context.godOfWellsIdx ≠ 2 := by
  exact ⟨⟨electionStart_keyed 20000, by decide +kernel, by decide +kernel, by decide +kernel⟩,
    electionStart_keyed 0, by decide +kernel, by decide +kernel⟩

end Fomowell.Launcher
