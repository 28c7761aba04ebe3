import Fomowell.Launcher.Segments

/-!
# The projects of a reachable launcher

The invariant `Inv` of the launcher's projects: every project is stored under its own index; an index
is held by at most one suspended `create_fomo`, or stored, and only once it is drawn; and what a
suspended run knows of a project (a copy to write back, a project to hand over) is still stored, with
the same identity. So no segment removes a project, `create_fomo` never overwrites one, and the
identity of a project never changes (`Evolves`).

`step_inv` proves the invariant for one step from the inversion `segment_effect` alone;
`inv_run` carries it to every schedule.
-/

namespace Fomowell.Launcher

open Std Canister Table Token

/-! ## Projects and what is known of them -/

theorem SameIdentity.refl (v : FomoProject) : SameIdentity v v := ⟨rfl, rfl, rfl, rfl⟩

theorem SameIdentity.trans {v v' v'' : FomoProject} (h : SameIdentity v v')
    (h' : SameIdentity v' v'') : SameIdentity v v'' :=
  ⟨h'.fomoIdx.trans h.fomoIdx, h'.poolPid.trans h.poolPid, h'.sneedDaoLock.trans h.sneedDaoLock,
    h'.dogmiDaoLock.trans h.dogmiDaoLock⟩

theorem SameIdentity.symm {v v' : FomoProject} (h : SameIdentity v v') : SameIdentity v' v :=
  ⟨h.fomoIdx.symm, h.poolPid.symm, h.sneedDaoLock.symm, h.dogmiDaoLock.symm⟩

/-- Every project is stored under its own index. -/
def Keyed (st : State) : Prop :=
  ∀ (k : Nat) (p : FomoProject), st.fomoProjectMap[k]? = some p → p.fomoIdx = k

/-- A project with the identity of `v` is stored under `k`. -/
def Known (st : State) (k : Nat) (v : FomoProject) : Prop :=
  ∃ p, st.fomoProjectMap[k]? = some p ∧ SameIdentity p v

/-- Every project stays stored, with its identity. -/
def Evolves (st st' : State) : Prop := ∀ k v, Known st k v → Known st' k v

theorem Evolves.refl (st : State) : Evolves st st := fun _ _ h => h

theorem Evolves.trans {st st' st'' : State} (h : Evolves st st') (h' : Evolves st' st'') :
    Evolves st st'' := fun k v known => h' k v (h k v known)

/-- What a suspended run knows is true. -/
def Role.Sound (st : State) : Role → Prop
  | .plain => True
  | .creates _ => True
  | .trades k v => Known st k v
  | .settles k v => Known st k v
  | .handsOff _ h => Known st h.fomoPid h.v ∧ ∀ k ∈ h.rest, ∃ v, Known st k v

theorem Role.Sound.evolves {st st' : State} {r : Role} (h : r.Sound st) (evolves : Evolves st st') :
    r.Sound st' := by
  cases r with
  | plain => trivial
  | creates idx => trivial
  | trades k v => exact evolves k v h
  | settles k v => exact evolves k v h
  | handsOff stage hand =>
    refine ⟨evolves _ _ h.1, fun k hk => ?_⟩
    obtain ⟨v, hv⟩ := h.2 k hk
    exact ⟨v, evolves k v hv⟩

/-- The index that a run holds. -/
def Role.holds (idx : Nat) : Role → Nat
  | .creates i => if i = idx then 1 else 0
  | _ => 0

/-- Whether a project is stored under an index. -/
def stored (idx : Nat) (st : State) : Nat := if st.fomoProjectMap[idx]?.isSome then 1 else 0

/-- Whether an index is drawn. -/
def drawn (idx : Nat) (st : State) : Nat := if idx ≤ st.counter.count then 1 else 0

/-! ## Storing a project -/

section

variable {st st' : State} {k : Nat} {p : FomoProject}

/-- A project stored over one with the same identity. -/
theorem Stores.evolves (h : Stores st k p st') (known : Known st k p) : Evolves st st' := by
  intro a v ⟨p', hp', same⟩
  by_cases ha : a = k
  · subst ha
    obtain ⟨p'', hp'', same''⟩ := known
    rw [hp'] at hp''
    cases hp''
    exact ⟨p, by rw [h.projects, ExtTreeMap.getElem?_insert_self], same''.symm.trans same⟩
  · exact ⟨p', by rw [h.projects, get_insert_of_ne _ _ ha, hp'], same⟩

/-- A project stored where there was none. -/
theorem Stores.evolves_of_absent (h : Stores st k p st') (absent : st.fomoProjectMap[k]? = none) :
    Evolves st st' := by
  intro a v ⟨p', hp', same⟩
  have ha : a ≠ k := fun e => by rw [e, absent] at hp'; cases hp'
  exact ⟨p', by rw [h.projects, get_insert_of_ne _ _ ha, hp'], same⟩

theorem Stores.keyed (h : Stores st k p st') (hp : p.fomoIdx = k) (keyed : Keyed st) : Keyed st' := by
  unfold Keyed
  rw [h.projects]
  exact forall_get_insert keyed hp

theorem Stores.stored_of_ne (h : Stores st k p st') {idx : Nat} (hne : idx ≠ k) :
    stored idx st' = stored idx st := by
  unfold stored
  rw [h.projects, get_insert_of_ne _ _ hne]

theorem stored_of_known {v : FomoProject} (known : Known st k v) : stored k st = 1 := by
  obtain ⟨p, hp, _⟩ := known
  unfold stored
  rw [hp]
  rfl

theorem Stores.stored_of_known (h : Stores st k p st') (known : Known st k p) (idx : Nat) :
    stored idx st' = stored idx st := by
  by_cases hne : idx = k
  · subst hne
    rw [Launcher.stored_of_known (h.evolves known idx p known), Launcher.stored_of_known known]
  · exact h.stored_of_ne hne

theorem Known.fomoIdx_eq {v : FomoProject} (known : Known st k v) (keyed : Keyed st) :
    v.fomoIdx = k := by
  obtain ⟨p, hp, same⟩ := known
  exact same.fomoIdx.trans (keyed k p hp)

theorem SameProjects.known {v : FomoProject} (same : SameProjects st st') :
    Known st' k v ↔ Known st k v := by
  unfold Known
  rw [same.1]

end

/-! ## Writing back -/

/-- What `update_progress` does with one entry: nothing where the project is not stored; otherwise it
stores it again, and a project that it marks is put on the list. -/
theorem writeBackOne_cases {env : Env} {time maxMarketCap : Nat} {st st' : State} {l l' : List Nat}
    {entry : Nat × (Nat × Nat)}
    (h : writeBackOne env time maxMarketCap (st, l) entry = some (st', l')) :
    (st' = st ∧ l' = l) ∨ ∃ k pj pj', st.fomoProjectMap[k]? = some pj ∧ SameIdentity pj pj' ∧
      Stores st k pj' st' ∧
      ((pj.poolProgressDoneTime = none ∧ pj'.poolProgressDoneTime = some time ∧
          l' = l ++ [pj.fomoIdx]) ∨
        (pj'.poolProgressDoneTime = pj.poolProgressDoneTime ∧ l' = l)) := by
  obtain ⟨_, same⟩ | ⟨pj, v, p, hpj, hwells, hwrite, marks⟩ := writeBackOne_stores h
  · cases same
    exact .inl ⟨rfl, rfl⟩
  · obtain ⟨same, marker⟩ := updateWells_same hwells
    have same : SameIdentity pj v := ⟨same.fomoIdx, same.poolPid, same.sneedDaoLock, same.dogmiDaoLock⟩
    refine .inr ⟨entry.1, pj, p, hpj, ?_, insertProject_stores hwrite, ?_⟩
    · obtain ⟨_, rfl, _⟩ | ⟨rfl, _⟩ := marks
      · exact ⟨same.fomoIdx, same.poolPid, same.sneedDaoLock, same.dogmiDaoLock⟩
      · exact same
    · obtain ⟨hnone, rfl, hlist⟩ | ⟨rfl, hlist⟩ := marks
      · refine .inl ⟨marker.symm.trans hnone, rfl, ?_⟩
        rw [← same.fomoIdx]
        exact hlist
      · exact .inr ⟨marker, hlist⟩

/-- Whether a project has the marker, as a number. -/
def marked (idx : Nat) (st : State) : Nat :=
  if (st.fomoProjectMap[idx]?.bind (·.poolProgressDoneTime)).isSome then 1 else 0

/-- What the whole loop of `update_progress` leaves: the same projects with their identities, markers
only added, and on the list each project once whose marker it added. -/
structure WroteBack (st : State) (acc : State × List Nat) : Prop where
  count : acc.1.counter.count = st.counter.count
  keyed : Keyed acc.1
  evolves : Evolves st acc.1
  stored : ∀ idx, stored idx acc.1 = stored idx st
  listed : ∀ idx, acc.2.count idx + marked idx st = marked idx acc.1
  known : ∀ idx ∈ acc.2, ∃ v, Known acc.1 idx v

theorem WroteBack.start {st st₁ : State} (same : SameProjects st st₁) (keyed : Keyed st) :
    WroteBack st (st₁, []) := by
  refine ⟨same.2, fun k p => ?_, fun k v => (same.known).mpr, fun idx => ?_, fun idx => ?_,
    fun _ h => nomatch h⟩
  · rw [same.1]
    exact keyed k p
  · unfold Launcher.stored
    rw [same.1]
  · unfold marked
    rw [same.1]
    exact Nat.zero_add _

theorem WroteBack.one {env : Env} {time maxMarketCap : Nat} {st : State}
    {acc acc' : State × List Nat} {entry : Nat × (Nat × Nat)} (so : WroteBack st acc)
    (h : writeBackOne env time maxMarketCap acc entry = some acc') : WroteBack st acc' := by
  obtain ⟨st₁, l⟩ := acc
  obtain ⟨st₂, l'⟩ := acc'
  rcases writeBackOne_cases h with ⟨rfl, rfl⟩ | ⟨k, pj, pj', hpj, same, stores, marks⟩
  · exact so
  have hk : pj.fomoIdx = k := so.keyed k pj hpj
  have known : Known st₁ k pj' := ⟨pj, hpj, same⟩
  have evolves := stores.evolves known
  have marked_ne : ∀ {idx}, idx ≠ k → marked idx st₂ = marked idx st₁ := fun {idx} hne => by
    unfold marked
    rw [stores.projects, get_insert_of_ne _ _ hne]
  have marked_self : marked k st₂ = if pj'.poolProgressDoneTime.isSome then 1 else 0 := by
    unfold marked
    rw [stores.projects, ExtTreeMap.getElem?_insert_self]
    rfl
  have marked_self' : marked k st₁ = if pj.poolProgressDoneTime.isSome then 1 else 0 := by
    unfold marked
    rw [hpj]
    rfl
  have knownOld : ∀ idx ∈ l, ∃ v, Known st₂ idx v := fun idx hidx =>
    (so.known idx hidx).imp fun v hv => evolves idx v hv
  have keyed := stores.keyed (same.fomoIdx.trans hk) so.keyed
  have count := stores.count.trans so.count
  have storedSame : ∀ idx, Launcher.stored idx st₂ = Launcher.stored idx st := fun idx =>
    (stores.stored_of_known known idx).trans (so.stored idx)
  rcases marks with ⟨hnone, hsome, rfl⟩ | ⟨hmarker, rfl⟩
  · refine ⟨count, keyed, so.evolves.trans evolves, storedSame, fun idx => ?_, fun idx hidx => ?_⟩
    · have listed := so.listed idx
      simp only [List.count_append, List.count_singleton, beq_iff_eq] at listed ⊢
      by_cases hne : idx = k
      · subst hne
        rw [marked_self', hnone] at listed
        rw [marked_self, hsome, if_pos hk]
        simp only [Option.isSome_some, Option.isSome_none, if_true, Bool.false_eq_true, if_false] at *
        omega
      · rw [marked_ne hne, if_neg (fun e => hne (e.symm.trans hk))]
        omega
    · rcases List.mem_append.mp hidx with hold | hnew
      · exact knownOld idx hold
      · rw [List.mem_singleton.mp hnew, hk]
        exact ⟨pj', evolves k pj' known⟩
  · refine ⟨count, keyed, so.evolves.trans evolves, storedSame, fun idx => ?_, knownOld⟩
    have listed := so.listed idx
    by_cases hne : idx = k
    · subst hne
      rw [marked_self, hmarker, ← marked_self']
      exact listed
    · rw [marked_ne hne]
      exact listed

/-- The end of `update_progress` writes back, and starts its last loop on the list. -/
theorem finishProgress_cases {env : Env} {order : HashOrder} {time : Nat} {addrConfig : AddrConfig}
    {map : ExtTreeMap Nat (Nat × Nat) compare} {maxMarketCap maxIdx : Nat} {st st' : State}
    {next : Next Frame Answer}
    (h : finishProgress env order time addrConfig map maxMarketCap maxIdx st = some (st', next))
    (keyed : Keyed st) :
    ∃ acc, WroteBack st acc ∧ handOffNext env addrConfig acc.2 acc.1 = some (st', next) := by
  obtain ⟨acc, hfold, h⟩ := Option.bind_eq_some_iff.mp h
  exact ⟨acc, foldlM_invariant (fun _ _ _ one wrote => wrote.one one) hfold (.start ⟨rfl, rfl⟩ keyed), h⟩

/-! ## Handing over -/

/-- The calls of one project come in this order. -/
def Stage.rank : Stage → Nat
  | .sneed => 0
  | .dogmi => 1
  | .lock => 2

/-- Whether a call is made for a project: the lock always, a transfer where a share is set. -/
def FomoProject.configured (v : FomoProject) : Stage → Bool
  | .sneed => v.sneedDaoLock.isSome
  | .dogmi => v.dogmiDaoLock.isSome
  | .lock => true

/-- The calls that a project's hand-off may still make once it is at a rank: it is at the first one
configured from there on. -/
structure HandOff.From (h : HandOff) (rank : Nat) (stage : Stage) : Prop where
  le : rank ≤ stage.rank
  first : ∀ later : Stage, rank ≤ later.rank → h.v.configured later → stage.rank ≤ later.rank

theorem HandOff.fromDogmi_cases {env : Env} {h : HandOff} {frame : Frame}
    (hframe : h.fromDogmi env = some frame) : ∃ stage, frame = .handOff stage h ∧ h.From 1 stage := by
  unfold HandOff.fromDogmi at hframe
  split at hframe
  · obtain ⟨_, _, hframe⟩ := Option.bind_eq_some_iff.mp hframe
    cases hframe
    exact ⟨.dogmi, rfl, Nat.le_refl 1, fun _ hrank _ => hrank⟩
  next hnone =>
    cases hframe
    refine ⟨.lock, rfl, Nat.le_succ 1, fun later hrank hlater => ?_⟩
    cases later with
    | sneed => exact absurd hrank (Nat.not_succ_le_zero 0)
    | dogmi => exact absurd hlater hnone
    | lock => exact Nat.le_refl 2

theorem HandOff.fromSneed_cases {env : Env} {h : HandOff} {frame : Frame}
    (hframe : h.fromSneed env = some frame) : ∃ stage, frame = .handOff stage h ∧ h.From 0 stage := by
  unfold HandOff.fromSneed at hframe
  split at hframe
  · cases hframe
    exact ⟨.sneed, rfl, Nat.le_refl 0, fun _ hrank _ => hrank⟩
  next hnone =>
    obtain ⟨stage, e, from1⟩ := fromDogmi_cases hframe
    refine ⟨stage, e, Nat.zero_le _, fun later _ hlater => ?_⟩
    cases later with
    | sneed => exact absurd hlater hnone
    | dogmi => exact from1.first .dogmi (Nat.le_refl 1) hlater
    | lock => exact from1.first .lock (Nat.le_succ 1) hlater

/-- The second call traps where there is a share for the Dogmi DAO and no address of it. -/
theorem HandOff.fromDogmi_eq_none {env : Env} {h : HandOff} :
    h.fromDogmi env = none ↔ h.v.dogmiDaoLock.isSome ∧ env.dogmiDaoAddr = none := by
  unfold HandOff.fromDogmi
  split
  next hsome =>
    cases env.dogmiDaoAddr with
    | none => exact iff_of_true rfl ⟨hsome, rfl⟩
    | some dogmiPid => exact iff_of_false (fun h => nomatch h) fun h => nomatch h.2
  next hnone => exact iff_of_false (fun h => nomatch h) fun h => hnone h.1

theorem HandOff.fromSneed_eq_none {env : Env} {h : HandOff} :
    h.fromSneed env = none ↔
      h.v.sneedDaoLock = none ∧ h.v.dogmiDaoLock.isSome ∧ env.dogmiDaoAddr = none := by
  unfold HandOff.fromSneed
  split
  next hsome =>
    refine iff_of_false (fun h => nomatch h) fun h => ?_
    rw [h.1] at hsome
    cases hsome
  next hnone =>
    rw [fromDogmi_eq_none]
    exact (and_iff_right (Option.not_isSome_iff_eq_none.mp hnone)).symm

/-- The last loop ends with its list, or goes on with the next project. -/
theorem handOffNext_cases {env : Env} {addrConfig : AddrConfig} {l : List Nat} {st st' : State}
    {next : Next Frame Answer} (h : handOffNext env addrConfig l st = some (st', next)) :
    st' = st ∧ ((l = [] ∧ next.frame? = none) ∨ ∃ hand stage, l = hand.fomoPid :: hand.rest ∧
      st.fomoProjectMap[hand.fomoPid]? = some hand.v ∧ next.frame? = some (.handOff stage hand) ∧
      hand.From 0 stage) := by
  unfold handOffNext at h
  split at h
  · cases h
    exact ⟨rfl, .inl ⟨rfl, rfl⟩⟩
  next fomoPid rest =>
    obtain ⟨v, hv, h⟩ := Option.bind_eq_some_iff.mp h
    obtain ⟨frame, hframe, h⟩ := Option.bind_eq_some_iff.mp h
    cases h
    obtain ⟨stage, e, from0⟩ := HandOff.fromSneed_cases hframe
    exact ⟨rfl, .inr ⟨_, stage, rfl, hv, congrArg some e, from0⟩⟩

/-- After a call of the last loop, the project comes to a later call, or its calls are over and the
loop goes on. -/
theorem updateProgressHandOff_cases {env : Env} {stage : Stage} {hand : HandOff}
    {res : CallResult (Except String Unit)} {st st' : State} {next : Next Frame Answer}
    (h : updateProgressHandOff env stage hand res st = some (st', next)) :
    (st' = st ∧ ∃ stage', next.frame? = some (.handOff stage' hand) ∧
        hand.From (stage.rank + 1) stage') ∨
      (stage = .lock ∧ handOffNext env hand.addrConfig hand.rest st = some (st', next)) := by
  cases stage with
  | sneed =>
    obtain ⟨_, _, h⟩ := Option.bind_eq_some_iff.mp h
    obtain ⟨frame, hframe, h⟩ := Option.bind_eq_some_iff.mp h
    cases h
    obtain ⟨stage', e, from1⟩ := HandOff.fromDogmi_cases hframe
    exact .inl ⟨rfl, stage', congrArg some e, from1⟩
  | dogmi =>
    obtain ⟨_, _, h⟩ := Option.bind_eq_some_iff.mp h
    cases h
    exact .inl ⟨rfl, .lock, rfl, Nat.le_refl 2, fun _ hrank _ => hrank⟩
  | lock => exact .inr ⟨rfl, h⟩

/-! ## One step -/

section

variable {env : Env} {st st' : State} {r r' : Role}

theorem Known.of_get {st : State} {k : Nat} {v : FomoProject}
    (h : st.fomoProjectMap[k]? = some v) : Known st k v := ⟨v, h, .refl v⟩

theorem Follows.sound (h : Follows r r') (sound : r.Sound st) : r'.Sound st := by
  cases h with
  | plain => trivial
  | creates idx => trivial
  | trades k v => exact sound
  | settles k v => exact sound

theorem Follows.holds_le (h : Follows r r') (idx : Nat) : r'.holds idx ≤ r.holds idx := by
  cases h with
  | plain => exact Nat.le_refl _
  | creates i => exact Nat.le_refl _
  | trades k v => exact Nat.le_refl _
  | settles k v => exact Nat.le_refl _

/-- What the steps of a run keep: each project under its own index and with its identity, what its
role knows, and that an index is held or stored once, and only when drawn. -/
structure Kept (st st' : State) (r r' : Role) : Prop where
  keyed : Keyed st'
  evolves : Evolves st st'
  sound : r'.Sound st'
  owned : ∀ idx, r'.holds idx + stored idx st' + drawn idx st ≤
    r.holds idx + stored idx st + drawn idx st'

theorem Kept.of_same (same : SameProjects st st') (keyed : Keyed st) (sound : r'.Sound st)
    (holds : ∀ idx, r'.holds idx ≤ r.holds idx) : Kept st st' r r' := by
  refine ⟨fun k p => ?_, fun k v => same.known.mpr, sound.evolves fun k v => same.known.mpr,
    fun idx => ?_⟩
  · rw [same.1]
    exact keyed k p
  · have := holds idx
    unfold stored drawn
    rw [same.1, same.2]
    omega

theorem Stores.kept {k : Nat} {p : FomoProject} (h : Stores st k p st') (known : Known st k p)
    (keyed : Keyed st) : Kept st st' r .plain := by
  refine ⟨h.keyed (known.fomoIdx_eq keyed) keyed, h.evolves known, trivial, fun idx => ?_⟩
  rw [h.stored_of_known known idx]
  unfold drawn
  rw [h.count]
  exact Nat.add_le_add_right (Nat.add_le_add_right (Nat.zero_le _) _) _

/-- A segment that draws an index may hold it: it was not drawn before. -/
theorem Kept.of_count (projects : st'.fomoProjectMap = st.fomoProjectMap)
    (count : st'.counter.count = st.counter.count + 1) (keyed : Keyed st) (sound : r'.Sound st)
    (holds : ∀ idx, r'.holds idx ≤ if st.counter.count + 1 = idx then 1 else 0) :
    Kept st st' .plain r' := by
  have evolves : Evolves st st' := fun k v known => by
    unfold Known
    rw [projects]
    exact known
  refine ⟨fun k p => ?_, evolves, sound.evolves evolves, fun idx => ?_⟩
  · rw [projects]
    exact keyed k p
  · have hidx := holds idx
    unfold stored drawn
    rw [projects, count]
    split_ifs at hidx ⊢ <;> omega

theorem handOffNext_kept {addrConfig : AddrConfig} {l : List Nat} {next : Next Frame Answer}
    {st₁ : State} (kept : Kept st st₁ r .plain) (known : ∀ idx ∈ l, ∃ v, Known st₁ idx v)
    (h : handOffNext env addrConfig l st₁ = some (st', next)) :
    Kept st st' r (roleOf next.frame?) := by
  obtain ⟨rfl, ⟨_, hnext⟩ | ⟨hand, stage, rfl, hv, hnext, _⟩⟩ := handOffNext_cases h
  · rw [hnext]
    exact kept
  · rw [hnext]
    exact ⟨kept.keyed, kept.evolves,
      ⟨.of_get hv, fun k hk => known k (List.mem_cons_of_mem _ hk)⟩, kept.owned⟩

/-- No project is stored under an index that is held. -/
theorem absent_of_held {c : Created}
    (owned : ∀ idx, Role.holds idx (.creates c.idx) + stored idx st ≤ drawn idx st) :
    st.fomoProjectMap[c.idx]? = none := by
  have hidx := owned c.idx
  cases hp : st.fomoProjectMap[c.idx]? with
  | none => rfl
  | some p =>
    rw [Role.holds, if_pos rfl, stored_of_known (.of_get hp)] at hidx
    unfold drawn at hidx
    split at hidx <;> omega

theorem ProjectStep.kept {paid : Bool} (step : ProjectStep env st paid r st' r') (keyed : Keyed st)
    (sound : r.Sound st) (owned : ∀ idx, r.holds idx + stored idx st ≤ drawn idx st) :
    Kept st st' r r' := by
  cases step with
  | quiet same role => exact .of_same same keyed (role.sound sound) role.holds_le
  | counted projects count => exact .of_count projects count keyed trivial fun _ => Nat.zero_le _
  | drew projects count => exact .of_count projects count keyed trivial fun _ => Nat.le_refl _
  | created c stores =>
    have absent := absent_of_held owned
    refine ⟨stores.keyed rfl keyed, stores.evolves_of_absent absent, trivial, fun idx => ?_⟩
    have hdrawn : drawn idx st' = drawn idx st := by
      unfold drawn
      rw [stores.count]
    rw [hdrawn]
    by_cases hne : idx = c.idx
    · subst hne
      rw [Role.holds, if_pos rfl]
      unfold stored
      rw [stores.projects, ExtTreeMap.getElem?_insert_self, absent]
      exact Nat.le_refl _
    · rw [stores.stored_of_ne hne]
      exact Nat.add_le_add_right (Nat.add_le_add_right (Nat.zero_le _) _) _
  | replied stored stores => exact stores.kept ⟨_, stored, ⟨rfl, rfl, rfl, rfl⟩⟩ keyed
  | read stored => exact .of_same (.refl st) keyed (.of_get stored) fun _ => Nat.le_refl _
  | traded same marker stores =>
    obtain ⟨p, hp, same'⟩ := sound
    exact stores.kept ⟨p, hp, same'.trans same⟩ keyed
  | finished ends =>
    obtain ⟨⟨st₁, l⟩, wrote, hnext⟩ := finishProgress_cases ends keyed
    refine handOffNext_kept ⟨wrote.keyed, wrote.evolves, trivial, fun idx => ?_⟩ wrote.known hnext
    rw [wrote.stored idx]
    unfold drawn
    rw [wrote.count]
  | @handedOff stage hand res _ next ends =>
    rcases updateProgressHandOff_cases ends with ⟨rfl, stage', hnext, _⟩ | ⟨_, hnext⟩
    · rw [hnext]
      exact .of_same (.refl _) keyed sound fun _ => Nat.le_refl _
    · exact handOffNext_kept (.of_same (.refl st) keyed trivial fun _ => Nat.le_refl _)
        sound.2 hnext

end

/-! ## Every schedule -/

/-- The invariant of the projects of a launcher with its suspended runs. -/
structure Inv (s : System) : Prop where
  ordered : s.Ordered
  keyed : Keyed s.state
  sound : ∀ (run : Nat) frame, s.suspended[run]? = some frame → frame.role.Sound s.state
  owned : ∀ idx,
    sumOf (fun _ frame => frame.role.holds idx) s.suspended + stored idx s.state ≤
      drawn idx s.state
  logged : ∀ entry ∈ s.log, (roleOf (entry.outcome.bind Next.frame?)).Sound s.state

/-- The weight of a role, for the frames of the suspended runs. -/
theorem weigh_role {w : Role → Nat} (hplain : w .plain = 0) (frame? : Option Frame) :
    weigh (fun frame : Frame => w frame.role) frame? = w (roleOf frame?) := by
  cases frame? with
  | none => exact hplain.symm
  | some frame => rfl

theorem Inv.roleSound {s : System} (inv : Inv s) {run : Nat} {cause : Cause Message Frame Rep}
    (enabled : s.Enabled run cause) : (roleOf cause.frame?).Sound s.state := by
  cases cause with
  | received message => trivial
  | delivered frame => exact inv.sound run frame enabled
  | resumed frame reply => exact inv.sound run frame enabled

theorem Inv.roleOwned {s : System} (inv : Inv s) {run : Nat} {cause : Cause Message Frame Rep}
    (enabled : s.Enabled run cause) (idx : Nat) :
    (roleOf cause.frame?).holds idx + stored idx s.state ≤ drawn idx s.state := by
  have hle := weightAt_le_sumOf (fun (_ : Nat) (frame : Frame) => frame.role.holds idx)
    s.suspended run
  have hweight := weigh_role (w := Role.holds idx) rfl cause.frame?
  rw [weightAt, enabled.get_eq inv.ordered] at hle
  have := inv.owned idx
  unfold weigh at hweight
  omega

/-- What an enabled segment keeps, also where it traps. -/
theorem Inv.kept {s : System} (inv : Inv s) (env : Env) (a : Ambient) {run : Nat}
    {cause : Cause Message Frame Rep} (enabled : s.Enabled run cause) :
    Kept s.state (s.after run cause ((program env).segment a cause s.state)).state
      (roleOf cause.frame?) (roleOf (frameOf ((program env).segment a cause s.state))) := by
  cases hsegment : (program env).segment a cause s.state with
  | none => exact .of_same (.refl s.state) inv.keyed trivial fun _ => Nat.zero_le _
  | some result =>
    exact (segment_effect hsegment).projects.kept inv.keyed (inv.roleSound enabled)
      (inv.roleOwned enabled)

/-- **Every step keeps the invariant.** -/
theorem step_inv {env : Env} (s : System) (choice : Choice) (inv : Inv s) :
    Inv ((program env).step s choice) := by
  have ordered : ((program env).step s choice).Ordered := ordered_step inv.ordered choice
  rcases step_cases (program env) s choice with e | ⟨a, run, cause, _, enabled, _, e⟩
  · rw [e]
    exact inv
  rw [e] at ordered ⊢
  have kept := inv.kept env a enabled
  refine ⟨ordered, kept.keyed, ?_, fun idx => ?_, fun entry hentry => ?_⟩
  · refine frames_after inv.sound (fun _ _ sound => sound.evolves kept.evolves) fun frame hframe => ?_
    have sound := kept.sound
    rw [hframe] at sound
    exact sound
  · have hsum := sumOf_after (fun frame : Frame => frame.role.holds idx) enabled inv.ordered
      ((program env).segment a cause s.state)
    rw [weigh_role (w := Role.holds idx) rfl, weigh_role (w := Role.holds idx) rfl] at hsum
    have := inv.owned idx
    have := kept.owned idx
    omega
  · rcases List.mem_cons.mp hentry with rfl | hold
    · rw [← frameOf_eq]
      exact kept.sound
    · exact (inv.logged entry hold).evolves kept.evolves

theorem inv_start (env : Env) (caller : Principal) (time : Nat) (addrConfig : AddrConfig)
    (icpAddr : Principal) : Inv (Sys.start (init env caller time addrConfig icpAddr)) := by
  refine ⟨ordered_start _, fun idx p h => ?_, frames_start _, fun _ => Nat.zero_le _,
    fun _ h => nomatch h⟩
  rw [Sys.start, init, ExtTreeMap.getElem?_empty] at h
  cases h

/-- **The invariant holds of every reachable launcher.** -/
theorem inv_run (env : Env) (caller : Principal) (time : Nat) (addrConfig : AddrConfig)
    (icpAddr : Principal) (choices : List Choice) :
    Inv (choices.foldl (program env).step (Sys.start (init env caller time addrConfig icpAddr))) :=
  Runs.foldl_invariant step_inv (inv_start env caller time addrConfig icpAddr) choices

end Fomowell.Launcher
