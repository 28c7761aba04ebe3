import Fomowell.Launcher.Lineage
import Fomowell.Launcher.Duties

/-!
# No reference dangles

The launcher's records refer to each other by keys: a project to its creator, a record of points to its
user, the context to the god of wells and to the projects of its two ad slots. The slots also repeat fields
of the project that they show. `Referenced` says that each of these names a record that is stored, and that
what a slot repeats is what the project says; `references_sound` that this holds in every reachable
launcher, upgrades included.

`update_progress` refers to projects across its awaits, by the indices that it measured and by the one that
leads so far (`Progress.Refers`). A project stays stored, so those are stored still when it writes.
-/

namespace Fomowell.Launcher

open Std Canister Table Runs Token

/-- A project is stored under a key. -/
def State.HasProject (st : State) (k : Nat) : Prop := (st.bornAt k).isSome

/-- The law of a reachable state. The god of wells is one from the installation on, and zero for none. -/
structure Referenced (st : State) : Prop where
  creators : ∀ (k : Nat) p, st.bornAt k = some p → st.HasProfile p.createUserPid
  history : ∀ (k : Nat) record, st.pointHistoryMap[k]? = some record → st.HasProfile record.userPid
  godOfWells : st.context.godOfWellsIdx ≤ 1 ∨ st.HasProject st.context.godOfWellsIdx
  traded : st.context.lastBuySellOp.swapTimestamp = none ∨
    ∃ p, st.bornAt st.context.lastBuySellOp.fomoIdx = some p ∧
      p.ticker = st.context.lastBuySellOp.fomoTicker
  created : st.context.lastCreateFomo.fomoIdx = 0 ∨
    ∃ p, st.bornAt st.context.lastCreateFomo.fomoIdx = some p ∧
      p.name = st.context.lastCreateFomo.fomoName ∧
      p.createUserPid = st.context.lastCreateFomo.opUserPid ∧
      p.createTime = st.context.lastCreateFomo.createTime

/-- What `update_progress` refers to is stored: the projects that it asks for, and the one that leads. -/
structure Progress.Refers (st : State) (p : Progress) : Prop where
  item : st.HasProject p.item.fomoIdx
  list : ∀ v ∈ p.list, st.HasProject v.fomoIdx
  leads : p.maxMarketCapFomoIdx = 0 ∨ st.HasProject p.maxMarketCapFomoIdx

/-- What a run refers to is stored. -/
def RefersAt (st : State) (frame? : Option Frame) : Prop :=
  ∀ p, frame?.bind Frame.measures = some p → p.Refers st

/-- Every project that was born under a key is still there. -/
def BirthsKept (st st' : State) : Prop := ∀ (k : Nat) p, st.bornAt k = some p → st'.bornAt k = some p

section

variable {env : Env} {a : Ambient} {st st' : State} {next : Next Frame Answer}

theorem BirthsKept.hasProject (kept : BirthsKept st st') {k : Nat} (h : st.HasProject k) :
    st'.HasProject k := by
  obtain ⟨p, hp⟩ := Option.isSome_iff_exists.mp h
  exact Option.isSome_iff_exists.mpr ⟨p, kept k p hp⟩

theorem Progress.Refers.kept {p : Progress} (h : p.Refers st) (kept : BirthsKept st st') :
    p.Refers st' :=
  ⟨kept.hasProject h.item, fun v hv => kept.hasProject (h.list v hv),
    h.leads.imp_right kept.hasProject⟩

theorem hasProject_of_get {k : Nat} {p : FomoProject} (h : st.fomoProjectMap[k]? = some p) :
    st.HasProject k := by
  unfold State.HasProject State.bornAt
  rw [h]
  rfl

/-! ## Accounts -/

theorem hasProfile_insert {user : Principal} {p : UserProfile}
    (h : st'.userProfileMap = st.userProfileMap.insert user p) :
    st'.HasProfile user ∧ ∀ user', st.HasProfile user' → st'.HasProfile user' := by
  unfold State.HasProfile
  rw [h]
  refine ⟨by rw [ExtTreeMap.getElem?_insert_self]; rfl, fun user' h => ?_⟩
  rw [get_insert]
  split
  · rfl
  · exact h

/-- What a step leaves of the accounts: the users keep their profiles, and a new record is a user's. -/
theorem PointStep.accounts (h : PointStep st st') :
    (∀ user, st.HasProfile user → st'.HasProfile user) ∧
      ∀ (k : Nat) record, st'.pointHistoryMap[k]? = some record →
        st.pointHistoryMap[k]? = some record ∨ st'.HasProfile record.userPid := by
  cases h with
  | same same =>
    unfold State.HasProfile
    rw [same.profiles, same.history]
    exact ⟨fun _ h => h, fun _ _ h => .inl h⟩
  | edited user p' _ profiles history _ =>
    rw [history]
    exact ⟨(hasProfile_insert profiles).2, fun _ _ h => .inl h⟩
  | moved user p p' op amount record _ _ profiles history _ about =>
    obtain ⟨own, others⟩ := hasProfile_insert profiles
    refine ⟨others, fun k record' hrecord => ?_⟩
    rw [history, get_insert] at hrecord
    split at hrecord
    · cases hrecord
      rw [about.1]
      exact .inr own
    · exact .inl hrecord

theorem PointSteps.accounts (h : PointSteps st st') :
    (∀ user, st.HasProfile user → st'.HasProfile user) ∧
      ∀ (k : Nat) record, st'.pointHistoryMap[k]? = some record →
        st.pointHistoryMap[k]? = some record ∨ st'.HasProfile record.userPid := by
  induction h with
  | refl => exact ⟨fun _ h => h, fun _ _ h => .inl h⟩
  | tail _ step ih =>
    obtain ⟨profiles, history⟩ := step.accounts
    refine ⟨fun user h => profiles user (ih.1 user h), fun k record hrecord => ?_⟩
    obtain hold | hnew := history k record hrecord
    · exact (ih.2 k record hold).imp_right (profiles _)
    · exact .inr hnew

/-- A reward is for a user with a profile. -/
theorem Rewards.hasProfile {time amount : Nat} {user : Principal} {busiName : String}
    (h : Rewards env time amount user busiName st st') : st'.HasProfile user := by
  obtain ⟨granted, hgrant, hadd⟩ := h
  obtain ⟨profile, hprofile, _⟩ := Option.bind_eq_some_iff.mp hgrant
  have steps : PointSteps st st' := (initPoints_points hgrant).trans (addPoints_points hadd)
  refine steps.accounts.1 user ?_
  unfold State.HasProfile
  rw [hprofile]
  rfl

/-! ## The context -/

/-- What a segment shows: the god of wells and the slots are as they were, or name what is stored now. -/
structure Shows (st st' : State) : Prop where
  godOfWells : st'.context.godOfWellsIdx = st.context.godOfWellsIdx ∨
    st'.context.godOfWellsIdx = 0 ∨ st'.HasProject st'.context.godOfWellsIdx
  traded : st'.context.lastBuySellOp = st.context.lastBuySellOp ∨
    ∃ p, st'.bornAt st'.context.lastBuySellOp.fomoIdx = some p ∧
      p.ticker = st'.context.lastBuySellOp.fomoTicker
  created : st'.context.lastCreateFomo = st.context.lastCreateFomo ∨
    ∃ p, st'.bornAt st'.context.lastCreateFomo.fomoIdx = some p ∧
      p.name = st'.context.lastCreateFomo.fomoName ∧
      p.createUserPid = st'.context.lastCreateFomo.opUserPid ∧
      p.createTime = st'.context.lastCreateFomo.createTime

theorem Shows.of_eq (h : st'.context = st.context) : Shows st st' := by
  refine ⟨.inl ?_, .inl ?_, .inl ?_⟩ <;> rw [h]

/-- A round of `update_progress` shows the project that leads, once it is over. -/
theorem progressNext_shows {order : HashOrder} {time : Nat} {addrConfig : AddrConfig}
    {list : List FomoProject} {map : ExtTreeMap Nat (Nat × Nat) compare} {maxMarketCap maxIdx : Nat}
    (h : progressNext env order time addrConfig list map maxMarketCap maxIdx st =
      some (st', next)) (listed : ∀ v ∈ list, st.HasProject v.fomoIdx)
    (leads : maxIdx = 0 ∨ st.HasProject maxIdx) : Shows st st' ∧ RefersAt st' next.frame? := by
  have kept : BirthsKept st st' := fun k p hp => (progressNext_born h k).trans hp
  obtain ⟨rfl, item, rest, rfl, rfl⟩ | ⟨_, ends⟩ := progressNext_cases h
  · refine ⟨.of_eq rfl, fun p hp => ?_⟩
    cases hp
    exact ⟨listed item List.mem_cons_self, fun v hv => listed v (List.mem_cons_of_mem _ hv), leads⟩
  · have context := finishProgress_context ends
    refine ⟨⟨.inr ?_, .inl ?_, .inl ?_⟩, fun p hp => ?_⟩
    · rw [context]
      exact leads.imp_right kept.hasProject
    · rw [context]
    · rw [context]
    · rw [finishProgress_measures ends] at hp
      cases hp

/-- What `create_fomo` shows is what it stored. -/
theorem createFomoInstalled_shows {time : Nat} {c : Created} {res : CallResult Unit}
    (h : createFomoInstalled env time c res st = some (st', next)) : Shows st st' := by
  have stored := bornAt_insert (createFomoInstalled_writes h) c.idx
  rw [if_pos rfl] at stored
  obtain ⟨_, _, h⟩ := Option.bind_eq_some_iff.mp h
  obtain ⟨written, hwrite, h⟩ := Option.bind_eq_some_iff.mp h
  obtain ⟨⟨userName, userAvatar⟩, _, h⟩ := Option.bind_eq_some_iff.mp h
  obtain ⟨granted, hgrant, h⟩ := Option.bind_eq_some_iff.mp h
  obtain ⟨added, hadd, h⟩ := Option.bind_eq_some_iff.mp h
  cases h
  -- the points that follow leave the context alone
  have writes : AccountWrites env _ st' := (initPoints_writes hgrant).trans (addPoints_writes hadd)
  have context := writes.context_eq
  have godOfWells : written.context.godOfWellsIdx = st.context.godOfWellsIdx := by
    rw [insertProject_context hwrite]
  have traded : written.context.lastBuySellOp = st.context.lastBuySellOp := by
    rw [insertProject_context hwrite]
  refine ⟨.inl ?_, .inl ?_, .inr ?_⟩
  · rw [context]
    exact godOfWells
  · rw [context]
    exact traded
  · rw [context]
    exact ⟨_, stored, rfl, rfl, rfl⟩

/-- What `set_buy_or_sell` shows is what it wrote back. -/
theorem setBuyOrSellSupply_shows {time : Nat} {q : Quote} {supply : CallResult Nat}
    (h : setBuyOrSellSupply env time q supply st = some (st', next)) : Shows st st' := by
  obtain ⟨marketCap, maxMarketCap, v, hv, hwrite, _⟩ := setBuyOrSellSupply_ends h
  have stored := bornAt_insert (insertProject_stores hwrite).projects q.recordSignal.fomoIdx
  rw [if_pos rfl] at stored
  have context := insertProject_context hwrite
  have ticker : v.born.ticker = q.v.born.ticker := by rw [updateWells_born hv]
  refine ⟨?_, .inr ?_, .inl ?_⟩
  · rw [context]
    unfold tradeContext
    dsimp only
    split
    · exact .inr (.inr (Option.isSome_iff_exists.mpr ⟨_, stored⟩))
    · exact .inl rfl
  · rw [context]
    exact ⟨_, stored, ticker⟩
  · rw [context]
    rfl

/-- **What a segment shows**, and what its run goes on to refer to. -/
theorem Writes.shows {cause : Cause Message Frame Rep} (h : Writes env a st cause st' next)
    (keyed : Keyed st) (refers : RefersAt st cause.frame?) :
    Shows st st' ∧ RefersAt st' next.frame? := by
  cases h with
  | accounts accounting =>
    refine ⟨.of_eq accounting.writes.context_eq, fun p hp => ?_⟩
    rw [accounting.measures] at hp
    cases hp
  | replied ends =>
    obtain ⟨v, _, ends⟩ := Option.bind_eq_some_iff.mp ends
    exact ⟨.of_eq (insertProject_context ends), fun _ hp => nomatch hp⟩
  | started ends =>
    refine progressNext_shows ends (fun v hv => ?_) (.inl rfl)
    obtain ⟨⟨k, p⟩, hmem, rfl⟩ := List.mem_map.mp hv
    have hp := ExtTreeMap.mem_toList_iff_getElem?_eq_some.mp hmem
    rw [keyed k p hp]
    exact hasProject_of_get hp
  | @measured p reply _ _ ends =>
    obtain ⟨item, list, leads⟩ := refers p rfl
    rw [updateProgressItem_eq] at ends
    refine progressNext_shows ends list ?_
    unfold Progress.idxAfter
    split
    · exact .inr item
    · exact leads
  | traded ends =>
    refine ⟨setBuyOrSellSupply_shows ends, ?_⟩
    obtain ⟨_, _, _, _, _, rfl⟩ := setBuyOrSellSupply_ends ends
    exact fun _ hp => nomatch hp
  | installed ends =>
    refine ⟨createFomoInstalled_shows ends, ?_⟩
    obtain ⟨_, _, _, _, hnext⟩ := createFomoInstalled_ends ends
    rw [hnext]
    exact fun _ hp => nomatch hp

/-- The law after a segment, from what it does to the accounts, the projects and the context. -/
theorem Referenced.after (h : Referenced st) (points : PointSteps st st') (kept : BirthsKept st st')
    (creators : ∀ (k : Nat) p, st'.bornAt k = some p → st.bornAt k = some p ∨ st'.HasProfile p.createUserPid)
    (shows' : Shows st st') : Referenced st' := by
  obtain ⟨profiles, history⟩ := points.accounts
  refine ⟨fun k p hp => ?_, fun k record hrecord => ?_, ?_, ?_, ?_⟩
  · obtain hold | hnew := creators k p hp
    · exact profiles _ (h.creators k p hold)
    · exact hnew
  · obtain hold | hnew := history k record hrecord
    · exact profiles _ (h.history k record hold)
    · exact hnew
  · obtain e | e | hnew := shows'.godOfWells
    · rw [e]
      exact h.godOfWells.imp_right kept.hasProject
    · rw [e]
      exact .inl (Nat.zero_le 1)
    · exact .inr hnew
  · obtain e | hnew := shows'.traded
    · rw [e]
      exact h.traded.imp_right fun ⟨p, hp, ticker⟩ => ⟨p, kept _ p hp, ticker⟩
    · exact .inr hnew
  · obtain e | hnew := shows'.created
    · rw [e]
      exact h.created.imp_right fun ⟨p, hp, fields⟩ => ⟨p, kept _ p hp, fields⟩
    · exact .inr hnew

end

/-! ## Every event -/

/-- The invariant: of the state, and of what suspended runs refer to. -/
structure Referring (s : System) : Prop where
  stored : Referenced s.state
  frames : ∀ (run : Nat) frame, s.suspended[run]? = some frame → RefersAt s.state (some frame)

theorem Referring.refers {s : System} (so : Referring s) {run : Nat} {cause : Cause Message Frame Rep}
    (enabled : s.Enabled run cause) : RefersAt s.state cause.frame? := by
  cases cause with
  | received message => exact fun _ hp => nomatch hp
  | delivered frame => exact so.frames run frame enabled
  | resumed frame reply => exact so.frames run frame enabled

/-- **Every step keeps the references.** -/
theorem step_referring {env : Env} {s : System} (inv : Inv s) (born : Born s) (so : Referring s)
    (choice : Choice) : Referring ((program env).step s choice) := by
  have kept : BirthsKept s.state ((program env).step s choice).state :=
    (step_born inv born choice).2
  obtain e | ⟨a, run, cause, _, enabled, _, e⟩ := step_cases (program env) s choice
  · rw [e]
    exact so
  rw [e] at kept ⊢
  cases hsegment : (program env).segment a cause s.state with
  | none => exact ⟨so.stored, frames_after so.frames (fun _ _ h => h) fun _ hframe => nomatch hframe⟩
  | some result =>
    obtain ⟨st', next⟩ := result
    rw [hsegment] at kept
    replace kept : BirthsKept s.state st' := kept
    have writes := segment_writes hsegment
    obtain ⟨showed, refers⟩ := writes.shows inv.keyed (so.refers enabled)
    refine ⟨?_, ?_⟩
    · refine so.stored.after (segment_effect hsegment).points kept (fun k p hp => ?_) showed
      replace hp : st'.bornAt k = some p := hp
      obtain same | ⟨c, reply, rfl, insert⟩ := writes.born (born.copy enabled)
      · exact .inl ((same k).symm.trans hp)
      · rw [insert] at hp
        split at hp
        next =>
          cases hp
          have ended : createFomoInstalled env _ c reply s.state = some (st', next) := hsegment
          obtain ⟨_, _, _, rewards, _⟩ := createFomoInstalled_ends ended
          exact .inr rewards.hasProfile
        next => exact .inl hp
    · refine frames_after so.frames (fun _ _ h p hp => (h p hp).kept kept) fun frame hframe => ?_
      replace hframe : next.frame? = some frame := hframe
      rw [hframe] at refers
      exact refers

/-- **Every event keeps the references.** -/
theorem live_referring {env : Env} {s : System} (event : LifeEvent)
    (so : (Identifying env s ∧ Born s) ∧ Referring s) :
    (Identifying env (live env s event) ∧ Born (live env s event)) ∧ Referring (live env s event) := by
  obtain ⟨⟨identifying, born⟩, referring⟩ := so
  refine ⟨(live_born event ⟨identifying, born⟩).1, ?_⟩
  obtain ⟨choice, e⟩ | e | ⟨st', _, _, preserved, e⟩ := live_cases identifying.fits event
  · rw [e]
    exact step_referring identifying.inv born referring choice
  · rw [e]
    exact referring
  · rw [e]
    have kept : BirthsKept s.state st' := by
      intro k p hp
      exact (bornAt_congr preserved.projects k).trans hp
    have back : BirthsKept st' s.state := by
      intro k p hp
      exact (bornAt_congr preserved.projects k).symm.trans hp
    have same : SameAccounts s.state st' :=
      ⟨preserved.profiles, preserved.history, Nat.le_of_eq (by rw [preserved.counter])⟩
    refine ⟨referring.stored.after same.points kept (fun k p hp => .inl (back k p hp)) ?_,
      fun run frame hframe p hp => (referring.frames run frame hframe p hp).kept kept⟩
    exact ⟨.inl preserved.godOfWellsIdx, .inl preserved.lastBuySellOp, .inl preserved.lastCreateFomo⟩

theorem referring_start (env : Env) (caller : Principal) (time : Nat) (addrConfig : AddrConfig)
    (icpAddr : Principal) : Referring (Sys.start (init env caller time addrConfig icpAddr)) := by
  have start := born_start env caller time addrConfig icpAddr
  refine ⟨⟨fun k p hp => ?_, fun k record hrecord => ?_, .inl (Nat.le_refl 1), .inl rfl, .inl rfl⟩,
    frames_start _⟩
  · obtain ⟨entry, hentry, _⟩ := (start.stored k p hp).2
    cases hentry
  · rw [Sys.start, init, ExtTreeMap.getElem?_empty] at hrecord
    cases hrecord

/-- **No reference dangles** in any reachable launcher. -/
theorem references_sound (env : Env) (caller : Principal) (time : Nat) (addrConfig : AddrConfig)
    (icpAddr : Principal) (events : List LifeEvent) :
    Referenced (lived env caller time addrConfig icpAddr events).state :=
  (foldl_invariant (I := fun s => (Identifying env s ∧ Born s) ∧ Referring s)
    (fun _ event so => live_referring event so)
    ⟨⟨identifying_start env caller time addrConfig icpAddr,
      born_start env caller time addrConfig icpAddr⟩,
      referring_start env caller time addrConfig icpAddr⟩ events).2.stored

end Fomowell.Launcher
