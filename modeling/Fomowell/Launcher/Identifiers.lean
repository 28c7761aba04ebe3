import Fomowell.Launcher.Billing
import Fomowell.Launcher.Upgrade
import Fomowell.Launcher.WriteBack
import Mathlib.Data.List.Pairwise

/-!
# Identifiers are fresh

`create_fomo` draws the index of its project long before it stores it, the point functions draw the
index of a record and store it at once, and anyone may draw from either counter. `Identified`: every
project and every record is stored under its own index, drawn before; an index that a suspended
`create_fomo` holds is held by no other run, and nothing is stored under it. So no project and no record
is overwritten (`OverwritesNothing`), across upgrades too.

A project names its canister, the answer of `create_canister` in the run that stored it. Writers put
copies back, but always under the key they were read from, so a stored project's canister was made for
that very index (`Minted`), and where `create_canister` answers a different canister each time,
`get_fomo_by_fomo_pid` has at most one match.
-/

namespace Fomowell.Launcher

open Std Canister Table Runs Token

/-! ## The law -/

/-- The canister that a reply of `create_canister` makes, with the index it is made for. -/
def createdBy : Cause Message Frame Rep → Option (Nat × Principal)
  | .resumed (.createCanister c _ _) reply =>
    match (reply : CallResult Principal) with
    | .ok tid => some (c.idx, tid)
    | .error _ => none
  | _ => none

/-- `create_canister` answered a different canister each time. -/
def FreshCanisters (s : System) : Prop :=
  (s.log.filterMap fun entry => (createdBy entry.cause).map Prod.snd).Nodup

/-- The law of a reachable launcher. -/
structure Identified (s : System) : Prop where
  projects : ∀ (k : Nat) p, s.state.fomoProjectMap[k]? = some p →
    p.fomoIdx = k ∧ k ≤ s.state.counter.count
  history : ∀ (k : Nat) record, s.state.pointHistoryMap[k]? = some record →
    record.idx = k ∧ k ≤ s.state.counter.pointCount
  held : ∀ (run : Nat) frame idx, s.suspended[run]? = some frame → frame.role = .creates idx →
    s.state.fomoProjectMap[idx]? = none
  distinct : ∀ (run run' : Nat) frame frame' idx, s.suspended[run]? = some frame →
    s.suspended[run']? = some frame' → frame.role = .creates idx → frame'.role = .creates idx →
      run = run'
  oneMatch : FreshCanisters s → ∀ (k k' : Nat) p p', s.state.fomoProjectMap[k]? = some p →
    s.state.fomoProjectMap[k']? = some p' → p.fomoPid = p'.fomoPid → k = k'

/-- The law of an event: every record stays as it is, and `create_fomo` stores its project where there
is none. -/
structure OverwritesNothing (env : Env) (s : System) (event : LifeEvent) : Prop where
  history : ∀ (k : Nat) record, s.state.pointHistoryMap[k]? = some record →
    (live env s event).state.pointHistoryMap[k]? = some record
  projects : ∀ choice a run c res, event = .choice choice →
    s.starts choice = some (a, run, .resumed (.installCode c) res) →
      s.state.fomoProjectMap[c.idx]? = none

/-! ## Records -/

/-- Every record is stored under its own index, drawn before. -/
def RecordsKeyed (st : State) : Prop :=
  ∀ (k : Nat) record, st.pointHistoryMap[k]? = some record →
    record.idx = k ∧ k ≤ st.counter.pointCount

/-- Every record stays as it is. -/
def RecordsKept (st st' : State) : Prop :=
  ∀ (k : Nat) record, st.pointHistoryMap[k]? = some record →
    st'.pointHistoryMap[k]? = some record

section

variable {env : Env} {a : Ambient} {st st' : State} {next : Next Frame Answer}

theorem AccountWrite.records (h : AccountWrite env st st') (keyed : RecordsKeyed st) :
    RecordsKeyed st' ∧ RecordsKept st st' := by
  cases h with
  | profile user p fits => exact ⟨keyed, fun _ _ h => h⟩
  | record record fits next =>
    have drawn : ∀ (k : Nat) record, st.pointHistoryMap[k]? = some record →
        record.idx = k ∧ k ≤ st.counter.pointCount + 1 := fun k record hrecord =>
      ⟨(keyed k record hrecord).1, Nat.le_succ_of_le (keyed k record hrecord).2⟩
    refine ⟨forall_get_insert drawn ⟨next, Nat.le_refl _⟩, fun k record' hrecord => ?_⟩
    -- the new index is above every key
    have hne : k ≠ st.counter.pointCount + 1 :=
      Nat.ne_of_lt (Nat.lt_succ_of_le (keyed k record' hrecord).2)
    rw [get_insert_of_ne _ _ hne]
    exact hrecord
  | counted => exact ⟨keyed, fun _ _ h => h⟩
  | pointCounted =>
    refine ⟨fun k record hrecord => ?_, fun _ _ h => h⟩
    exact ⟨(keyed k record hrecord).1, Nat.le_succ_of_le (keyed k record hrecord).2⟩
  | cached tokenCache => exact ⟨keyed, fun _ _ h => h⟩

theorem StateWrites.records (h : StateWrites env st st') (keyed : RecordsKeyed st) :
    RecordsKeyed st' ∧ RecordsKept st st' := by
  induction h with
  | refl => exact ⟨keyed, fun _ _ h => h⟩
  | tail _ write ih =>
    obtain ⟨keyed', kept⟩ := ih
    cases write with
    | account write =>
      obtain ⟨keyed'', kept'⟩ := write.records keyed'
      exact ⟨keyed'', fun k record h => kept' k record (kept k record h)⟩
    | project k p fits => exact ⟨keyed', kept⟩
    | context context => exact ⟨keyed', kept⟩

/-! ## Canisters -/

/-- The canister that a suspended `create_fomo` has made, with the index it is made for. -/
def Frame.canister? : Frame → Option (Nat × Principal)
  | .httpRequest _ (.createFomo c _ _ tid) => some (c.idx, tid)
  | .canisterStatus c => some (c.idx, c.tid)
  | .installCode c => some (c.idx, c.tid)
  | _ => none

theorem Frame.role_of_canister {frame : Frame} {made : Nat × Principal}
    (h : frame.canister? = some made) : frame.role = .creates made.1 := by
  cases frame with
  | httpRequest url k =>
    cases k with
    | editUser e => cases h
    | createFomo c tokenPid poolPid tid =>
      cases h
      rfl
  | canisterStatus c =>
    cases h
    rfl
  | installCode c =>
    cases h
    rfl
  | _ => cases h

theorem callLedger_canister {call : TokenCall} (h : callLedger call st = some (st', next)) :
    next.frame?.bind Frame.canister? = none := by
  obtain ⟨_, type, rfl⟩ := callLedger_eq h
  rfl

theorem callToken_canister {time : Nat} {call : TokenCall}
    (h : callToken time call st = some (st', next)) :
    next.frame?.bind Frame.canister? = none := by
  obtain ⟨_, rfl | ⟨type, rfl⟩⟩ := callToken_cases h
  · rfl
  · rfl

/-- **The canister of a run** is the answer of `create_canister`, from then on. -/
theorem segment_canister {cause : Cause Message Frame Rep}
    (h : (program env).segment a cause st = some (st', next)) {made : Nat × Principal}
    (hmade : next.frame?.bind Frame.canister? = some made) :
    createdBy cause = some made ∨ cause.frame?.bind Frame.canister? = some made := by
  -- such a run holds an index, and held it before, since the draw leaves no canister
  have hindex : (roleOf cause.frame?).index? = some made.1 := by
    obtain ⟨frame, hframe, hcanister⟩ := Option.bind_eq_some_iff.mp hmade
    have hrole := Frame.role_of_canister hcanister
    have step := (segment_effect h).projects
    rw [hframe, roleOf_some, hrole] at step
    obtain ⟨hpaid, _⟩ | ⟨_, same⟩ | ⟨_, none, _⟩ := step.index_cases
    · obtain ⟨c, hdraws, _⟩ := segment_of_paid env a st hpaid
      rw [hdraws] at h
      cases h
      cases hmade
    · exact same.symm
    · cases none
  cases cause with
  | received message => cases hindex
  | delivered frame =>
    cases frame with
    | spendingPoints e => cases hindex
    | _ => cases h
  | resumed frame reply =>
    cases frame with
    | createCanister c tokenPid poolPid =>
      obtain ⟨tid, hreply, h⟩ := Option.bind_eq_some_iff.mp h
      cases h
      cases hmade
      refine .inl ?_
      cases reply with
      | ok tid' =>
        cases hreply
        rfl
      | error e => cases hreply
    | httpRequest url k =>
      cases k with
      | editUser e => cases hindex
      | createFomo c tokenPid poolPid tid =>
        obtain ⟨imgUrl, _, h⟩ := Option.bind_eq_some_iff.mp h
        cases h
        exact .inr hmade
    | canisterStatus c =>
      obtain ⟨_, rfl⟩ := createFomoStatus_eq h
      exact .inr hmade
    | installCode c =>
      obtain ⟨_, _, _, _, _, hnext⟩ := createFomoInstalled_cases h
      rw [hnext] at hmade
      cases hmade
    | getToken call =>
      rw [callLedger_canister h] at hmade
      cases hmade
    | ledger type call =>
      cases call with
      | approve c tokenPid =>
        obtain ⟨_, _, h⟩ := Option.bind_eq_some_iff.mp h
        cases h
        cases hmade
      | _ => cases hindex
    | createToken c =>
      obtain ⟨tokenPid, _, h⟩ := Option.bind_eq_some_iff.mp h
      rw [callToken_canister h] at hmade
      cases hmade
    | createCommonPool c tokenPid =>
      obtain ⟨⟨poolPid, _⟩, _, h⟩ := Option.bind_eq_some_iff.mp h
      cases h
      cases hmade
    | querySwapStatus b =>
      cases hfomo : b.fomo <;>
        simp only [Cause.frame?, roleOf_some, Frame.role, hfomo, Role.index?, reduceCtorEq] at hindex
    | _ => cases hindex

theorem Rewritten.fomoPid {time maxMarketCap : Nat} {measurement : Nat × Nat}
    {old new : Option FomoProject} (h : Rewritten time maxMarketCap measurement old new)
    {p : FomoProject} (hp : new = some p) : ∃ pj, old = some pj ∧ p.fomoPid = pj.fomoPid := by
  obtain ⟨pj, v, hold, hv, hnew⟩ := h.eq_some hp
  obtain ⟨_, _, rfl⟩ := updateWells_eq hv
  refine ⟨pj, hold, ?_⟩
  obtain rfl | rfl := hnew <;> rfl

/-- `update_progress` leaves every project its canister. -/
theorem progressNext_fomoPid {order : HashOrder} {time : Nat} {addrConfig : AddrConfig}
    {list : List FomoProject} {map : ExtTreeMap Nat (Nat × Nat) compare} {maxMarketCap maxIdx : Nat}
    (h : progressNext env order time addrConfig list map maxMarketCap maxIdx st =
      some (st', next)) {k : Nat} {p : FomoProject} (hp : st'.fomoProjectMap[k]? = some p) :
    ∃ pj, st.fomoProjectMap[k]? = some pj ∧ p.fomoPid = pj.fomoPid := by
  obtain ⟨rfl, _⟩ | ⟨_, ends⟩ := progressNext_cases h
  · exact ⟨p, hp, rfl⟩
  · obtain ⟨unmeasured, measured⟩ := finishProgress_get ends k
    cases hmap : map[k]? with
    | none =>
      rw [unmeasured hmap] at hp
      exact ⟨p, hp, rfl⟩
    | some measurement => exact (measured measurement hmap).fomoPid hp

/-- A stored project's canister has a property, if those stored before, of the copies, and of the runs
that made one have it. -/
theorem Writes.fomoPid {cause : Cause Message Frame Rep} (h : Writes env a st cause st' next)
    {C : Nat → Principal → Prop}
    (stored : ∀ (k : Nat) p, st.fomoProjectMap[k]? = some p → C k p.fomoPid)
    (copy : (roleOf cause.frame?).Copy fun k v => C k v.fomoPid)
    (canister : ∀ made, cause.frame?.bind Frame.canister? = some made → C made.1 made.2) :
    ∀ (k : Nat) p, st'.fomoProjectMap[k]? = some p → C k p.fomoPid := by
  have measured : ∀ {order time addrConfig list map maxMarketCap maxIdx},
      progressNext env order time addrConfig list map maxMarketCap maxIdx st = some (st', next) →
        ∀ (k : Nat) p, st'.fomoProjectMap[k]? = some p → C k p.fomoPid := by
    intro order time addrConfig list map maxMarketCap maxIdx ends k p hp
    obtain ⟨pj, hpj, same⟩ := progressNext_fomoPid ends hp
    rw [same]
    exact stored k pj hpj
  cases h with
  | accounts accounting =>
    rw [accounting.writes.projects_eq]
    exact stored
  | replied ends =>
    obtain ⟨v, hv, projects⟩ := replyUpdate_writes ends
    rw [projects]
    exact forall_get_insert stored (stored _ v hv)
  | started ends => exact measured ends
  | measured ends =>
    rw [updateProgressItem_eq] at ends
    exact measured ends
  | traded ends =>
    obtain ⟨marketCap, v, _, hv, projects⟩ := setBuyOrSellSupply_writes ends
    obtain ⟨_, _, rfl⟩ := updateWells_eq hv
    rw [projects]
    exact forall_get_insert stored copy
  | @installed c _ _ _ ends =>
    rw [createFomoInstalled_writes ends]
    exact forall_get_insert stored (canister (c.idx, c.tid) rfl)

end

/-! ## Every schedule -/

/-- `create_canister` made a canister for an index. -/
def MadeFor (s : System) (idx : Nat) (tid : Principal) : Prop :=
  ∃ entry ∈ s.log, createdBy entry.cause = some (idx, tid)

/-- Every canister that is stored, copied, or made by a suspended run is an answer, for its index. -/
structure Minted (s : System) : Prop where
  stored : ∀ (k : Nat) p, s.state.fomoProjectMap[k]? = some p → MadeFor s k p.fomoPid
  copies : ∀ (run : Nat) frame, s.suspended[run]? = some frame →
    frame.role.Copy fun k v => MadeFor s k v.fomoPid
  canisters : ∀ (run : Nat) frame, s.suspended[run]? = some frame →
    ∀ made, frame.canister? = some made → MadeFor s made.1 made.2

theorem Role.Copy.imp {C C' : Nat → FomoProject → Prop} (h : ∀ k v, C k v → C' k v) {r : Role}
    (copy : r.Copy C) : r.Copy C' := by
  cases r with
  | trades k v => exact h k v copy
  | settles k v => exact h k v copy
  | _ => trivial

theorem Minted.copy {s : System} (minted : Minted s) {run : Nat} {cause : Cause Message Frame Rep}
    (enabled : s.Enabled run cause) :
    (roleOf cause.frame?).Copy fun k v => MadeFor s k v.fomoPid := by
  cases cause with
  | received message => trivial
  | delivered frame => exact minted.copies run frame enabled
  | resumed frame reply => exact minted.copies run frame enabled

theorem Minted.canister {s : System} (minted : Minted s) {run : Nat}
    {cause : Cause Message Frame Rep} (enabled : s.Enabled run cause) :
    ∀ made, cause.frame?.bind Frame.canister? = some made → MadeFor s made.1 made.2 := by
  cases cause with
  | received message => exact fun _ hmade => nomatch hmade
  | delivered frame => exact minted.canisters run frame enabled
  | resumed frame reply => exact minted.canisters run frame enabled

theorem step_minted {env : Env} (s : System) (choice : Choice) (minted : Minted s) :
    Minted ((program env).step s choice) := by
  obtain e | ⟨a, run, cause, _, enabled, _, e⟩ := step_cases (program env) s choice
  · rw [e]
    exact minted
  rw [e]
  have older : ∀ result idx tid, MadeFor s idx tid → MadeFor (s.after run cause result) idx tid := by
    rintro result idx tid ⟨entry, hentry, hcreated⟩
    exact ⟨entry, List.mem_cons_of_mem _ hentry, hcreated⟩
  have copy := minted.copy enabled
  have canister := minted.canister enabled
  cases hsegment : (program env).segment a cause s.state with
  | none =>
    refine ⟨fun k p hp => older _ _ _ (minted.stored k p hp), ?_, ?_⟩
    · exact frames_after minted.copies (fun _ _ copy => copy.imp fun _ _ => older _ _ _)
        fun _ hframe => nomatch hframe
    · exact frames_after minted.canisters (fun _ _ h made hmade => older _ _ _ (h made hmade))
        fun _ hframe => nomatch hframe
  | some result =>
    obtain ⟨st', next⟩ := result
    refine ⟨?_, ?_, ?_⟩
    · exact (segment_writes hsegment).fomoPid
        (C := fun idx tid => MadeFor (s.after run cause (some (st', next))) idx tid)
        (fun k p hp => older _ _ _ (minted.stored k p hp)) (copy.imp fun _ _ => older _ _ _)
        fun made hmade => older _ _ _ (canister made hmade)
    · refine frames_after minted.copies (fun _ _ copy => copy.imp fun _ _ => older _ _ _)
        fun frame hframe => ?_
      replace hframe : next.frame? = some frame := hframe
      have copied := (segment_effect hsegment).projects.copy minted.stored copy
      rw [hframe] at copied
      exact copied.imp fun _ _ => older _ _ _
    · refine frames_after minted.canisters (fun _ _ h made hmade => older _ _ _ (h made hmade))
        fun frame hframe made hmade => ?_
      replace hframe : next.frame? = some frame := hframe
      have hnext : next.frame?.bind Frame.canister? = some made := by
        rw [hframe]
        exact hmade
      obtain hcreated | hheld := segment_canister hsegment hnext
      · exact ⟨_, List.mem_cons_self, hcreated⟩
      · exact older _ _ _ (canister made hheld)

/-- Two answers for one canister are one answer, where they are fresh. -/
theorem FreshCanisters.idx_eq {s : System} (fresh : FreshCanisters s) {idx idx' : Nat}
    {tid : Principal} (h : MadeFor s idx tid) (h' : MadeFor s idx' tid) : idx = idx' := by
  obtain ⟨entry, hentry, hcreated⟩ := h
  obtain ⟨entry', hentry', hcreated'⟩ := h'
  unfold FreshCanisters at fresh
  rw [List.Nodup, List.pairwise_filterMap] at fresh
  have htid : (createdBy entry.cause).map Prod.snd = some tid := by rw [hcreated]; rfl
  have htid' : (createdBy entry'.cause).map Prod.snd = some tid := by rw [hcreated']; rfl
  by_contra hne
  have differ : entry ≠ entry' := by
    rintro rfl
    rw [hcreated] at hcreated'
    cases hcreated'
    exact hne rfl
  have symm : Std.Symm fun entry entry' : Entry Message Frame Answer Rep =>
      ∀ x, (createdBy entry.cause).map Prod.snd = some x →
        ∀ y, (createdBy entry'.cause).map Prod.snd = some y → x ≠ y :=
    ⟨fun _ _ h x hx y hy e => h y hy x hx e.symm⟩
  exact fresh.forall hentry hentry' differ tid htid tid htid' rfl

/-- The invariant. -/
structure Identifying (env : Env) (s : System) : Prop where
  fits : Fits env s.state
  inv : Inv s
  records : RecordsKeyed s.state
  minted : Minted s

/-- An upgrade leaves the projects, the indices and what suspended runs know of them alone. -/
theorem Inv.upgraded {s : System} (inv : Inv s) {st' : State} (same : SameProjects s.state st') :
    Inv { s with state := st' } := by
  have evolves : Evolves s.state st' := fun k v => same.known.mpr
  refine ⟨⟨inv.ordered.suspended, inv.ordered.logged⟩, fun k p hp => ?_, fun run frame hframe => ?_,
    fun idx => ?_, fun entry hentry => ?_⟩
  · rw [same.1] at hp
    exact inv.keyed k p hp
  · exact (inv.sound run frame hframe).evolves evolves
  · have howned := inv.owned idx
    unfold stored drawn at howned ⊢
    rw [same.1, same.2]
    exact howned
  · exact (inv.logged entry hentry).evolves evolves

/-- **Every event keeps the invariant**, and every record. -/
theorem live_identifying {env : Env} {s : System} (event : LifeEvent) (so : Identifying env s) :
    Identifying env (live env s event) ∧ RecordsKept s.state (live env s event).state := by
  have fits := live_fits s event so.fits
  obtain ⟨choice, e⟩ | e | ⟨st', optAddrConfig, _, preserved, e⟩ := live_cases so.fits event
  · rw [e] at fits ⊢
    have records : RecordsKeyed ((program env).step s choice).state ∧
        RecordsKept s.state ((program env).step s choice).state := by
      obtain e | ⟨a, run, cause, _, _, _, e⟩ := step_cases (program env) s choice
      · rw [e]
        exact ⟨so.records, fun _ _ h => h⟩
      rw [e]
      cases hsegment : (program env).segment a cause s.state with
      | none => exact ⟨so.records, fun _ _ h => h⟩
      | some result => exact (segment_writes hsegment).all.records so.records
    exact ⟨⟨fits, step_inv s choice so.inv, records.1, step_minted s choice so.minted⟩, records.2⟩
  · rw [e]
    exact ⟨so, fun _ _ h => h⟩
  · rw [e] at fits ⊢
    have same : SameProjects s.state st' :=
      ⟨preserved.projects, congrArg CounterState.count preserved.counter⟩
    refine ⟨⟨fits, so.inv.upgraded same, fun k record hrecord => ?_, ?_⟩, fun k record hrecord => ?_⟩
    · rw [preserved.history] at hrecord
      rw [preserved.counter]
      exact so.records k record hrecord
    · refine ⟨fun k p hp => ?_, so.minted.copies, so.minted.canisters⟩
      rw [preserved.projects] at hp
      exact so.minted.stored k p hp
    · rw [preserved.history]
      exact hrecord

theorem identifying_start (env : Env) (caller : Principal) (time : Nat) (addrConfig : AddrConfig)
    (icpAddr : Principal) :
    Identifying env (Sys.start (init env caller time addrConfig icpAddr)) := by
  refine ⟨fits_start env caller time addrConfig icpAddr, inv_start env caller time addrConfig icpAddr,
    fun k record h => ?_, fun k p h => ?_, frames_start _, frames_start _⟩
  · rw [Sys.start, init, ExtTreeMap.getElem?_empty] at h
    cases h
  · rw [Sys.start, init, ExtTreeMap.getElem?_empty] at h
    cases h

/-- The index that a suspended run holds counts for it. -/
theorem weightAt_holds {s : System} {run : Nat} {frame : Frame} {idx : Nat}
    (hframe : s.suspended[run]? = some frame) (hrole : frame.role = .creates idx) :
    weightAt (fun _ (frame : Frame) => frame.role.holds idx) s.suspended run = 1 := by
  unfold weightAt
  rw [hframe, Option.elim_some]
  dsimp only
  rw [hrole]
  exact if_pos rfl

/-- What the invariant says of the identifiers. -/
theorem Identifying.identified {env : Env} {s : System} (so : Identifying env s) : Identified s := by
  refine ⟨fun k p hp => ⟨so.inv.keyed k p hp, ?_⟩, so.records, fun run frame idx hframe hrole => ?_,
    fun run run' frame frame' idx hframe hframe' hrole hrole' => ?_, fun fresh k k' p p' hp hp' same => ?_⟩
  · -- a stored index is drawn
    have howned := so.inv.owned k
    rw [stored_of_known (.of_get hp)] at howned
    unfold drawn at howned
    split at howned <;> omega
  · have hle := weightAt_le_sumOf (fun _ (frame : Frame) => frame.role.holds idx) s.suspended run
    rw [weightAt_holds hframe hrole] at hle
    have howned := so.inv.owned idx
    have hdrawn := drawn_le_one idx s.state
    cases hp : s.state.fomoProjectMap[idx]? with
    | none => rfl
    | some p =>
      rw [stored_of_known (.of_get hp)] at howned
      omega
  · by_contra hne
    have hle := weightAt_add_le_sumOf (fun _ (frame : Frame) => frame.role.holds idx) s.suspended
      (k := run) (a := run') fun e => hne e.symm
    rw [weightAt_holds hframe hrole, weightAt_holds hframe' hrole'] at hle
    have howned := so.inv.owned idx
    have hdrawn := drawn_le_one idx s.state
    omega
  · have made := so.minted.stored k p hp
    have made' := so.minted.stored k' p' hp'
    rw [← same] at made'
    exact fresh.idx_eq made made'

theorem Identifying.overwritesNothing {env : Env} {s : System} (so : Identifying env s)
    (event : LifeEvent) : OverwritesNothing env s event := by
  refine ⟨(live_identifying event so).2, fun choice a run c res _ starts => ?_⟩
  have enabled : s.suspended[run]? = some (.installCode c) := enabled_of_starts starts
  exact so.identified.held run _ c.idx enabled rfl

/-- **Identifiers are fresh** in every reachable launcher, and no event overwrites a project or a
record. -/
theorem identifiers_fresh (env : Env) (caller : Principal) (time : Nat) (addrConfig : AddrConfig)
    (icpAddr : Principal) (events : List LifeEvent) :
    Identified (lived env caller time addrConfig icpAddr events) ∧
      Along (live env) (OverwritesNothing env)
        (Sys.start (init env caller time addrConfig icpAddr)) events := by
  have start := identifying_start env caller time addrConfig icpAddr
  have keep : ∀ s event, Identifying env s → Identifying env (live env s event) :=
    fun s event so => (live_identifying event so).1
  refine ⟨(foldl_invariant keep start events).identified, ?_⟩
  exact .of_invariant keep (fun s event so => so.overwritesNothing event) start events

end Fomowell.Launcher
