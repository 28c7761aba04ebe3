import Fomowell.Launcher.HandOff

/-!
# Marked projects are handed over

`update_progress` commits the markers before it calls the router, so the marker of a project stands
for a hand-off that is yet to come. `Completing` is the invariant that keeps the promise while every
call is answered `Ok`: each configured call of a marked project was answered, or a suspended run will
still make it. A copy that `set_buy_or_sell` holds of a marked project is as good as the marker,
since it may be written back.

The code keeps going where a call was answered `Err`. It traps where a transfer was rejected, and where it
comes to a share for the Dogmi DAO in a build that has no address for it, with the rest of its list never
handed over. `handOff_complete` proves the promise where none of this happens; `not_handOff_complete` runs the
first.
-/

namespace Fomowell.Launcher

open Std Canister Table Runs Token

/-! ## The promise of a marker -/

/-- A call of the last loop was answered `Ok`, for the project stored under an index. -/
def Answered (s : System) (stage : Stage) (idx : Nat) : Prop :=
  ∃ entry ∈ s.log, ∃ h, entry.cause = .resumed (.handOff stage h) (.ok (.ok ())) ∧
    h.fomoPid = idx ∧ Known s.state idx h.v

/-- The runs of `update_progress`. -/
def Frame.ofUpdateProgress : Frame → Bool
  | .marketCapBatch _ => true
  | .handOff .. => true
  | _ => false

/-- The next call of the last loop, after the one at a stage, is the transfer to the Dogmi DAO: that of the
same project, or of the next one on the list. -/
def HandOff.ComesToDogmi (h : HandOff) (st : State) : Stage → Prop
  | .sneed => h.v.dogmiDaoLock.isSome
  | .dogmi => False
  | .lock => ∃ fomoPid rest v, h.rest = fomoPid :: rest ∧ st.fomoProjectMap[fomoPid]? = some v ∧
      v.sneedDaoLock = none ∧ v.dogmiDaoLock.isSome

/-- A choice that resumes no run of `update_progress` with anything but `Ok`, and none that comes to the
Dogmi DAO in a build that has no address for it. -/
def HandsOn (env : Env) (s : System) (choice : Choice) : Prop :=
  ∀ a run stage h reply, s.starts choice = some (a, run, .resumed (.handOff stage h) reply) →
    reply = .ok (.ok ()) ∧ (h.ComesToDogmi s.state stage → env.dogmiDaoAddr.isSome)

/-- A run at one call of the last loop will still make another one. -/
def HandOff.Pends (h : HandOff) (current stage : Stage) (idx : Nat) : Prop :=
  (h.fomoPid = idx ∧ current.rank ≤ stage.rank) ∨ idx ∈ h.rest

/-- Some suspended run will still make a call. -/
def InFlight (s : System) (stage : Stage) (idx : Nat) : Prop :=
  ∃ (run : Nat) (current : Stage) (h : HandOff),
    s.suspended[run]? = some (.handOff current h) ∧ h.Pends current stage idx

/-- Each configured call of a project was answered, or will still be made. -/
def Covered (s : System) (idx : Nat) : Prop :=
  ∃ v, Known s.state idx v ∧
    ∀ stage, v.configured stage → Answered s stage idx ∨ InFlight s stage idx

theorem SameIdentity.configured {v v' : FomoProject} (h : SameIdentity v v') (stage : Stage) :
    v'.configured stage = v.configured stage := by
  cases stage with
  | sneed => exact congrArg Option.isSome h.sneedDaoLock
  | dogmi => exact congrArg Option.isSome h.dogmiDaoLock
  | lock => rfl

theorem Known.same {st : State} {k : Nat} {v v' : FomoProject} (h : Known st k v)
    (h' : Known st k v') : SameIdentity v v' := by
  obtain ⟨p, hp, same⟩ := h
  obtain ⟨p', hp', same'⟩ := h'
  rw [hp] at hp'
  cases hp'
  exact same.symm.trans same'

/-! ## What a step does to markers and copies -/

/-- A copy with a marker is a promise about its project. -/
def Role.Copied (C : Nat → Prop) : Role → Prop
  | .trades k v => v.poolProgressDoneTime.isSome → C k
  | .settles k v => v.poolProgressDoneTime.isSome → C k
  | _ => True

/-- A project that a run has put on its list. -/
def Role.Lists (idx : Nat) : Role → Prop
  | .handsOff current h => (h.fomoPid = idx ∧ h.From 0 current) ∨ idx ∈ h.rest
  | _ => False

section

variable {env : Env} {st st' : State} {r r' : Role} {C : Nat → Prop}

theorem Follows.copied (h : Follows r r') (copied : r.Copied C) : r'.Copied C := by
  cases h with
  | plain => trivial
  | creates idx => trivial
  | trades k v => exact copied
  | settles k v => exact copied

/-- A project marked by a store was marked by what is stored. -/
theorem Stores.marked_cases {k : Nat} {p : FomoProject} (h : Stores st k p st') {idx : Nat}
    (hmarked : marked idx st' = 1) :
    (idx = k ∧ p.poolProgressDoneTime.isSome) ∨ marked idx st = 1 := by
  by_cases hne : idx = k
  · subst hne
    rw [h.marked_self] at hmarked
    split at hmarked
    next hsome => exact .inl ⟨rfl, hsome⟩
    next => cases hmarked
  · rw [h.marked_of_ne hne] at hmarked
    exact .inr hmarked

theorem handOffNext_lists {addrConfig : AddrConfig} {l : List Nat} {next : Next Frame Answer}
    (h : handOffNext env addrConfig l st = some (st', next)) {idx : Nat} (hidx : idx ∈ l) :
    (roleOf next.frame?).Lists idx := by
  obtain ⟨_, ⟨rfl, _⟩ | ⟨hand, stage, rfl, _, hnext, from0⟩⟩ := handOffNext_cases h
  · cases hidx
  · rw [hnext]
    rcases List.mem_cons.mp hidx with rfl | hrest
    · exact .inl ⟨rfl, from0⟩
    · exact .inr hrest

/-- **What is marked after a step** was promised before it, or is on the list of its run; and a copy
that its run holds was promised before it. -/
theorem ProjectStep.promised {paid : Bool} (step : ProjectStep env st paid r st' r') (keyed : Keyed st)
    (promised : ∀ idx, marked idx st = 1 → C idx) (copied : r.Copied C) :
    (∀ idx, marked idx st' = 1 → C idx ∨ r'.Lists idx) ∧ r'.Copied C := by
  cases step with
  | quiet same role =>
    refine ⟨fun idx hidx => .inl (promised idx ?_), role.copied copied⟩
    rw [← same.marked idx]
    exact hidx
  | counted projects count =>
    refine ⟨fun idx hidx => .inl (promised idx ?_), trivial⟩
    unfold marked at hidx ⊢
    rw [← projects]
    exact hidx
  | drew projects count =>
    refine ⟨fun idx hidx => .inl (promised idx ?_), trivial⟩
    unfold marked at hidx ⊢
    rw [← projects]
    exact hidx
  | created c stores =>
    refine ⟨fun idx hidx => .inl ?_, trivial⟩
    rcases stores.marked_cases hidx with ⟨_, hsome⟩ | hold
    · cases hsome
    · exact promised idx hold
  | replied stored stores =>
    refine ⟨fun idx hidx => .inl ?_, trivial⟩
    rcases stores.marked_cases hidx with ⟨rfl, hsome⟩ | hold
    · exact promised idx ((marked_of_get stored).trans (if_pos hsome))
    · exact promised idx hold
  | read stored =>
    refine ⟨fun idx hidx => .inl (promised idx hidx), fun hsome => ?_⟩
    exact promised _ ((marked_of_get stored).trans (if_pos hsome))
  | traded same marker stores =>
    refine ⟨fun idx hidx => .inl ?_, trivial⟩
    rcases stores.marked_cases hidx with ⟨rfl, hsome⟩ | hold
    · rw [marker] at hsome
      exact copied hsome
    · exact promised idx hold
  | @finished _ _ _ _ _ _ _ next ends =>
    obtain ⟨⟨st₁, l⟩, wrote, hnext⟩ := finishProgress_cases ends keyed
    refine ⟨fun idx hidx => ?_, ?_⟩
    · have hlisted := wrote.listed idx
      obtain ⟨rfl, _⟩ := handOffNext_cases hnext
      dsimp only at hlisted
      by_cases hmem : idx ∈ l
      · exact .inr (handOffNext_lists hnext hmem)
      · rw [List.count_eq_zero_of_not_mem hmem, hidx, Nat.zero_add] at hlisted
        exact .inl (promised idx hlisted)
    · obtain ⟨_, ⟨_, hframe⟩ | ⟨_, _, _, _, hframe, _⟩⟩ := handOffNext_cases hnext <;>
        rw [hframe] <;> trivial
  | @handedOff stage hand res _ next ends =>
    rcases updateProgressHandOff_cases ends with ⟨rfl, _, hframe, _⟩ | ⟨rfl, hnext⟩
    · rw [hframe]
      exact ⟨fun idx hidx => .inl (promised idx hidx), trivial⟩
    · obtain ⟨rfl, ⟨_, hframe⟩ | ⟨_, _, _, _, hframe, _⟩⟩ := handOffNext_cases hnext <;>
        rw [hframe] <;> exact ⟨fun idx hidx => .inl (promised idx hidx), trivial⟩

end

theorem Role.Copied.imp {r : Role} {C C' : Nat → Prop} (h : r.Copied C)
    (imp : ∀ idx, C idx → C' idx) : r.Copied C' := by
  cases r with
  | trades k v => exact fun hsome => imp k (h hsome)
  | settles k v => exact fun hsome => imp k (h hsome)
  | _ => trivial

/-! ## What a step does to calls -/

theorem Stage.eq_of_rank_le {stage stage' : Stage} (h : stage.rank ≤ stage'.rank)
    (h' : stage'.rank ≤ stage.rank) : stage = stage' := by
  cases stage <;> cases stage' <;> first | rfl | exact absurd (h.antisymm h') (by decide)

/-- The last loop goes on after an `Ok`: what is on its list is stored, and it has the address for its next
call. -/
theorem updateProgressHandOff_ok {env : Env} {current : Stage} {h : HandOff} {st : State}
    (sound : (Role.handsOff current h).Sound st)
    (known : h.ComesToDogmi st current → env.dogmiDaoAddr.isSome) :
    ∃ next, updateProgressHandOff env current h (.ok (.ok ())) st = some (st, next) := by
  cases current with
  | sneed =>
    have returns : h.fromDogmi env ≠ none := fun hnone => by
      obtain ⟨hsome, unknown⟩ := HandOff.fromDogmi_eq_none.mp hnone
      exact absurd (known hsome) (Option.not_isSome_iff_eq_none.mpr unknown)
    obtain ⟨frame, hframe⟩ := Option.ne_none_iff_exists'.mp returns
    refine ⟨.awaits frame, ?_⟩
    show ((h.fromDogmi env).bind fun frame => some (st, Next.awaits frame)) = _
    rw [hframe]
    rfl
  | dogmi => exact ⟨_, rfl⟩
  | lock =>
    unfold updateProgressHandOff handOffNext
    cases hrest : h.rest with
    | nil => exact ⟨_, rfl⟩
    | cons k rest =>
      obtain ⟨v, p, hp, _⟩ := sound.2 k (by rw [hrest]; exact List.mem_cons_self)
      have returns : HandOff.fromSneed env ⟨h.addrConfig, k, p, rest⟩ ≠ none := fun hnone => by
        obtain ⟨hsneed, hsome, unknown⟩ := HandOff.fromSneed_eq_none.mp hnone
        exact absurd (known ⟨k, rest, p, hrest, hp, hsneed, hsome⟩)
          (Option.not_isSome_iff_eq_none.mpr unknown)
      obtain ⟨frame, hframe⟩ := Option.ne_none_iff_exists'.mp returns
      simp only [hp, Option.bind_eq_bind, Option.bind_some, hframe]
      exact ⟨_, rfl⟩

/-- After an `Ok`, a call that was still to be made is the one answered, or is still to be made. -/
theorem HandOff.Pends.resume {env : Env} {current stage : Stage} {h : HandOff} {idx : Nat} {st st' : State}
    {next : Next Frame Answer} (pends : h.Pends current stage idx)
    (ends : updateProgressHandOff env current h (.ok (.ok ())) st = some (st', next))
    (known : Known st h.fomoPid h.v) (conf : ∀ v, Known st idx v → v.configured stage) :
    (current = stage ∧ h.fomoPid = idx) ∨
      ∃ current' h', next.frame? = some (.handOff current' h') ∧ h'.Pends current' stage idx := by
  rcases updateProgressHandOff_cases ends with ⟨_, current', hframe, from1⟩ | ⟨rfl, hnext⟩
  · rcases pends with ⟨rfl, hle⟩ | hrest
    · by_cases hstage : stage.rank ≤ current.rank
      · exact .inl ⟨Stage.eq_of_rank_le hle hstage, rfl⟩
      · exact .inr ⟨current', h, hframe,
          .inl ⟨rfl, from1.first stage (Nat.lt_of_not_le hstage) (conf h.v known)⟩⟩
    · exact .inr ⟨current', h, hframe, .inr hrest⟩
  · rcases pends with ⟨hidx, hle⟩ | hrest
    · have hlast : stage.rank ≤ Stage.lock.rank := by cases stage <;> decide
      exact .inl ⟨Stage.eq_of_rank_le hle hlast, hidx⟩
    · obtain ⟨_, ⟨hnil, _⟩ | ⟨h', current', hcons, hv, hframe, from0⟩⟩ := handOffNext_cases hnext
      · rw [hnil] at hrest
        cases hrest
      · rw [hcons] at hrest
        refine .inr ⟨current', h', hframe, ?_⟩
        rcases List.mem_cons.mp hrest with rfl | hmem
        · exact .inl ⟨rfl, from0.first stage (Nat.zero_le _) (conf h'.v (.of_get hv))⟩
        · exact .inr hmem

/-! ## Every schedule -/

/-- What holds of every reachable launcher while the last loop goes on. -/
structure Completing (s : System) : Prop where
  inv : Inv s
  promised : ∀ idx, marked idx s.state = 1 → Covered s idx
  copied : ∀ (run : Nat) frame, s.suspended[run]? = some frame → frame.role.Copied (Covered s)

section

variable {env : Env} {s : System} {choice : Choice} {a : Ambient} {run : Nat}
  {cause : Cause Message Frame Rep}

theorem Answered.after {stage : Stage} {idx : Nat} (h : Answered s stage idx) {result : Segment}
    (evolves : Evolves s.state (s.after run cause result).state) :
    Answered (s.after run cause result) stage idx := by
  obtain ⟨entry, hentry, hand, hcause, hidx, known⟩ := h
  exact ⟨entry, List.mem_cons_of_mem _ hentry, hand, hcause, hidx, evolves _ _ known⟩

/-- A call that was still to be made is answered, or is still to be made. -/
theorem InFlight.after {stage : Stage} {idx : Nat} (h : InFlight s stage idx) (inv : Inv s)
    (starts : s.starts choice = some (a, run, cause)) (enabled : s.Enabled run cause)
    (delivered : cause.isDelivery → (program env).segment a cause s.state ≠ none)
    (ok : HandsOn env s choice) (conf : ∀ v, Known s.state idx v → v.configured stage) :
    Answered (s.after run cause ((program env).segment a cause s.state)) stage idx ∨
      InFlight (s.after run cause ((program env).segment a cause s.state)) stage idx := by
  obtain ⟨run', current, hand, hframe, pends⟩ := h
  by_cases hne : run' = run
  · subst hne
    have sound := inv.sound _ _ hframe
    cases cause with
    | received message =>
      rw [enabled.get_eq inv.ordered] at hframe
      cases hframe
    | delivered frame =>
      rw [enabled.get_eq inv.ordered] at hframe
      cases hframe
      exact absurd rfl (delivered rfl)
    | resumed frame reply =>
      have hcause := enabled.get_eq inv.ordered
      rw [hframe] at hcause
      cases hcause
      obtain ⟨rfl, known⟩ := ok a run' current hand reply starts
      obtain ⟨next, ends⟩ := updateProgressHandOff_ok sound known
      have hsegment : (program env).segment a (.resumed (.handOff current hand) (.ok (.ok ())))
        s.state = some (s.state, next) := ends
      rw [hsegment]
      rcases pends.resume ends sound.1 conf with ⟨rfl, rfl⟩ | ⟨current', hand', hnext, pends'⟩
      · exact .inl ⟨_, List.mem_cons_self, hand, rfl, rfl, sound.1⟩
      · exact .inr ⟨run', current', hand', (get_after s run' _ _).trans hnext, pends'⟩
  · exact .inr ⟨run', current, hand, (get_after_of_ne s cause _ hne).trans hframe, pends⟩

theorem Covered.after {idx : Nat} (h : Covered s idx) (inv : Inv s)
    (starts : s.starts choice = some (a, run, cause)) (enabled : s.Enabled run cause)
    (delivered : cause.isDelivery → (program env).segment a cause s.state ≠ none)
    (ok : HandsOn env s choice) :
    Covered (s.after run cause ((program env).segment a cause s.state)) idx := by
  obtain ⟨v, known, calls⟩ := h
  have evolves := (inv.kept env a enabled).evolves
  refine ⟨v, evolves idx v known, fun stage hstage => ?_⟩
  rcases calls stage hstage with answered | flight
  · exact .inl (answered.after evolves)
  · refine flight.after inv starts enabled delivered ok fun v' known' => ?_
    rw [(known.same known').configured]
    exact hstage

/-- A project on the list of a run is covered. -/
theorem Role.Lists.covered {idx : Nat} {result : Segment}
    (h : (roleOf (frameOf result)).Lists idx)
    (sound : (roleOf (frameOf result)).Sound (s.after run cause result).state) :
    Covered (s.after run cause result) idx := by
  have hframe := get_after s run cause result
  cases hrole : roleOf (frameOf result) with
  | handsOff current hand =>
    rw [hrole] at h sound
    rw [handOff_of_role hrole] at hframe
    rcases h with ⟨rfl, from0⟩ | hrest
    · refine ⟨hand.v, sound.1, fun stage hstage => .inr ⟨run, current, hand, hframe, .inl ⟨rfl, ?_⟩⟩⟩
      exact from0.first stage (Nat.zero_le _) hstage
    · obtain ⟨v, known⟩ := sound.2 idx hrest
      exact ⟨v, known, fun stage _ => .inr ⟨run, current, hand, hframe, .inr hrest⟩⟩
  | _ =>
    rw [hrole] at h
    exact h.elim

/-- **Every step keeps the promise** while the last loop goes on. -/
theorem step_completing (completing : Completing s) (ok : HandsOn env s choice) :
    Completing ((program env).step s choice) := by
  have inv : Inv ((program env).step s choice) := step_inv s choice completing.inv
  rcases step_cases (program env) s choice with e | ⟨a, run, cause, starts, enabled, delivered, e⟩
  · rw [e]
    exact completing
  rw [e] at inv ⊢
  have covered : ∀ idx, Covered s idx →
      Covered (s.after run cause ((program env).segment a cause s.state)) idx := fun idx h =>
    h.after completing.inv starts enabled delivered ok
  have copied : (roleOf cause.frame?).Copied (Covered s) := by
    cases cause with
    | received message => trivial
    | delivered frame => exact completing.copied run frame enabled
    | resumed frame reply => exact completing.copied run frame enabled
  have sound := (completing.inv.kept env a enabled).sound
  cases hsegment : (program env).segment a cause s.state with
  | none =>
    rw [hsegment] at covered inv
    refine ⟨inv, fun idx hidx => covered idx (completing.promised idx hidx), ?_⟩
    exact frames_after completing.copied (fun _ _ h => h.imp covered) fun frame hframe => nomatch hframe
  | some result =>
    rw [hsegment] at covered inv sound
    have promised := (segment_effect hsegment).projects.promised completing.inv.keyed
      (fun idx hidx => covered idx (completing.promised idx hidx)) (copied.imp covered)
    refine ⟨inv, fun idx hidx => ?_, frames_after completing.copied (fun _ _ h => h.imp covered) ?_⟩
    · exact (promised.1 idx hidx).elim id fun lists => lists.covered sound
    · intro frame hframe
      have h := promised.2
      replace hframe : result.2.frame? = some frame := hframe
      rw [hframe] at h
      exact h

end

theorem completing_start (env : Env) (caller : Principal) (time : Nat) (addrConfig : AddrConfig)
    (icpAddr : Principal) : Completing (Sys.start (init env caller time addrConfig icpAddr)) := by
  refine ⟨inv_start env caller time addrConfig icpAddr, fun idx h => ?_, frames_start _⟩
  unfold marked at h
  rw [Sys.start, init, ExtTreeMap.getElem?_empty] at h
  cases h

/-- Where no `update_progress` is in flight, every marked project was handed over. -/
def Complete (s : System) : Prop :=
  (∀ (run : Nat) frame, s.suspended[run]? = some frame → frame.ofUpdateProgress = false) →
    ∀ (idx : Nat) p, s.state.fomoProjectMap[idx]? = some p → p.poolProgressDoneTime.isSome →
      ∀ stage, p.configured stage → Answered s stage idx

/-- **A marker means a completed hand-off**, in every launcher reached by choices with which the
router answers every call `Ok`, and the last loop has the address for every next one. -/
theorem handOff_complete (env : Env) (caller : Principal) (time : Nat) (addrConfig : AddrConfig)
    (icpAddr : Principal) (choices : List Choice)
    (ok : Along (program env).step (HandsOn env) (Sys.start (init env caller time addrConfig icpAddr))
      choices) :
    Complete (choices.foldl (program env).step
      (Sys.start (init env caller time addrConfig icpAddr))) := by
  have completing := ok.invariant (fun _ _ completing ok => step_completing completing ok)
    (completing_start env caller time addrConfig icpAddr)
  intro noneInFlight idx p hp hsome stage hstage
  obtain ⟨v, known, calls⟩ := completing.promised idx ((marked_of_get hp).trans (if_pos hsome))
  rw [← ((Known.of_get hp).same known).configured] at hstage
  rcases calls stage hstage with answered | ⟨run, current, hand, hframe, _⟩
  · exact answered
  · exact nomatch noneInFlight run _ hframe

/-- `update_progress` over the sample project, to its end. -/
def handOffSchedule (reply : (frame : Frame) → Rep frame) : List Choice :=
  sampleSchedule ++ sampleMessage .updateProgress ::
    List.replicate 3 (.resume sampleAmbient 15 reply)

theorem no_frame_of_isEmpty {s : System} (h : s.suspended.isEmpty) (run : Nat) (frame : Frame)
    (hframe : s.suspended[run]? = some frame) : frame.ofUpdateProgress = false := by
  rw [Table.get_of_isEmpty h] at hframe
  cases hframe

/-- The lock of the sample project is answered. -/
theorem handOff_complete_sample :
    Answered ((handOffSchedule sampleReply).foldl (program sampleEnv).step sampleStart) .lock 1 := by
  have ok : Along (program sampleEnv).step (HandsOn sampleEnv) sampleStart (handOffSchedule sampleReply) := by
    refine along_of_forall fun choice hchoice s a run stage h reply starts => ?_
    have hcases : (∃ m, choice = sampleMessage m) ∨ ∃ run, choice = sampleAnswer run := by
      simp only [handOffSchedule, sampleSchedule, List.cons_append, List.mem_cons,
        List.mem_append, List.mem_replicate] at hchoice
      rcases hchoice with h | h | ⟨_, h⟩ | h | ⟨_, h⟩
      · exact .inl ⟨_, h⟩
      · exact .inl ⟨_, h⟩
      · exact .inr ⟨_, h⟩
      · exact .inl ⟨_, h⟩
      · exact .inr ⟨_, h⟩
    rcases hcases with ⟨m, rfl⟩ | ⟨run', rfl⟩
    · cases starts
    · obtain ⟨frame, _, e⟩ := Option.map_eq_some_iff.mp starts
      cases e
      exact ⟨rfl, fun _ => rfl⟩
  have complete : Complete ((handOffSchedule sampleReply).foldl (program sampleEnv).step sampleStart) :=
    handOff_complete _ _ _ _ _ _ ok
  have hdone : (((handOffSchedule sampleReply).foldl (program sampleEnv).step
      sampleStart).state.fomoProjectMap[1]?.any (·.poolProgressDoneTime.isSome)) = true := by
    decide +kernel
  obtain ⟨p, hp, hsome⟩ := (Option.any_eq_true _ _).mp hdone
  exact complete (no_frame_of_isEmpty (by decide +kernel)) 1 p hp hsome .lock rfl

/-- The router answers every call with an error inside the reply. -/
def routerErr : (frame : Frame) → Rep frame
  | .handOff .. => .ok (.error "")
  | frame => sampleReply frame

/-- An `Ok` of the router. -/
def isOkAnswer (entry : Entry Message Frame Answer Rep) : Bool :=
  match entry.cause with
  | .resumed (.handOff ..) (.ok (.ok _)) => true
  | _ => false

/-- **A marker without a hand-off.** -/
theorem not_handOff_complete :
    ¬ ∀ env caller time addrConfig icpAddr (choices : List Choice),
      Complete (choices.foldl (program env).step
        (Sys.start (init env caller time addrConfig icpAddr))) := by
  intro all
  have complete : Complete ((handOffSchedule routerErr).foldl (program sampleEnv).step sampleStart) :=
    all _ _ _ _ _ _
  have hdone : (((handOffSchedule routerErr).foldl (program sampleEnv).step
      sampleStart).state.fomoProjectMap[1]?.any (·.poolProgressDoneTime.isSome)) = true := by
    decide +kernel
  obtain ⟨p, hp, hsome⟩ := (Option.any_eq_true _ _).mp hdone
  obtain ⟨entry, hentry, h, hcause, _⟩ :=
    complete (no_frame_of_isEmpty (by decide +kernel)) 1 p hp hsome .lock rfl
  have hnone : (((handOffSchedule routerErr).foldl (program sampleEnv).step
      sampleStart).log.all fun entry => !isOkAnswer entry) = true := by
    decide +kernel
  have := List.all_eq_true.mp hnone entry hentry
  rw [isOkAnswer, hcause] at this
  cases this

end Fomowell.Launcher
