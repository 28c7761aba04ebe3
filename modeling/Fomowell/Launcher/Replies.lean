import Fomowell.Launcher.Duties
import Fomowell.Launcher.Projects

/-!
# Replies are counted

`reply_update` adds one to a project's `reply_count` and stores the time. Three methods write a whole
record of a project: `reply_update` and `update_progress` write what the map holds then, with fields
of their own replaced; `set_buy_or_sell` writes a copy from before its awaits. A reply that is counted
in between is lost. A choice has `StaleReplies` where it resumes such a run for a copy whose count or
time is no longer the stored one; `replies_counted_iff`: the counts are right after every step in
exactly the schedules without one. `not_replies_counted` runs one.

The replies of a project are read from the record of the segments: the times of the `reply_update`
messages that returned, latest first.
-/

namespace Fomowell.Launcher

open Std Canister Table Runs Token

/-! ## Counted replies -/

/-- The time of a `reply_update` of a project that returned. -/
def replyTime (idx : Nat) (ev : Event) : Option Nat :=
  match ev.cause, ev.result with
  | .received (.replyUpdate fomoIdx), some _ =>
    if fomoIdx = idx then some ev.ambient.time else none
  | _, _ => none

/-- The times of the replies to a project, latest first. -/
def repliesTo (idx : Nat) (tr : List Event) : List Nat := tr.filterMap (replyTime idx)

/-- The count and the time that a project stores. -/
def FomoProject.replies (p : FomoProject) : Nat × Nat := (p.replyCount, p.recentlyReplyTime)

/-- What the map holds about the replies to a project. -/
def State.repliesAt (st : State) (idx : Nat) : Option (Nat × Nat) :=
  st.fomoProjectMap[idx]?.map FomoProject.replies

/-- Every stored project has the number of its replies, and the time of the latest of them. -/
def RepliesCounted (m : TracedSystem) : Prop :=
  ∀ (idx : Nat) p, m.1.state.fomoProjectMap[idx]? = some p →
    p.replyCount = (repliesTo idx m.2).length ∧
      p.recentlyReplyTime = (repliesTo idx m.2).head?.getD 0

/-- A choice that resumes `set_buy_or_sell` at its last await: the segment ends, and writes back a
copy whose count or time of replies is not the stored one. -/
def StaleReplies (env : Env) (s : System) (choice : Choice) : Prop :=
  ∃ a run type q supply p,
    s.starts choice = some (a, run, .resumed (.ledger type (.totalSupply q)) supply) ∧
    (setBuyOrSellSupply env a.time q supply s.state).isSome ∧
    s.state.fomoProjectMap[q.recordSignal.fomoIdx]? = some p ∧ p.replies ≠ q.v.replies

/-- The law of one project, stored or not: before a project is stored it has no replies. -/
def Counted (times : List Nat) : Option (Nat × Nat) → Prop
  | none => times = []
  | some replies => replies = (times.length, times.head?.getD 0)

/-! ## What a segment does to the counts -/

section

variable {env : Env} {a : Ambient} {st st' : State} {cause : Cause Message Frame Rep}
  {frame? : Option Frame}

theorem repliesAt_congr (h : st'.fomoProjectMap = st.fomoProjectMap) (idx : Nat) :
    st'.repliesAt idx = st.repliesAt idx := by
  unfold State.repliesAt
  rw [h]

theorem Stores.repliesAt {k : Nat} {p : FomoProject} (h : Stores st k p st') (idx : Nat) :
    st'.repliesAt idx = if idx = k then some p.replies else st.repliesAt idx := by
  unfold State.repliesAt
  rw [h.projects, get_insert]
  split <;> rfl

/-- The wells progress leaves the replies. -/
theorem updateWells_replies {time marketCap maxMarketCap : Nat} {v v' : FomoProject}
    (h : v.updateWells time marketCap maxMarketCap = some v') : v'.replies = v.replies := by
  obtain ⟨_, _, rfl⟩ := updateWells_eq h
  rfl

/-- `reply_update` adds one to the stored count and sets the stored time. -/
theorem replyUpdate_replies {time fomoIdx : Nat}
    (h : replyUpdate env time fomoIdx st = some st') :
    ∃ v, st.repliesAt fomoIdx = some (FomoProject.replies v) ∧
      ∀ idx, st'.repliesAt idx =
        if idx = fomoIdx then some (v.replyCount + 1, time) else st.repliesAt idx := by
  obtain ⟨v, hv, hwrite⟩ := Option.bind_eq_some_iff.mp h
  refine ⟨v, ?_, ?_⟩
  · unfold State.repliesAt
    rw [hv]
    rfl
  · intro idx
    exact (insertProject_stores hwrite).repliesAt idx

/-- `set_buy_or_sell` writes back the replies of its copy. -/
theorem setBuyOrSellSupply_replies {time : Nat} {q : Quote} {supply : CallResult Nat}
    {next : Next Frame Answer}
    (h : setBuyOrSellSupply env time q supply st = some (st', next)) (idx : Nat) :
    st'.repliesAt idx =
      if idx = q.recordSignal.fomoIdx then some q.v.replies else st.repliesAt idx := by
  obtain ⟨_, _, v, hv, hwrite, _⟩ := setBuyOrSellSupply_ends h
  rw [(insertProject_stores hwrite).repliesAt]
  have hreplies := updateWells_replies hv
  unfold FomoProject.replies at hreplies ⊢
  rw [← hreplies]
  rfl

/-- `update_progress` writes back each project with its replies. -/
theorem writeBackOne_replies {time maxMarketCap : Nat} {acc acc' : State × List Nat}
    {entry : Nat × (Nat × Nat)} (h : writeBackOne env time maxMarketCap acc entry = some acc')
    (idx : Nat) : acc'.1.repliesAt idx = acc.1.repliesAt idx := by
  obtain ⟨_, rfl⟩ | ⟨pj, v, p, hpj, hwells, hwrite, marks⟩ := writeBackOne_stores h
  · rfl
  · have hreplies := updateWells_replies hwells
    have hp : p.replies = pj.replies := by
      obtain ⟨_, rfl, _⟩ | ⟨rfl, _⟩ := marks
      · exact hreplies
      · exact hreplies
    rw [(insertProject_stores hwrite).repliesAt]
    split
    next hidx =>
      subst hidx
      unfold State.repliesAt
      rw [hpj, hp]
      rfl
    next => rfl

theorem finishProgress_replies {order : HashOrder} {time : Nat} {addrConfig : AddrConfig}
    {map : ExtTreeMap Nat (Nat × Nat) compare} {maxMarketCap maxIdx : Nat}
    {next : Next Frame Answer}
    (h : finishProgress env order time addrConfig map maxMarketCap maxIdx st = some (st', next))
    (idx : Nat) : st'.repliesAt idx = st.repliesAt idx := by
  obtain ⟨acc, hfold, h⟩ := Option.bind_eq_some_iff.mp h
  rw [(handOffNext_eq h).1]
  exact foldlM_invariant (I := fun acc : State × List Nat => acc.1.repliesAt idx = st.repliesAt idx)
    (fun _ _ _ one same => (writeBackOne_replies one idx).trans same) hfold rfl

/-- A charge leaves the projects. -/
theorem chargeReturn_projects {time : Nat} {charge : Charge} {next : Next Frame Answer}
    (h : chargeReturn env time charge st = some (st', next)) :
    st'.fomoProjectMap = st.fomoProjectMap := by
  obtain ⟨_, _, _, rewards⟩ | ⟨_, _, rfl, _⟩ | ⟨_, rfl, _⟩ := chargeReturn_cases h
  · exact rewards.spends.projects.1
  · rfl
  · rfl

/-- The project that `create_fomo` stores has no replies yet. -/
theorem createFomoInstalled_replies {time : Nat} {c : Created} {res : CallResult Unit}
    {next : Next Frame Answer}
    (h : createFomoInstalled env time c res st = some (st', next)) (idx : Nat) :
    st'.repliesAt idx = if idx = c.idx then some (0, 0) else st.repliesAt idx := by
  obtain ⟨stored, stores, _, _, rewards, _⟩ := createFomoInstalled_cases h
  rw [repliesAt_congr rewards.spends.projects.1]
  exact stores.repliesAt idx

/-- **What a segment does to the counts**: nothing, unless it counts a reply, stores a new project or
writes a copy back. -/
theorem Does.replies (does : Does env a st cause st' frame?)
    (hcause : ∀ fomoIdx, cause ≠ .received (.replyUpdate fomoIdx)) :
    (∀ idx, st'.repliesAt idx = st.repliesAt idx) ∨
      (∃ c res, cause = .resumed (.installCode c) res ∧
        ∀ idx, st'.repliesAt idx = if idx = c.idx then some (0, 0) else st.repliesAt idx) ∨
      (∃ type q supply, cause = .resumed (.ledger type (.totalSupply q)) supply ∧
        ∀ idx, st'.repliesAt idx =
          if idx = q.recordSignal.fomoIdx then some q.v.replies else st.repliesAt idx) := by
  cases does with
  | idle passes keeps free => exact .inl (repliesAt_congr keeps.projects)
  | looked keeps => exact .inl (repliesAt_congr keeps.projects)
  | replied ends => exact absurd rfl (hcause _)
  | spent ends => exact .inl (repliesAt_congr (spendingPoints_spends ends).projects.1)
  | airdropped ends => exact .inl (repliesAt_congr (airdropPoints_spends ends).projects.1)
  | began passes keeps has asks => exact .inl (repliesAt_congr keeps.projects)
  | beganUpload passes absent asks => exact .inl fun _ => rfl
  | deducted ends => exact .inl (repliesAt_congr (spendingPoints_spends ends).projects.1)
  | refused => exact .inl fun _ => rfl
  | uploaded => exact .inl fun _ => rfl
  | wrote duty ends keeps free => exact .inl (repliesAt_congr keeps.projects)
  | charged ok ends => exact .inl (repliesAt_congr (chargeReturn_projects ends))
  | traded ends => exact .inr (.inr ⟨_, _, _, rfl, setBuyOrSellSupply_replies ends⟩)
  | finished passes ends free => exact .inl (finishProgress_replies ends)
  | installed ends => exact .inr (.inl ⟨_, _, rfl, createFomoInstalled_replies ends⟩)
  | removed owes => exact .inl fun _ => rfl

end

/-! ## Every schedule -/

/-- What holds while no choice is stale. -/
structure Replied (m : TracedSystem) : Prop where
  inv : Inv m.1
  counted : ∀ idx, Counted (repliesTo idx m.2) (m.1.state.repliesAt idx)

section

variable {env : Env} {m : TracedSystem} {choice : Choice}

theorem Replied.repliesCounted (replied : Replied m) : RepliesCounted m := by
  intro idx p hp
  have counted := replied.counted idx
  unfold State.repliesAt at counted
  rw [hp] at counted
  exact ⟨congrArg Prod.fst counted, congrArg Prod.snd counted⟩

/-- A segment that is not an answered `reply_update` is not in the record of replies. -/
theorem replyTime_of_ne {ev : Event} (h : ∀ fomoIdx, ev.cause ≠ .received (.replyUpdate fomoIdx))
    (idx : Nat) : replyTime idx ev = none := by
  unfold replyTime
  split
  next fomoIdx _ hcause _ => exact absurd hcause (h fomoIdx)
  next => rfl

theorem replyTime_of_trap {ev : Event} (h : ev.result = none) (idx : Nat) :
    replyTime idx ev = none := by
  unfold replyTime
  split
  next hresult =>
    rw [h] at hresult
    cases hresult
  next => rfl

theorem repliesTo_cons_of_none {idx : Nat} {ev : Event} (h : replyTime idx ev = none)
    (tr : List Event) : repliesTo idx (ev :: tr) = repliesTo idx tr :=
  List.filterMap_cons_none h

/-- A counted reply is in the record. -/
theorem repliesTo_cons_reply {ev : Event} {fomoIdx : Nat}
    (hcause : ev.cause = .received (.replyUpdate fomoIdx)) (returned : ev.result.isSome)
    (idx : Nat) (tr : List Event) :
    repliesTo idx (ev :: tr) =
      if fomoIdx = idx then ev.ambient.time :: repliesTo idx tr else repliesTo idx tr := by
  obtain ⟨result, hresult⟩ := Option.isSome_iff_exists.mp returned
  have htime : replyTime idx ev = if fomoIdx = idx then some ev.ambient.time else none := by
    unfold replyTime
    rw [hcause, hresult]
  unfold repliesTo
  rw [List.filterMap_cons, htime]
  by_cases hidx : fomoIdx = idx
  · rw [if_pos hidx, if_pos hidx]
  · rw [if_neg hidx, if_neg hidx]

/-- A reply is counted in the map and in the record alike. -/
theorem replyUpdate_counted {st st' : State} {ev : Event} {tr : List Event} {fomoIdx : Nat}
    (counted : ∀ idx, Counted (repliesTo idx tr) (st.repliesAt idx))
    (hcause : ev.cause = .received (.replyUpdate fomoIdx)) (returned : ev.result.isSome)
    (h : replyUpdate env ev.ambient.time fomoIdx st = some st') (idx : Nat) :
    Counted (repliesTo idx (ev :: tr)) (st'.repliesAt idx) := by
  obtain ⟨v, hv, hwrites⟩ := replyUpdate_replies h
  rw [repliesTo_cons_reply hcause returned, hwrites idx]
  by_cases hidx : idx = fomoIdx
  · subst hidx
    have hcount := counted idx
    rw [hv] at hcount
    have hlength : v.replyCount = (repliesTo idx tr).length := congrArg Prod.fst hcount
    rw [if_pos rfl, if_pos rfl, hlength]
    rfl
  · rw [if_neg hidx, if_neg fun e => hidx e.symm]
    exact counted idx

/-- A project that `create_fomo` is about to store is not stored yet, so it has no replies. -/
theorem Replied.none_of_installing {run : Nat} {c : Created} {res : CallResult Unit}
    (replied : Replied m) (enabled : m.1.Enabled run (.resumed (.installCode c) res)) :
    repliesTo c.idx m.2 = [] := by
  have absent := absent_of_held (c := c) (replied.inv.roleOwned enabled)
  have counted := replied.counted c.idx
  unfold State.repliesAt at counted
  rw [absent] at counted
  exact counted

/-- The copy that `set_buy_or_sell` writes back has the stored replies, or the choice is stale. -/
theorem Replied.copy_of_fresh {a : Ambient} {run : Nat} {type : TokenType} {q : Quote}
    {supply : CallResult Nat} (replied : Replied m) (fresh : ¬ StaleReplies env m.1 choice)
    (hstarts : m.1.starts choice =
      some (a, run, .resumed (.ledger type (.totalSupply q)) supply))
    (enabled : m.1.Enabled run (.resumed (.ledger type (.totalSupply q)) supply))
    (ends : (setBuyOrSellSupply env a.time q supply m.1.state).isSome) :
    m.1.state.repliesAt q.recordSignal.fomoIdx = some q.v.replies := by
  obtain ⟨p, hp, _⟩ := replied.inv.roleSound enabled
  unfold State.repliesAt
  rw [hp]
  by_contra hne
  exact fresh ⟨a, run, type, q, supply, p, hstarts, ends, hp, fun same => hne (congrArg some same)⟩

/-- **A step that is not stale keeps the counts.** -/
theorem step_replied (replied : Replied m) (fresh : ¬ StaleReplies env m.1 choice) :
    Replied ((program env).trace m choice) := by
  have inv : Inv ((program env).trace m choice).1 := step_inv m.1 choice replied.inv
  obtain ⟨_, e⟩ | ⟨ev, hstarts, hbefore, hresult, enabled, ⟨_, htrap, e⟩ | ⟨_, e⟩⟩ :=
    trace_cases (program env) m choice
  · rw [e]
    exact replied
  · rw [e] at inv ⊢
    refine ⟨inv, ?_⟩
    intro idx
    rw [repliesTo_cons_of_none (replyTime_of_trap htrap idx)]
    exact replied.counted idx
  rw [e] at inv ⊢
  refine ⟨inv, ?_⟩
  intro idx
  have counted := replied.counted idx
  cases hend : ev.result with
  | none =>
    rw [repliesTo_cons_of_none (replyTime_of_trap hend idx)]
    exact counted
  | some result =>
    obtain ⟨st', next⟩ := result
    have hsegment : (program env).segment ev.ambient ev.cause m.1.state = some (st', next) := by
      rw [← hbefore, ← hresult, hend]
    change Counted (repliesTo idx (ev :: m.2)) (st'.repliesAt idx)
    by_cases hreply : ∃ fomoIdx, ev.cause = .received (.replyUpdate fomoIdx)
    · obtain ⟨fomoIdx, hcause⟩ := hreply
      rw [hcause] at hsegment
      obtain ⟨written, hwrite, h⟩ := Option.map_eq_some_iff.mp hsegment
      cases h
      exact replyUpdate_counted replied.counted hcause (by rw [hend]; rfl) hwrite idx
    rw [not_exists] at hreply
    rw [repliesTo_cons_of_none (replyTime_of_ne hreply idx)]
    obtain same | ⟨c, res, hcause, hwrites⟩ | ⟨type, q, supply, hcause, hwrites⟩ :=
      (segment_does hsegment).replies hreply
    · rw [same idx]
      exact counted
    · rw [hwrites idx]
      split
      next hidx =>
        rw [hcause] at enabled
        rw [hidx, replied.none_of_installing enabled]
        rfl
      next => exact counted
    · rw [hwrites idx]
      split
      next hidx =>
        rw [hcause] at enabled hsegment hstarts
        have ends : (setBuyOrSellSupply env ev.ambient.time q supply m.1.state).isSome :=
          Option.isSome_iff_exists.mpr ⟨_, hsegment⟩
        rw [← replied.copy_of_fresh fresh hstarts enabled ends, ← hidx]
        exact counted
      next => exact counted

/-- A stale choice stores a count or a time that is not the one of the replies. -/
theorem StaleReplies.not_counted (replied : Replied m) (stale : StaleReplies env m.1 choice) :
    ¬ RepliesCounted ((program env).trace m choice) := by
  obtain ⟨a, run, type, q, supply, p, hstarts, ends, hp, hne⟩ := stale
  obtain ⟨⟨st', next⟩, hsegment⟩ := Option.isSome_iff_exists.mp ends
  have hsegment' : (program env).segment a (.resumed (.ledger type (.totalSupply q)) supply)
    m.1.state = some (st', next) := hsegment
  rw [trace_resumed hstarts, hsegment']
  intro counted
  have hwritten := setBuyOrSellSupply_replies hsegment q.recordSignal.fomoIdx
  rw [if_pos rfl] at hwritten
  obtain ⟨p', hp', hreplies⟩ := Option.map_eq_some_iff.mp hwritten
  obtain ⟨hcount, htime⟩ := counted _ p' hp'
  -- the record gains no reply
  change p'.replyCount = (repliesTo q.recordSignal.fomoIdx m.2).length at hcount
  change p'.recentlyReplyTime = (repliesTo q.recordSignal.fomoIdx m.2).head?.getD 0 at htime
  have hbefore := replied.counted q.recordSignal.fomoIdx
  unfold State.repliesAt at hbefore
  rw [hp] at hbefore
  apply hne
  rw [← hreplies]
  exact hbefore.trans (Prod.ext hcount.symm htime.symm)

end

theorem replied_start (env : Env) (caller : Principal) (time : Nat) (addrConfig : AddrConfig)
    (icpAddr : Principal) : Replied (Sys.start (init env caller time addrConfig icpAddr), []) := by
  refine ⟨inv_start env caller time addrConfig icpAddr, ?_⟩
  intro idx
  unfold State.repliesAt
  rw [Sys.start, init, ExtTreeMap.getElem?_empty]
  rfl

/-- **Every reply is counted**, after every step of exactly the schedules in which no choice is
stale. -/
theorem replies_counted_iff (env : Env) (caller : Principal) (time : Nat) (addrConfig : AddrConfig)
    (icpAddr : Principal) (choices : List Choice) :
    Along (program env).trace (fun m choice => RepliesCounted ((program env).trace m choice))
        (Sys.start (init env caller time addrConfig icpAddr), []) choices ↔
      Along (program env).trace (fun m choice => ¬ StaleReplies env m.1 choice)
        (Sys.start (init env caller time addrConfig icpAddr), []) choices := by
  have agree : ∀ (m : TracedSystem) (choice : Choice), Replied m →
      (RepliesCounted ((program env).trace m choice) ↔ ¬ StaleReplies env m.1 choice) := by
    intro m choice replied
    constructor
    · intro counted stale
      exact stale.not_counted replied counted
    · intro fresh
      exact (step_replied replied fresh).repliesCounted
  apply along_congr_of_invariant agree
  · intro m choice replied fresh
    exact step_replied replied fresh
  · exact replied_start env caller time addrConfig icpAddr

/-- A trade of the sample project is suspended at its last await while a reply is counted, and writes
its copy back. -/
def lostReplySchedule : List Choice :=
  sampleSchedule ++
    [sampleMessage (.setBuyOrSell sampleUser ⟨1, 0, "buy", 0⟩),
      sampleAnswer 15, sampleAnswer 15, sampleAnswer 15,
      sampleMessage (.replyUpdate 1), sampleAnswer 15]

/-- **A reply that is lost.** -/
theorem not_replies_counted :
    ¬ ∀ env caller time addrConfig icpAddr (choices : List Choice),
      RepliesCounted (choices.foldl (program env).trace
        (Sys.start (init env caller time addrConfig icpAddr), [])) := by
  intro all
  have counted : RepliesCounted (lostReplySchedule.foldl (program sampleEnv).trace
      (sampleStart, [])) := all _ _ _ _ _ _
  have hlost : ((lostReplySchedule.foldl (program sampleEnv).trace
      (sampleStart, [])).1.state.fomoProjectMap[1]?.any (·.replyCount = 0)) = true := by
    decide +kernel
  have hreplies : (repliesTo 1 (lostReplySchedule.foldl (program sampleEnv).trace
      (sampleStart, [])).2).length = 1 := by
    decide +kernel
  obtain ⟨p, hp, hzero⟩ := (Option.any_eq_true _ _).mp hlost
  have hcount := (counted 1 p hp).1
  rw [of_decide_eq_true hzero, hreplies] at hcount
  cases hcount

end Fomowell.Launcher
