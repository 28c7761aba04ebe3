import Fomowell.Launcher.Edits
import Fomowell.Launcher.Grants
import Fomowell.Launcher.Identifiers
import Fomowell.Launcher.TopupRuns

/-!
# Charges for points are credited

`topup_points` edits the caller's profile, asks two ledgers and the oracle for a quote, charges the
caller, and credits the points in the segment that the charge resumes. That segment writes two records,
of the grant and of the top-up, and commits as a whole: it is the only place that credits a charge, and
where the profile and the records fit (`StaysWithin`) nothing in it traps, since `edit_user` has made
the profile before and no profile is ever removed.

`ToppedUp` is the law: each charge for points has a record of its own, of the points that its run was
asked for, and the user's points grow by them. `airdrop_points` takes its name from the owner, who may
write a record that looks like a top-up's (`not_topups_charged`); there are no others.
-/

namespace Fomowell.Launcher

open Std Canister Table Runs Token

/-! ## The law -/

/-- A charge for points that was collected. -/
def pointsCharge : Cause Message Frame Rep → Option Charge
  | .resumed (.ledger _ (.transferFrom charge)) reply =>
    match transferFromResult reply with
    | .ok _ => if charge.memo = "points" then some charge else none
    | .error _ => none
  | _ => none

/-- The index of the record that credits a charge, the second one that its segment draws. -/
def creditOf (ev : Event) : Option Nat :=
  (pointsCharge ev.cause).map fun _ => ev.before.counter.pointCount + 2

/-- The index of a record that `airdrop_points` writes under the name of a top-up. -/
def airdropOf (ev : Event) : Option Nat :=
  match ev.cause, ev.result with
  | .received (.airdropPoints _ _ _ busiName), some _ =>
    if busiName = "TOPUP" then some (ev.before.counter.pointCount + 1) else none
  | _, _ => none

def credits (m : TracedSystem) : List Nat := m.2.filterMap creditOf

def airdrops (m : TracedSystem) : List Nat := m.2.filterMap airdropOf

/-- The move of a top-up. -/
def Move.IsTopup (move : Move) : Prop := move.opType = .ADD ∧ move.busiName = "TOPUP"

instance (move : Move) : Decidable move.IsTopup := inferInstanceAs (Decidable (_ ∧ _))

/-- A top-up is recorded under an index. -/
def State.TopupAt (st : State) (k : Nat) : Prop :=
  ∃ record, st.pointHistoryMap[k]? = some record ∧ record.move.IsTopup

/-- A charge is credited: its run was asked for the points, its record has them, and the user's points
grow by them, from the grant on where there were none. -/
structure Credited (m : TracedSystem) (ev : Event) (charge : Charge) (pointsAmount : Nat) : Prop where
  requested : ∃ start ∈ m.2, start.run = ev.run ∧
    start.cause = .received (.topupPoints charge.sender pointsAmount)
  recorded : ∃ record, m.1.state.pointHistoryMap[ev.before.counter.pointCount + 2]? = some record ∧
    record.move = ⟨charge.sender, .ADD, "TOPUP", some pointsAmount⟩
  increased : ∃ p st' next, ev.before.userProfileMap[charge.sender]? = some p ∧
    ev.result = some (st', next) ∧ st'.pointsOf charge.sender =
      some (p.userPoints.getD (20 + p.userPreRewardPoints.getD 0) + pointsAmount)

/-- The law of all top-ups: the charges are credited under different indices, and these are the indices
of top-ups that no airdrop has. -/
structure ToppedUp (m : TracedSystem) : Prop where
  credited : ∀ ev ∈ m.2, ∀ charge, pointsCharge ev.cause = some charge →
    ∃ pointsAmount, Credited m ev charge pointsAmount
  distinct : (credits m).Nodup
  apart : ∀ k ∈ credits m, k ∉ airdrops m
  recorded : ∀ k, m.1.state.TopupAt k ↔ k ∈ credits m ∨ k ∈ airdrops m

/-- The profile and the records that credit points stay within their sizes. -/
structure CreditFits (env : Env) (time : Nat) (user : Principal) (pointsAmount : Nat) (st : State) :
    Prop where
  granted : ∀ p, st.userProfileMap[user]? = some p → env.profileSize p.initPoints ≤ 2048
  added : ∀ p, st.userProfileMap[user]? = some p →
    env.profileSize (p.initPoints.addPoints pointsAmount) ≤ 2048
  grantRecord : env.historySize
    { time, idx := st.counter.pointCount + 1, userPid := user, opType := .INIT, busiName := "INIT"
      amount := some 20 } ≤ 4096
  addRecord : env.historySize
    { time, idx := st.counter.pointCount + 2, userPid := user, opType := .ADD, busiName := "TOPUP"
      amount := some pointsAmount } ≤ 4096

/-- What the charges for points write stays within its sizes. -/
def StaysWithin (env : Env) (m : TracedSystem) : Prop :=
  ∀ ev ∈ m.2, ∀ charge pointsAmount, pointsCharge ev.cause = some charge →
    charge.k = .topupPoints pointsAmount →
      CreditFits env ev.ambient.time charge.sender pointsAmount ev.before

/-! ## The segment that credits a charge -/

section

variable {env : Env} {time : Nat} {a : Ambient} {st st' : State}

theorem pointsCharge_cases {cause : Cause Message Frame Rep} {charge : Charge}
    (h : pointsCharge cause = some charge) :
    ∃ (type : TokenType) (reply : CallResult (Except String Nat)),
      cause = .resumed (.ledger type (.transferFrom charge)) reply ∧
        transferFromResult reply = .ok () ∧ charge.memo = "points" := by
  unfold pointsCharge at h
  split at h
  next type charge' reply =>
    split at h
    next _ hresult =>
      split at h
      next memo =>
        cases h
        exact ⟨type, reply, rfl, hresult, memo⟩
      next => cases h
    next => cases h
  next => cases h

/-- A charge for points is the charge of a top-up. -/
theorem Charge.Labelled.topup {charge : Charge} (label : charge.Labelled)
    (memo : charge.memo = "points") : ∃ pointsAmount, charge.k = .topupPoints pointsAmount := by
  have hsome := label.mp memo
  unfold Charge.topup? at hsome
  split at hsome
  next pointsAmount hk => exact ⟨pointsAmount, hk⟩
  next => cases hsome

theorem initPoints_of_fits {user : Principal} {p : UserProfile}
    (stored : st.userProfileMap[user]? = some p) (profile : env.profileSize p.initPoints ≤ 2048)
    (record : env.historySize
      { time, idx := st.counter.pointCount + 1, userPid := user, opType := .INIT, busiName := "INIT"
        amount := some 20 } ≤ 4096) :
    initPoints env time user st = some (st.withRecord user p.initPoints
      { time, idx := st.counter.pointCount + 1, userPid := user, opType := .INIT, busiName := "INIT"
        amount := some 20 }) := by
  unfold initPoints
  rw [stored]
  exact recordPoints_of_fits profile record

theorem addPoints_of_fits {user : Principal} {p : UserProfile} {amount : Nat} {busiName : String}
    (stored : st.userProfileMap[user]? = some p)
    (profile : env.profileSize (p.addPoints amount) ≤ 2048)
    (record : env.historySize
      { time, idx := st.counter.pointCount + 1, userPid := user, opType := .ADD, busiName
        amount := some amount } ≤ 4096) :
    addPoints env time amount user busiName st = some (st.withRecord user (p.addPoints amount)
      { time, idx := st.counter.pointCount + 1, userPid := user, opType := .ADD, busiName
        amount := some amount }) := by
  unfold addPoints
  rw [stored]
  exact recordPoints_of_fits profile record

/-- A user with a profile can be credited, where the credit fits. -/
theorem CreditFits.rewards {user : Principal} {pointsAmount : Nat}
    (fits : CreditFits env time user pointsAmount st) (has : st.HasProfile user) :
    ∃ st', Rewards env time pointsAmount user "TOPUP" st st' := by
  obtain ⟨p, stored⟩ := Option.isSome_iff_exists.mp has
  have hgrant := initPoints_of_fits stored (fits.granted p stored) fits.grantRecord
  refine ⟨_, _, hgrant, addPoints_of_fits (p := p.initPoints) ?_ (fits.added p stored) fits.addRecord⟩
  exact ExtTreeMap.getElem?_insert_self

/-- **A charge for points is credited**: its segment does not trap. -/
theorem segment_of_points (type : TokenType) {charge : Charge}
    {reply : CallResult (Except String Nat)} {pointsAmount : Nat}
    (ok : transferFromResult reply = .ok ()) (hk : charge.k = .topupPoints pointsAmount)
    (has : st.HasProfile charge.sender)
    (fits : CreditFits env a.time charge.sender pointsAmount st) :
    ∃ st', Rewards env a.time pointsAmount charge.sender "TOPUP" st st' ∧
      (program env).segment a (.resumed (.ledger type (.transferFrom charge)) reply) st =
        some (st', .returned (.topupPoints (.ok ()))) := by
  obtain ⟨st', rewards⟩ := fits.rewards has
  refine ⟨st', rewards, ?_⟩
  obtain ⟨granted, hgrant, hadd⟩ := rewards
  simp only [Program.segment, program, resume, resumeLedger, ok, unwrap, chargeReturn, hk,
    topupPointsCharged, hgrant, hadd, bind, pure, Option.bind]

/-- The points of a user who is credited. -/
theorem Rewards.increases {user : Principal} {p : UserProfile} {amount : Nat} {busiName : String}
    (h : Rewards env time amount user busiName st st') (stored : st.userProfileMap[user]? = some p) :
    st'.pointsOf user =
      some (p.userPoints.getD (20 + p.userPreRewardPoints.getD 0) + amount) := by
  obtain ⟨granted, hgrant, hadd⟩ := h
  obtain ⟨p₁, hp₁, hgrant⟩ := Option.bind_eq_some_iff.mp hgrant
  obtain ⟨written₁, hwrite₁, hgrant⟩ := Option.bind_eq_some_iff.mp hgrant
  obtain ⟨p₂, hp₂, hadd⟩ := Option.bind_eq_some_iff.mp hadd
  obtain ⟨written₂, hwrite₂, hadd⟩ := Option.bind_eq_some_iff.mp hadd
  have hpoints : p₂.userPoints = some (p.userPoints.getD (20 + p.userPreRewardPoints.getD 0)) := by
    have hgranted := pointsOf_of_record hwrite₁ hgrant user
    unfold State.pointsOf at hgranted
    rw [hp₂, if_pos rfl] at hgranted
    rw [stored] at hp₁
    cases hp₁
    replace hgranted : p₂.userPoints = p.initPoints.userPoints := hgranted
    rw [hgranted]
    unfold UserProfile.initPoints
    cases hold : p.userPoints with
    | none => rfl
    | some n => exact hold
  rw [pointsOf_of_record hwrite₂ hadd user, if_pos rfl]
  unfold UserProfile.addPoints
  rw [hpoints]

/-! ## The records of top-ups -/

/-- The indices that the top-ups among some moves take, after the first `n`. -/
def topupsAfter (n : Nat) : List Move → List Nat
  | [] => []
  | move :: moves =>
    if move.IsTopup then (n + moves.length + 1) :: topupsAfter n moves else topupsAfter n moves

/-- Top-ups are recorded where they were, and where the moves have theirs. -/
theorem Lays.topupAt {moves : List Move} (h : Lays st moves st') (keyed : RecordsKeyed st) (k : Nat) :
    st'.TopupAt k ↔ st.TopupAt k ∨ k ∈ topupsAfter st.counter.pointCount moves := by
  induction h with
  | nothing history =>
    unfold State.TopupAt topupsAfter
    rw [history]
    simp only [List.not_mem_nil, or_false]
  | @record moves move mid st' earlier record about history ih =>
    have fresh := earlier.fresh fun k record hrecord => (keyed k record hrecord).2
    have inserted : st'.TopupAt k ↔
        (k = st.counter.pointCount + moves.length + 1 ∧ move.IsTopup) ∨ mid.TopupAt k := by
      unfold State.TopupAt
      rw [history, get_insert, ← about]
      split
      next same =>
        subst same
        rw [fresh]
        simp
      next hne => simp [hne]
    have after : topupsAfter st.counter.pointCount (move :: moves) =
        if move.IsTopup then
          (st.counter.pointCount + moves.length + 1) :: topupsAfter st.counter.pointCount moves
        else topupsAfter st.counter.pointCount moves := rfl
    rw [inserted, ih, after]
    by_cases isTopup : move.IsTopup
    · rw [if_pos isTopup, List.mem_cons, and_iff_left isTopup]
      exact or_left_comm
    · simp only [isTopup, if_false, and_false, false_or]

/-- **Only charges and airdrops record top-ups**, each at its index. -/
theorem mem_topupsAfter_movesOf {ev : Event} {result : State × Next Frame Answer}
    (ends : ev.result = some result)
    (label : ∀ charge, ev.cause.frame?.bind Frame.charge? = some charge → charge.Labelled) (k : Nat) :
    k ∈ topupsAfter ev.before.counter.pointCount (movesOf ev.cause) ↔
      creditOf ev = some k ∨ airdropOf ev = some k := by
  obtain ⟨a, run, cause, before, _⟩ := ev
  dsimp only at ends label
  subst ends
  show k ∈ topupsAfter before.counter.pointCount (movesOf cause) ↔ _
  unfold movesOf
  split
  next caller userPid busiName => simp [topupsAfter, Move.IsTopup, creditOf, pointsCharge, airdropOf]
  next caller userPid amount busiName =>
    by_cases hname : busiName = "TOPUP"
    · simp [topupsAfter, Move.IsTopup, creditOf, pointsCharge, airdropOf, hname, eq_comm]
    · simp [topupsAfter, Move.IsTopup, creditOf, pointsCharge, airdropOf, hname]
  next e => simp [topupsAfter, Move.IsTopup, creditOf, pointsCharge, airdropOf]
  next type charge reply =>
    have hlabel : charge.Labelled := label charge rfl
    split
    next pointsAmount _ hk hresult =>
      have memo : charge.memo = "points" := hlabel.mpr (by simp [Charge.topup?, hk])
      simp [topupsAfter, Move.IsTopup, creditOf, pointsCharge, airdropOf, hresult, memo, eq_comm]
    next hother =>
      refine ⟨fun h => absurd h List.not_mem_nil, ?_⟩
      rintro (h | h)
      · obtain ⟨charge', hcharge, _⟩ := Option.map_eq_some_iff.mp h
        obtain ⟨_, _, e, ok, memo⟩ := pointsCharge_cases hcharge
        cases e
        obtain ⟨pointsAmount, hk⟩ := hlabel.topup memo
        exact absurd ok (hother pointsAmount () hk)
      · cases h
  next c res => simp [topupsAfter, Move.IsTopup, creditOf, pointsCharge, airdropOf]
  next hairdropped _ hcharged _ =>
    refine ⟨fun h => absurd h List.not_mem_nil, ?_⟩
    rintro (h | h)
    · obtain ⟨charge, hcharge, _⟩ := Option.map_eq_some_iff.mp h
      obtain ⟨_, _, e, _⟩ := pointsCharge_cases hcharge
      exact absurd e (hcharged _ _ _)
    · unfold airdropOf at h
      split at h
      next hcause _ => exact absurd hcause (hairdropped _ _ _ _)
      next => cases h

end

/-! ## The law of one event -/

theorem mem_credits_cons {s s' : System} {ev : Event} {tr : List Event} {k : Nat} :
    k ∈ credits (s', ev :: tr) ↔ creditOf ev = some k ∨ k ∈ credits (s, tr) := by
  unfold credits
  rw [List.mem_filterMap, List.mem_filterMap, List.exists_mem_cons_iff]

theorem mem_airdrops_cons {s s' : System} {ev : Event} {tr : List Event} {k : Nat} :
    k ∈ airdrops (s', ev :: tr) ↔ airdropOf ev = some k ∨ k ∈ airdrops (s, tr) := by
  unfold airdrops
  rw [List.mem_filterMap, List.mem_filterMap, List.exists_mem_cons_iff]

/-- An event credits a charge, or airdrops. -/
theorem airdropOf_of_credit {ev : Event} {k : Nat} (h : creditOf ev = some k) :
    airdropOf ev = none := by
  obtain ⟨charge, hcharge, _⟩ := Option.map_eq_some_iff.mp h
  obtain ⟨type, reply, hcause, _⟩ := pointsCharge_cases hcharge
  unfold airdropOf
  rw [hcause]

/-- The indices of an event are above all that are drawn before it. -/
theorem lt_of_recorded {ev : Event} {k : Nat} (h : creditOf ev = some k ∨ airdropOf ev = some k) :
    ev.before.counter.pointCount < k := by
  obtain h | h := h
  · obtain ⟨_, _, rfl⟩ := Option.map_eq_some_iff.mp h
    omega
  · unfold airdropOf at h
    split at h
    next =>
      split at h
      next =>
        cases h
        exact Nat.lt_succ_self _
      next => cases h
    next => cases h

/-- The records of older charges stay as they are. -/
theorem Credited.older {m : TracedSystem} {s' : System} {ev ev' : Event} {charge : Charge}
    {pointsAmount : Nat} (h : Credited m ev charge pointsAmount)
    (kept : RecordsKept m.1.state s'.state) :
    Credited (s', ev' :: m.2) ev charge pointsAmount := by
  obtain ⟨start, hstart, hrequest⟩ := h.requested
  obtain ⟨record, hrecord, hmove⟩ := h.recorded
  exact ⟨⟨start, List.mem_cons_of_mem _ hstart, hrequest⟩,
    ⟨record, kept _ record hrecord, hmove⟩, h.increased⟩

/-- An event that credits its own charge keeps the law. -/
theorem ToppedUp.cons {m : TracedSystem} {s' : System} {ev : Event} (law : ToppedUp m)
    (keyed : RecordsKeyed m.1.state) (hbefore : ev.before = m.1.state)
    (kept : RecordsKept m.1.state s'.state)
    (recorded : ∀ k, s'.state.TopupAt k ↔
      m.1.state.TopupAt k ∨ creditOf ev = some k ∨ airdropOf ev = some k)
    (own : ∀ charge, pointsCharge ev.cause = some charge →
      ∃ pointsAmount, Credited (s', ev :: m.2) ev charge pointsAmount) :
    ToppedUp (s', ev :: m.2) := by
  have older : ∀ k, k ∈ credits m ∨ k ∈ airdrops m → k ≤ m.1.state.counter.pointCount := by
    intro k hk
    obtain ⟨record, hrecord, _⟩ := (law.recorded k).mpr hk
    exact (keyed k record hrecord).2
  have newer : ∀ k, creditOf ev = some k ∨ airdropOf ev = some k →
      ¬ (k ∈ credits m ∨ k ∈ airdrops m) := by
    intro k hnew hold
    have hlt := lt_of_recorded hnew
    rw [hbefore] at hlt
    exact absurd (older k hold) (Nat.not_le.mpr hlt)
  refine ⟨fun ev' hev charge hcharge => ?_, ?_, fun k hcredit hairdrop => ?_, fun k => ?_⟩
  · obtain rfl | hev := List.mem_cons.mp hev
    · exact own charge hcharge
    · obtain ⟨pointsAmount, credited⟩ := law.credited ev' hev charge hcharge
      exact ⟨pointsAmount, credited.older kept⟩
  · cases hcredit : creditOf ev with
    | none =>
      have same : credits (s', ev :: m.2) = credits m := List.filterMap_cons_none hcredit
      rw [same]
      exact law.distinct
    | some k =>
      have longer : credits (s', ev :: m.2) = k :: credits m := List.filterMap_cons_some hcredit
      rw [longer]
      exact List.nodup_cons.mpr ⟨fun hold => newer k (.inl hcredit) (.inl hold), law.distinct⟩
  · obtain hnew | hold := (mem_credits_cons (s := m.1)).mp hcredit
    · obtain hnew' | hold' := (mem_airdrops_cons (s := m.1)).mp hairdrop
      · rw [airdropOf_of_credit hnew] at hnew'
        cases hnew'
      · exact newer k (.inl hnew) (.inr hold')
    · obtain hnew' | hold' := (mem_airdrops_cons (s := m.1)).mp hairdrop
      · exact newer k (.inr hnew') (.inl hold)
      · exact law.apart k hold hold'
  · rw [mem_credits_cons (s := m.1), mem_airdrops_cons (s := m.1), recorded k, law.recorded k]
    tauto

/-! ## Every schedule -/

/-- The invariant. -/
structure Topping (env : Env) (m : TracedSystem) : Prop where
  keyed : RecordsKeyed m.1.state
  requested : ∀ (run : Nat) frame, m.1.suspended[run]? = some frame →
    ∀ topup, frame.topup? = some topup → ∃ start ∈ m.2, start.run = run ∧
      start.cause = .received (.topupPoints topup.user topup.pointsAmount)
  profiled : ∀ (run : Nat) frame, m.1.suspended[run]? = some frame →
    ∀ topup, frame.quoted? = some topup → m.1.state.HasProfile topup.user
  labelled : ∀ (run : Nat) frame, m.1.suspended[run]? = some frame →
    ∀ charge, frame.charge? = some charge → charge.Labelled
  law : StaysWithin env m → ToppedUp m

section

variable {env : Env} {m : TracedSystem} {s' : System} {ev : Event}

theorem Topping.profile (topping : Topping env m) {run : Nat} {cause : Cause Message Frame Rep}
    (enabled : m.1.Enabled run cause) :
    ∀ topup, cause.frame?.bind Frame.quoted? = some topup → m.1.state.HasProfile topup.user := by
  cases cause with
  | received message => exact fun _ h => nomatch h
  | delivered frame => exact topping.profiled run frame enabled
  | resumed frame reply => exact topping.profiled run frame enabled

theorem Topping.label (topping : Topping env m) {run : Nat} {cause : Cause Message Frame Rep}
    (enabled : m.1.Enabled run cause) :
    ∀ charge, cause.frame?.bind Frame.charge? = some charge → charge.Labelled := by
  cases cause with
  | received message => exact fun _ h => nomatch h
  | delivered frame => exact topping.labelled run frame enabled
  | resumed frame reply => exact topping.labelled run frame enabled

/-- What was requested stays requested. -/
theorem Topping.requested_cons (topping : Topping env m) (ev : Event) :
    ∀ (run : Nat) frame, m.1.suspended[run]? = some frame →
      ∀ topup, frame.topup? = some topup → ∃ start ∈ ev :: m.2, start.run = run ∧
        start.cause = .received (.topupPoints topup.user topup.pointsAmount) := by
  intro run frame hframe topup htopup
  obtain ⟨start, hstart, hrequest⟩ := topping.requested run frame hframe topup htopup
  exact ⟨start, List.mem_cons_of_mem _ hstart, hrequest⟩

/-- The top-up that a segment goes on with was requested by the message of its run. -/
theorem Topping.request (topping : Topping env m) (enabled : m.1.Enabled ev.run ev.cause)
    {topup : Topup} (h : topupOf ev.cause = some topup) :
    ∃ start ∈ ev :: m.2, start.run = ev.run ∧
      start.cause = .received (.topupPoints topup.user topup.pointsAmount) := by
  cases hcause : ev.cause with
  | received message =>
    rw [hcause] at h
    cases message with
    | topupPoints caller pointsAmount =>
      cases h
      exact ⟨ev, List.mem_cons_self, rfl, hcause⟩
    | _ => cases h
  | delivered frame =>
    rw [hcause] at h enabled
    exact topping.requested_cons ev ev.run frame enabled topup h
  | resumed frame reply =>
    rw [hcause] at h enabled
    exact topping.requested_cons ev ev.run frame enabled topup h

/-- After a segment, each suspended run was requested, if the segment goes on with its own top-up. -/
theorem Topping.requested_after (topping : Topping env m) (enabled : m.1.Enabled ev.run ev.cause)
    (own : ∀ frame, frameOf ev.result = some frame →
      ∀ topup, frame.topup? = some topup → topupOf ev.cause = some topup) :
    ∀ (run : Nat) frame, (m.1.after ev.run ev.cause ev.result).suspended[run]? = some frame →
      ∀ topup, frame.topup? = some topup → ∃ start ∈ ev :: m.2, start.run = run ∧
        start.cause = .received (.topupPoints topup.user topup.pointsAmount) := by
  intro run frame hframe topup htopup
  by_cases hne : run = ev.run
  · subst hne
    rw [get_after] at hframe
    exact topping.request enabled (own frame hframe topup htopup)
  · rw [get_after_of_ne m.1 _ _ hne] at hframe
    exact topping.requested_cons ev run frame hframe topup htopup

/-- **A charge is credited in its own segment.** -/
theorem Topping.credited (topping : Topping env m) (hbefore : ev.before = m.1.state)
    (hresult : ev.result = (program env).segment ev.ambient ev.cause ev.before)
    (enabled : m.1.Enabled ev.run ev.cause)
    (hstate : s'.state = (ev.result.map Prod.fst).getD m.1.state)
    (stays : StaysWithin env (s', ev :: m.2)) {charge : Charge}
    (hcharge : pointsCharge ev.cause = some charge) :
    ∃ pointsAmount, Credited (s', ev :: m.2) ev charge pointsAmount := by
  obtain ⟨type, reply, hcause, ok, memo⟩ := pointsCharge_cases hcharge
  have profile := topping.profile enabled
  have label := topping.label enabled
  rw [hcause] at profile label
  obtain ⟨pointsAmount, hk⟩ := (label charge rfl).topup memo
  have htopup : charge.topup? = some ⟨charge.sender, pointsAmount⟩ := by
    unfold Charge.topup?
    rw [hk]
  have has := profile _ htopup
  have fits := stays ev List.mem_cons_self charge pointsAmount hcharge hk
  rw [← hbefore] at has
  obtain ⟨p, stored⟩ := Option.isSome_iff_exists.mp has
  obtain ⟨st', rewards, hsegment⟩ := segment_of_points type ok hk has fits
  rw [hcause, hsegment] at hresult
  rw [hresult] at hstate
  replace hstate : s'.state = st' := hstate
  have hrequest : topupOf ev.cause = some ⟨charge.sender, pointsAmount⟩ := by
    rw [hcause]
    exact htopup
  refine ⟨pointsAmount, topping.request enabled hrequest, ?_, p, st', _, stored, hresult,
    rewards.increases stored⟩
  rw [hstate]
  exact (rewards.lays rfl rfl).latest

/-- An event keeps the law. -/
theorem Topping.law_cons (topping : Topping env m) (hbefore : ev.before = m.1.state)
    (hresult : ev.result = (program env).segment ev.ambient ev.cause ev.before)
    (enabled : m.1.Enabled ev.run ev.cause)
    (hstate : s'.state = (ev.result.map Prod.fst).getD m.1.state)
    (stays : StaysWithin env (s', ev :: m.2)) : ToppedUp (s', ev :: m.2) := by
  have own : ∀ charge, pointsCharge ev.cause = some charge →
      ∃ pointsAmount, Credited (s', ev :: m.2) ev charge pointsAmount :=
    fun charge => topping.credited hbefore hresult enabled hstate stays
  have law := topping.law fun ev' hev => stays ev' (List.mem_cons_of_mem _ hev)
  cases hend : ev.result with
  | none =>
    rw [hend] at hstate
    replace hstate : s'.state = m.1.state := hstate
    refine law.cons topping.keyed hbefore ?_ (fun k => ?_) own
    · rw [hstate]
      exact fun _ _ h => h
    · -- what traps credits nothing and airdrops nothing
      have nocredit : creditOf ev ≠ some k := by
        intro h
        obtain ⟨charge, hcharge, _⟩ := Option.map_eq_some_iff.mp h
        obtain ⟨_, credited⟩ := own charge hcharge
        obtain ⟨_, _, _, _, ends, _⟩ := credited.increased
        rw [hend] at ends
        cases ends
      have noairdrop : airdropOf ev ≠ some k := by
        unfold airdropOf
        rw [hend]
        simp
      rw [hstate]
      simp only [nocredit, noairdrop, or_false]
  | some result =>
    rw [hend] at hstate hresult
    replace hstate : s'.state = result.1 := hstate
    rw [hbefore] at hresult
    have hsegment : (program env).segment ev.ambient ev.cause m.1.state =
        some (result.1, result.2) := hresult.symm
    refine law.cons topping.keyed hbefore ?_ (fun k => ?_) own
    · rw [hstate]
      exact ((segment_writes hsegment).all.records topping.keyed).2
    · rw [hstate, (segment_does hsegment).lays.topupAt topping.keyed k, ← hbefore,
        mem_topupsAfter_movesOf hend (topping.label enabled)]

/-- **Every step keeps the invariant.** -/
theorem step_topping (topping : Topping env m) (choice : Choice) :
    Topping env ((program env).trace m choice) := by
  obtain ⟨_, e⟩ | ⟨ev, _, hbefore, hresult, enabled, hend⟩ := trace_cases (program env) m choice
  · rw [e]
    exact topping
  obtain ⟨_, trap, e⟩ | ⟨_, e⟩ := hend
  · -- a call whose callee traps: its run goes on awaiting
    rw [e]
    refine ⟨topping.keyed, topping.requested_cons ev, topping.profiled, topping.labelled, ?_⟩
    refine topping.law_cons hbefore hresult enabled ?_
    rw [trap]
    rfl
  rw [e]
  have law : StaysWithin env (m.1.after ev.run ev.cause ev.result, ev :: m.2) →
      ToppedUp (m.1.after ev.run ev.cause ev.result, ev :: m.2) := by
    refine topping.law_cons hbefore hresult enabled ?_
    cases ev.result <;> rfl
  have requested := topping.requested_after enabled
  cases hend : ev.result with
  | none =>
    rw [hend] at requested law
    refine ⟨topping.keyed, requested (fun _ h => nomatch h), ?_, ?_, law⟩
    · exact frames_after topping.profiled (fun _ _ h => h) fun _ h => nomatch h
    · exact frames_after topping.labelled (fun _ _ h => h) fun _ h => nomatch h
  | some result =>
    obtain ⟨st', next⟩ := result
    rw [hend] at requested law hresult
    rw [hbefore] at hresult
    have hsegment := hresult.symm
    have carries := segment_carries hsegment (topping.profile enabled) (topping.label enabled)
    have own : ∀ {frame : Frame}, frameOf (some (st', next)) = some frame →
        next.frame? = some frame := id
    refine ⟨((segment_writes hsegment).all.records topping.keyed).1, ?_, ?_, ?_, law⟩
    · refine requested fun frame hframe topup htopup => carries.same topup ?_
      rw [own hframe]
      exact htopup
    · refine frames_after topping.profiled (fun _ frame has topup htopup => ?_)
        fun frame hframe topup htopup => carries.profile topup ?_
      · exact (segment_effect hsegment).points.hasProfile (has topup htopup)
      · rw [own hframe]
        exact htopup
    · refine frames_after topping.labelled (fun _ _ h => h)
        fun frame hframe charge hcharge => carries.label charge ?_
      rw [own hframe]
      exact hcharge

end

theorem topping_start (env : Env) (caller : Principal) (time : Nat) (addrConfig : AddrConfig)
    (icpAddr : Principal) :
    Topping env (Sys.start (init env caller time addrConfig icpAddr), []) := by
  have records := (identifying_start env caller time addrConfig icpAddr).records
  refine ⟨records, frames_start _, frames_start _, frames_start _, fun _ => ?_⟩
  · refine ⟨?_, List.nodup_nil, ?_, fun k => ⟨?_, ?_⟩⟩
    · intro ev hev
      cases hev
    · intro k hk
      cases hk
    · rintro ⟨record, hrecord, _⟩
      rw [Sys.start, init, ExtTreeMap.getElem?_empty] at hrecord
      cases hrecord
    · rintro (h | h) <;> cases h

/-- **Credits match charges** in every reachable launcher, where the credits fit. -/
theorem topups_charged (env : Env) (caller : Principal) (time : Nat) (addrConfig : AddrConfig)
    (icpAddr : Principal) (choices : List Choice)
    (stays : StaysWithin env (choices.foldl (program env).trace
      (Sys.start (init env caller time addrConfig icpAddr), []))) :
    ToppedUp (choices.foldl (program env).trace
      (Sys.start (init env caller time addrConfig icpAddr), [])) := by
  have topping := foldl_invariant (I := Topping env) (fun m choice topping => step_topping topping choice)
    (topping_start env caller time addrConfig icpAddr) choices
  exact topping.law stays

/-- A user without a profile tops up ten points, as run 0. -/
def topupSchedule : List Choice :=
  sampleMessage (.topupPoints sampleUser 10) :: List.replicate 5 (sampleAnswer 0)

theorem staysWithin_sample (m : TracedSystem) : StaysWithin sampleEnv m := by
  intro ev _ charge pointsAmount _ _
  exact ⟨fun _ _ => Nat.zero_le _, fun _ _ => Nat.zero_le _, Nat.zero_le _, Nat.zero_le _⟩

/-- The top-up is charged and credited. -/
theorem topups_charged_sample :
    (credits (topupSchedule.foldl (program sampleEnv).trace (sampleStart, []))).length = 1 ∧
      ToppedUp (topupSchedule.foldl (program sampleEnv).trace (sampleStart, [])) := by
  have hone : (credits (topupSchedule.foldl (program sampleEnv).trace
      (sampleStart, []))).length = 1 := by
    decide +kernel
  exact ⟨hone, topups_charged _ _ _ _ _ _ (staysWithin_sample _)⟩

/-- The owner airdrops points under the name of a top-up. -/
def airdropSchedule : List Choice :=
  [sampleMessage (.editUser sampleUser ⟨none, none⟩),
    sampleMessage (.airdropPoints sampleUser sampleUser 5 "TOPUP")]

/-- **A top-up without a charge.** -/
theorem not_topups_charged :
    ¬ ∀ env caller time addrConfig icpAddr (choices : List Choice),
      StaysWithin env (choices.foldl (program env).trace
        (Sys.start (init env caller time addrConfig icpAddr), [])) →
      ¬ ToppingUp (choices.foldl (program env).trace
        (Sys.start (init env caller time addrConfig icpAddr), [])).1 →
      (credits (choices.foldl (program env).trace
          (Sys.start (init env caller time addrConfig icpAddr), []))).length =
        (choices.foldl (program env).trace
          (Sys.start (init env caller time addrConfig icpAddr), [])).1.state.sumMoves
            fun move => if move.IsTopup then 1 else 0 := by
  intro all
  have hover : (airdropSchedule.foldl (program sampleEnv).trace
      (sampleStart, [])).1.suspended.isEmpty = true := by
    decide +kernel
  have ended : ¬ ToppingUp (airdropSchedule.foldl (program sampleEnv).trace (sampleStart, [])).1 := by
    rintro ⟨run, frame, hframe, _⟩
    rw [Table.get_of_isEmpty hover] at hframe
    cases hframe
  have equal := all sampleEnv sampleUser 0 _ sampleIcp airdropSchedule (staysWithin_sample _) ended
  have hzero : (credits (airdropSchedule.foldl (program sampleEnv).trace
      (sampleStart, []))).length = 0 := by
    decide +kernel
  have hone : ((airdropSchedule.foldl (program sampleEnv).trace
      (sampleStart, [])).1.state.sumMoves fun move => if move.IsTopup then 1 else 0) = 1 := by
    decide +kernel
  exact Nat.zero_ne_one ((hzero.symm.trans equal).trans hone)

end Fomowell.Launcher
