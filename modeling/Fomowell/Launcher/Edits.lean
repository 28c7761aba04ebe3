import Fomowell.Launcher.Records

/-!
# What profile edits cost

`edit_user` reads the caller's profile, has `spending_points` deduct the price of an edit, uploads the
avatar, and writes the profile it reads then. The deduction commits with its own message; an upload
that fails, or a profile that does not fit, traps the run afterwards, and nothing returns the points.

The record of the segments tells what each run did: whether it found a profile at its start, bought an
edit, changed the profile, or dropped the edit by a trap. `Life` is the law of one run by its duty, and
`edits_charged` counts: once no run of a user's `edit_user` is in flight, the deductions are the runs
that found a profile and changed it, and the runs that bought an edit and dropped it.
`not_edits_charged_equal` is a run of the second kind. A run that found no profile buys nothing; it is
in neither number, whatever it finds when it writes.
-/

namespace Fomowell.Launcher

open Std Canister Table Runs Token

/-! ## What a run did -/

/-- The edit that a resumed run goes on with, where the profile may be written. -/
def editOf : Cause Message Frame Rep → Option Edit
  | .resumed (.spendingPointsDone e) _ => some e
  | .resumed (.httpRequest _ (.editUser e)) _ => some e
  | _ => none

/-- A segment leaves an upload of `edit_user` to be awaited. -/
def uploadsAt : Option Frame → Bool
  | some (.httpRequest _ (.editUser _)) => true
  | _ => false

/-- A run starts where its user has a profile. -/
def finds (user : Principal) (ev : Event) : Bool :=
  match ev.cause with
  | .received _ => ev.before.userProfileMap[user]?.isSome
  | _ => false

/-- The points for an edit of a user are deducted. -/
def buys (user : Principal) (ev : Event) : Nat :=
  match ev.cause, ev.result with
  | .delivered (.spendingPoints e), some _ => if e.caller = user then 1 else 0
  | _, _ => 0

/-- The name or the avatar of a profile that exists is changed as an edit asks. -/
def changes (user : Principal) (ev : Event) : Bool :=
  match editOf ev.cause, ev.result with
  | some e, some (_, next) =>
    e.caller = user && e.asks && ev.before.userProfileMap[user]?.isSome && !uploadsAt next.frame?
  | _, _ => false

/-- The run traps where it should go on to write the profile. -/
def drops (user : Principal) (ev : Event) : Bool :=
  match editOf ev.cause, ev.result with
  | some e, none => e.caller = user
  | _, _ => false

def found (user : Principal) (history : List Event) : Bool := history.any (finds user)

def bought (user : Principal) (history : List Event) : Nat := (history.map (buys user)).sum

def changed (user : Principal) (history : List Event) : Bool := history.any (changes user)

def dropped (user : Principal) (history : List Event) : Bool := history.any (drops user)

/-- The run found a profile, and changed its name or avatar. -/
def edited (user : Principal) (history : List Event) : Bool := found user history && changed user history

/-- The run bought an edit, and dropped it. -/
def wasted (user : Principal) (history : List Event) : Bool :=
  bought user history ≠ 0 && dropped user history

/-- The record of one run. -/
def runOf (run : Nat) (tr : List Event) : List Event := tr.filter fun ev => ev.run = run

/-- The number of runs with a property of their records. -/
def countRuns (p : List Event → Bool) (m : TracedSystem) : Nat :=
  (List.range m.1.log.length).countP fun run => p (runOf run m.2)

/-- A user's deductions under `EDIT_AVATAR`. -/
def Move.isEdit (user : Principal) (move : Move) : Nat :=
  if move.userPid = user ∧ move.opType = .DEDUCT ∧ move.busiName = "EDIT_AVATAR" then 1 else 0

/-- The number of a user's `EDIT_AVATAR` deductions in `POINT_HISTORY_MAP`. -/
def editDeductions (user : Principal) (st : State) : Nat := st.sumMoves (Move.isEdit user)

/-- The user whose profile a run edits. -/
def Duty.editor? : Duty → Option Principal
  | .pays e => some e.caller
  | .paid e => some e.caller
  | .uploads e => some e.caller
  | _ => none

/-- A run of a user's `edit_user` is in flight. -/
def Editing (user : Principal) (s : System) : Prop :=
  ∃ (run : Nat) (frame : Frame), s.suspended[run]? = some frame ∧ frame.duty.editor? = some user

/-! ## The law of one run -/

/-- A run without an edit in flight: what it bought, it changed or dropped. -/
def Balanced (user : Principal) (history : List Event) : Prop :=
  bought user history = (edited user history).toNat + (wasted user history).toNat

/-- A run whose edit is in flight. -/
structure Pending (user : Principal) (e : Edit) (history : List Event) : Prop where
  asks : e.asks = true
  unchanged : changed user history = false
  undropped : dropped user history = false

/-- A run that may write the profile next: it bought the edit of a profile that it found. -/
structure Ready (user : Principal) (e : Edit) (history : List Event) : Prop
    extends Pending user e history where
  price : bought user history = if e.caller = user ∧ found user history = true then 1 else 0

/-- A run that has to buy the edit of the profile that it found. -/
structure Unpaid (user : Principal) (e : Edit) (history : List Event) : Prop
    extends Pending user e history where
  nothing : bought user history = 0
  start : e.caller = user → found user history = true

/-- The law of a run, by its duty. -/
def Life (user : Principal) (history : List Event) : Duty → Prop
  | .pays e => Unpaid user e history
  | .paid e => Ready user e history
  | .uploads e => Ready user e history
  | _ => Balanced user history

/-- An event that neither buys an edit nor ends one. -/
structure Silent (user : Principal) (ev : Event) : Prop where
  buys : buys user ev = 0
  changes : changes user ev = false
  drops : drops user ev = false

section

variable {user : Principal} {ev : Event} {history : List Event} {e : Edit}

theorem bought_cons : bought user (ev :: history) = buys user ev + bought user history := rfl

theorem found_cons : found user (ev :: history) = (finds user ev || found user history) := rfl

theorem changed_cons : changed user (ev :: history) = (changes user ev || changed user history) := rfl

theorem dropped_cons : dropped user (ev :: history) = (drops user ev || dropped user history) := rfl

/-- A run that bought nothing and changed nothing is balanced. -/
theorem balanced_of_nothing (hbought : bought user history = 0)
    (hchanged : changed user history = false) : Balanced user history := by
  unfold Balanced edited wasted
  rw [hbought, hchanged, Bool.and_false]
  rfl

theorem Unpaid.balanced (h : Unpaid user e history) : Balanced user history :=
  balanced_of_nothing h.nothing h.unchanged

/-- An event that only ends or begins an await of another kind keeps what the run did. -/
theorem Silent.keeps (silent : Silent user ev) (started : finds user ev = false)
    (history : List Event) :
    bought user (ev :: history) = bought user history ∧
      found user (ev :: history) = found user history ∧
      changed user (ev :: history) = changed user history ∧
      dropped user (ev :: history) = dropped user history := by
  rw [bought_cons, found_cons, changed_cons, dropped_cons, silent.buys, silent.changes,
    silent.drops, started]
  simp only [Nat.zero_add, Bool.false_or, and_self]

theorem Balanced.silent (silent : Silent user ev) (started : finds user ev = false)
    (h : Balanced user history) : Balanced user (ev :: history) := by
  obtain ⟨hbought, hfound, hchanged, hdropped⟩ := silent.keeps started history
  unfold Balanced edited wasted
  rw [hbought, hfound, hchanged, hdropped]
  exact h

theorem Ready.silent (silent : Silent user ev) (started : finds user ev = false)
    (h : Ready user e history) : Ready user e (ev :: history) := by
  obtain ⟨hbought, hfound, hchanged, hdropped⟩ := silent.keeps started history
  refine ⟨⟨h.asks, hchanged.trans h.unchanged, hdropped.trans h.undropped⟩, ?_⟩
  rw [hbought, hfound]
  exact h.price

theorem Unpaid.silent (silent : Silent user ev) (started : finds user ev = false)
    (h : Unpaid user e history) : Unpaid user e (ev :: history) := by
  obtain ⟨hbought, hfound, hchanged, hdropped⟩ := silent.keeps started history
  refine ⟨⟨h.asks, hchanged.trans h.unchanged, hdropped.trans h.undropped⟩,
    hbought.trans h.nothing, ?_⟩
  rw [hfound]
  exact h.start

/-- An event of another kind keeps the law of a run. -/
theorem Life.silent {duty : Duty} (silent : Silent user ev) (started : finds user ev = false)
    (h : Life user history duty) : Life user (ev :: history) duty := by
  cases duty with
  | free => exact Balanced.silent silent started h
  | pays e => exact Unpaid.silent silent started h
  | paid e => exact Ready.silent silent started h
  | uploads e => exact Ready.silent silent started h
  | owes charge => exact Balanced.silent silent started h

/-- A run without an edit of the user is balanced. -/
theorem Life.balanced {duty : Duty} (h : Life user history duty)
    (other : duty.editor? ≠ some user) : Balanced user history := by
  have ready : ∀ e : Edit, some e.caller ≠ some user → Ready user e history →
      Balanced user history := by
    intro e hne ready
    apply balanced_of_nothing _ ready.unchanged
    rw [ready.price, if_neg (fun both => hne (congrArg some both.1))]
  cases duty with
  | free => exact h
  | pays e => exact Unpaid.balanced h
  | paid e => exact ready e other h
  | uploads e => exact ready e other h
  | owes charge => exact h

/-- The points are deducted: the run has bought what it found. -/
theorem Unpaid.buy (h : Unpaid user e history) (started : finds user ev = false)
    (hbuys : buys user ev = if e.caller = user then 1 else 0) (hchanges : changes user ev = false)
    (hdrops : drops user ev = false) : Ready user e (ev :: history) := by
  refine ⟨⟨h.asks, ?_, ?_⟩, ?_⟩
  · rw [changed_cons, hchanges, h.unchanged]
    rfl
  · rw [dropped_cons, hdrops, h.undropped]
    rfl
  · rw [bought_cons, found_cons, hbuys, started, Bool.false_or, h.nothing, Nat.add_zero]
    by_cases hcaller : e.caller = user
    · rw [if_pos hcaller, if_pos ⟨hcaller, h.start hcaller⟩]
    · rw [if_neg hcaller, if_neg (fun both => hcaller both.1)]

/-- The profile is written: a run that found it has changed it, and bought that. -/
theorem Ready.write (h : Ready user e history) (started : finds user ev = false)
    (hbuys : buys user ev = 0) (hdrops : drops user ev = false)
    (hchanges : found user history = true → changes user ev = decide (e.caller = user)) :
    Balanced user (ev :: history) := by
  unfold Balanced edited wasted
  rw [bought_cons, found_cons, changed_cons, dropped_cons, hbuys, started, hdrops, h.undropped,
    h.unchanged, Nat.zero_add, Bool.false_or, Bool.or_false, Bool.or_false, Bool.and_false, h.price]
  cases hfound : found user history with
  | false => simp only [Bool.false_eq_true, and_false, if_false, Bool.false_and, Bool.toNat_false]
  | true =>
    rw [hchanges hfound]
    by_cases hcaller : e.caller = user
    · simp only [hcaller, and_self, if_true, decide_true, Bool.true_and, Bool.toNat_true,
        Bool.toNat_false]
    · simp only [hcaller, false_and, if_false, decide_false, Bool.and_false, Bool.toNat_false]

/-- The run traps: what it bought, it has dropped. -/
theorem Ready.drop (h : Ready user e history) (started : finds user ev = false)
    (hbuys : buys user ev = 0) (hchanges : changes user ev = false)
    (hdrops : drops user ev = decide (e.caller = user)) : Balanced user (ev :: history) := by
  unfold Balanced edited wasted
  rw [bought_cons, found_cons, changed_cons, dropped_cons, hbuys, started, hchanges, hdrops,
    h.undropped, h.unchanged, Nat.zero_add, Bool.false_or, Bool.or_false, Bool.or_false,
    Bool.and_false, h.price]
  by_cases hboth : e.caller = user ∧ found user history = true
  · rw [if_pos hboth, decide_eq_true hboth.1]
    rfl
  · rw [if_neg hboth]
    rfl

end

/-! ## What a segment does to the law -/

section

variable {env : Env} {user : Principal} {a : Ambient} {run : Nat} {st st' : State}
  {cause : Cause Message Frame Rep} {history : List Event}

/-- An event of a cause that says nothing of edits is silent. -/
theorem silent_of_cause {result : Segment} (hedit : editOf cause = none)
    (hbuy : ∀ e, cause ≠ .delivered (.spendingPoints e)) :
    Silent user ⟨a, run, cause, st, result⟩ := by
  refine ⟨?_, ?_, ?_⟩
  · unfold buys
    split
    next hcause _ => exact absurd hcause (hbuy _)
    next => rfl
  · unfold changes
    rw [hedit]
  · unfold drops
    rw [hedit]

theorem silent_of_resumed {frame : Frame} {reply : Rep frame} {result : Segment}
    (hedit : editOf (.resumed frame reply) = none) :
    Silent user ⟨a, run, .resumed frame reply, st, result⟩ := by
  apply silent_of_cause hedit
  intro e hcause
  cases hcause

theorem silent_of_passes {result : Segment} (h : causePasses cause = true) :
    Silent user ⟨a, run, cause, st, result⟩ := by
  apply silent_of_cause
  · unfold editOf
    split
    next => cases h
    next => cases h
    next => rfl
  · intro e hcause
    rw [hcause] at h
    cases h

/-- A run that has just started has bought and changed nothing. -/
theorem balanced_of_received {m : Message} {result : Segment} :
    Balanced user [⟨a, run, .received m, st, result⟩] :=
  balanced_of_nothing rfl rfl

theorem Balanced.passes {result : Segment} (passes : causePasses cause = true)
    (life : Balanced user history) (fresh : (∃ m, cause = .received m) → history = []) :
    Balanced user (⟨a, run, cause, st, result⟩ :: history) := by
  cases cause with
  | received m =>
    rw [fresh ⟨m, rfl⟩]
    exact balanced_of_received
  | delivered frame => exact life.silent (silent_of_passes passes) rfl
  | resumed frame reply => exact life.silent (silent_of_passes passes) rfl

/-- The duty of a call of a token is no edit. -/
theorem TokenCall.balanced_of_life (call : TokenCall) (life : Life user history call.duty) :
    Balanced user history := by
  obtain free | ⟨charge, _, _, owes⟩ := call.duty_cases
  · rw [free] at life
    exact life
  · rw [owes] at life
    exact life

theorem uploadsAt_of_free {frame? : Option Frame} (free : dutyOf frame? = .free) :
    uploadsAt frame? = false := by
  unfold uploadsAt
  split
  next => cases free
  next => rfl

/-- The segment that goes on with an edit and leaves none behind has written the profile. -/
theorem Ready.wrote {frame : Frame} {reply : Rep frame} {e : Edit} {next : Next Frame Answer}
    (duty : frame.duty = .paid e ∨ frame.duty = .uploads e) (ready : Ready user e history)
    (free : dutyOf next.frame? = .free) (lasting : found user history = true → st.HasProfile user) :
    Balanced user (⟨a, run, .resumed frame reply, st, some (st', next)⟩ :: history) := by
  have hedit : editOf (.resumed frame reply) = some e := by
    obtain rfl | ⟨url, rfl⟩ := Frame.of_edit_duty duty
    · rfl
    · rfl
  apply ready.write rfl rfl
  · unfold drops
    rw [hedit]
  · intro hfound
    have has : st.userProfileMap[user]?.isSome = true := lasting hfound
    unfold changes
    rw [hedit]
    dsimp only
    rw [ready.asks, has, uploadsAt_of_free free, Bool.not_false, Bool.and_true, Bool.and_true,
      Bool.and_true]

/-- **A segment that ends keeps the law of its run.** -/
theorem Does.life {frame? : Option Frame} {next : Next Frame Answer}
    (does : Does env a st cause st' frame?) (hnext : next.frame? = frame?)
    (life : Life user history (dutyOf cause.frame?))
    (fresh : (∃ m, cause = .received m) → history = [])
    (lasting : found user history = true → st.HasProfile user) :
    Life user (⟨a, run, cause, st, some (st', next)⟩ :: history) (dutyOf frame?) := by
  cases does with
  | idle passes keeps free =>
    rw [duty_of_passes passes] at life
    rw [free]
    exact Balanced.passes passes life fresh
  | looked keeps => exact life.silent (silent_of_resumed rfl) rfl
  | replied ends =>
    rw [fresh ⟨_, rfl⟩]
    exact balanced_of_received
  | spent ends =>
    rw [fresh ⟨_, rfl⟩]
    exact balanced_of_received
  | airdropped ends =>
    rw [fresh ⟨_, rfl⟩]
    exact balanced_of_received
  | began passes keeps has asks =>
    rw [fresh ⟨_, rfl⟩]
    refine ⟨⟨asks, rfl, rfl⟩, rfl, ?_⟩
    intro hcaller
    subst hcaller
    rw [found_cons]
    exact Bool.or_eq_true_iff.mpr (.inl has)
  | @beganUpload m e url passes absent asks =>
    rw [fresh ⟨_, rfl⟩]
    refine ⟨⟨asks, rfl, rfl⟩, ?_⟩
    rw [if_neg]
    · rfl
    · rintro ⟨hcaller, hfound⟩
      subst hcaller
      obtain hfinds | hnothing := Bool.or_eq_true_iff.mp hfound
      · exact absent hfinds
      · cases hnothing
  | deducted ends => exact Unpaid.buy life rfl rfl rfl rfl
  | refused => exact (Unpaid.silent (silent_of_resumed rfl) rfl life).balanced
  | uploaded =>
    have hchanges : uploadsAt next.frame? = true := by
      rw [hnext]
      rfl
    refine Ready.silent ⟨rfl, ?_, rfl⟩ rfl life
    unfold changes
    simp only [editOf, hchanges, Bool.not_true, Bool.and_false]
  | @wrote frame reply e imageUrl _ next' duty ends keeps free =>
    have ready : Ready user e history := by
      change Life user history frame.duty at life
      obtain h | h := duty
      · rw [h] at life
        exact life
      · rw [h] at life
        exact life
    rw [free]
    rw [← hnext] at free
    exact ready.wrote duty free lasting
  | @charged type charge reply _ next' ok ends =>
    have free : dutyOf next'.frame? = .free := chargeReturn_free ends
    rw [free]
    exact (TokenCall.balanced_of_life (.transferFrom charge) life).silent (silent_of_resumed rfl) rfl
  | traded ends => exact Balanced.silent (silent_of_resumed rfl) rfl life
  | finished passes ends free =>
    rw [duty_of_passes passes] at life
    rw [free]
    exact Balanced.passes passes life fresh
  | installed ends => exact Balanced.silent (silent_of_resumed rfl) rfl life
  | removed owes =>
    rw [dutyOf_some, owes]
    exact Balanced.silent (silent_of_resumed rfl) rfl life

/-- A run that traps has dropped what it bought. -/
theorem life_of_trap (life : Life user history (dutyOf cause.frame?))
    (delivered : cause.isDelivery = false)
    (fresh : (∃ m, cause = .received m) → history = []) :
    Balanced user (⟨a, run, cause, st, none⟩ :: history) := by
  cases cause with
  | received m =>
    rw [fresh ⟨m, rfl⟩]
    exact balanced_of_received
  | delivered frame => cases delivered
  | resumed frame reply =>
    cases frame with
    | spendingPoints e =>
      exact (Unpaid.silent (silent_of_resumed rfl) rfl life).balanced
    | spendingPointsDone e => exact Ready.drop life rfl rfl rfl rfl
    | httpRequest url k =>
      cases k with
      | editUser e => exact Ready.drop life rfl rfl rfl rfl
      | createFomo c tokenPid poolPid tid =>
        exact Balanced.silent (silent_of_resumed rfl) rfl life
    | getToken call =>
      exact (TokenCall.balanced_of_life call life).silent
        (silent_of_resumed rfl) rfl
    | ledger type call =>
      exact (TokenCall.balanced_of_life call life).silent
        (silent_of_resumed rfl) rfl
    | _ => exact Balanced.silent (silent_of_resumed rfl) rfl life

end

/-- A message that deducts a user's points for an edit, without an edit. -/
def isDirect (user : Principal) : Cause Message Frame Rep → Prop
  | .received (.spendingPoints _ userPid busiName) => userPid = user ∧ busiName = "EDIT_AVATAR"
  | _ => False

/-- The deductions among the moves of a segment are the edits that it buys. -/
theorem sum_edit_moves {user : Principal} {a : Ambient} {run : Nat} {st : State}
    {cause : Cause Message Frame Rep} {result : State × Next Frame Answer}
    (own : ¬ isDirect user cause) :
    ((movesOf cause).map (Move.isEdit user)).sum = buys user ⟨a, run, cause, st, some result⟩ := by
  unfold movesOf
  split
  next caller userPid busiName =>
    simp only [List.map_cons, List.map_nil, List.sum_singleton, Move.isEdit, true_and]
    exact if_neg own
  next => simp [Move.isEdit, buys]
  next => simp [Move.isEdit, buys]
  next charge reply =>
    split
    next => simp [Move.isEdit, buys]
    next => rfl
  next => simp [Move.isEdit, buys]
  next hspent _ hdelivered _ _ =>
    unfold buys
    split
    next hcause _ => exact absurd hcause (hdelivered _)
    next => rfl

/-- What traps buys nothing. -/
theorem buys_of_trap {user : Principal} {a : Ambient} {run : Nat} {cause : Cause Message Frame Rep}
    {st : State} : buys user ⟨a, run, cause, st, none⟩ = 0 := by
  unfold buys
  split
  next hresult => cases hresult
  next => rfl

/-- Profiles are never removed. -/
theorem PointSteps.hasProfile {st st' : State} (steps : PointSteps st st') {user : Principal}
    (has : st.HasProfile user) : st'.HasProfile user := by
  have insert : ∀ {st st' : State} {user' : Principal} {p' : UserProfile},
      st'.userProfileMap = st.userProfileMap.insert user' p' → st.HasProfile user →
        st'.HasProfile user := by
    intro st st' user' p' profiles has
    unfold State.HasProfile at has ⊢
    rw [profiles, get_insert]
    split
    · rfl
    · exact has
  induction steps with
  | refl => exact has
  | tail _ step ih =>
    cases step with
    | same same =>
      unfold State.HasProfile at ih ⊢
      rw [same.profiles]
      exact ih
    | edited user' p' edits profiles history count => exact insert profiles ih
    | moved user' p p' op amount record stored moves profiles history count about =>
      exact insert profiles ih

/-! ## Every schedule -/

/-- The law of every run, and of the deductions of all of them. -/
structure Charged (user : Principal) (m : TracedSystem) : Prop where
  ordered : m.1.Ordered
  accounted : Accounted m.1.state
  logged : ∀ ev ∈ m.2, ev.run < m.1.log.length
  lasting : ∀ ev ∈ m.2, finds user ev = true → m.1.state.HasProfile user
  deductions : editDeductions user m.1.state = bought user m.2
  life : ∀ run : Nat, Life user (runOf run m.2) (dutyOf m.1.suspended[run]?)

section

variable {env : Env} {user : Principal} {m : TracedSystem} {choice : Choice}

theorem runOf_cons (run : Nat) (ev : Event) (tr : List Event) :
    runOf run (ev :: tr) = if ev.run = run then ev :: runOf run tr else runOf run tr := by
  unfold runOf
  rw [List.filter_cons]
  simp only [decide_eq_true_eq]

theorem Charged.lastingRun (charged : Charged user m) {run : Nat}
    (h : found user (runOf run m.2) = true) : m.1.state.HasProfile user := by
  obtain ⟨ev, hev, hfinds⟩ := List.any_eq_true.mp h
  exact charged.lasting ev (List.mem_of_mem_filter hev) hfinds

/-- A message starts a run that has no record. -/
theorem Charged.fresh (charged : Charged user m) {run : Nat} {cause : Cause Message Frame Rep}
    (enabled : m.1.Enabled run cause) (h : ∃ message, cause = .received message) :
    runOf run m.2 = [] := by
  obtain ⟨message, rfl⟩ := h
  refine List.filter_eq_nil_iff.mpr ?_
  intro ev hev hrun
  have hlt := charged.logged ev hev
  rw [of_decide_eq_true hrun, enabled] at hlt
  exact absurd hlt (Nat.lt_irrefl _)

/-- The number of a run that may start or go on. -/
theorem Charged.run_le (charged : Charged user m) {run : Nat} {cause : Cause Message Frame Rep}
    (enabled : m.1.Enabled run cause) : run ≤ m.1.log.length := by
  cases cause with
  | received message => exact Nat.le_of_eq enabled
  | delivered frame => exact Nat.le_of_lt (charged.ordered.suspended run frame enabled)
  | resumed frame reply => exact Nat.le_of_lt (charged.ordered.suspended run frame enabled)

/-- The event of a step joins the record of its run, and the other runs keep theirs. -/
theorem Charged.records (charged : Charged user m) {s' : System} {ev : Event}
    (hbefore : ev.before = m.1.state) (ordered : s'.Ordered) (accounted : Accounted s'.state)
    (hrun : ev.run < s'.log.length) (hlog : m.1.log.length ≤ s'.log.length)
    (profiles : m.1.state.HasProfile user → s'.state.HasProfile user)
    (deductions : editDeductions user s'.state = buys user ev + editDeductions user m.1.state)
    (own : Life user (ev :: runOf ev.run m.2) (dutyOf s'.suspended[ev.run]?))
    (others : ∀ run' : Nat, run' ≠ ev.run → s'.suspended[run']? = m.1.suspended[run']?) :
    Charged user (s', ev :: m.2) := by
  refine ⟨ordered, accounted, ?_, ?_, ?_, ?_⟩
  · intro ev' hev
    obtain rfl | hev := List.mem_cons.mp hev
    · exact hrun
    · exact Nat.lt_of_lt_of_le (charged.logged ev' hev) hlog
  · intro ev' hev hfinds
    apply profiles
    obtain rfl | hev := List.mem_cons.mp hev
    · rw [← hbefore]
      unfold finds at hfinds
      split at hfinds
      · exact hfinds
      · cases hfinds
    · exact charged.lasting ev' hev hfinds
  · rw [deductions, charged.deductions]
    rfl
  · intro run'
    rw [runOf_cons]
    by_cases hne : run' = ev.run
    · subst hne
      rw [if_pos rfl]
      exact own
    · rw [if_neg (fun e => hne e.symm), others run' hne]
      exact charged.life run'

/-- A choice that is not a direct deduction starts no segment that is one. -/
theorem not_direct_of_own {a : Ambient} {run : Nat} {cause : Cause Message Frame Rep}
    (own : ∀ a caller, choice ≠ .receive a (.spendingPoints caller user "EDIT_AVATAR"))
    (starts : m.1.starts choice = some (a, run, cause)) : ¬ isDirect user cause := by
  intro direct
  unfold isDirect at direct
  split at direct
  next caller userPid busiName =>
    obtain ⟨rfl, rfl⟩ := direct
    exact own a caller (receive_of_starts starts)
  next => exact direct

/-- **Every step keeps the law**, unless it deducts for an edit without an edit. -/
theorem step_charged (charged : Charged user m)
    (own : ∀ a caller, choice ≠ .receive a (.spendingPoints caller user "EDIT_AVATAR")) :
    Charged user ((program env).trace m choice) := by
  have ordered : ((program env).trace m choice).1.Ordered := ordered_step charged.ordered choice
  obtain ⟨_, e⟩ | ⟨⟨a, run, cause, before, result⟩, starts, hbefore, hresult, enabled, hend⟩ :=
    trace_cases (program env) m choice
  · rw [e]
    exact charged
  dsimp only at starts hbefore hresult enabled hend
  subst hbefore
  have life := charged.life run
  rw [enabled.get_eq charged.ordered] at life
  obtain ⟨delivered, trap, e⟩ | ⟨delivered, e⟩ := hend
  · -- a call whose callee traps: its run goes on awaiting
    subst trap
    rw [e]
    cases cause with
    | received message => cases delivered
    | resumed frame reply => cases delivered
    | delivered frame =>
      have hrun : run < m.1.log.length := charged.ordered.suspended run frame enabled
      apply charged.records rfl charged.ordered charged.accounted hrun (Nat.le_refl _) id
      · rw [buys_of_trap, Nat.zero_add]
      · dsimp only
        rw [enabled.get_eq charged.ordered]
        exact life.silent ⟨buys_of_trap, rfl, rfl⟩ rfl
      · exact fun _ _ => rfl
  rw [e] at ordered ⊢
  have hrun : run < m.1.log.length + 1 := Nat.lt_succ_of_le (charged.run_le enabled)
  cases result with
  | none =>
    apply charged.records rfl ordered charged.accounted hrun (Nat.le_succ _) id
    · rw [buys_of_trap, Nat.zero_add]
      rfl
    · dsimp only
      rw [get_after]
      refine life_of_trap life ?_ (charged.fresh enabled)
      by_contra delivery
      exact delivered (Bool.not_eq_false _ ▸ delivery) rfl
    · exact fun run' hne => get_after_of_ne m.1 cause none hne
  | some result =>
    obtain ⟨st', next⟩ := result
    have does := segment_does hresult.symm
    have points := (segment_effect hresult.symm).points
    apply charged.records rfl ordered (points.accounted charged.accounted) hrun (Nat.le_succ _)
      points.hasProfile
    · rw [← sum_edit_moves (not_direct_of_own own starts)]
      exact does.adds charged.accounted (Move.isEdit user)
    · dsimp only
      rw [get_after]
      exact does.life rfl life (charged.fresh enabled) charged.lastingRun
    · exact fun run' hne => get_after_of_ne m.1 cause _ hne

end

theorem charged_start (env : Env) (caller : Principal) (time : Nat) (addrConfig : AddrConfig)
    (icpAddr user : Principal) :
    Charged user (Sys.start (init env caller time addrConfig icpAddr), []) := by
  refine ⟨ordered_start _, accounted_init env caller time addrConfig icpAddr, ?_, ?_, rfl, ?_⟩
  · intro ev hev
    cases hev
  · intro ev hev
    cases hev
  · intro run
    rw [get_start]
    exact balanced_of_nothing rfl rfl

/-- A number of runs, as a sum over them. -/
theorem countRuns_eq_sum (p : List Event → Bool) (m : TracedSystem) :
    countRuns p m = ((List.range m.1.log.length).map fun run => (p (runOf run m.2)).toNat).sum := by
  unfold countRuns
  induction List.range m.1.log.length with
  | nil => rfl
  | cons run runs ih =>
    rw [List.countP_cons, ih, List.map_cons, List.sum_cons, Nat.add_comm]
    cases p (runOf run m.2) <;> rfl

/-- The deductions are the runs that bought an edit, once none is in flight. -/
theorem Charged.deductions_eq {user : Principal} {m : TracedSystem} (charged : Charged user m)
    (ended : ¬ Editing user m.1) :
    editDeductions user m.1.state = countRuns (edited user) m + countRuns (wasted user) m := by
  have balanced : ∀ run, Balanced user (runOf run m.2) := by
    intro run
    have life := charged.life run
    cases hframe : m.1.suspended[run]? with
    | none =>
      rw [hframe] at life
      exact life
    | some frame =>
      rw [hframe] at life
      exact life.balanced fun editor => ended ⟨run, frame, hframe, editor⟩
  rw [charged.deductions, countRuns_eq_sum, countRuns_eq_sum, ← List.sum_map_add]
  unfold bought
  rw [sum_map_eq_sum_classes Executed.run (buys user) charged.logged]
  apply congrArg List.sum
  apply List.map_congr_left
  intro run _
  exact balanced run

/-- **What edits cost**: once no edit of a user is in flight, the user's `EDIT_AVATAR` deductions are
the runs that found a profile and changed it, and the runs that bought an edit and then trapped. -/
theorem edits_charged (env : Env) (caller : Principal) (time : Nat) (addrConfig : AddrConfig)
    (icpAddr : Principal) (choices : List Choice) (user : Principal)
    (own : ∀ choice ∈ choices, ∀ a caller,
      choice ≠ .receive a (.spendingPoints caller user "EDIT_AVATAR"))
    (ended : ¬ Editing user (choices.foldl (program env).trace
      (Sys.start (init env caller time addrConfig icpAddr), [])).1) :
    let m := choices.foldl (program env).trace
      (Sys.start (init env caller time addrConfig icpAddr), [])
    editDeductions user m.1.state = countRuns (edited user) m + countRuns (wasted user) m := by
  intro m
  have along : Along (program env).trace
      (fun _ choice => ∀ a caller, choice ≠ .receive a (.spendingPoints caller user "EDIT_AVATAR"))
      (Sys.start (init env caller time addrConfig icpAddr), []) choices :=
    along_of_forall fun choice hchoice _ => own choice hchoice
  have charged : Charged user m := by
    apply along.invariant
    · intro m choice charged own
      exact step_charged charged own
    · exact charged_start env caller time addrConfig icpAddr user
  exact charged.deductions_eq ended

/-- Whether a choice is the arrival of a `spending_points`. -/
def spendsDirectly : Choice → Bool
  | .receive _ (.spendingPoints ..) => true
  | _ => false

theorem own_of_all {choices : List Choice} (h : choices.all (fun choice => !spendsDirectly choice))
    (user : Principal) : ∀ choice ∈ choices, ∀ a caller,
      choice ≠ .receive a (.spendingPoints caller user "EDIT_AVATAR") := by
  intro choice hchoice a caller e
  have direct := List.all_eq_true.mp h choice hchoice
  rw [e] at direct
  cases direct

theorem not_editing_of_isEmpty {s : System} (h : s.suspended.isEmpty = true) (user : Principal) :
    ¬ Editing user s := by
  rintro ⟨run, frame, hframe, _⟩
  rw [Table.get_of_isEmpty h] at hframe
  cases hframe

/-- The sample user edits the name, as run 15. -/
def editSchedule : List Choice :=
  sampleSchedule ++ [sampleMessage (.editUser sampleUser ⟨some "b", none⟩),
    .deliver sampleAmbient 15, sampleAnswer 15]

/-- The edit is applied, and it is the only one that was charged. -/
theorem edits_charged_sample :
    let m := editSchedule.foldl (program sampleEnv).trace (sampleStart, [])
    editDeductions sampleUser m.1.state = 1 ∧
      editDeductions sampleUser m.1.state =
        countRuns (edited sampleUser) m + countRuns (wasted sampleUser) m := by
  have hone : editDeductions sampleUser (editSchedule.foldl (program sampleEnv).trace
      (sampleStart, [])).1.state = 1 := by
    decide +kernel
  have hover : (editSchedule.foldl (program sampleEnv).trace
      (sampleStart, [])).1.suspended.isEmpty = true := by
    decide +kernel
  exact ⟨hone, edits_charged _ _ _ _ _ _ sampleUser (own_of_all rfl sampleUser)
    (not_editing_of_isEmpty hover sampleUser)⟩

/-- The image store refuses an upload. -/
def uploadRefused : (frame : Frame) → Rep frame
  | .httpRequest .. => .ok ⟨500, []⟩
  | frame => sampleReply frame

/-- The sample user edits the avatar, as run 15, and the upload fails. -/
def wastedSchedule : List Choice :=
  sampleSchedule ++ [sampleMessage (.editUser sampleUser ⟨none, some "b"⟩),
    .deliver sampleAmbient 15, sampleAnswer 15, .resume sampleAmbient 15 uploadRefused]

/-- **A deduction without an edit.** -/
theorem not_edits_charged_equal :
    ¬ ∀ env caller time addrConfig icpAddr (choices : List Choice) (user : Principal),
      (∀ choice ∈ choices, ∀ a caller,
        choice ≠ .receive a (.spendingPoints caller user "EDIT_AVATAR")) →
      ¬ Editing user (choices.foldl (program env).trace
        (Sys.start (init env caller time addrConfig icpAddr), [])).1 →
      editDeductions user (choices.foldl (program env).trace
          (Sys.start (init env caller time addrConfig icpAddr), [])).1.state =
        countRuns (changed user) (choices.foldl (program env).trace
          (Sys.start (init env caller time addrConfig icpAddr), [])) := by
  intro all
  have hover : (wastedSchedule.foldl (program sampleEnv).trace
      (sampleStart, [])).1.suspended.isEmpty = true := by
    decide +kernel
  have equal : editDeductions sampleUser (wastedSchedule.foldl (program sampleEnv).trace
      (sampleStart, [])).1.state =
        countRuns (changed sampleUser) (wastedSchedule.foldl (program sampleEnv).trace
          (sampleStart, [])) :=
    all _ _ _ _ _ _ sampleUser (own_of_all rfl sampleUser) (not_editing_of_isEmpty hover sampleUser)
  have hone : editDeductions sampleUser (wastedSchedule.foldl (program sampleEnv).trace
      (sampleStart, [])).1.state = 1 := by
    decide +kernel
  have hzero : countRuns (changed sampleUser) (wastedSchedule.foldl (program sampleEnv).trace
      (sampleStart, [])) = 0 := by
    decide +kernel
  rw [hone, hzero] at equal
  cases equal

end Fomowell.Launcher
