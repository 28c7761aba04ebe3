import Fomowell.Launcher.System
import Fomowell.Project.Segments

/-!
# What a comment is paid for

A project canister next to the launcher that serves its calls: `add_comment` has the launcher deduct
the author's points, uploads the image, has the launcher count the reply, and stores the comment.
Every run of either canister may come between two of these, and any of them may fail.

`Balanced` counts the three effects. A deduction is a stored comment, or a run that is still under
way, or one that trapped after it, and the same holds of a counted reply. `comments_balanced` reads
this off once no `add_comment` is in flight: the three numbers differ by what trapped runs left
behind. `not_comments_equal` is such a run.
-/

namespace Fomowell.Project

open Std Canister Table Runs Token

/-! ## Two canisters -/

/-- The launcher executes a call of the project canister. -/
def serve (lenv : Launcher.Env) (env : Env) (a : Launcher.Ambient) :
    Frame → Launcher.State → Option (Launcher.State × Frame)
  | .spendingPoints launcher c, st =>
    if launcher = lenv.id then
      (Launcher.spendingPoints lenv a.time env.id c.caller c.spendType st).map fun st =>
        (st, .spendingPointsDone c)
    else none
  | .replyUpdate launcher fi idx com, st =>
    if launcher = lenv.id then
      (Launcher.replyUpdate lenv a.time fi st).map fun st => (st, .replyUpdateDone idx com)
    else none
  | _, _ => none

/-- The calls of the project canister that the launcher executes. -/
inductive Served (lenv : Launcher.Env) (env : Env) (a : Launcher.Ambient) :
    Frame → Launcher.State → Launcher.State → Frame → Prop
  | charges {launcher c st st'} (callee : launcher = lenv.id)
    (h : Launcher.spendingPoints lenv a.time env.id c.caller c.spendType st = some st') :
    Served lenv env a (.spendingPoints launcher c) st st' (.spendingPointsDone c)
  | counts {launcher fi idx com st st'} (callee : launcher = lenv.id)
    (h : Launcher.replyUpdate lenv a.time fi st = some st') :
    Served lenv env a (.replyUpdate launcher fi idx com) st st' (.replyUpdateDone idx com)

theorem serve_served {lenv : Launcher.Env} {env : Env} {a : Launcher.Ambient} {frame frame' : Frame}
    {st st' : Launcher.State} (h : serve lenv env a frame st = some (st', frame')) :
    Served lenv env a frame st st' frame' := by
  unfold serve at h
  split at h
  · split at h
    next callee =>
      obtain ⟨_, hdeduct, h⟩ := Option.map_eq_some_iff.mp h
      cases h
      exact .charges callee hdeduct
    next => cases h
  · split at h
    next callee =>
      obtain ⟨_, hcount, h⟩ := Option.map_eq_some_iff.mp h
      cases h
      exact .counts callee hcount
    next => cases h
  · cases h

/-- The launcher and a project canister. -/
def joint (lenv : Launcher.Env) (env : Env) :=
  (Launcher.program lenv).serving (program env) Launcher.Ambient.time (serve lenv env)

/-- The two canisters with their suspended runs and their log. -/
abbrev JointSystem : Type :=
  Sys (Launcher.State × State) (Launcher.Message ⊕ Message) (Launcher.Frame ⊕ Frame)
    (Launcher.Answer ⊕ Answer) (Sum.elim Launcher.Rep Rep)

/-- What starts a segment of either canister. -/
abbrev JointCause : Type :=
  Cause (Launcher.Message ⊕ Message) (Launcher.Frame ⊕ Frame) (Sum.elim Launcher.Rep Rep)

/-- A segment of either canister in the log. -/
abbrev JointEntry : Type :=
  Entry (Launcher.Message ⊕ Message) (Launcher.Frame ⊕ Frame) (Launcher.Answer ⊕ Answer)
    (Sum.elim Launcher.Rep Rep)

/-- A choice of the scheduler of both. -/
abbrev JointChoice : Type :=
  Label Launcher.Ambient (Launcher.Message ⊕ Message) (Launcher.Frame ⊕ Frame)
    (Sum.elim Launcher.Rep Rep)

/-! ## How far a comment has come -/

/-- How far a run of `add_comment` has come with its index. -/
inductive Phase
  | away
  | asked (idx : Nat)
  | paid (idx : Nat)
  | counted (idx : Nat)

/-- The phase of a frame. -/
def Frame.phase : Frame → Phase
  | .spendingPoints _ c => .asked c.idx
  | .spendingPointsDone c => .paid c.idx
  | .httpRequest _ c => .paid c.idx
  | .replyUpdate _ _ idx _ => .paid idx
  | .replyUpdateDone idx _ => .counted idx

/-- The phase of a run of either canister. -/
def phaseOf : Option (Launcher.Frame ⊕ Frame) → Phase
  | some (.inr frame) => frame.phase
  | _ => .away

/-- The index that a run holds. -/
def Phase.holds (idx : Nat) : Phase → Nat
  | .away => 0
  | .asked i => if i = idx then 1 else 0
  | .paid i => if i = idx then 1 else 0
  | .counted i => if i = idx then 1 else 0

/-- Whether a run is past its deduction. -/
def Phase.paidFor : Phase → Nat
  | .paid _ => 1
  | .counted _ => 1
  | _ => 0

/-- Whether a run is past its counted reply. -/
def Phase.replied : Phase → Nat
  | .counted _ => 1
  | _ => 0

/-- The deduction that a segment is. -/
def deducts : JointCause → Nat
  | .delivered (.inr (.spendingPoints ..)) => 1
  | _ => 0

/-- The counted reply that a segment is. -/
def increments : JointCause → Nat
  | .delivered (.inr (.replyUpdate ..)) => 1
  | _ => 0

/-- Whether a segment trapped past the deduction of its run. -/
def lostPaid (entry : JointEntry) : Nat :=
  if entry.outcome.isNone then (phaseOf entry.cause.frame?).paidFor else 0

/-- Whether a segment trapped past the counted reply of its run. -/
def lostReplied (entry : JointEntry) : Nat :=
  if entry.outcome.isNone then (phaseOf entry.cause.frame?).replied else 0

/-! ## What a segment does -/

/-- What a segment of either canister does to the comments: its deduction and its counted reply, from
the phase of its run to the one after. -/
inductive CommentStep (st : State) : Nat → Nat → Phase → State → Phase → Prop
  /-- A segment of another run, which may draw an index that nobody keeps. -/
  | away {st'} (comments : st'.comments = st.comments) (count : st.heap.count ≤ st'.heap.count) :
    CommentStep st 0 0 .away st' .away
  /-- `add_comment` draws its index. -/
  | asks {st'} (comments : st'.comments = st.comments)
      (count : st'.heap.count = st.heap.count + 1) :
    CommentStep st 0 0 .away st' (.asked (st.heap.count + 1))
  /-- The deduction is rejected. -/
  | refused {idx} : CommentStep st 0 0 (.asked idx) st .away
  /-- The launcher deducts. -/
  | deducted {idx} : CommentStep st 1 0 (.asked idx) st (.paid idx)
  /-- The run goes on to the upload, or to the reply. -/
  | goes {idx} : CommentStep st 0 0 (.paid idx) st (.paid idx)
  /-- The launcher counts the reply. -/
  | counted {idx} : CommentStep st 0 1 (.paid idx) st (.counted idx)
  /-- The comment is stored. -/
  | stores {idx com st'} (comments : st'.comments = st.comments.insert idx com)
      (count : st'.heap.count = st.heap.count) :
    CommentStep st 0 0 (.counted idx) st' .away

section

variable {lenv : Launcher.Env} {env : Env} {st st' : State} {next : Next Frame Answer}

/-- The phase that a segment of the project canister ends in. -/
abbrev phaseAfter (next : Next Frame Answer) : Phase := phaseOf (next.frame?.map .inr)

theorem Started.comment {m : Message} (h : Started st m st' next) :
    CommentStep st 0 0 .away st' (phaseAfter next) := by
  cases h with
  | asks cut => exact .asks rfl rfl
  | draws => exact .away rfl (Nat.le_succ _)
  | replaces owner => exact .away rfl (Nat.le_refl _)

theorem Resumed.comment {time : Nat} {frame : Frame} {reply : Rep frame}
    (h : Resumed env time st frame reply st' next) :
    CommentStep st 0 0 frame.phase st' (phaseAfter next) := by
  cases h with
  | refused => exact .refused
  | uploads image => exact .goes
  | replies plain named parsed => exact .goes
  | repliesImage status reads named parsed => exact .goes
  | stores fits => exact .stores rfl rfl

theorem Served.comment {a : Launcher.Ambient} {frame frame' : Frame} {lst lst' : Launcher.State}
    (h : Served lenv env a frame lst lst' frame') :
    CommentStep st (deducts (.delivered (.inr frame))) (increments (.delivered (.inr frame)))
      frame.phase st frame'.phase := by
  cases h with
  | charges callee h => exact .deducted
  | counts callee h => exact .counted

theorem phaseOf_inl (next : Next Launcher.Frame Launcher.Answer) :
    phaseOf ((next.map Sum.inl Sum.inl :
      Next (Launcher.Frame ⊕ Frame) (Launcher.Answer ⊕ Answer)).frame?) = .away := by
  cases next <;> rfl

theorem phaseOf_inr (next : Next Frame Answer) :
    phaseOf ((next.map Sum.inr Sum.inr :
      Next (Launcher.Frame ⊕ Frame) (Launcher.Answer ⊕ Answer)).frame?) = phaseAfter next := by
  cases next <;> rfl

/-- **The inversion**: every segment of either canister that ends is one of the steps. -/
theorem joint_comment {a : Launcher.Ambient} {cause : JointCause}
    {sts sts' : Launcher.State × State}
    {next : Next (Launcher.Frame ⊕ Frame) (Launcher.Answer ⊕ Answer)}
    (h : (joint lenv env).segment a cause sts = some (sts', next)) :
    CommentStep sts.2 (deducts cause) (increments cause) (phaseOf cause.frame?) sts'.2
      (phaseOf next.frame?) := by
  cases serving_segment h with
  | first lcause hcause hsegment =>
    rw [hcause, phaseOf_inl]
    cases lcause <;> exact .away rfl (Nat.le_refl _)
  | received hreceive =>
    rw [phaseOf_inr]
    exact (receive_started hreceive).comment
  | served hserve => exact (serve_served hserve).comment
  | resumed hresume =>
    rw [phaseOf_inr]
    exact (resume_resumed hresume).comment

end

/-! ## The balance -/

/-- Whether a comment is stored under an index. -/
def stored (idx : Nat) (st : State) : Nat := if st.comments[idx]?.isSome then 1 else 0

/-- Whether an index is drawn. -/
def drawn (idx : Nat) (st : State) : Nat := if idx ≤ st.heap.count then 1 else 0

section

variable {st st' : State} {d i : Nat} {r r' : Phase}

/-- An index is held by one run or stored, and only once it is drawn. -/
theorem CommentStep.owned (step : CommentStep st d i r st' r') (idx : Nat) :
    r'.holds idx + stored idx st' + drawn idx st ≤ r.holds idx + stored idx st + drawn idx st' := by
  cases step with
  | away comments count =>
    unfold stored drawn
    rw [comments]
    split_ifs <;> simp only [Phase.holds] <;> omega
  | asks comments count =>
    unfold stored drawn
    rw [comments, count]
    simp only [Phase.holds]
    split_ifs <;> omega
  | refused => exact Nat.add_le_add_right (Nat.add_le_add_right (Nat.zero_le _) _) _
  | deducted => exact Nat.le_refl _
  | goes => exact Nat.le_refl _
  | counted => exact Nat.le_refl _
  | @stores k com _ comments count =>
    unfold stored drawn
    rw [comments, count, get_insert]
    by_cases hne : idx = k
    · subst hne
      simp only [Phase.holds, if_true, Option.isSome_some]
      omega
    · simp only [Phase.holds, if_neg hne, if_neg (fun e => hne (Eq.symm e))]
      exact Nat.le_refl _

/-- What a step deducts, and every deduction so far, is stored or still under way. -/
theorem CommentStep.balance (step : CommentStep st d i r st' r')
    (owned : ∀ idx, r.holds idx + stored idx st ≤ drawn idx st) :
    d + st.comments.size + r.paidFor = st'.comments.size + r'.paidFor ∧
      i + st.comments.size + r.replied = st'.comments.size + r'.replied := by
  cases step with
  | away comments count =>
    rw [comments, Nat.zero_add]
    exact ⟨rfl, rfl⟩
  | asks comments count =>
    rw [comments, Nat.zero_add]
    exact ⟨rfl, rfl⟩
  | refused =>
    rw [Nat.zero_add]
    exact ⟨rfl, rfl⟩
  | deducted =>
    simp only [Phase.paidFor, Phase.replied]
    omega
  | goes =>
    rw [Nat.zero_add]
    exact ⟨rfl, rfl⟩
  | counted =>
    simp only [Phase.paidFor, Phase.replied]
    omega
  | @stores k com _ comments count =>
    have absent : ¬ st.comments.contains k := fun hmem => by
      have hidx := owned k
      have hsome : st.comments[k]?.isSome := by
        rw [ExtTreeMap.isSome_getElem?_eq_contains]
        exact hmem
      unfold stored drawn at hidx
      rw [if_pos hsome] at hidx
      simp only [Phase.holds, if_true] at hidx
      split at hidx <;> omega
    rw [comments, ExtTreeMap.size_insert, if_neg absent, Nat.zero_add]
    exact ⟨rfl, rfl⟩

end

/-- The invariant of the two canisters: each deduction and each counted reply is a stored comment, a run
that trapped, or a run under way. -/
structure Balanced (s : JointSystem) : Prop where
  ordered : s.Ordered
  owned : ∀ idx, sumOf (fun _ frame => (phaseOf (some frame)).holds idx) s.suspended +
    stored idx s.state.2 ≤ drawn idx s.state.2
  paid : s.tally (fun entry => deducts entry.cause) =
    s.state.2.comments.size + s.tally lostPaid +
      sumOf (fun _ frame => (phaseOf (some frame)).paidFor) s.suspended
  replied : s.tally (fun entry => increments entry.cause) =
    s.state.2.comments.size + s.tally lostReplied +
      sumOf (fun _ frame => (phaseOf (some frame)).replied) s.suspended

/-- Before the first message, nothing is deducted, counted or stored. -/
theorem balanced_start (launcher : Launcher.State) (caller : Principal)
    (fmPj : ExtTreeMap String String compare) :
    Balanced (Sys.start (launcher, init caller fmPj)) := by
  refine ⟨ordered_start _, fun idx => ?_, rfl, rfl⟩
  have hnone : stored idx (init caller fmPj) = 0 := by
    unfold stored init
    rw [ExtTreeMap.getElem?_empty]
    rfl
  have hle : 0 + stored idx (init caller fmPj) ≤ drawn idx (init caller fmPj) := by
    rw [hnone]
    exact Nat.zero_le _
  exact hle

/-- The weight of a phase, for the frames of the suspended runs. -/
theorem weigh_phase {w : Phase → Nat} (haway : w .away = 0)
    (frame? : Option (Launcher.Frame ⊕ Frame)) :
    weigh (fun frame => w (phaseOf (some frame))) frame? = w (phaseOf frame?) := by
  cases frame? with
  | none => exact haway.symm
  | some frame => rfl

section

variable {lenv : Launcher.Env} {env : Env}

theorem Balanced.phaseOwned {s : JointSystem} (balanced : Balanced s) {run : Nat} {cause : JointCause}
    (enabled : s.Enabled run cause) (idx : Nat) :
    (phaseOf cause.frame?).holds idx + stored idx s.state.2 ≤ drawn idx s.state.2 := by
  have hle := weightAt_le_sumOf
    (fun (_ : Nat) (frame : Launcher.Frame ⊕ Frame) => (phaseOf (some frame)).holds idx)
    s.suspended run
  have hweight := weigh_phase (w := Phase.holds idx) rfl cause.frame?
  rw [weightAt, enabled.get_eq balanced.ordered] at hle
  have := balanced.owned idx
  unfold weigh at hweight
  omega

/-- **Every step keeps the balance.** -/
theorem step_balanced (s : JointSystem) (choice : JointChoice) (balanced : Balanced s) :
    Balanced ((joint lenv env).step s choice) := by
  have ordered : ((joint lenv env).step s choice).Ordered := ordered_step balanced.ordered choice
  rcases step_cases (joint lenv env) s choice with e | ⟨a, run, cause, _, enabled, delivered, e⟩
  · rw [e]
    exact balanced
  rw [e] at ordered ⊢
  have weights : ∀ w : Phase → Nat, w .away = 0 →
      sumOf (fun _ frame => w (phaseOf (some frame)))
          (s.after run cause ((joint lenv env).segment a cause s.state)).suspended +
        w (phaseOf cause.frame?) =
      sumOf (fun _ frame => w (phaseOf (some frame))) s.suspended +
        w (phaseOf (frameOf ((joint lenv env).segment a cause s.state))) := fun w haway => by
    have hsum := sumOf_after (fun frame => w (phaseOf (some frame))) enabled balanced.ordered
      ((joint lenv env).segment a cause s.state)
    rw [weigh_phase haway, weigh_phase haway] at hsum
    exact hsum
  have hpaid := weights Phase.paidFor rfl
  have hreplied := weights Phase.replied rfl
  have paid := balanced.paid
  have replied := balanced.replied
  cases hsegment : (joint lenv env).segment a cause s.state with
  | none =>
    rw [hsegment] at weights hpaid hreplied ordered delivered
    -- a call that was not executed is no segment, so a trap deducts nothing
    have hcause : deducts cause = 0 ∧ increments cause = 0 := by
      cases cause with
      | delivered frame => exact absurd rfl (delivered rfl)
      | _ => exact ⟨rfl, rfl⟩
    refine ⟨ordered, fun idx => ?_, ?_, ?_⟩
    · have := weights (Phase.holds idx) rfl
      have := balanced.owned idx
      simp only [frameOf, phaseOf, Phase.holds, Sys.after] at *
      omega
    · rw [tally_after, tally_after]
      simp only [lostPaid, frameOf, phaseOf, Phase.paidFor, Option.map_none, Option.isNone_none,
        if_true, hcause.1, Sys.after] at *
      omega
    · rw [tally_after, tally_after]
      simp only [lostReplied, frameOf, phaseOf, Phase.replied, Option.map_none, Option.isNone_none,
        if_true, hcause.2, Sys.after] at *
      omega
  | some result =>
    rw [hsegment] at weights hpaid hreplied ordered
    have step := joint_comment hsegment
    obtain ⟨hdeducts, hincrements⟩ := step.balance (balanced.phaseOwned enabled)
    refine ⟨ordered, fun idx => ?_, ?_, ?_⟩
    · have := weights (Phase.holds idx) rfl
      have := balanced.owned idx
      have := step.owned idx
      simp only [frameOf, Sys.after] at *
      omega
    · rw [tally_after, tally_after]
      simp only [lostPaid, frameOf, Option.map_some, Option.isNone_some, Bool.false_eq_true,
        if_false, Sys.after] at *
      omega
    · rw [tally_after, tally_after]
      simp only [lostReplied, frameOf, Option.map_some, Option.isNone_some, Bool.false_eq_true,
        if_false, Sys.after] at *
      omega

end

/-- The three numbers of the comments agree. -/
structure Agree (s : JointSystem) : Prop where
  paid : s.tally (fun entry => deducts entry.cause) = s.state.2.comments.size
  replied : s.tally (fun entry => increments entry.cause) = s.state.2.comments.size

/-- The law of the comments, once none is under way: deductions are stored comments and runs that
trapped after theirs, and the counted replies are in between. The three agree exactly if no run
trapped after its deduction. -/
structure Settled (s : JointSystem) : Prop where
  paid : s.tally (fun entry => deducts entry.cause) = s.state.2.comments.size + s.tally lostPaid
  stored_le : s.state.2.comments.size ≤ s.tally (fun entry => increments entry.cause)
  replied_le : s.tally (fun entry => increments entry.cause) ≤
    s.tally (fun entry => deducts entry.cause)
  agree_iff : Agree s ↔ s.tally lostPaid = 0

theorem lostReplied_le (s : JointSystem) : s.tally lostReplied ≤ s.tally lostPaid := by
  refine tally_le (fun entry => ?_) s
  unfold lostReplied lostPaid
  split
  · cases phaseOf entry.cause.frame? with
    | paid idx => exact Nat.zero_le _
    | away => exact Nat.le_refl _
    | asked idx => exact Nat.le_refl _
    | counted idx => exact Nat.le_refl _
  · exact Nat.le_refl _

/-- **A comment is paid for exactly where it is stored, or where its run trapped after the
deduction**, once no `add_comment` is in flight. -/
theorem comments_balanced (lenv : Launcher.Env) (env : Env) (launcher : Launcher.State)
    (caller : Principal) (fmPj : ExtTreeMap String String compare) (choices : List JointChoice)
    (noneInFlight : ∀ (run : Nat) (frame : Frame),
      (choices.foldl (joint lenv env).step
        (Sys.start (launcher, init caller fmPj))).suspended[run]? ≠ some (.inr frame)) :
    Settled (choices.foldl (joint lenv env).step (Sys.start (launcher, init caller fmPj))) := by
  have balanced : Balanced (choices.foldl (joint lenv env).step
      (Sys.start (launcher, init caller fmPj))) :=
    Runs.foldl_invariant step_balanced (balanced_start launcher caller fmPj) choices
  have away : ∀ (w : Phase → Nat), w .away = 0 →
      sumOf (fun _ frame => w (phaseOf (some frame))) (choices.foldl (joint lenv env).step
        (Sys.start (launcher, init caller fmPj))).suspended = 0 := fun w haway => by
    refine sumOf_eq_zero fun run frame hframe => ?_
    cases frame with
    | inl frame => exact haway
    | inr frame => exact absurd hframe (noneInFlight run frame)
  have hpaid := balanced.paid
  have hreplied := balanced.replied
  rw [away Phase.paidFor rfl, Nat.add_zero] at hpaid
  rw [away Phase.replied rfl, Nat.add_zero] at hreplied
  have hlost := lostReplied_le
    (choices.foldl (joint lenv env).step (Sys.start (launcher, init caller fmPj)))
  refine ⟨hpaid, ?_, ?_, fun agree => ?_, fun none => ⟨?_, ?_⟩⟩
  · rw [hreplied]
    exact Nat.le_add_right _ _
  · rw [hreplied, hpaid]
    exact Nat.add_le_add_left hlost _
  · have := agree.paid
    omega
  · rw [hpaid, none, Nat.add_zero]
  · rw [none] at hlost
    rw [hreplied, Nat.le_zero.mp hlost, Nat.add_zero]

/-! ## A comment that is paid for and not stored -/

/-- Replies of canisters that do what they are asked, to either canister, but that the image store
answers with a status. -/
def jointReply (status : Nat) : (frame : Launcher.Frame ⊕ Frame) → Sum.elim Launcher.Rep Rep frame
  | .inl frame => Launcher.sampleReply frame
  | .inr (.httpRequest ..) => .ok ⟨status, []⟩
  | .inr frame => sampleReply frame

/-- A choice for the launcher alone, with the replies of `jointReply`. -/
def jointChoice : Launcher.Choice → JointChoice
  | .receive a message => .receive a (.inl message)
  | .deliver a run => .deliver a run
  | .resume a run _ => .resume a run (jointReply 200)

/-- A user creates a project, and comments on it with an image, whose upload is answered with a
status. -/
def commentSchedule (status : Nat) : List JointChoice :=
  Launcher.sampleSchedule.map jointChoice ++
    [.receive Launcher.sampleAmbient
        (.inr (.addComment Launcher.sampleUser { sampleComment with imageUrl := some "a" })),
      .deliver Launcher.sampleAmbient 15, .resume Launcher.sampleAmbient 15 (jointReply status),
      .resume Launcher.sampleAmbient 15 (jointReply status), .deliver Launcher.sampleAmbient 15,
      .resume Launcher.sampleAmbient 15 (jointReply status)]

/-- The two canisters of the sample. -/
def jointStart : JointSystem :=
  .start (Launcher.sampleStart.state, init Launcher.sampleCanister sampleMetadata)

/-- What the sample comes to. -/
def commentResult (status : Nat) : JointSystem :=
  (commentSchedule status).foldl (joint Launcher.sampleEnv sampleEnv).step jointStart

theorem commentResult_noneInFlight {status : Nat}
    (h : (commentResult status).suspended.isEmpty = true) (run : Nat) (frame : Frame) :
    (commentResult status).suspended[run]? ≠ some (.inr frame) := by
  rw [Table.get_of_isEmpty h]
  intro hframe
  cases hframe

/-- An image that is uploaded leaves a comment that is paid for, counted and stored. -/
theorem comments_balanced_sample :
    Settled (commentResult 200) ∧ (commentResult 200).state.2.comments.size = 1 ∧
      Agree (commentResult 200) := by
  have settled : Settled (commentResult 200) :=
    comments_balanced Launcher.sampleEnv sampleEnv Launcher.sampleStart.state
      Launcher.sampleCanister sampleMetadata (commentSchedule 200)
      (commentResult_noneInFlight (by decide +kernel))
  exact ⟨settled, by decide +kernel, settled.agree_iff.mpr (by decide +kernel)⟩

/-- The image store answers 500: `upload_file` traps, and the points of the comment are gone. -/
theorem not_comments_equal :
    ¬ ∀ (lenv : Launcher.Env) (env : Env) (launcher : Launcher.State) (caller : Principal)
        (fmPj : ExtTreeMap String String compare) (choices : List JointChoice),
      (∀ (run : Nat) (frame : Frame),
        (choices.foldl (joint lenv env).step
          (Sys.start (launcher, init caller fmPj))).suspended[run]? ≠ some (.inr frame)) →
      Agree (choices.foldl (joint lenv env).step (Sys.start (launcher, init caller fmPj))) := by
  intro h
  have agree : Agree (commentResult 500) :=
    h Launcher.sampleEnv sampleEnv Launcher.sampleStart.state Launcher.sampleCanister
      sampleMetadata (commentSchedule 500) (commentResult_noneInFlight (by decide +kernel))
  have paid := agree.paid
  have one : (commentResult 500).tally (fun entry => deducts entry.cause) = 1 := by
    decide +kernel
  have zero : (commentResult 500).state.2.comments.size = 0 := by
    decide +kernel
  rw [one, zero] at paid
  exact absurd paid Nat.one_ne_zero

end Fomowell.Project
