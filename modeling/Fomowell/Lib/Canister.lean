import Fomowell.Lib.Runs
import Fomowell.Lib.Table
import Mathlib.Algebra.Order.BigOperators.Group.List
import Mathlib.Algebra.Order.Ring.Nat

/-!
# Programs that run in segments

A service that answers messages and, while it does, awaits answers from other services. A run of a
method is cut into segments at its awaits. The writes of one segment commit together when it ends;
a segment that traps undoes its own writes and ends the run, and what earlier segments of the run
committed stays. Between two segments of a run, segments of any other run may be executed.

A `Program` gives the segments as partial functions of the state (`none` is the trap). Where a run
awaits, it leaves a `frame` behind: the local variables it goes on with. `Rep frame` is the type of
the replies that may resume it. A call to a service that is part of the state is executed by
`deliver`, which leaves a frame that awaits the reply alone; a call that was never delivered, or
whose callee trapped, is resumed by a rejection.

`Sys` is the state with the frames of the suspended runs and the log of all segments, and a schedule
is a list of labels: any message may arrive, any call be delivered, and any run be resumed, in any
order and with any reply. The rules carry what one segment does to what a schedule does: `step_cases`
says what a step can be, `frames_after` keeps a property of every suspended frame, and `sumOf_after`
counts the suspended frames by a weight. A run is followed through its `history`.
-/

namespace Canister

open Std Table

variable {α σ μ φ ρ : Type} {Rep : φ → Type}

/-- How a segment ends: with the answer of the run, or at the next await. -/
inductive Next (φ ρ : Type)
  | returned (answer : ρ)
  | awaits (frame : φ)

/-- What a segment starts with: a message, the delivery of the call that a frame awaits, or the
reply to it. -/
inductive Cause (μ φ : Type) (Rep : φ → Type)
  | received (message : μ)
  | delivered (frame : φ)
  | resumed (frame : φ) (reply : Rep frame)

/-- The delivery of a call. -/
def Cause.isDelivery : Cause μ φ Rep → Bool
  | .delivered _ => true
  | _ => false

/-- The segments of a program. Each reads an ambient value that its scheduler chooses. -/
structure Program (α σ μ φ ρ : Type) (Rep : φ → Type) where
  receive : α → μ → σ → Option (σ × Next φ ρ)
  deliver : α → φ → σ → Option (σ × φ)
  resume : α → (frame : φ) → Rep frame → σ → Option (σ × Next φ ρ)

/-- The segment that a cause starts. -/
def Program.segment (P : Program α σ μ φ ρ Rep) (a : α) :
    Cause μ φ Rep → σ → Option (σ × Next φ ρ)
  | .received message, st => P.receive a message st
  | .delivered frame, st => (P.deliver a frame st).map fun r => (r.1, .awaits r.2)
  | .resumed frame reply, st => P.resume a frame reply st

/-- One segment in the log. The outcome `none` is a trap. -/
structure Entry (μ φ ρ : Type) (Rep : φ → Type) where
  run : Nat
  cause : Cause μ φ Rep
  outcome : Option (Next φ ρ)

/-- The state, the frames of the suspended runs, and the segments executed, latest first. -/
structure Sys (σ μ φ ρ : Type) (Rep : φ → Type) where
  state : σ
  suspended : ExtTreeMap Nat φ compare
  log : List (Entry μ φ ρ Rep)

/-- A choice of the scheduler. A run is resumed with a reply to whatever frame it is suspended at. -/
inductive Label (α μ φ : Type) (Rep : φ → Type)
  | receive (ambient : α) (message : μ)
  | deliver (ambient : α) (run : Nat)
  | resume (ambient : α) (run : Nat) (reply : (frame : φ) → Rep frame)

namespace Sys

/-- Nothing is suspended and nothing has happened. -/
def start (st : σ) : Sys σ μ φ ρ Rep := ⟨st, ∅, []⟩

/-- The system after a segment of a run ended. -/
def after (s : Sys σ μ φ ρ Rep) (run : Nat) (cause : Cause μ φ Rep)
    (result : Option (σ × Next φ ρ)) : Sys σ μ φ ρ Rep where
  state :=
    match result with
    | some (st, _) => st
    | none => s.state
  suspended :=
    match result with
    | some (_, .awaits frame) => s.suspended.insert run frame
    | _ => s.suspended.erase run
  log := ⟨run, cause, result.map Prod.snd⟩ :: s.log

/-- A segment may start: a message takes the next number for its run, and any other cause needs its
run suspended at its frame. -/
def Enabled (s : Sys σ μ φ ρ Rep) (run : Nat) : Cause μ φ Rep → Prop
  | .received _ => run = s.log.length
  | .delivered frame => s.suspended[run]? = some frame
  | .resumed frame _ => s.suspended[run]? = some frame

/-- The segment that a choice starts: in what ambient, of which run, and with what cause. -/
def starts (s : Sys σ μ φ ρ Rep) : Label α μ φ Rep → Option (α × Nat × Cause μ φ Rep)
  | .receive a message => some (a, s.log.length, .received message)
  | .deliver a run => s.suspended[run]?.map fun frame => (a, run, .delivered frame)
  | .resume a run reply => s.suspended[run]?.map fun frame => (a, run, .resumed frame (reply frame))

/-- Runs are numbered below the length of the log. -/
structure Ordered (s : Sys σ μ φ ρ Rep) : Prop where
  suspended : ∀ run frame, s.suspended[run]? = some frame → run < s.log.length
  logged : ∀ entry ∈ s.log, entry.run < s.log.length

end Sys

open Sys

/-- One step of a schedule. A label that names no suspended run does nothing, and neither does the
delivery of a call whose callee traps. -/
def Program.step (P : Program α σ μ φ ρ Rep) (s : Sys σ μ φ ρ Rep) :
    Label α μ φ Rep → Sys σ μ φ ρ Rep
  | .receive a message =>
    s.after s.log.length (.received message) (P.segment a (.received message) s.state)
  | .deliver a run =>
    match s.suspended[run]? with
    | some frame =>
      match P.segment a (.delivered frame) s.state with
      | some result => s.after run (.delivered frame) (some result)
      | none => s
    | none => s
  | .resume a run reply =>
    match s.suspended[run]? with
    | some frame =>
      s.after run (.resumed frame (reply frame))
        (P.segment a (.resumed frame (reply frame)) s.state)
    | none => s

variable {P : Program α σ μ φ ρ Rep} {s : Sys σ μ φ ρ Rep}

/-! ## What a step can be -/

/-- A message starts a new run. -/
theorem step_receive (P : Program α σ μ φ ρ Rep) (s : Sys σ μ φ ρ Rep) (a : α) (message : μ) :
    P.step s (.receive a message) =
      s.after s.log.length (.received message) (P.segment a (.received message) s.state) := rfl

/-- A choice that starts no segment does nothing. -/
theorem step_of_idle {label : Label α μ φ Rep} (h : s.starts label = none) : P.step s label = s := by
  cases label with
  | receive a message => cases h
  | deliver a run =>
    have hframe : s.suspended[run]? = none := Option.map_eq_none_iff.mp h
    simp only [Program.step, hframe]
  | resume a run reply =>
    have hframe : s.suspended[run]? = none := Option.map_eq_none_iff.mp h
    simp only [Program.step, hframe]

/-- A segment that a choice starts may start. -/
theorem enabled_of_starts {label : Label α μ φ Rep} {a : α} {run : Nat} {cause : Cause μ φ Rep}
    (h : s.starts label = some (a, run, cause)) : s.Enabled run cause := by
  cases label with
  | receive a message =>
    cases h
    rfl
  | deliver a run =>
    obtain ⟨frame, hframe, h⟩ := Option.map_eq_some_iff.mp h
    cases h
    exact hframe
  | resume a run reply =>
    obtain ⟨frame, hframe, h⟩ := Option.map_eq_some_iff.mp h
    cases h
    exact hframe

/-- **A choice executes the segment that it starts**, unless that is a delivery that traps. -/
theorem step_of_starts {label : Label α μ φ Rep} {a : α} {run : Nat} {cause : Cause μ φ Rep}
    (h : s.starts label = some (a, run, cause)) :
    (cause.isDelivery ∧ P.segment a cause s.state = none ∧ P.step s label = s) ∨
      (cause.isDelivery → P.segment a cause s.state ≠ none) ∧
        P.step s label = s.after run cause (P.segment a cause s.state) := by
  cases label with
  | receive a message =>
    cases h
    refine .inr ⟨?_, rfl⟩
    intro delivery
    cases delivery
  | deliver a run =>
    obtain ⟨frame, hframe, h⟩ := Option.map_eq_some_iff.mp h
    cases h
    cases hsegment : P.segment a (.delivered frame) s.state with
    | none =>
      refine .inl ⟨rfl, rfl, ?_⟩
      simp only [Program.step, hframe, hsegment]
    | some result =>
      refine .inr ⟨fun _ => Option.some_ne_none result, ?_⟩
      simp only [Program.step, hframe, hsegment]
  | resume a run reply =>
    obtain ⟨frame, hframe, h⟩ := Option.map_eq_some_iff.mp h
    cases h
    refine .inr ⟨?_, ?_⟩
    · intro delivery
      cases delivery
    · simp only [Program.step, hframe]

/-- **A step does nothing, or executes the segment that its choice starts.** -/
theorem step_cases (P : Program α σ μ φ ρ Rep) (s : Sys σ μ φ ρ Rep) (label : Label α μ φ Rep) :
    P.step s label = s ∨ ∃ a run cause, s.starts label = some (a, run, cause) ∧
      s.Enabled run cause ∧ (cause.isDelivery → P.segment a cause s.state ≠ none) ∧
      P.step s label = s.after run cause (P.segment a cause s.state) := by
  cases hstarts : s.starts label with
  | none => exact .inl (step_of_idle hstarts)
  | some started =>
    obtain ⟨a, run, cause⟩ := started
    obtain ⟨_, _, e⟩ | ⟨returns, e⟩ := step_of_starts (P := P) hstarts
    · exact .inl e
    · exact .inr ⟨a, run, cause, rfl, enabled_of_starts hstarts, returns, e⟩

/-- A choice that resumes a frame executes its segment. -/
theorem step_resumed {label : Label α μ φ Rep} {a : α} {run : Nat} {frame : φ} {reply : Rep frame}
    (h : s.starts label = some (a, run, .resumed frame reply)) :
    P.step s label =
      s.after run (.resumed frame reply) (P.segment a (.resumed frame reply) s.state) := by
  obtain ⟨delivery, _, _⟩ | ⟨_, e⟩ := step_of_starts (P := P) h
  · cases delivery
  · exact e

/-- A choice that resumes a frame with a reply that its segment takes leaves the state the segment
ends in. -/
theorem step_resumed_state {label : Label α μ φ Rep} {a : α} {run : Nat} {frame : φ}
    {reply : Rep frame} {st' : σ} {next : Next φ ρ}
    (h : s.starts label = some (a, run, .resumed frame reply))
    (ends : P.segment a (.resumed frame reply) s.state = some (st', next)) :
    (P.step s label).state = st' := by
  rw [step_resumed h, ends]
  rfl

/-- **The rule for the state of one step.** Whatever holds of a state and itself, and of the states
before and after each segment that the choice may start, holds of the states before and after the
step. -/
theorem step_state {R : σ → σ → Prop} (refl : ∀ st, R st st) {label : Label α μ φ Rep}
    (ends : ∀ a run cause st' next, s.starts label = some (a, run, cause) → s.Enabled run cause →
      P.segment a cause s.state = some (st', next) → R s.state st') :
    R s.state (P.step s label).state := by
  rcases step_cases P s label with e | ⟨a, run, cause, starts, enabled, _, e⟩
  · rw [e]
    exact refl s.state
  rw [e]
  cases hsegment : P.segment a cause s.state with
  | none => exact refl s.state
  | some result => exact ends a run cause result.1 result.2 starts enabled hsegment

/-- **The invariant rule for the state.** What every segment that ends keeps, every schedule keeps. -/
theorem state_invariant {I : σ → Prop}
    (keep : ∀ a cause st st' next, P.segment a cause st = some (st', next) → I st → I st')
    {st : σ} (h : I st) (labels : List (Label α μ φ Rep)) :
    I (labels.foldl P.step (start st)).state := by
  refine Runs.foldl_invariant (I := fun s : Sys σ μ φ ρ Rep => I s.state) (fun s label hs => ?_) h
    labels
  refine step_state (P := P) (s := s) (R := fun st st' => I st → I st')
    (fun _ hst => hst) ?_ hs
  intro a _ cause st' next _ _ hsegment
  exact keep a cause s.state st' next hsegment

/-! ## Suspended frames -/

/-- The frame that a segment takes up, if it takes up one. -/
def Cause.frame? : Cause μ φ Rep → Option φ
  | .received _ => none
  | .delivered frame => some frame
  | .resumed frame _ => some frame

/-- The frame at which a segment ends, if it does not end the run. -/
def Next.frame? : Next φ ρ → Option φ
  | .returned _ => none
  | .awaits frame => some frame

/-- The frame that a segment leaves behind, if it leaves one. -/
def frameOf : Option (σ × Next φ ρ) → Option φ
  | some (_, next) => next.frame?
  | none => none

/-- The frame that a segment leaves behind, from its entry in the log. -/
theorem frameOf_eq (result : Option (σ × Next φ ρ)) :
    frameOf result = (result.map Prod.snd).bind Next.frame? := by
  cases result <;> rfl

/-- After a segment, its run is suspended at the frame that the segment left behind. -/
theorem get_after (s : Sys σ μ φ ρ Rep) (run : Nat) (cause : Cause μ φ Rep)
    (result : Option (σ × Next φ ρ)) : (s.after run cause result).suspended[run]? = frameOf result := by
  rcases result with _ | ⟨st, answer | frame⟩
  · exact ExtTreeMap.getElem?_erase_self
  · exact ExtTreeMap.getElem?_erase_self
  · exact ExtTreeMap.getElem?_insert_self

/-- Any other run is suspended where it was. -/
theorem get_after_of_ne (s : Sys σ μ φ ρ Rep) {run run' : Nat} (cause : Cause μ φ Rep)
    (result : Option (σ × Next φ ρ)) (h : run' ≠ run) :
    (s.after run cause result).suspended[run']? = s.suspended[run']? := by
  rcases result with _ | ⟨st, answer | frame⟩
  · exact get_erase_of_ne _ h
  · exact get_erase_of_ne _ h
  · exact get_insert_of_ne _ _ h

/-- Nothing is suspended at the start. -/
theorem get_start (st : σ) (run : Nat) :
    (start st : Sys σ μ φ ρ Rep).suspended[run]? = none := ExtTreeMap.getElem?_empty

/-! ## The numbers of runs -/

theorem ordered_start (st : σ) : (start st : Sys σ μ φ ρ Rep).Ordered := by
  refine ⟨fun run frame h => ?_, fun entry h => nomatch h⟩
  rw [get_start] at h
  cases h

/-- Every step keeps the runs numbered below the length of the log. -/
theorem ordered_step (h : s.Ordered) (label : Label α μ φ Rep) : (P.step s label).Ordered := by
  rcases step_cases P s label with e | ⟨a, run, cause, _, enabled, _, e⟩
  · rw [e]
    exact h
  rw [e]
  have hrun : run < s.log.length + 1 := by
    cases cause with
    | received message => exact Nat.lt_succ_of_le (Nat.le_of_eq enabled)
    | delivered frame => exact Nat.lt_succ_of_lt (h.suspended run frame enabled)
    | resumed frame reply => exact Nat.lt_succ_of_lt (h.suspended run frame enabled)
  refine ⟨fun run' frame hframe => ?_, fun entry hentry => ?_⟩
  · by_cases hne : run' = run
    · exact hne ▸ hrun
    · refine Nat.lt_succ_of_lt (h.suspended run' frame ?_)
      rw [← get_after_of_ne s cause _ hne]
      exact hframe
  · rcases List.mem_cons.mp hentry with rfl | hmem
    · exact hrun
    · exact Nat.lt_succ_of_lt (h.logged entry hmem)

/-- Before an enabled segment, its run is suspended at the frame that the segment takes up. -/
theorem Sys.Enabled.get_eq {run : Nat} {cause : Cause μ φ Rep} (h : s.Enabled run cause)
    (ordered : s.Ordered) : s.suspended[run]? = cause.frame? := by
  cases cause with
  | received message =>
    cases hframe : s.suspended[run]? with
    | none => rfl
    | some frame => exact absurd (ordered.suspended run frame hframe) (Nat.not_lt.mpr (Nat.le_of_eq h.symm))
  | delivered frame => exact h
  | resumed frame reply => exact h

/-- Nothing is suspended at the start, so every property holds of what is. -/
theorem frames_start {J : Nat → φ → Prop} (st : σ) :
    ∀ (run : Nat) frame, (start st : Sys σ μ φ ρ Rep).suspended[run]? = some frame → J run frame := by
  intro run frame h
  rw [get_start] at h
  cases h

/-- **The rule for suspended frames.** A property of a run and its frame holds of every suspended
frame after a segment, if the segment leaves it true of the other frames and makes it true of its
own. -/
theorem frames_after {J J' : Nat → φ → Prop} {run : Nat} {cause : Cause μ φ Rep}
    {result : Option (σ × Next φ ρ)}
    (h : ∀ (run : Nat) frame, s.suspended[run]? = some frame → J run frame)
    (stable : ∀ run frame, J run frame → J' run frame)
    (own : ∀ frame, frameOf result = some frame → J' run frame) :
    ∀ (run' : Nat) frame, (s.after run cause result).suspended[run']? = some frame →
      J' run' frame := by
  intro run' frame hframe
  by_cases hne : run' = run
  · rw [hne] at hframe ⊢
    rw [get_after] at hframe
    exact own frame hframe
  · rw [get_after_of_ne s cause result hne] at hframe
    exact stable run' frame (h run' frame hframe)

/-- The weight of the frame that a segment takes up or leaves behind. -/
def weigh (w : φ → Nat) (frame? : Option φ) : Nat := frame?.elim 0 w

/-- **The counting rule.** Counted by a weight, the suspended frames lose the frame that a segment
takes up and gain the one that it leaves behind. -/
theorem sumOf_after (w : φ → Nat) {run : Nat} {cause : Cause μ φ Rep} (enabled : s.Enabled run cause)
    (ordered : s.Ordered) (result : Option (σ × Next φ ρ)) :
    sumOf (fun _ => w) (s.after run cause result).suspended + weigh w cause.frame? =
      sumOf (fun _ => w) s.suspended + weigh w (frameOf result) := by
  have hbefore := sumOf_erase (fun _ => w) s.suspended run
  have hafter := sumOf_erase (fun _ => w) (s.after run cause result).suspended run
  have herase : (s.after run cause result).suspended.erase run = s.suspended.erase run := by
    rcases result with _ | ⟨st, answer | frame⟩
    · exact erase_erase _ _
    · exact erase_erase _ _
    · exact erase_insert _ _ _
  rw [weightAt, enabled.get_eq ordered] at hbefore
  rw [weightAt, get_after, herase] at hafter
  unfold weigh
  omega

/-! ## Tallies -/

/-- The sum of a number over the segments executed. -/
def Sys.tally (s : Sys σ μ φ ρ Rep) (t : Entry μ φ ρ Rep → Nat) : Nat := (s.log.map t).sum

theorem tally_after (t : Entry μ φ ρ Rep → Nat) (s : Sys σ μ φ ρ Rep) (run : Nat)
    (cause : Cause μ φ Rep) (result : Option (σ × Next φ ρ)) :
    (s.after run cause result).tally t = t ⟨run, cause, result.map Prod.snd⟩ + s.tally t :=
  List.sum_cons

/-- A smaller number has a smaller sum. -/
theorem tally_le {t t' : Entry μ φ ρ Rep → Nat} (h : ∀ entry, t entry ≤ t' entry)
    (s : Sys σ μ φ ρ Rep) : s.tally t ≤ s.tally t' :=
  List.sum_le_sum fun entry _ => h entry

/-! ## The history of one run -/

/-- The segments of one run, latest first. -/
def Sys.history (s : Sys σ μ φ ρ Rep) (run : Nat) : List (Entry μ φ ρ Rep) :=
  s.log.filter fun entry => entry.run = run

/-- A segment joins the history of its run. -/
theorem history_after (s : Sys σ μ φ ρ Rep) (run : Nat) (cause : Cause μ φ Rep)
    (result : Option (σ × Next φ ρ)) :
    (s.after run cause result).history run =
      ⟨run, cause, result.map Prod.snd⟩ :: s.history run := by
  unfold history after
  rw [List.filter_cons_of_pos (by simp)]

/-- The history of any other run is what it was. -/
theorem history_after_of_ne (s : Sys σ μ φ ρ Rep) {run run' : Nat} (cause : Cause μ φ Rep)
    (result : Option (σ × Next φ ρ)) (h : run' ≠ run) :
    (s.after run cause result).history run' = s.history run' := by
  unfold history after
  rw [List.filter_cons_of_neg (by simpa using fun e => h e.symm)]

/-- A run that has not started has no history. -/
theorem history_eq_nil (ordered : s.Ordered) {run : Nat} (h : s.log.length ≤ run) :
    s.history run = [] := by
  refine List.filter_eq_nil_iff.mpr fun entry hentry e => ?_
  have hlt := ordered.logged entry hentry
  rw [of_decide_eq_true e] at hlt
  exact absurd hlt (Nat.not_lt.mpr h)

/-! ## Two services side by side -/

section

variable {β σ' μ' φ' ρ' ψ ω : Type} {Rep' : φ' → Type}

/-- The end of a segment, with its frame and its answer seen from outside. -/
def Next.map (f : φ → ψ) (g : ρ → ω) : Next φ ρ → Next ψ ω
  | .returned answer => .returned (g answer)
  | .awaits frame => .awaits (f frame)

/-- Two services, each with its own state, where the first one serves calls of the second: `serve`
executes the call that a frame of the second awaits, in the state of the first. -/
def Program.serving (P : Program α σ μ φ ρ Rep) (Q : Program β σ' μ' φ' ρ' Rep') (clock : α → β)
    (serve : α → φ' → σ → Option (σ × φ')) :
    Program α (σ × σ') (μ ⊕ μ') (φ ⊕ φ') (ρ ⊕ ρ') (Sum.elim Rep Rep') where
  receive
    | a, .inl message, (st, st') =>
      (P.receive a message st).map fun r => ((r.1, st'), r.2.map .inl .inl)
    | a, .inr message, (st, st') =>
      (Q.receive (clock a) message st').map fun r => ((st, r.1), r.2.map .inr .inr)
  deliver
    | a, .inl frame, (st, st') => (P.deliver a frame st).map fun r => ((r.1, st'), .inl r.2)
    | a, .inr frame, (st, st') => (serve a frame st).map fun r => ((r.1, st'), .inr r.2)
  resume
    | a, .inl frame, reply, (st, st') =>
      (P.resume a frame reply st).map fun r => ((r.1, st'), r.2.map .inl .inl)
    | a, .inr frame, reply, (st, st') =>
      (Q.resume (clock a) frame reply st').map fun r => ((st, r.1), r.2.map .inr .inr)

/-- A cause of the first of two services. -/
def Cause.inl : Cause μ φ Rep → Cause (μ ⊕ μ') (φ ⊕ φ') (Sum.elim Rep Rep')
  | .received message => .received (.inl message)
  | .delivered frame => .delivered (.inl frame)
  | .resumed frame reply => .resumed (.inl frame) reply

/-- What a segment of two services is: a segment of one of them, which leaves the state of the other,
or a call between them. -/
inductive ServingSegment (P : Program α σ μ φ ρ Rep) (Q : Program β σ' μ' φ' ρ' Rep') (clock : α → β)
    (serve : α → φ' → σ → Option (σ × φ')) (a : α) :
    Cause (μ ⊕ μ') (φ ⊕ φ') (Sum.elim Rep Rep') → σ × σ' → σ × σ' → Next (φ ⊕ φ') (ρ ⊕ ρ') → Prop
  | first {both st st₁ st' next} (c : Cause μ φ Rep) (hcause : both = c.inl)
    (h : P.segment a c st = some (st₁, next)) :
    ServingSegment P Q clock serve a both (st, st') (st₁, st') (next.map .inl .inl)
  | received {message st st' st₁' next} (h : Q.receive (clock a) message st' = some (st₁', next)) :
    ServingSegment P Q clock serve a (.received (.inr message)) (st, st') (st, st₁')
      (next.map .inr .inr)
  | served {frame st st₁ st' frame'} (h : serve a frame st = some (st₁, frame')) :
    ServingSegment P Q clock serve a (.delivered (.inr frame)) (st, st') (st₁, st')
      (.awaits (.inr frame'))
  | resumed {frame reply st st' st₁' next}
    (h : Q.resume (clock a) frame reply st' = some (st₁', next)) :
    ServingSegment P Q clock serve a (.resumed (.inr frame) reply) (st, st') (st, st₁')
      (next.map .inr .inr)

/-- **The inversion** of a segment of two services. -/
theorem serving_segment {Q : Program β σ' μ' φ' ρ' Rep'} {clock : α → β}
    {serve : α → φ' → σ → Option (σ × φ')} {a : α}
    {cause : Cause (μ ⊕ μ') (φ ⊕ φ') (Sum.elim Rep Rep')} {sts sts' : σ × σ'}
    {next : Next (φ ⊕ φ') (ρ ⊕ ρ')}
    (h : (P.serving Q clock serve).segment a cause sts = some (sts', next)) :
    ServingSegment P Q clock serve a cause sts sts' next := by
  cases cause with
  | received message =>
    cases message with
    | inl message =>
      obtain ⟨⟨_, _⟩, hreceive, e⟩ := Option.map_eq_some_iff.mp h
      cases e
      exact .first (.received message) rfl hreceive
    | inr message =>
      obtain ⟨⟨_, _⟩, hreceive, e⟩ := Option.map_eq_some_iff.mp h
      cases e
      exact .received hreceive
  | delivered frame =>
    obtain ⟨⟨_, _⟩, hdeliver, e⟩ := Option.map_eq_some_iff.mp h
    cases e
    cases frame with
    | inl frame =>
      obtain ⟨⟨_, left⟩, hinner, e⟩ := Option.map_eq_some_iff.mp hdeliver
      cases e
      have hsegment : P.segment a (.delivered frame) _ = some (_, .awaits left) :=
        Option.map_eq_some_iff.mpr ⟨_, hinner, rfl⟩
      exact .first (.delivered frame) rfl hsegment
    | inr frame =>
      obtain ⟨⟨_, _⟩, hserve, e⟩ := Option.map_eq_some_iff.mp hdeliver
      cases e
      exact .served hserve
  | resumed frame reply =>
    cases frame with
    | inl frame =>
      obtain ⟨⟨_, _⟩, hresume, e⟩ := Option.map_eq_some_iff.mp h
      cases e
      exact .first (.resumed frame reply) rfl hresume
    | inr frame =>
      obtain ⟨⟨_, _⟩, hresume, e⟩ := Option.map_eq_some_iff.mp h
      cases e
      exact .resumed hresume

end

end Canister
