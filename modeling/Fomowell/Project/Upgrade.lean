import Fomowell.Project.Segments

/-!
# What an upgrade takes from a project canister

`pre_upgrade` saves nothing, so an upgrade leaves the comments and a fresh heap: no metadata, the
anonymous owner, and a counter at zero. `survivesUpgrade_iff`: a canister comes through an upgrade as
it was, with every later comment stored above the others, exactly where it had nothing on the heap
to lose.

Without metadata a comment is still charged for and never stored (`keepsComments`): the segment after
the upload traps. That is why the second half of the law holds of a canister that had no metadata
before the upgrade either.
-/

namespace Fomowell.Project

open Std Canister Table Runs

/-! ## The law -/

/-- No stored comment is changed, and a new one is stored above every other. -/
structure Appends (st st' : State) : Prop where
  keeps : ∀ (k : Nat) com, st.comments[k]? = some com → st'.comments[k]? = some com
  above : ∀ (k : Nat), st.comments[k]? = none → st'.comments[k]?.isSome →
    ∀ (j : Nat) com, st.comments[j]? = some com → j < k

/-- The law of an upgrade: metadata, owner and counter are what they were, and so every later schedule
appends its comments. -/
structure SurvivesUpgrade (env : Env) (st : State) : Prop where
  metadata : (upgrade st).heap.metadata = st.heap.metadata
  owner : (upgrade st).heap.owner = st.heap.owner
  count : (upgrade st).heap.count = st.heap.count
  appends : ∀ choices : List Choice,
    Along (program env).step
      (fun s choice => Appends s.state ((program env).step s choice).state)
      (Sys.start (upgrade st)) choices

/-- Nothing is on the heap. -/
def Blank (st : State) : Prop :=
  st.heap.metadata = ∅ ∧ st.heap.owner = Principal.anonymous ∧ st.heap.count = 0

/-! ## A canister without metadata stores nothing -/

/-- A run that has come past the metadata. -/
def Frame.named : Frame → Bool
  | .replyUpdate .. => true
  | .replyUpdateDone .. => true
  | _ => false

/-- There is no metadata, and no run is past it. -/
structure Nameless (s : System) : Prop where
  metadata : s.state.heap.metadata = ∅
  unnamed : ∀ (run : Nat) frame, s.suspended[run]? = some frame → frame.named = false

section

variable {env : Env} {st st' : State} {next : Next Frame Answer}

/-- What a segment of such a canister keeps. -/
structure Keeps (st st' : State) (frame? : Option Frame) : Prop where
  metadata : st'.heap.metadata = st.heap.metadata
  comments : st'.comments = st.comments
  unnamed : ∀ frame, frame? = some frame → frame.named = false

theorem Started.keeps {m : Message} (h : Started st m st' next) : Keeps st st' next.frame? := by
  obtain ⟨hcomments, hmetadata, _⟩ := h.unchanged
  refine ⟨hmetadata, hcomments, fun frame hframe => ?_⟩
  cases h with
  | asks cut =>
    cases hframe
    rfl
  | draws => cases hframe
  | replaces owner => cases hframe

theorem Resumed.keeps {time : Nat} {frame : Frame} {reply : Rep frame}
    (h : Resumed env time st frame reply st' next) (hmetadata : st.heap.metadata = ∅)
    (hunnamed : frame.named = false) : Keeps st st' next.frame? := by
  have nameless : ∀ {fomoIdx}, st.heap.metadata["fomo_idx"]? ≠ some fomoIdx := by
    intro fomoIdx
    rw [hmetadata, ExtTreeMap.getElem?_empty]
    exact fun h => nomatch h
  cases h with
  | refused => exact ⟨rfl, rfl, fun _ hframe => nomatch hframe⟩
  | uploads image => exact ⟨rfl, rfl, fun frame hframe => by cases hframe; rfl⟩
  | replies plain named parsed => exact absurd named nameless
  | repliesImage status reads named parsed => exact absurd named nameless
  | stores fits => cases hunnamed

/-- **Without metadata no comment is stored**, and no run gets that far. -/
theorem keepsComments (s : System) (choice : Choice) (nameless : Nameless s) :
    Nameless ((program env).step s choice) ∧
      ((program env).step s choice).state.comments = s.state.comments := by
  rcases step_cases (program env) s choice with e | ⟨time, run, cause, _, enabled, _, e⟩
  · rw [e]
    exact ⟨nameless, rfl⟩
  rw [e]
  have keeps : ∀ result, (program env).segment time cause s.state = some result →
      Keeps s.state result.1 result.2.frame? := by
    rintro ⟨st', next⟩ h
    cases cause with
    | received message => exact (receive_started h).keeps
    | delivered frame =>
      have hnamed := nameless.unnamed run frame enabled
      obtain ⟨⟨_, frame'⟩, hserve, h⟩ := Option.map_eq_some_iff.mp h
      cases h
      obtain ⟨served, hserved, h⟩ := Option.map_eq_some_iff.mp hserve
      cases h
      refine ⟨rfl, rfl, fun frame'' hframe => ?_⟩
      cases hframe
      cases frame with
      | spendingPoints launcher c =>
        cases hserved
        rfl
      | replyUpdate launcher fi idx com => cases hnamed
      | _ => cases hserved
    | resumed frame reply =>
      exact (resume_resumed h).keeps nameless.metadata (nameless.unnamed run frame enabled)
  cases hsegment : (program env).segment time cause s.state with
  | none =>
    exact ⟨⟨nameless.metadata, frames_after nameless.unnamed (fun _ _ h => h) fun _ h => nomatch h⟩, rfl⟩
  | some result =>
    obtain ⟨hmetadata, hcomments, hunnamed⟩ := keeps result hsegment
    exact ⟨⟨hmetadata.trans nameless.metadata,
      frames_after nameless.unnamed (fun _ _ h => h) hunnamed⟩, hcomments⟩

/-- Comments that are the same were appended to. -/
theorem Appends.of_eq (h : st'.comments = st.comments) : Appends st st' := by
  refine ⟨fun k com hcom => ?_, fun k hnone hsome => ?_⟩
  · rw [h]
    exact hcom
  · rw [h, hnone] at hsome
    cases hsome

/-- After any upgrade the comments stay what they are. -/
theorem appends_upgraded (st : State) (choices : List Choice) :
    Along (program env).step
      (fun s choice => Appends s.state ((program env).step s choice).state)
      (Sys.start (upgrade st)) choices := by
  exact Along.of_invariant (I := Nameless) (fun s choice h => (keepsComments s choice h).1)
    (fun s choice h => .of_eq (keepsComments s choice h).2) ⟨rfl, frames_start _⟩ choices

end

/-! ## Reachable canisters -/

/-- What can happen to a canister: a choice of its scheduler, or an upgrade, which drops every
suspended run. -/
inductive Event
  | choice (choice : Choice)
  | upgrade

/-- The canister after an event. -/
def live (env : Env) (s : System) : Event → System
  | .choice choice => (program env).step s choice
  | .upgrade => { s with state := upgrade s.state, suspended := ∅ }

/-- The canister after some events from its installation. -/
def lived (env : Env) (caller : Principal) (fmPj : ExtTreeMap String String compare)
    (events : List Event) : System :=
  events.foldl (live env) (Sys.start (init caller fmPj))

/-- **What survives an upgrade**: a reachable canister comes through one exactly where it has nothing
on the heap. -/
theorem survivesUpgrade_iff (env : Env) (caller : Principal)
    (fmPj : ExtTreeMap String String compare) (events : List Event) :
    SurvivesUpgrade env (lived env caller fmPj events).state ↔
      Blank (lived env caller fmPj events).state := by
  constructor
  · intro survives
    exact ⟨survives.metadata.symm, survives.owner.symm, survives.count.symm⟩
  · rintro ⟨hmetadata, howner, hcount⟩
    exact ⟨hmetadata.symm, howner.symm, hcount.symm, appends_upgraded _⟩

/-- One comment, from its message to its end. -/
def sampleEvents : List Event :=
  [.choice (.receive 0 (.addComment sampleOwner sampleComment)), .choice (.deliver 0 0),
    .choice (.resume 0 0 sampleReply), .choice (.deliver 0 0), .choice (.resume 0 0 sampleReply)]

/-- **An upgrade sets the counter back**: with one comment stored, the next one would get its index. -/
theorem not_survivesUpgrade :
    ¬ ∀ env caller fmPj events, SurvivesUpgrade env (lived env caller fmPj events).state := by
  intro all
  have survives := (all sampleEnv sampleOwner sampleMetadata sampleEvents).count
  have hcount : (lived sampleEnv sampleOwner sampleMetadata sampleEvents).state.heap.count = 1 := by
    decide +kernel
  rw [hcount] at survives
  cases survives

end Fomowell.Project
