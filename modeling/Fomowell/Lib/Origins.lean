import Fomowell.Lib.Canister

/-!
# Where a run comes from

A frame holds what its run goes on with, and a scheduler may resume it long after the message that started
the run. `Program.Tells I J` is what makes a frame tell of that message: a first segment leaves a frame in
the relation `J` to its message, and every later one keeps to it. `J` may read the system, where steps only
add to what it asks for; `I` is an invariant of the system that all this may use.

Then every suspended frame, and every frame that a logged segment took up, is in this relation to the message
that started its run (`Program.Tells.told`). A run that has ended has no further segment: the segment that
ended it is the only one of its run that did (`ended_once`). And it was begun by one message (`began_once`).

A frame may also hold what a later reply gave its run. `Program.HandsDown` says that no segment makes it up,
and then some segment of the run had a cause that gave it (`Program.HandsDown.step`).
-/

namespace Canister

open Sys

variable {α σ μ φ ρ : Type} {Rep : φ → Type}

/-- A run was started by a message. -/
def Sys.Began (s : Sys σ μ φ ρ Rep) (run : Nat) (message : μ) : Prop :=
  ∃ outcome, (⟨run, .received message, outcome⟩ : Entry μ φ ρ Rep) ∈ s.log

/-- **Frames that tell** of the message that started their run. -/
structure Program.Tells (P : Program α σ μ φ ρ Rep) (I : Sys σ μ φ ρ Rep → Prop)
    (J : Sys σ μ φ ρ Rep → μ → φ → Prop) : Prop where
  grows : ∀ {s} label {message frame}, I s → J s message frame → J (P.step s label) message frame
  received : ∀ {s a message st' frame}, P.receive a message s.state = some (st', .awaits frame) → I s →
    J s message frame
  delivered : ∀ {s a message frame st' frame'}, P.deliver a frame s.state = some (st', frame') → I s →
    J s message frame → J s message frame'
  resumed : ∀ {s a message frame reply st' frame'},
    P.resume a frame reply s.state = some (st', .awaits frame') → I s → J s message frame →
      J s message frame'

variable {P : Program α σ μ φ ρ Rep} {s : Sys σ μ φ ρ Rep} {I : Sys σ μ φ ρ Rep → Prop}
  {J : Sys σ μ φ ρ Rep → μ → φ → Prop}

/-- Frames tell of a message, if every segment that leaves a frame has it of the message that it answers,
or of the frame that it takes up. -/
theorem Program.Tells.of_segment
    (grows : ∀ {s} label {message frame}, I s → J s message frame → J (P.step s label) message frame)
    (left : ∀ {s a cause st' next message frame}, P.segment a cause s.state = some (st', next) → I s →
      (cause = .received message ∨ ∃ taken, cause.frame? = some taken ∧ J s message taken) →
        next.frame? = some frame → J s message frame) : P.Tells I J where
  grows := grows
  received {s a message st' frame} h hs := by
    have hsegment : P.segment a (.received message) s.state = some (st', .awaits frame) := h
    exact left hsegment hs (.inl rfl) rfl
  delivered {s a message taken st' frame} h hs tells := by
    have hsegment : P.segment a (.delivered taken) s.state = some (st', .awaits frame) :=
      Option.map_eq_some_iff.mpr ⟨_, h, rfl⟩
    exact left hsegment hs (.inr ⟨taken, rfl, tells⟩) rfl
  resumed {s a message taken reply st' frame} h hs tells := by
    have hsegment : P.segment a (.resumed taken reply) s.state = some (st', .awaits frame) := h
    exact left hsegment hs (.inr ⟨taken, rfl, tells⟩) rfl

/-- A frame of a run tells of the message that started it. -/
def TellsOf (J : Sys σ μ φ ρ Rep → μ → φ → Prop) (s : Sys σ μ φ ρ Rep) (run : Nat) (frame : φ) : Prop :=
  ∃ message, s.Began run message ∧ J s message frame

/-- What frames tell holds of every frame that is suspended, and of every frame that was taken up. -/
structure Told (J : Sys σ μ φ ρ Rep → μ → φ → Prop) (s : Sys σ μ φ ρ Rep) : Prop where
  suspended : ∀ (run : Nat) frame, s.suspended[run]? = some frame → TellsOf J s run frame
  logged : ∀ entry ∈ s.log, ∀ frame, entry.cause.frame? = some frame → TellsOf J s entry.run frame

theorem Sys.Began.after {run run' : Nat} {message : μ} {cause : Cause μ φ Rep}
    {result : Option (σ × Next φ ρ)} (h : s.Began run' message) :
    (s.after run cause result).Began run' message := by
  obtain ⟨outcome, hmem⟩ := h
  exact ⟨outcome, List.mem_cons_of_mem _ hmem⟩

/-- A message, or the frame of another cause, is what the run of an enabled segment tells of. -/
theorem TellsOf.taken (told : ∀ (run : Nat) frame, s.suspended[run]? = some frame → TellsOf J s run frame)
    {run : Nat} {cause : Cause μ φ Rep} {frame : φ} (enabled : s.Enabled run cause)
    (hframe : cause.frame? = some frame) : TellsOf J s run frame := by
  cases cause with
  | received message => cases hframe
  | delivered taken =>
    cases hframe
    exact told run _ enabled
  | resumed taken reply =>
    cases hframe
    exact told run _ enabled

/-- The frame that a segment leaves behind tells of the run that it is a segment of. -/
theorem Program.Tells.left (h : P.Tells I J) (hs : I s)
    (told : ∀ (run : Nat) frame, s.suspended[run]? = some frame → TellsOf J s run frame) {a : α}
    {run : Nat} {cause : Cause μ φ Rep} (enabled : s.Enabled run cause) {frame : φ}
    (hframe : frameOf (P.segment a cause s.state) = some frame) :
    ∃ message, (s.after run cause (P.segment a cause s.state)).Began run message ∧
      J s message frame := by
  cases hsegment : P.segment a cause s.state with
  | none =>
    rw [hsegment] at hframe
    cases hframe
  | some result =>
    obtain ⟨st', next⟩ := result
    rw [hsegment] at hframe
    replace hframe : next.frame? = some frame := hframe
    cases next with
    | returned answer => cases hframe
    | awaits left =>
      cases hframe
      cases cause with
      | received message => exact ⟨message, ⟨_, List.mem_cons_self⟩, h.received hsegment hs⟩
      | delivered taken =>
        obtain ⟨⟨_, frame'⟩, hdeliver, e⟩ := Option.map_eq_some_iff.mp hsegment
        cases e
        obtain ⟨message, began, tells⟩ := told run taken enabled
        exact ⟨message, began.after, h.delivered hdeliver hs tells⟩
      | resumed taken reply =>
        obtain ⟨message, began, tells⟩ := told run taken enabled
        exact ⟨message, began.after, h.resumed hsegment hs tells⟩

/-- What suspended frames tell, they tell after every step. -/
theorem Program.Tells.step_suspended (h : P.Tells I J) (hs : I s)
    (told : ∀ (run : Nat) frame, s.suspended[run]? = some frame → TellsOf J s run frame)
    (label : Label α μ φ Rep) :
    ∀ (run : Nat) frame, (P.step s label).suspended[run]? = some frame →
      TellsOf J (P.step s label) run frame := by
  have grows : ∀ {message frame}, J s message frame → J (P.step s label) message frame :=
    h.grows label hs
  rcases step_cases P s label with e | ⟨a, run, cause, _, enabled, _, e⟩
  · rw [e]
    exact told
  rw [e] at grows ⊢
  refine frames_after told (fun run' frame told => ?_) fun frame hframe => ?_
  · obtain ⟨message, began, tells⟩ := told
    exact ⟨message, began.after, grows tells⟩
  · obtain ⟨message, began, tells⟩ := h.left hs told enabled hframe
    exact ⟨message, began, grows tells⟩

/-- Every step goes on telling. -/
theorem Program.Tells.step (h : P.Tells I J) (hs : I s) (told : Told J s) (label : Label α μ φ Rep) :
    Told J (P.step s label) := by
  refine ⟨h.step_suspended hs told.suspended label, ?_⟩
  have grows : ∀ {message frame}, J s message frame → J (P.step s label) message frame :=
    h.grows label hs
  rcases step_cases P s label with e | ⟨a, run, cause, _, enabled, _, e⟩
  · rw [e]
    exact told.logged
  rw [e] at grows ⊢
  have older : ∀ {run' frame}, TellsOf J s run' frame →
      TellsOf J (s.after run cause (P.segment a cause s.state)) run' frame := by
    rintro run' frame ⟨message, began, tells⟩
    exact ⟨message, began.after, grows tells⟩
  intro entry hentry frame hframe
  rcases List.mem_cons.mp hentry with rfl | hmem
  · exact older (.taken told.suspended enabled hframe)
  · exact older (told.logged entry hmem frame hframe)

theorem told_start (st : σ) : Told J (start st : Sys σ μ φ ρ Rep) :=
  ⟨frames_start st, fun _ hentry => nomatch hentry⟩

/-- **Every frame tells** of the message that started its run, under every schedule. -/
theorem Program.Tells.told (h : P.Tells I J) (keep : ∀ s label, I s → I (P.step s label)) {st : σ}
    (hst : I (start st)) (labels : List (Label α μ φ Rep)) :
    Told J (labels.foldl P.step (start st)) :=
  (Runs.foldl_invariant (I := fun s => I s ∧ Told J s)
    (fun s label so => ⟨keep s label so.1, h.step so.1 so.2 label⟩) ⟨hst, told_start st⟩ labels).2

/-! ## The end of a run -/

/-- A segment that ends its run, with an answer or by a trap. -/
def Entry.Ends (entry : Entry μ φ ρ Rep) : Prop := entry.outcome.bind Next.frame? = none

/-- What is over stays over: no run that has ended is suspended, or has a later segment, and no run is
begun again. -/
structure Over (s : Sys σ μ φ ρ Rep) : Prop where
  ordered : s.Ordered
  suspended : ∀ entry ∈ s.log, entry.Ends → s.suspended[entry.run]? = none
  last : s.log.Pairwise fun later entry => entry.Ends → later.run ≠ entry.run
  first : s.log.Pairwise fun later entry =>
    (∃ message, later.cause = .received message) → later.run ≠ entry.run

theorem over_start (st : σ) : Over (start st : Sys σ μ φ ρ Rep) :=
  ⟨ordered_start st, fun _ hentry => (nomatch hentry), .nil, .nil⟩

theorem step_over (closed : Over s) (label : Label α μ φ Rep) : Over (P.step s label) := by
  have ordered := ordered_step (P := P) closed.ordered label
  rcases step_cases P s label with e | ⟨a, run, cause, _, enabled, _, e⟩
  · rw [e]
    exact closed
  rw [e] at ordered ⊢
  -- a run that has ended is not the run of an enabled segment
  have fresh : ∀ entry ∈ s.log, entry.Ends → run ≠ entry.run := by
    rintro entry hentry ends rfl
    have hnone := closed.suspended entry hentry ends
    cases cause with
    | received message =>
      exact absurd (closed.ordered.logged entry hentry) (Nat.not_lt.mpr (Nat.le_of_eq enabled.symm))
    | delivered frame => exact nomatch hnone.symm.trans enabled
    | resumed frame reply => exact nomatch hnone.symm.trans enabled
  have begun : ∀ entry ∈ s.log, (∃ message, cause = .received message) → run ≠ entry.run := by
    rintro entry hentry ⟨message, rfl⟩
    exact Nat.ne_of_gt ((closed.ordered.logged entry hentry).trans_eq enabled.symm)
  refine ⟨ordered, fun entry hentry ends => ?_, List.pairwise_cons.mpr ⟨fresh, closed.last⟩,
    List.pairwise_cons.mpr ⟨begun, closed.first⟩⟩
  rcases List.mem_cons.mp hentry with rfl | hmem
  · rw [get_after, frameOf_eq]
    exact ends
  · rw [get_after_of_ne s cause _ (fresh entry hmem ends).symm]
    exact closed.suspended entry hmem ends

/-- **One segment ends a run**: two that do are the same one. -/
theorem ended_once (closed : Over s) {entry entry' : Entry μ φ ρ Rep} (hentry : entry ∈ s.log)
    (hentry' : entry' ∈ s.log) (ends : entry.Ends) (ends' : entry'.Ends) (same : entry.run = entry'.run) :
    entry = entry' := by
  -- of two that are apart in the log, the earlier one does not end
  have apart : s.log.Pairwise fun later earlier =>
      later.Ends → earlier.Ends → later.run = earlier.run → later = earlier :=
    closed.last.imp fun last _ ends e => absurd e (last ends)
  have apart' : s.log.Pairwise fun later earlier =>
      earlier.Ends → later.Ends → earlier.run = later.run → earlier = later :=
    closed.last.imp fun last ends _ e => absurd e.symm (last ends)
  exact apart.forall_of_forall_of_flip (fun _ _ _ _ _ => rfl) apart' hentry hentry' ends ends' same

/-- **One message begins a run.** -/
theorem began_once (closed : Over s) {run : Nat} {message message' : μ} (h : s.Began run message)
    (h' : s.Began run message') : message = message' := by
  obtain ⟨outcome, hmem⟩ := h
  obtain ⟨outcome', hmem'⟩ := h'
  have apart : s.log.Pairwise fun later earlier => ∀ m m', later.cause = .received m →
      earlier.cause = .received m' → later.run = earlier.run → m = m' :=
    closed.first.imp fun first m _ hlater _ e => absurd e (first ⟨m, hlater⟩)
  have apart' : s.log.Pairwise fun later earlier => ∀ m m', earlier.cause = .received m →
      later.cause = .received m' → earlier.run = later.run → m = m' :=
    closed.first.imp fun first _ m' _ hlater e => absurd e.symm (first ⟨m', hlater⟩)
  refine apart.forall_of_forall_of_flip (fun entry _ m m' hm hm' _ => ?_) apart' hmem hmem' _ _ rfl rfl rfl
  exact Cause.received.inj (hm.symm.trans hm')

/-! ## What a run was given -/

section

variable {β : Type} {holds : φ → Option β} {gives : Cause μ φ Rep → β → Prop}

/-- Some segment of the run had a cause that gives this. -/
def Sys.Given (s : Sys σ μ φ ρ Rep) (gives : Cause μ φ Rep → β → Prop) (run : Nat) (b : β) : Prop :=
  ∃ entry ∈ s.log, entry.run = run ∧ gives entry.cause b

/-- **Frames hold what their run was given**: what the cause of a segment gives, or what the frame that it
takes up holds already. -/
structure Program.HandsDown (P : Program α σ μ φ ρ Rep) (holds : φ → Option β)
    (gives : Cause μ φ Rep → β → Prop) : Prop where
  left : ∀ {a cause st st' next frame b}, P.segment a cause st = some (st', next) →
    next.frame? = some frame → holds frame = some b →
      gives cause b ∨ ∃ taken, cause.frame? = some taken ∧ holds taken = some b

/-- What is held by a frame that is suspended, or that was taken up, was given to its run. -/
structure Backed (holds : φ → Option β) (gives : Cause μ φ Rep → β → Prop) (s : Sys σ μ φ ρ Rep) :
    Prop where
  suspended : ∀ (run : Nat) frame, s.suspended[run]? = some frame →
    ∀ b, holds frame = some b → s.Given gives run b
  logged : ∀ entry ∈ s.log, ∀ frame, entry.cause.frame? = some frame →
    ∀ b, holds frame = some b → s.Given gives entry.run b

theorem backed_start (st : σ) : Backed holds gives (start st : Sys σ μ φ ρ Rep) :=
  ⟨frames_start st, fun _ hentry => nomatch hentry⟩

/-- Every step keeps what frames hold backed. -/
theorem Program.HandsDown.step (h : P.HandsDown holds gives) (backed : Backed holds gives s)
    (label : Label α μ φ Rep) : Backed holds gives (P.step s label) := by
  rcases step_cases P s label with e | ⟨a, run, cause, _, enabled, _, e⟩
  · rw [e]
    exact backed
  rw [e]
  have older : ∀ {run' b}, s.Given gives run' b →
      (s.after run cause (P.segment a cause s.state)).Given gives run' b := by
    rintro run' b ⟨entry, hmem, hgives⟩
    exact ⟨entry, List.mem_cons_of_mem _ hmem, hgives⟩
  have taken : ∀ {frame b}, cause.frame? = some frame → holds frame = some b → s.Given gives run b := by
    intro frame b hframe hb
    cases cause with
    | received message => cases hframe
    | delivered taken =>
      cases hframe
      exact backed.suspended run _ enabled b hb
    | resumed taken reply =>
      cases hframe
      exact backed.suspended run _ enabled b hb
  refine ⟨frames_after backed.suspended (fun _ _ back b hb => older (back b hb)) fun frame hframe b hb => ?_,
    fun entry hentry frame hframe b hb => ?_⟩
  · cases hsegment : P.segment a cause s.state with
    | none =>
      rw [hsegment] at hframe
      cases hframe
    | some result =>
      rw [hsegment] at hframe older
      obtain hgives | ⟨frame', hframe', hb'⟩ := h.left hsegment hframe hb
      · exact ⟨_, List.mem_cons_self, rfl, hgives⟩
      · exact older (taken hframe' hb')
  · rcases List.mem_cons.mp hentry with rfl | hmem
    · exact older (taken hframe hb)
    · exact older (backed.logged entry hmem frame hframe b hb)

end

end Canister
