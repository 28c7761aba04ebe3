import Fomowell.Lib.Canister

/-!
# Runs that count down

A run that awaits the same service again and again ends because there is less left to ask for each time.
`CountsDown` is the rule of one segment: a frame with `n` replies to go, resumed with such a reply as the
service gives, ends the run with a property of the state, or leaves a frame with `n - 1` replies to go.
`CountsDown.ends` carries it to every schedule, whatever other runs do in between: after `n` replies the
run is over (`CountsDown.finished`), and where it ended the property holds.
-/

namespace Canister

open Runs Sys

variable {α σ μ φ ρ : Type} {Rep : φ → Type}

/-- A choice resumes a run. -/
def Label.resumes (run : Nat) : Label α μ φ Rep → Bool
  | .resume _ run' _ => run' = run
  | _ => false

/-- A choice resumes a run, if it does, with a reply that the service gives. -/
def Label.AnsweredBy (answers : (frame : φ) → Rep frame → Prop) (run : Nat) : Label α μ φ Rep → Prop
  | .resume _ run' reply => run' = run → ∀ frame, answers frame (reply frame)
  | _ => True

/-- A segment ends with a frame of which a number holds, or with a state of which a property does. -/
def Next.Leaves (J : φ → Nat → Prop) (Q : σ → Prop) (n : Nat) (st : σ) : Next φ ρ → Prop
  | .awaits frame => J frame n
  | .returned _ => Q st

/-- **A countdown**: the segments of the frames with a number of replies to go. -/
structure Program.CountsDown (P : Program α σ μ φ ρ Rep) (answers : (frame : φ) → Rep frame → Prop)
    (J : φ → Nat → Prop) (Q : σ → Prop) : Prop where
  positive : ∀ {frame n}, J frame n → 0 < n
  undelivered : ∀ {frame n}, J frame n → ∀ a st, P.deliver a frame st = none
  resumed : ∀ {frame n}, J frame n → ∀ {reply}, answers frame reply → ∀ a st, ∃ st' next,
    P.resume a frame reply st = some (st', next) ∧ next.Leaves J Q (n - 1) st'

/-- A run that is suspended has a number of replies to go. -/
def Sys.ToGo (s : Sys σ μ φ ρ Rep) (J : φ → Nat → Prop) (run n : Nat) : Prop :=
  ∀ frame, s.suspended[run]? = some frame → J frame n

/-- A step ends a run. -/
def Program.Ends (P : Program α σ μ φ ρ Rep) (s : Sys σ μ φ ρ Rep) (run : Nat)
    (choice : Label α μ φ Rep) : Prop :=
  s.suspended[run]? ≠ none ∧ (P.step s choice).suspended[run]? = none

variable {P : Program α σ μ φ ρ Rep} {answers : (frame : φ) → Rep frame → Prop}
  {J : φ → Nat → Prop} {Q : σ → Prop} {s : Sys σ μ φ ρ Rep} {run n : Nat}

/-- A choice that does not resume a run that counts down leaves it where it is. -/
theorem Program.CountsDown.idle (h : P.CountsDown answers J Q) (toGo : s.ToGo J run n)
    (hrun : run < s.log.length) {choice : Label α μ φ Rep} (other : choice.resumes run = false) :
    (P.step s choice).suspended[run]? = s.suspended[run]? := by
  obtain e | ⟨a, run', cause, starts, enabled, delivers, e⟩ := step_cases P s choice
  · rw [e]
  rw [e]
  refine get_after_of_ne s cause _ ?_
  rintro rfl
  cases choice with
  | receive a' message =>
    cases starts
    exact Nat.lt_irrefl _ hrun
  | deliver a' run' =>
    obtain ⟨frame, hframe, starts⟩ := Option.map_eq_some_iff.mp starts
    cases starts
    refine delivers rfl ?_
    show (P.deliver a frame s.state).map _ = none
    rw [h.undelivered (toGo frame hframe)]
    rfl
  | resume a' run' reply =>
    obtain ⟨frame, _, starts⟩ := Option.map_eq_some_iff.mp starts
    cases starts
    exact of_decide_eq_false other rfl

/-- A reply to a run that counts down: it has one reply less to go, or has ended with the property. -/
theorem Program.CountsDown.resume (h : P.CountsDown answers J Q) {frame : φ} (counting : J frame n)
    (hframe : s.suspended[run]? = some frame) (a : α) {reply : (frame : φ) → Rep frame}
    (answered : ∀ frame, answers frame (reply frame)) :
    (P.step s (.resume a run reply)).ToGo J run (n - 1) ∧
      ((P.step s (.resume a run reply)).suspended[run]? = none →
        Q (P.step s (.resume a run reply)).state) := by
  have starts : s.starts (.resume a run reply : Label α μ φ Rep) =
      some (a, run, .resumed frame (reply frame)) := by
    simp only [Sys.starts, hframe, Option.map_some]
  obtain ⟨st', next, hresume, counts⟩ := h.resumed counting (answered frame) a s.state
  have hsegment : P.segment a (.resumed frame (reply frame)) s.state = some (st', next) := hresume
  rw [step_resumed starts, hsegment]
  unfold Sys.ToGo
  rw [get_after]
  cases next with
  | awaits frame' =>
    refine ⟨fun frame'' hframe' => ?_, fun hnone => nomatch hnone⟩
    cases hframe'
    exact counts
  | returned answer => exact ⟨fun _ hframe' => (nomatch hframe'), fun _ => counts⟩

/-- **One step**: a reply counts down, or ends the run; any other choice does neither. -/
theorem Program.CountsDown.step (h : P.CountsDown answers J Q) (toGo : s.ToGo J run n)
    (hrun : run < s.log.length) {choice : Label α μ φ Rep} (answered : choice.AnsweredBy answers run) :
    (P.step s choice).ToGo J run (n - if choice.resumes run then 1 else 0) ∧
      (P.Ends s run choice → Q (P.step s choice).state) := by
  cases hresumes : choice.resumes run with
  | false =>
    have same := h.idle toGo hrun hresumes
    unfold Sys.ToGo Program.Ends
    rw [same]
    exact ⟨toGo, fun ends => absurd ends.2 ends.1⟩
  | true =>
    cases choice with
    | receive a message => cases hresumes
    | deliver a run' => cases hresumes
    | resume a run' reply =>
      obtain rfl := of_decide_eq_true hresumes
      cases hframe : s.suspended[run']? with
      | some frame =>
        obtain ⟨toGo', ended⟩ := h.resume (toGo frame hframe) hframe a (answered rfl)
        exact ⟨toGo', fun ends => ended ends.2⟩
      | none =>
        have hidle : P.step s (.resume a run' reply) = s :=
          step_of_idle (by simp only [Sys.starts, hframe, Option.map_none])
        rw [hidle]
        refine ⟨fun frame hsome => ?_, fun ends => absurd hframe ends.1⟩
        rw [hframe] at hsome
        cases hsome

/-- The log never gets shorter. -/
theorem length_log_le_step (P : Program α σ μ φ ρ Rep) (s : Sys σ μ φ ρ Rep)
    (choice : Label α μ φ Rep) : s.log.length ≤ (P.step s choice).log.length := by
  obtain e | ⟨_, _, _, _, _, _, e⟩ := step_cases P s choice
  · rw [e]
  · rw [e]
    exact Nat.le_succ _

/-- **The schedule**: the replies to a run are counted, and where it ends the property holds. -/
theorem Program.CountsDown.ends (h : P.CountsDown answers J Q) (toGo : s.ToGo J run n)
    (hrun : run < s.log.length) {choices : List (Label α μ φ Rep)}
    (answered : ∀ choice ∈ choices, choice.AnsweredBy answers run) :
    (choices.foldl P.step s).ToGo J run (n - choices.countP fun choice => choice.resumes run) ∧
      Along P.step (fun s choice => P.Ends s run choice → Q (P.step s choice).state) s choices := by
  induction choices generalizing s n with
  | nil => exact ⟨toGo, trivial⟩
  | cons choice choices ih =>
    obtain ⟨toGo', ended⟩ := h.step toGo hrun (answered choice List.mem_cons_self)
    have hrun' := Nat.lt_of_lt_of_le hrun (length_log_le_step P s choice)
    obtain ⟨counted, along⟩ := ih toGo' hrun' fun c hc => answered c (List.mem_cons_of_mem _ hc)
    refine ⟨?_, ended, along⟩
    rw [Nat.sub_sub] at counted
    rw [List.countP_cons, Nat.add_comm]
    exact counted

/-- **Termination**: after as many replies as there were to go, the run is over. -/
theorem Program.CountsDown.finished (h : P.CountsDown answers J Q) (toGo : s.ToGo J run n)
    (hrun : run < s.log.length) {choices : List (Label α μ φ Rep)}
    (answered : ∀ choice ∈ choices, choice.AnsweredBy answers run)
    (hcount : n ≤ choices.countP fun choice => choice.resumes run) :
    (choices.foldl P.step s).suspended[run]? = none := by
  obtain ⟨counted, _⟩ := h.ends toGo hrun answered
  rw [Nat.sub_eq_zero_of_le hcount] at counted
  cases hframe : (choices.foldl P.step s).suspended[run]? with
  | none => rfl
  | some frame => exact absurd (h.positive (counted frame hframe)) (Nat.lt_irrefl 0)

/-- A run that is suspended, and over later, was ended by a step in between. -/
theorem exists_ends (P : Program α σ μ φ ρ Rep) {choices : List (Label α μ φ Rep)}
    (hsome : s.suspended[run]? ≠ none) (hnone : (choices.foldl P.step s).suspended[run]? = none) :
    ¬ Along P.step (fun s choice => ¬ P.Ends s run choice) s choices := by
  induction choices generalizing s with
  | nil => exact absurd hnone hsome
  | cons choice choices ih =>
    rintro ⟨never, along⟩
    by_cases hstep : (P.step s choice).suspended[run]? = none
    · exact never ⟨hsome, hstep⟩
    · exact ih hstep hnone along

end Canister
