import Fomowell.Lib.Countdown

/-!
# Programs whose frames descend

A program descends by a weight of its frames if every segment that takes up a frame and awaits again
leaves a frame of less weight. No reply is assumed to be of any kind, and no other run to be idle.

Then a run is charged for: at every state of every schedule, the segments that it had and the weight that
it has left add up to at most what its first segment left (`Program.Descends.charged`). So a run has as
many segments as the weight says, and after that many replies it is over (`Program.Descends.over`).
Two services side by side descend together (`Program.Descends.serving`).
-/

namespace Canister

open Sys

variable {α σ μ φ ρ : Type} {Rep : φ → Type}

/-- **A descent**: a weight of the frames that every delivery and every reply lowers. -/
structure Program.Descends (P : Program α σ μ φ ρ Rep) (w : φ → Nat) : Prop where
  positive : ∀ frame, 0 < w frame
  delivered : ∀ {a frame st st' frame'}, P.deliver a frame st = some (st', frame') →
    w frame' < w frame
  resumed : ∀ {a frame reply st st' next}, P.resume a frame reply st = some (st', next) →
    weigh w next.frame? < w frame

variable {P : Program α σ μ φ ρ Rep} {w : φ → Nat} {s : Sys σ μ φ ρ Rep}

/-- A segment that takes up a frame leaves less than the frame weighs. -/
theorem Program.Descends.segment (h : P.Descends w) {a : α} {cause : Cause μ φ Rep} {frame : φ}
    (hframe : cause.frame? = some frame) (st : σ) :
    weigh w (frameOf (P.segment a cause st)) < w frame := by
  cases hsegment : P.segment a cause st with
  | none => exact h.positive frame
  | some result =>
    cases cause with
    | received message => cases hframe
    | delivered frame' =>
      cases hframe
      obtain ⟨delivered, hdeliver, hsegment⟩ := Option.map_eq_some_iff.mp hsegment
      cases hsegment
      exact h.delivered hdeliver
    | resumed frame' reply =>
      cases hframe
      exact h.resumed hsegment

/-! ## One run -/

/-- The weight that a run has left. -/
def Sys.left (s : Sys σ μ φ ρ Rep) (w : φ → Nat) (run : Nat) : Nat := weigh w s.suspended[run]?

theorem left_eq {run : Nat} {frame? : Option φ} (h : s.suspended[run]? = frame?) :
    s.left w run = weigh w frame? := by
  unfold Sys.left
  rw [h]

/-- A reply that is not taken up finds its run not suspended. -/
theorem not_suspended_of_refused {choice : Label α μ φ Rep} (refused : P.step s choice = s) {run : Nat}
    (hresumes : choice.resumes run = true) : s.suspended[run]? = none := by
  cases choice with
  | receive a message => cases hresumes
  | deliver a run' => cases hresumes
  | resume a run' reply =>
    obtain rfl := of_decide_eq_true hresumes
    cases hframe : s.suspended[run']? with
    | none => rfl
    | some frame =>
      have starts : s.starts (.resume a run' reply : Label α μ φ Rep) =
          some (a, run', .resumed frame (reply frame)) := by
        simp only [Sys.starts, hframe, Option.map_some]
      have hlog := congrArg (fun s => s.log.length) (refused.symm.trans (step_resumed starts))
      exact absurd hlog (Nat.ne_of_lt (Nat.lt_succ_self _))

/-- A choice that starts a segment of one run is no reply to another. -/
theorem resumes_of_starts {choice : Label α μ φ Rep} {a : α} {run run' : Nat} {cause : Cause μ φ Rep}
    (starts : s.starts choice = some (a, run', cause)) (hne : run ≠ run') :
    choice.resumes run = false := by
  cases choice with
  | receive a message => rfl
  | deliver a run' => rfl
  | resume a run'' reply =>
    obtain ⟨frame, _, starts⟩ := Option.map_eq_some_iff.mp starts
    cases starts
    exact decide_eq_false fun e => hne e.symm

/-- A segment of a run that began before takes up what the run is suspended at. -/
theorem suspended_of_enabled (ordered : s.Ordered) {run : Nat} {cause : Cause μ φ Rep}
    (enabled : s.Enabled run cause) (hrun : run < s.log.length) :
    ∃ frame, cause.frame? = some frame ∧ s.suspended[run]? = some frame := by
  have hframe : s.suspended[run]? = cause.frame? := enabled.get_eq ordered
  cases cause with
  | received message => exact absurd hrun (Nat.not_lt.mpr (Nat.le_of_eq enabled.symm))
  | delivered frame => exact ⟨frame, rfl, hframe⟩
  | resumed frame reply => exact ⟨frame, rfl, hframe⟩

/-- **Every choice**: the segments of a run and what it has left do not add up to more, and what it has
left is lowered by a reply to it. -/
theorem Program.Descends.step (h : P.Descends w) (ordered : s.Ordered) {run : Nat}
    (hrun : run < s.log.length) (choice : Label α μ φ Rep) :
    ((P.step s choice).history run).length + (P.step s choice).left w run ≤
        (s.history run).length + s.left w run ∧
      (P.step s choice).left w run ≤ s.left w run - if choice.resumes run then 1 else 0 := by
  obtain e | ⟨a, run', cause, starts, enabled, _, e⟩ := step_cases P s choice
  · rw [e]
    refine ⟨Nat.le_refl _, ?_⟩
    cases hresumes : choice.resumes run with
    | false => exact Nat.le_refl _
    | true =>
      rw [left_eq (not_suspended_of_refused e hresumes)]
      exact Nat.zero_le _
  · rw [e]
    by_cases hne : run = run'
    · subst hne
      obtain ⟨frame, htaken, hframe⟩ := suspended_of_enabled ordered enabled hrun
      have hless := h.segment (a := a) htaken s.state
      have hweight : s.left w run = w frame := left_eq hframe
      have hafter : (s.after run cause (P.segment a cause s.state)).left w run =
          weigh w (frameOf (P.segment a cause s.state)) := left_eq (get_after ..)
      rw [history_after, List.length_cons, hweight, hafter]
      refine ⟨by omega, ?_⟩
      split <;> omega
    · rw [resumes_of_starts starts hne, history_after_of_ne s cause _ hne,
        left_eq (get_after_of_ne s cause _ hne)]
      exact ⟨Nat.le_refl _, Nat.le_refl _⟩

/-- **The schedule**: a run pays for its segments with its weight, and for its replies. -/
theorem Program.Descends.charged (h : P.Descends w) (ordered : s.Ordered) {run : Nat}
    (hrun : run < s.log.length) (choices : List (Label α μ φ Rep)) :
    ((choices.foldl P.step s).history run).length + (choices.foldl P.step s).left w run ≤
        (s.history run).length + s.left w run ∧
      (choices.foldl P.step s).left w run ≤
        s.left w run - choices.countP fun choice => choice.resumes run := by
  induction choices generalizing s with
  | nil => exact ⟨Nat.le_refl _, Nat.le_refl _⟩
  | cons choice choices ih =>
    obtain ⟨paid, fewer⟩ := h.step ordered hrun choice
    obtain ⟨paid', fewer'⟩ := ih (ordered_step (P := P) ordered choice)
      (Nat.lt_of_lt_of_le hrun (length_log_le_step P s choice))
    rw [List.foldl_cons, List.countP_cons]
    exact ⟨Nat.le_trans paid' paid, by omega⟩

/-- A run that has nothing left is over. -/
theorem Program.Descends.over_of_left (h : P.Descends w) {run : Nat} (hleft : s.left w run = 0) :
    s.suspended[run]? = none := by
  cases hframe : s.suspended[run]? with
  | none => rfl
  | some frame =>
    unfold Sys.left at hleft
    rw [hframe] at hleft
    exact absurd (h.positive frame) (Nat.not_lt.mpr (Nat.le_of_eq hleft))

/-- **Termination**: a run whose first segment leaves at most `n` has at most `1 + n` segments, and it is
over after `n` replies, whatever they are and whatever other runs do in between. -/
theorem Program.Descends.over (h : P.Descends w) (ordered : s.Ordered) {a : α} {message : μ} {n : Nat}
    (first : weigh w (frameOf (P.segment a (.received message) s.state)) ≤ n)
    (choices : List (Label α μ φ Rep)) :
    ((choices.foldl P.step (P.step s (.receive a message))).history s.log.length).length ≤ 1 + n ∧
      (n ≤ choices.countP (fun choice => choice.resumes s.log.length) →
        (choices.foldl P.step (P.step s (.receive a message))).suspended[s.log.length]? = none) := by
  have hrun : s.log.length < (P.step s (.receive a message)).log.length := Nat.lt_succ_self _
  obtain ⟨paid, fewer⟩ :=
    h.charged (ordered_step (P := P) ordered (.receive a message)) hrun choices
  have hleft : (P.step s (.receive a message)).left w s.log.length ≤ n := by
    rw [step_receive, left_eq (get_after ..)]
    exact first
  rw [step_receive P s, history_after, history_eq_nil ordered (Nat.le_refl _),
    List.length_singleton] at paid
  rw [step_receive P s] at hleft fewer ⊢
  refine ⟨by omega, fun answered => h.over_of_left (by omega)⟩

/-! ## Two services side by side -/

section

variable {β σ' μ' φ' ρ' : Type} {Rep' : φ' → Type} {Q : Program β σ' μ' φ' ρ' Rep'} {w' : φ' → Nat}

theorem weigh_inl (w : φ → Nat) (w' : φ' → Nat) (next : Next φ ρ) :
    weigh (Sum.elim w w') (next.map .inl .inl : Next (φ ⊕ φ') (ρ ⊕ ρ')).frame? =
      weigh w next.frame? := by
  cases next <;> rfl

theorem weigh_inr (w : φ → Nat) (w' : φ' → Nat) (next : Next φ' ρ') :
    weigh (Sum.elim w w') (next.map .inr .inr : Next (φ ⊕ φ') (ρ ⊕ ρ')).frame? =
      weigh w' next.frame? := by
  cases next <;> rfl

/-- Two services that descend, and a call between them that lowers the weight of its caller. -/
theorem Program.Descends.serving (h : P.Descends w) (h' : Q.Descends w') (clock : α → β)
    {serve : α → φ' → σ → Option (σ × φ')}
    (served : ∀ {a frame st st' frame'}, serve a frame st = some (st', frame') →
      w' frame' < w' frame) :
    (P.serving Q clock serve).Descends (Sum.elim w w') where
  positive frame := by
    cases frame with
    | inl frame => exact h.positive frame
    | inr frame => exact h'.positive frame
  delivered {a frame st st' frame'} hdeliver := by
    cases frame with
    | inl frame =>
      obtain ⟨_, hinner, e⟩ := Option.map_eq_some_iff.mp hdeliver
      cases e
      exact h.delivered hinner
    | inr frame =>
      obtain ⟨_, hserve, e⟩ := Option.map_eq_some_iff.mp hdeliver
      cases e
      exact served hserve
  resumed {a frame reply st st' next} hresume := by
    cases frame with
    | inl frame =>
      obtain ⟨_, hinner, e⟩ := Option.map_eq_some_iff.mp hresume
      cases e
      rw [weigh_inl]
      exact h.resumed hinner
    | inr frame =>
      obtain ⟨_, hinner, e⟩ := Option.map_eq_some_iff.mp hresume
      cases e
      rw [weigh_inr]
      exact h'.resumed hinner

end

end Canister
