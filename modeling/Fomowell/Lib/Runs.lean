import Mathlib.Data.List.Basic

/-!
# Runs of a machine

A machine is a function `next : σ → α → σ` from a state and an input to the state after it; a run is
the left fold of `next` over a list of inputs. `Along next P s as` says that the property `P` of a
step (of the state before it and its input) holds of every step of the run of `as` from `s`.

Four rules carry an argument from one step to a run. `Along.of_invariant`: an invariant that every
step keeps holds all along. `Along.imp_of_invariant`: so does one that the steps with a property keep,
along a run of such steps. `along_congr_of_invariant`: two properties of a step that agree under an
invariant, one of which keeps the invariant, agree all along, although a run that breaks the
property may leave the invariant behind it. `between_iff_along` says it of a preorder of the states
that a run passes through.
-/

namespace Runs

variable {σ α : Type*} {next : σ → α → σ}

/-- `P` holds of every step of the run of the inputs from a state. -/
def Along (next : σ → α → σ) (P : σ → α → Prop) : σ → List α → Prop
  | _, [] => True
  | s, a :: as => P s a ∧ Along next P (next s a) as

@[simp] theorem along_nil {P : σ → α → Prop} {s : σ} : Along next P s [] := trivial

@[simp] theorem along_cons {P : σ → α → Prop} {s : σ} {a : α} {as : List α} :
    Along next P s (a :: as) ↔ P s a ∧ Along next P (next s a) as := Iff.rfl

/-- `Along` in terms of the states a run reaches: every prefix of the inputs leads to a state at
which the next input has the property. -/
theorem along_iff {P : σ → α → Prop} {s : σ} {as : List α} :
    Along next P s as ↔
      ∀ pre a post, as = pre ++ a :: post → P (pre.foldl next s) a := by
  induction as generalizing s with
  | nil =>
    refine ⟨fun _ pre a post h => ?_, fun _ => trivial⟩
    cases pre <;> cases h
  | cons b bs ih =>
    rw [along_cons, ih]
    constructor
    · rintro ⟨hb, hbs⟩ pre a post h
      cases pre with
      | nil => cases h; exact hb
      | cons c cs =>
        cases h
        exact hbs cs a post rfl
    · intro h
      refine ⟨h [] b bs rfl, fun pre a post e => ?_⟩
      exact h (b :: pre) a post (by rw [e, List.cons_append])

/-- Two properties of a step hold all along together. -/
theorem along_and {P Q : σ → α → Prop} {s : σ} {as : List α} :
    Along next (fun s a => P s a ∧ Q s a) s as ↔ Along next P s as ∧ Along next Q s as := by
  rw [along_iff, along_iff, along_iff]
  constructor
  · exact fun h => ⟨fun pre a post e => (h pre a post e).1, fun pre a post e => (h pre a post e).2⟩
  · exact fun h pre a post e => ⟨h.1 pre a post e, h.2 pre a post e⟩

/-- What every input does in every state, it does all along. -/
theorem along_of_forall {P : σ → α → Prop} {s : σ} {as : List α} (h : ∀ a ∈ as, ∀ s, P s a) :
    Along next P s as := by
  induction as generalizing s with
  | nil => trivial
  | cons a as ih =>
    exact ⟨h a List.mem_cons_self s, ih fun b hb => h b (List.mem_cons_of_mem a hb)⟩

/-- A preorder of states that every step goes up: any two states of the run are in it, the earlier one
first. -/
theorem along_iff_between {R : σ → σ → Prop} (refl : ∀ s, R s s)
    (trans : ∀ s s' s'', R s s' → R s' s'' → R s s'') {s : σ} {as : List α} :
    Along next (fun s a => R s (next s a)) s as ↔
      ∀ pre mid post, as = pre ++ mid ++ post → R (pre.foldl next s) ((pre ++ mid).foldl next s) := by
  rw [along_iff]
  constructor
  · intro along pre mid
    induction mid generalizing pre with
    | nil =>
      intro post _
      rw [List.append_nil]
      exact refl _
    | cons a mid ih =>
      intro post h
      rw [List.append_cons] at h ⊢
      have hfirst := along pre a (mid ++ post) (by
        rw [h, List.append_assoc, List.append_assoc, List.singleton_append])
      have hrest := ih (pre ++ [a]) post h
      have hnext : (pre ++ [a]).foldl next s = next (pre.foldl next s) a := List.foldl_append
      rw [hnext] at hrest
      exact trans _ _ _ hfirst hrest
  · intro between pre a post h
    have hstep := between pre [a] post (by rw [h, List.append_assoc, List.singleton_append])
    rw [List.foldl_append] at hstep
    exact hstep

/-- **The invariant rule.** An invariant kept by every step holds of every state of a run. -/
theorem foldl_invariant {I : σ → Prop} (keep : ∀ s a, I s → I (next s a)) {s : σ} (h : I s)
    (as : List α) : I (as.foldl next s) := by
  induction as generalizing s with
  | nil => exact h
  | cons a as ih => exact ih (keep s a h)

/-- An invariant kept by the steps that have a property holds after every run all of whose steps
have it. -/
theorem Along.invariant {I : σ → Prop} {P : σ → α → Prop}
    (keep : ∀ s a, I s → P s a → I (next s a)) {s : σ} {as : List α} (along : Along next P s as)
    (h : I s) : I (as.foldl next s) := by
  induction as generalizing s with
  | nil => exact h
  | cons a as ih => exact ih along.2 (keep s a h along.1)

/-- What follows from a property of a step under an invariant that the property keeps, holds all along
with it. -/
theorem Along.imp_of_invariant {I : σ → Prop} {P Q : σ → α → Prop}
    (keep : ∀ s a, I s → P s a → I (next s a)) (imp : ∀ s a, I s → P s a → Q s a) {s : σ}
    {as : List α} (along : Along next P s as) (h : I s) : Along next Q s as := by
  induction as generalizing s with
  | nil => trivial
  | cons a as ih => exact ⟨imp s a h along.1, ih along.2 (keep s a h along.1)⟩

/-- Without an invariant. -/
theorem Along.imp {P Q : σ → α → Prop} (imp : ∀ s a, P s a → Q s a) {s : σ} {as : List α}
    (along : Along next P s as) : Along next Q s as :=
  along.imp_of_invariant (I := fun _ => True) (fun _ _ _ _ => trivial) (fun s a _ => imp s a) trivial

/-- What every step does under an invariant, it does all along a run. -/
theorem Along.of_invariant {I : σ → Prop} {P : σ → α → Prop} (keep : ∀ s a, I s → I (next s a))
    (step : ∀ s a, I s → P s a) {s : σ} (h : I s) (as : List α) : Along next P s as := by
  induction as generalizing s with
  | nil => trivial
  | cons a as ih => exact ⟨step s a h, ih (keep s a h)⟩

/-- **The agreement rule.** Where two properties of a step agree under an invariant, and one of them
keeps the invariant, they agree all along a run. -/
theorem along_congr_of_invariant {I : σ → Prop} {P Q : σ → α → Prop}
    (agree : ∀ s a, I s → (P s a ↔ Q s a)) (keep : ∀ s a, I s → Q s a → I (next s a)) {s : σ}
    (h : I s) (as : List α) : Along next P s as ↔ Along next Q s as := by
  induction as generalizing s with
  | nil => exact Iff.rfl
  | cons a as ih =>
    rw [along_cons, along_cons, agree s a h]
    exact and_congr_right fun q => ih (keep s a h q)

/-- **The agreement rule for a preorder of states.** Where a step goes up in the preorder exactly if
it has a property, under an invariant of every step, any two states of a run are in the preorder
exactly if all its steps have the property. -/
theorem between_iff_along {R : σ → σ → Prop} (refl : ∀ s, R s s)
    (trans : ∀ s s' s'', R s s' → R s' s'' → R s s'') {I : σ → Prop} {Q : σ → α → Prop}
    (agree : ∀ s a, I s → (R s (next s a) ↔ Q s a)) (keep : ∀ s a, I s → I (next s a)) {s : σ}
    (h : I s) (as : List α) :
    (∀ pre mid post, as = pre ++ mid ++ post →
      R (pre.foldl next s) ((pre ++ mid).foldl next s)) ↔ Along next Q s as :=
  calc _ ↔ Along next (fun s a => R s (next s a)) s as := (along_iff_between refl trans).symm
    _ ↔ Along next Q s as := along_congr_of_invariant agree (fun s a hs _ => keep s a hs) h as

end Runs
