import Mathlib.Data.Option.Basic
import Mathlib.Data.List.Basic

/-!
# A machine that refines another one

A machine answers a call and moves to its next state; where the call traps, the state stays. `Refines step
spec I abs` says that a machine does in each state with the invariant `I` what the abstract machine does
where `abs` sees it: the same answer, or a trap like it, and a next state that `abs` sees as the abstract
next one.

`Refines.run` carries this from one call to any list of calls: the two machines cannot be told apart by what
they answer.
-/

namespace Refinement

variable {S T C A : Type*}

/-- The state after a call. -/
def next (step : S → C → Option (A × S)) (s : S) (c : C) : S := ((step s c).map Prod.snd).getD s

/-- The answers to some calls, `none` for a trap. -/
def answers (step : S → C → Option (A × S)) : S → List C → List (Option A)
  | _, [] => []
  | s, c :: cs => (step s c).map Prod.fst :: answers step (next step s c) cs

/-- **One machine refines another**, under an invariant that it keeps. -/
structure Refines (step : S → C → Option (A × S)) (spec : T → C → Option (A × T)) (I : S → Prop)
    (abs : S → T) : Prop where
  keeps : ∀ {s c a s'}, step s c = some (a, s') → I s → I s'
  agrees : ∀ {s} c, I s → (step s c).map (fun r => (r.1, abs r.2)) = spec (abs s) c

variable {step : S → C → Option (A × S)} {spec : T → C → Option (A × T)} {I : S → Prop} {abs : S → T}

theorem Refines.keeps_next (h : Refines step spec I abs) {s : S} (hs : I s) (c : C) :
    I (next step s c) := by
  unfold next
  cases hstep : step s c with
  | none => exact hs
  | some r => exact h.keeps hstep hs

theorem Refines.abs_next (h : Refines step spec I abs) {s : S} (hs : I s) (c : C) :
    abs (next step s c) = next spec (abs s) c := by
  unfold next
  rw [← h.agrees c hs]
  cases step s c <;> rfl

theorem Refines.answer (h : Refines step spec I abs) {s : S} (hs : I s) (c : C) :
    (step s c).map Prod.fst = (spec (abs s) c).map Prod.fst := by
  rw [← h.agrees c hs, Option.map_map]
  rfl

/-- **Any calls**: the answers are those of the abstract machine, and so is what `abs` sees at the end. -/
theorem Refines.run (h : Refines step spec I abs) {s : S} (hs : I s) (cs : List C) :
    answers step s cs = answers spec (abs s) cs ∧
      abs (cs.foldl (next step) s) = cs.foldl (next spec) (abs s) ∧ I (cs.foldl (next step) s) := by
  induction cs generalizing s with
  | nil => exact ⟨rfl, rfl, hs⟩
  | cons c cs ih =>
    obtain ⟨same, final, inv⟩ := ih (h.keeps_next hs c)
    rw [h.abs_next hs c] at same final
    refine ⟨?_, final, inv⟩
    show (step s c).map Prod.fst :: _ = (spec (abs s) c).map Prod.fst :: _
    rw [h.answer hs c, same]

end Refinement
