import Mathlib.Data.List.Sort

/-!
# Ranking a list by a key

Two ways to pick the largest of a list. A list is sorted by its key, the highest first, and cut to the
first few: what is left out has no higher key than what is kept (`top_take_byKey`). Or the list is gone
through once, and the leader is replaced where a key is strictly higher: the leader is the first of those
with the highest key, and there is none where no key is positive (`Leads`).
-/

namespace Ranking

variable {α : Type*} {key : α → Nat}

/-! ## The first few -/

/-- The entries by key, the highest first. -/
def byKey (key : α → Nat) (l : List α) : List α := l.mergeSort fun a b => key b ≤ key a

theorem byKey_perm (key : α → Nat) (l : List α) : (byKey key l).Perm l := List.mergeSort_perm _ _

theorem byKey_sorted (key : α → Nat) (l : List α) :
    (byKey key l).Pairwise fun a b => key b ≤ key a := by
  have sorted : (byKey key l).Pairwise fun a b => decide (key b ≤ key a) = true :=
    List.pairwise_mergeSort (fun a b c hab hbc => ?_) (fun a b => ?_) l
  · exact sorted.imp of_decide_eq_true
  · rw [decide_eq_true_eq] at *
    exact Nat.le_trans hbc hab
  · rw [Bool.or_eq_true, decide_eq_true_eq, decide_eq_true_eq]
    exact Nat.le_total (key b) (key a)

/-- The first `n` of a list by their key: in order, and none that is left out is above them. -/
structure Top (key : α → Nat) (n : Nat) (l top : List α) : Prop where
  length : top.length = min n l.length
  sorted : top.Pairwise fun a b => key b ≤ key a
  best : ∃ omitted, (top ++ omitted).Perm l ∧ ∀ a ∈ top, ∀ b ∈ omitted, key b ≤ key a

/-- **The first of a sorted list** are the first by their key. -/
theorem top_take_byKey (key : α → Nat) (n : Nat) (l : List α) : Top key n l ((byKey key l).take n) := by
  have split := List.take_append_drop n (byKey key l)
  have sorted := byKey_sorted key l
  rw [← split] at sorted
  obtain ⟨first, _, between⟩ := List.pairwise_append.mp sorted
  refine ⟨?_, first, (byKey key l).drop n, ?_, between⟩
  · rw [List.length_take, (byKey_perm key l).length_eq]
  · rw [split]
    exact byKey_perm key l

/-! ## The leader -/

/-- The first entry with the highest key, where that is positive. -/
inductive Leads (key : α → Nat) (l : List α) : Nat → Option α → Prop
  | nobody : (∀ a ∈ l, key a = 0) → Leads key l 0 none
  | first (pre : List α) (a : α) (post : List α) : l = pre ++ a :: post → 0 < key a →
    (∀ b ∈ pre, key b < key a) → (∀ b ∈ post, key b ≤ key a) → Leads key l (key a) (some a)

variable {l : List α} {highest : Nat} {leader : Option α}

theorem Leads.nil (key : α → Nat) : Leads key [] 0 none := .nobody fun _ h => nomatch h

/-- No key is above the leader's. -/
theorem Leads.le (h : Leads key l highest leader) : ∀ a ∈ l, key a ≤ highest := by
  cases h with
  | nobody none => exact fun a ha => Nat.le_of_eq (none a ha)
  | first pre a post split _ below upto =>
    rintro b hb
    rw [split] at hb
    obtain hpre | hb := List.mem_append.mp hb
    · exact Nat.le_of_lt (below b hpre)
    obtain rfl | hpost := List.mem_cons.mp hb
    · exact Nat.le_refl _
    · exact upto b hpost

/-- A strictly higher key takes the lead. -/
theorem Leads.greater (h : Leads key l highest leader) {a : α} (hgreater : highest < key a) :
    Leads key (l ++ [a]) (key a) (some a) := by
  refine .first l a [] rfl (Nat.lt_of_le_of_lt (Nat.zero_le _) hgreater) (fun b hb => ?_) fun _ hb => nomatch hb
  exact Nat.lt_of_le_of_lt (h.le b hb) hgreater

/-- A key that is not higher leaves the leader. -/
theorem Leads.keep (h : Leads key l highest leader) {a : α} (hle : key a ≤ highest) :
    Leads key (l ++ [a]) highest leader := by
  cases h with
  | nobody none =>
    refine .nobody fun b hb => ?_
    obtain hb | hb := List.mem_append.mp hb
    · exact none b hb
    · obtain rfl := List.mem_singleton.mp hb
      exact Nat.le_zero.mp hle
  | first pre b post split positive below upto =>
    refine .first pre b (post ++ [a]) ?_ positive below fun c hc => ?_
    · rw [split, List.append_assoc, List.cons_append]
    obtain hc | hc := List.mem_append.mp hc
    · exact upto c hc
    · obtain rfl := List.mem_singleton.mp hc
      exact hle

end Ranking
