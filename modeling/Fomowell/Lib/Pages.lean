import Mathlib.Algebra.Group.Nat.Defs
import Mathlib.Data.List.Basic
import Mathlib.Data.List.Sort

/-!
# Pages

Two ways to cut a list into pages. By position: the page at `start` has the entries from there on, at
most `limit` of them (`page`). By key, for a list in ascending order of its keys: the window at `start`
has the entries whose key is less than `limit` past it (`window`). In both the pages at `0`, `limit`,
`2 * limit` and so on follow each other without a gap (`flatMap_page`, `flatMap_window`), so a query
that answers each of them lists every entry once and in order (`walk`).

`slice` and `collect` are the slice of a vector and its making, on a machine whose words have 32 bits:
they trap where the bounds are out of order or out of range, and where the length is not a word.
-/

namespace Pages

variable {α : Type*}

/-! ## Vectors -/

/-- A vector of the entries of an iterator, whose length has to be a word. -/
def collect (l : List α) : Option (List α) := if l.length < 2 ^ 32 then some l else none

/-- `&l[left..right]`. -/
def slice (l : List α) (left right : Nat) : Option (List α) :=
  if left ≤ right ∧ right ≤ l.length then some ((l.drop left).take (right - left)) else none

/-- `&l[left..]`. -/
def sliceFrom (l : List α) (left : Nat) : Option (List α) := slice l left l.length

/-- A collected vector is the list, where its length is a word. -/
theorem collect_eq_some {l v : List α} : collect l = some v ↔ l.length < 2 ^ 32 ∧ l = v := by
  unfold collect
  split
  next h => simp only [Option.some.injEq, h, true_and]
  next h => simp only [reduceCtorEq, h, false_and]

/-! ## Pages by position -/

/-- The page at `start`. -/
def page (l : List α) (start limit : Nat) : List α := (l.drop start).take limit

/-- A slice in bounds is the page of its length. -/
theorem slice_of_le {l : List α} {left right : Nat} (h : left ≤ right) (hlen : right ≤ l.length) :
    slice l left right = some (page l left (right - left)) := if_pos ⟨h, hlen⟩

/-- A slice out of order, or out of range, traps. -/
theorem slice_of_not {l : List α} {left right : Nat} (h : ¬ (left ≤ right ∧ right ≤ l.length)) :
    slice l left right = none := if_neg h

theorem length_page (l : List α) (start limit : Nat) :
    (page l start limit).length = min limit (l.length - start) := by
  unfold page
  rw [List.length_take, List.length_drop]

/-- Two limits past the end are the same page. -/
theorem page_eq_of_le {l : List α} {start limit limit' : Nat} (h : l.length ≤ start + limit)
    (h' : l.length ≤ start + limit') : page l start limit = page l start limit' := by
  have hlen : (l.drop start).length ≤ limit := by
    rw [List.length_drop]
    omega
  have hlen' : (l.drop start).length ≤ limit' := by
    rw [List.length_drop]
    omega
  unfold page
  rw [List.take_of_length_le hlen, List.take_of_length_le hlen']

/-- Pages of equal length are equal: a page is known by its start and its length. -/
theorem page_eq_iff {l : List α} {start limit limit' : Nat} :
    page l start limit = page l start limit' ↔
      min limit (l.length - start) = min limit' (l.length - start) := by
  constructor
  · intro h
    rw [← length_page, ← length_page, h]
  · intro h
    unfold page
    apply List.take_eq_take_iff.mpr
    rw [List.length_drop]
    exact h

/-- Consecutive pages follow each other. -/
theorem flatMap_page (l : List α) (limit m : Nat) :
    (List.range m).flatMap (fun j => page l (j * limit) limit) = l.take (m * limit) := by
  induction m with
  | zero =>
    rw [Nat.zero_mul]
    rfl
  | succ m ih =>
    rw [List.range_succ, List.flatMap_append, ih, List.flatMap_singleton, Nat.succ_mul, List.take_add]
    rfl

/-! ## Windows of keys -/

/-- The entries whose key is in the window at `start`. -/
def window (key : α → Nat) (l : List α) (start limit : Nat) : List α :=
  l.filter fun a => decide (start ≤ key a ∧ key a - start < limit)

/-- In a list in the order of its keys, the entries below a bound come before those from it on. -/
theorem filter_lt_append (key : α → Nat) {l : List α} (sorted : l.Pairwise fun a b => key a < key b)
    {lo hi : Nat} (h : lo ≤ hi) :
    l.filter (fun a => decide (key a < lo)) ++
        l.filter (fun a => decide (lo ≤ key a ∧ key a < hi)) =
      l.filter fun a => decide (key a < hi) := by
  induction l with
  | nil => rfl
  | cons a l ih =>
    obtain ⟨above, sorted⟩ := List.pairwise_cons.mp sorted
    have ih := ih sorted
    by_cases hlo : key a < lo
    · have hhi : key a < hi := Nat.lt_of_lt_of_le hlo h
      have hnot : ¬ lo ≤ key a := Nat.not_le.mpr hlo
      simp only [List.filter_cons, hlo, hhi, hnot, false_and, decide_true, decide_false, if_true,
        Bool.false_eq_true, if_false, List.cons_append, ih]
    · -- no entry past the bound is below it
      have hnone : (a :: l).filter (fun b => decide (key b < lo)) = [] := by
        rw [List.filter_eq_nil_iff]
        intro b hb
        rw [decide_eq_true_eq]
        obtain rfl | hb := List.mem_cons.mp hb
        · exact hlo
        · have := above b hb
          omega
      rw [hnone, List.nil_append]
      apply List.filter_congr
      intro b hb
      have hle : lo ≤ key b := by
        obtain rfl | hb := List.mem_cons.mp hb
        · omega
        · have := above b hb
          omega
      rw [decide_eq_decide]
      exact and_iff_right hle

/-- Consecutive windows follow each other. -/
theorem flatMap_window (key : α → Nat) {l : List α} (sorted : l.Pairwise fun a b => key a < key b)
    (limit m : Nat) :
    (List.range m).flatMap (fun j => window key l (j * limit) limit) =
      l.filter fun a => decide (key a < m * limit) := by
  induction m with
  | zero =>
    rw [Nat.zero_mul]
    simp only [List.range_zero, List.flatMap_nil, Nat.not_lt_zero, decide_false, List.filter_false]
  | succ m ih =>
    rw [List.range_succ, List.flatMap_append, ih, List.flatMap_singleton]
    have hle : m * limit ≤ (m + 1) * limit := Nat.mul_le_mul_right limit (Nat.le_succ m)
    rw [← filter_lt_append key sorted hle]
    congr 1
    unfold window
    apply List.filter_congr
    intro a _
    rw [decide_eq_decide, Nat.succ_mul]
    omega

/-! ## Walking the pages -/

/-- **A walk**: a query that answers every page answers what the pages have together. -/
theorem walk {query : Nat → Option (List α)} {pages : Nat → List α} {m : Nat}
    (h : ∀ j < m, query j = some (pages j)) :
    ∃ answers, (List.range m).mapM query = some answers ∧
      answers.flatten = (List.range m).flatMap pages := by
  refine ⟨(List.range m).map pages, ?_, rfl⟩
  have hall : ∀ l : List Nat, (∀ j ∈ l, j < m) → l.mapM query = some (l.map pages) := by
    intro l
    induction l with
    | nil => exact fun _ => rfl
    | cons j l ih =>
      intro hl
      rw [List.mapM_cons, h j (hl j List.mem_cons_self),
        ih fun j hj => hl j (List.mem_cons_of_mem _ hj)]
      rfl
  exact hall _ fun j hj => List.mem_range.mp hj

/-- A walk over the pages of a list, up to one that reaches its end, answers the list. -/
theorem walk_pages {l : List α} {limit m : Nat} {query : Nat → Option (List α)}
    (h : ∀ j < m, query j = some (page l (j * limit) limit)) (hcover : l.length ≤ m * limit) :
    ∃ answers, (List.range m).mapM query = some answers ∧ answers.flatten = l := by
  obtain ⟨answers, hanswers, hflatten⟩ := walk h
  refine ⟨answers, hanswers, ?_⟩
  rw [hflatten, flatMap_page]
  exact List.take_of_length_le hcover

end Pages
