import Fomowell.Lib.Ranges
import Fomowell.Launcher.System
import Fomowell.Project.State

/-!
# Paging by index

`get_fomo_by_index`, `get_points_history_by_index` and `get_comments_by_index` are three copies of one
query: the entries from `start` to `start + limit` of a stable map, beside the first and the last index
in two of them. The copies differ where the map is empty, which the first one unwraps and the third
answers with zeros. All three add two words and let the sum wrap.
-/

namespace Fomowell

open Pages

/-- `Page`, of both canisters. -/
structure Page where
  start : UInt64
  limit : UInt64

namespace Launcher

/-- `FomoProjectVo`. -/
structure FomoProjectVo where
  fomoVec : List FomoProject
  startIdx : Nat
  endIdx : Nat

/-- `get_fomo_by_index`. -/
def getFomoByIndex (st : State) (page : Page) : Option FomoProjectVo := do
  let fps := range st.fomoProjectMap page.start (page.start + page.limit)
  let start ← st.fomoProjectMap.minKey?
  let stop ← st.fomoProjectMap.maxKey?
  return { fomoVec := fps.map Prod.snd, startIdx := start, endIdx := stop }

/-- `get_points_history_by_index`. -/
def getPointsHistoryByIndex (st : State) (start limit : UInt64) : List (Nat × PointHistory) :=
  range st.pointHistoryMap start (start + limit)

end Launcher

namespace Project

/-- `CommentsVo`. -/
structure CommentsVo where
  fomoVec : List Comments
  startIdx : Nat
  endIdx : Nat

/-- `get_comments_by_index`. -/
def getCommentsByIndex (st : State) (page : Page) : Option CommentsVo :=
  let fps := range st.comments page.start (page.start + page.limit)
  match st.comments.minKey? with
  | none => some { fomoVec := fps.map Prod.snd, startIdx := 0, endIdx := 0 }
  | some start => do
    let stop ← st.comments.maxKey?
    return { fomoVec := fps.map Prod.snd, startIdx := start, endIdx := stop }

end Project

/-! ## The records of an answer -/

/-- The projects of a page. -/
def fomoPage (st : Launcher.State) (start limit : UInt64) : Option (List Launcher.FomoProject) :=
  (Launcher.getFomoByIndex st ⟨start, limit⟩).map Launcher.FomoProjectVo.fomoVec

/-- The point records of a page, with their indices. -/
def historyPage (st : Launcher.State) (start limit : UInt64) :
    Option (List (Nat × Launcher.PointHistory)) :=
  some (Launcher.getPointsHistoryByIndex st start limit)

/-- The comments of a page. -/
def commentsPage (st : Project.State) (start limit : UInt64) : Option (List Project.Comments) :=
  (Project.getCommentsByIndex st ⟨start, limit⟩).map Project.CommentsVo.fomoVec

/-- A table that is not empty has a first and a last key. -/
theorem keys_of_ne_empty {V : Type} {t : Std.ExtTreeMap Nat V compare} (h : t ≠ ∅) :
    ∃ lo hi, t.minKey? = some lo ∧ t.maxKey? = some hi := by
  have hlo : t.minKey?.isSome = true := by
    rw [Option.isSome_iff_ne_none]
    exact fun e => h (Std.ExtTreeMap.minKey?_eq_none_iff.mp e)
  have hhi : t.maxKey?.isSome = true := by
    rw [Option.isSome_iff_ne_none]
    exact fun e => h (Std.ExtTreeMap.maxKey?_eq_none_iff.mp e)
  obtain ⟨lo, hlo⟩ := Option.isSome_iff_exists.mp hlo
  obtain ⟨hi, hhi⟩ := Option.isSome_iff_exists.mp hhi
  exact ⟨lo, hi, hlo, hhi⟩

theorem fomoPage_of_ne_empty {st : Launcher.State} (h : st.fomoProjectMap ≠ ∅)
    (start limit : UInt64) :
    fomoPage st start limit =
      some ((range st.fomoProjectMap start (start + limit)).map Prod.snd) := by
  obtain ⟨lo, hi, hlo, hhi⟩ := keys_of_ne_empty h
  unfold fomoPage Launcher.getFomoByIndex
  rw [hlo, hhi]
  rfl

/-- Without a project the first index is unwrapped in vain. -/
theorem fomoPage_of_empty {st : Launcher.State} (h : st.fomoProjectMap = ∅) (start limit : UInt64) :
    fomoPage st start limit = none := by
  unfold fomoPage Launcher.getFomoByIndex
  rw [Std.ExtTreeMap.minKey?_eq_none_iff.mpr h]
  rfl

theorem historyPage_eq (st : Launcher.State) (start limit : UInt64) :
    historyPage st start limit =
      some ((range st.pointHistoryMap start (start + limit)).map id) := by
  rw [List.map_id]
  rfl

theorem commentsPage_eq (st : Project.State) (start limit : UInt64) :
    commentsPage st start limit =
      some ((range st.comments start (start + limit)).map Prod.snd) := by
  unfold commentsPage Project.getCommentsByIndex
  by_cases h : st.comments = ∅
  · rw [Std.ExtTreeMap.minKey?_eq_none_iff.mpr h]
    rfl
  · obtain ⟨lo, hi, hlo, hhi⟩ := keys_of_ne_empty h
    rw [hlo, hhi]
    rfl

/-- **When a page of keys is exact.** In all three queries the end of the window has to be a word, unless
the window is empty, and the first needs a project besides; their walks have every record once. -/
theorem key_pages_iff (launcher : Launcher.State) (project : Project.State) (start limit : UInt64) :
    (Exact launcher.fomoProjectMap Prod.snd (fomoPage launcher) start limit ↔
        launcher.fomoProjectMap ≠ ∅ ∧ EndInWord launcher.fomoProjectMap start limit) ∧
      (Exact launcher.pointHistoryMap id (historyPage launcher) start limit ↔
        EndInWord launcher.pointHistoryMap start limit) ∧
      (Exact project.comments Prod.snd (commentsPage project) start limit ↔
        EndInWord project.comments start limit) ∧
      (launcher.fomoProjectMap ≠ ∅ →
        Covers launcher.fomoProjectMap Prod.snd (fomoPage launcher)) ∧
      Covers launcher.pointHistoryMap id (historyPage launcher) ∧
      Covers project.comments Prod.snd (commentsPage project) := by
  refine ⟨?_, exact_iff (historyPage_eq launcher start limit),
    exact_iff (commentsPage_eq project start limit), fun h => covers (fomoPage_of_ne_empty h),
    covers (historyPage_eq launcher), covers (commentsPage_eq project)⟩
  by_cases h : launcher.fomoProjectMap = ∅
  · refine iff_of_false ?_ fun hall => hall.1 h
    rintro ⟨l, _, hl⟩
    rw [fomoPage_of_empty h] at hl
    cases hl
  · rw [exact_iff (fomoPage_of_ne_empty h start limit)]
    exact (and_iff_right h).symm

/-- A table with one entry, at one, is not answered by a page that ends past the last word. -/
theorem not_endInWord {V : Type} (v : V) :
    ¬ EndInWord ((∅ : Std.ExtTreeMap Nat V compare).insert 1 v) 1 18446744073709551615 := by
  rintro (hlt | hempty)
  · revert hlt
    decide
  · exact hempty 1 v Std.ExtTreeMap.getElem?_insert_self (by decide)

/-- **Pages that are not exact**: a trap of the first query, for a launcher without projects, and empty
answers of the other two, for pages that hold the one record of their map. -/
theorem not_key_pages :
    (¬ ∀ (st : Launcher.State) (start limit : UInt64),
        Exact st.fomoProjectMap Prod.snd (fomoPage st) start limit) ∧
      (¬ ∀ (st : Launcher.State) (start limit : UInt64),
        Exact st.pointHistoryMap id (historyPage st) start limit) ∧
      ¬ ∀ (st : Project.State) (start limit : UInt64),
        Exact st.comments Prod.snd (commentsPage st) start limit := by
  refine ⟨?_, ?_, ?_⟩
  · intro all
    obtain ⟨l, _, hl⟩ := all Launcher.sampleStart.state 1 10
    rw [fomoPage_of_empty rfl] at hl
    cases hl
  · intro all
    let record : Launcher.PointHistory := ⟨0, 1, Launcher.sampleUser, .INIT, "INIT", some 0⟩
    have exact := all { Launcher.sampleStart.state with
      pointHistoryMap := (∅ : Std.ExtTreeMap Nat Launcher.PointHistory compare).insert 1 record }
      1 18446744073709551615
    exact not_endInWord record ((exact_iff (historyPage_eq _ _ _)).mp exact)
  · intro all
    let comment : Project.Comments := ⟨"1", 1, Project.sampleOwner, "a", [], none, 0, []⟩
    have exact := all { Project.init Project.sampleOwner ∅ with
      comments := (∅ : Std.ExtTreeMap Nat Project.Comments compare).insert 1 comment }
      1 18446744073709551615
    exact not_endInWord comment ((exact_iff (commentsPage_eq _ _ _)).mp exact)

end Fomowell
