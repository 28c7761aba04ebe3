import Fomowell.Lib.Pages
import Fomowell.Launcher.System

/-!
# Searching the projects (`fomowell-launcher/src/main.rs`)

`search_fomos` filters the projects by a text, sorts them by one of five keys in one of two directions
and answers a slice. `start` and `limit` are 64-bit words, and their sum, which wraps, is narrowed to a
32-bit one before it is compared with the number of matches. Where the sum is a 32-bit word the slice is
the page; where it is not, what is left of it has to reach the end by chance (`PageInWords`).
-/

namespace Fomowell.Launcher

open Pages

/-! ## The query -/

/-- `SortType`. -/
inductive SortType
  | BumpOrder
  | LastReply
  | ReplyCount
  | MarketCap
  | CreationTime
  deriving DecidableEq

/-- `OrderType`. -/
inductive OrderType
  | ASC
  | DESC
  deriving DecidableEq

/-- `SearchParam`. -/
structure SearchParam where
  text : String
  start : UInt64
  limit : UInt64
  order : OrderType
  sort : SortType

/-- `FomoProjectSearchVo`. -/
structure FomoProjectSearchVo where
  fomoVec : List FomoProject
  start : UInt64
  «end» : UInt64

/-- `str::contains`. -/
def contains (s text : String) : Bool := decide (text.toList <:+: s.toList)

/-- The filter of `search_fomos`. -/
def SearchParam.accepts (env : Env) (param : SearchParam) (fp : FomoProject) : Bool :=
  (contains fp.name param.text || contains fp.ticker param.text ||
    contains (env.toText fp.tokenPid) param.text || contains (env.toText fp.poolPid) param.text ||
    contains (env.toText fp.fomoPid) param.text ||
    contains (env.toText fp.createUserPid) param.text) &&
  fp.fomoIdx ≥ 6

/-- The value that a project is sorted by. -/
def SortType.key : SortType → FomoProject → Nat
  | .BumpOrder, fp => fp.recentlyBumpTime
  | .LastReply, fp => fp.recentlyReplyTime
  | .ReplyCount, fp => fp.replyCount
  | .MarketCap, fp => fp.marketCap
  | .CreationTime, fp => fp.createTime

/-- The comparison of `search_fomos`, not greater. -/
def SearchParam.le (param : SearchParam) (a b : FomoProject) : Bool :=
  match param.order with
  | .ASC => param.sort.key a ≤ param.sort.key b
  | .DESC => param.sort.key b ≤ param.sort.key a

/-- The projects that match, by index. -/
def matching (env : Env) (st : State) (param : SearchParam) : List FomoProject :=
  (st.fomoProjectMap.toList.map Prod.snd).filter (param.accepts env)

/-- `search_fomos`. -/
def searchFomos (env : Env) (st : State) (param : SearchParam) : Option FomoProjectSearchVo := do
  let temp ← collect (matching env st param)
  let size := UInt64.ofNat temp.length
  if param.start > size then
    return { fomoVec := [], start := 0, «end» := size }
  else
    let left := param.start.toUInt32
    let right := (param.start + param.limit).toUInt32
    let temp := temp.mergeSort param.le
    let list ←
      if right.toUInt64 > size then sliceFrom temp left.toNat
      else slice temp left.toNat right.toNat
    return { fomoVec := list, start := 0, «end» := size }

/-! ## What it answers -/

/-- The projects that match, in the order of the query. -/
def sortedMatches (env : Env) (st : State) (param : SearchParam) : List FomoProject :=
  (matching env st param).mergeSort param.le

/-- The page that a query asks for. -/
def AnswersPage (env : Env) (st : State) (param : SearchParam) : Prop :=
  ∃ vo, searchFomos env st param = some vo ∧
    vo.fomoVec = page (sortedMatches env st param) param.start.toNat param.limit.toNat

/-- A page of `size` entries is asked for in words that are wide enough: it begins past the end, or its
end is a 32-bit word, or what the narrowing leaves of its end is past the end too. -/
def PageInWords (size start limit : Nat) : Prop :=
  size < 2 ^ 32 ∧
    (size < start ∨ start + limit < 2 ^ 32 ∨ size ≤ (start + limit) % 2 ^ 32)

instance (size start limit : Nat) : Decidable (PageInWords size start limit) :=
  inferInstanceAs (Decidable (_ ∧ _))

section

variable {env : Env} {st : State} {param : SearchParam}

theorem length_sortedMatches : (sortedMatches env st param).length = (matching env st param).length :=
  List.length_mergeSort _

/-- The order is that of numbers. -/
theorem SearchParam.le_trans (param : SearchParam) (a b c : FomoProject) (hab : param.le a b = true)
    (hbc : param.le b c = true) : param.le a c = true := by
  unfold SearchParam.le at *
  cases horder : param.order with
  | ASC =>
    rw [horder] at hab hbc
    exact decide_eq_true (Nat.le_trans (of_decide_eq_true hab) (of_decide_eq_true hbc))
  | DESC =>
    rw [horder] at hab hbc
    exact decide_eq_true (Nat.le_trans (of_decide_eq_true hbc) (of_decide_eq_true hab))

theorem SearchParam.le_total (param : SearchParam) (a b : FomoProject) :
    (param.le a b || param.le b a) = true := by
  unfold SearchParam.le
  cases param.order with
  | ASC =>
    rw [Bool.or_eq_true, decide_eq_true_eq, decide_eq_true_eq]
    exact Nat.le_total _ _
  | DESC =>
    rw [Bool.or_eq_true, decide_eq_true_eq, decide_eq_true_eq]
    exact Nat.le_total _ _

/-- The sorted matches are those that match, sorted; projects that were in order stay in theirs. -/
theorem sortedMatches_stable :
    (sortedMatches env st param).Perm (matching env st param) ∧
      ((sortedMatches env st param).Pairwise fun a b => param.le a b = true) ∧
      ∀ l : List FomoProject, (l.Pairwise fun a b => param.le a b = true) →
        l.Sublist (matching env st param) → l.Sublist (sortedMatches env st param) := by
  refine ⟨List.mergeSort_perm _ _, List.pairwise_mergeSort param.le_trans param.le_total _, ?_⟩
  intro l hl hsub
  exact List.sublist_mergeSort param.le_trans param.le_total hl hsub

/-- A vector that is too long traps. -/
theorem searchFomos_of_long (h : ¬ (matching env st param).length < 2 ^ 32) :
    searchFomos env st param = none := by
  unfold searchFomos collect
  rw [if_neg h]
  rfl

/-- The answer of `search_fomos`, in numbers that do not wrap. -/
theorem searchFomos_eq (h : (matching env st param).length < 2 ^ 32) :
    searchFomos env st param =
      if (matching env st param).length < param.start.toNat then
        some ⟨[], 0, UInt64.ofNat (matching env st param).length⟩
      else
        let right := (param.start.toNat + param.limit.toNat) % 2 ^ 32
        (if (matching env st param).length < right then
          sliceFrom (sortedMatches env st param) param.start.toNat
        else slice (sortedMatches env st param) param.start.toNat right).map fun list =>
          ⟨list, 0, UInt64.ofNat (matching env st param).length⟩ := by
  have hcollect : collect (matching env st param) = some (matching env st param) :=
    collect_eq_some.mpr ⟨h, rfl⟩
  have hsize : (UInt64.ofNat (matching env st param).length).toNat =
      (matching env st param).length := by
    rw [UInt64.toNat_ofNat']
    exact Nat.mod_eq_of_lt (by omega)
  have hright : (param.start + param.limit).toUInt32.toNat =
      (param.start.toNat + param.limit.toNat) % 2 ^ 32 := by
    rw [UInt64.toNat_toUInt32, UInt64.toNat_add]
    omega
  unfold searchFomos
  rw [hcollect]
  dsimp only [Option.bind_eq_bind, Option.bind_some]
  rw [← sortedMatches]
  simp only [gt_iff_lt, UInt64.lt_iff_toNat_lt, UInt32.toNat_toUInt64, hsize, hright]
  split
  · rfl
  next hle =>
    have hleft : param.start.toUInt32.toNat = param.start.toNat := by
      rw [UInt64.toNat_toUInt32]
      exact Nat.mod_eq_of_lt (by omega)
    rw [hleft]
    split
    · cases sliceFrom (sortedMatches env st param) param.start.toNat <;> rfl
    · cases slice (sortedMatches env st param) param.start.toNat
        ((param.start.toNat + param.limit.toNat) % 2 ^ 32) <;> rfl

/-- A query answers its page exactly where it is asked for in words that are wide enough. -/
theorem answersPage_iff :
    AnswersPage env st param ↔
      PageInWords (matching env st param).length param.start.toNat param.limit.toNat := by
  unfold AnswersPage PageInWords
  by_cases hlen : (matching env st param).length < 2 ^ 32
  · rw [searchFomos_eq hlen]
    have hlength : (sortedMatches env st param).length = (matching env st param).length :=
      length_sortedMatches
    generalize (matching env st param).length = size at *
    generalize sortedMatches env st param = sorted at *
    generalize param.start.toNat = start at *
    generalize param.limit.toNat = limit at *
    by_cases hpast : size < start
    · -- nothing is past the end
      have hnone : page sorted start limit = [] := by
        unfold page
        rw [List.drop_of_length_le (by omega), List.take_nil]
      rw [if_pos hpast, hnone]
      exact iff_of_true ⟨_, rfl, rfl⟩ ⟨hlen, .inl hpast⟩
    · rw [if_neg hpast]
      dsimp only
      generalize hright : (start + limit) % 2 ^ 32 = right
      by_cases hrest : size < right
      · rw [if_pos hrest]
        unfold sliceFrom
        rw [slice_of_le (by omega) (Nat.le_refl _)]
        refine iff_of_true ⟨_, rfl, ?_⟩ ⟨hlen, .inr (.inr (by omega))⟩
        dsimp only
        apply page_eq_of_le
        · omega
        · omega
      · rw [if_neg hrest]
        by_cases hleft : start ≤ right
        · rw [slice_of_le hleft (by omega)]
          simp only [Option.map_some, Option.some.injEq, exists_eq_left', page_eq_iff, hlength]
          omega
        · rw [slice_of_not (by omega)]
          refine iff_of_false ?_ (by omega)
          rintro ⟨vo, h, _⟩
          cases h
  · rw [searchFomos_of_long hlen]
    refine iff_of_false ?_ fun h => hlen h.1
    rintro ⟨vo, h, _⟩
    cases h

end

/-- **When a search answers its page.** The pages are those of the matches in a stable sort; a query
answers its own exactly where it is asked for in words that are wide enough; and a walk over the pages
lists every match once and in order. -/
theorem search_paged_iff (env : Env) (st : State) (param : SearchParam) :
    ((sortedMatches env st param).Perm (matching env st param) ∧
        ((sortedMatches env st param).Pairwise fun a b => param.le a b = true) ∧
        ∀ l : List FomoProject, (l.Pairwise fun a b => param.le a b = true) →
          l.Sublist (matching env st param) → l.Sublist (sortedMatches env st param)) ∧
      (AnswersPage env st param ↔
        PageInWords (matching env st param).length param.start.toNat param.limit.toNat) ∧
      ∀ m, (matching env st param).length ≤ m * param.limit.toNat →
        (∀ j < m, j * param.limit.toNat < 2 ^ 64 ∧ PageInWords (matching env st param).length
          (j * param.limit.toNat) param.limit.toNat) →
        ∃ pages, (List.range m).mapM (fun j => (searchFomos env st
            { param with start := UInt64.ofNat (j * param.limit.toNat) }).map
              FomoProjectSearchVo.fomoVec) = some pages ∧
          pages.flatten = sortedMatches env st param := by
  refine ⟨sortedMatches_stable, answersPage_iff, ?_⟩
  intro m hcover hwords
  have hquery : ∀ j < m, (searchFomos env st
      { param with start := UInt64.ofNat (j * param.limit.toNat) }).map
        FomoProjectSearchVo.fomoVec =
      some (page (sortedMatches env st param) (j * param.limit.toNat) param.limit.toNat) := by
    intro j hj
    obtain ⟨hword, hpage⟩ := hwords j hj
    have hstart : (UInt64.ofNat (j * param.limit.toNat)).toNat = j * param.limit.toNat := by
      rw [UInt64.toNat_ofNat']
      exact Nat.mod_eq_of_lt hword
    -- the match and the order of a query do not depend on where its page starts
    have hanswers :
        AnswersPage env st { param with start := UInt64.ofNat (j * param.limit.toNat) } := by
      apply answersPage_iff.mpr
      rw [hstart]
      exact hpage
    obtain ⟨vo, hvo, hlist⟩ := hanswers
    rw [hvo, Option.map_some, hlist, hstart]
    rfl
  apply walk_pages hquery
  rw [length_sortedMatches]
  exact hcover

/-- A launcher whose one project is the first that a search shows. -/
def searchedState : State :=
  let project : Created := ⟨⟨sampleUser, sampleCreate, 6⟩, sampleCanister, sampleCanister,
    sampleProject, "", 0⟩
  { sampleStart.state with
    fomoProjectMap := sampleStart.state.fomoProjectMap.insert 6 project.fomoProject }

/-- **A page that traps**: its start is the end of the matches, and its end is no 32-bit word. -/
theorem not_search_paged :
    ¬ ∀ (env : Env) (st : State) (param : SearchParam), AnswersPage env st param := by
  intro all
  have page := answersPage_iff.mp (all sampleEnv searchedState ⟨"", 1, 4294967295, .ASC, .MarketCap⟩)
  revert page
  decide

end Fomowell.Launcher
