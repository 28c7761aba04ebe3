import Fomowell.Lib.Pages
import Mathlib.Data.UInt
import Std.Data.ExtTreeMap

/-!
# Pages of a table by key

A table with numbers for keys is read by pages of keys: the page at `start` is asked for as the range
from `start` to `start + limit`, two 64-bit words whose sum wraps. A page is `Exact` where it has the
entries of its window, in the order of their keys, and no others. A range is, exactly where the sum
does not wrap or the window is empty (`range_exact_iff`), because a sum that wraps is below `start`.
The pages of a walk whose last end is a word have all entries once (`flatMap_range`).
-/

namespace Pages

open Std

variable {V R : Type*}

/-- `range(lo..hi)`: the entries with a key in the range, by key. -/
def range (t : ExtTreeMap Nat V compare) (lo hi : UInt64) : List (Nat × V) :=
  t.toList.filter fun e => lo.toNat ≤ e.1 && e.1 < hi.toNat

/-- These entries are those of the window at `start`, by key. -/
structure InWindow (t : ExtTreeMap Nat V compare) (start limit : Nat) (l : List (Nat × V)) : Prop where
  ascending : l.Pairwise fun a b => a.1 < b.1
  mem_iff : ∀ k v, (k, v) ∈ l ↔ t[k]? = some v ∧ start ≤ k ∧ k - start < limit

/-- A query answers the window that it asks for, with `f` of each entry. -/
def Exact (t : ExtTreeMap Nat V compare) (f : Nat × V → R)
    (query : UInt64 → UInt64 → Option (List R)) (start limit : UInt64) : Prop :=
  ∃ l, InWindow t start.toNat limit.toNat l ∧ query start limit = some (l.map f)

/-- The end of the window is a word, or nothing is in the window. -/
def EndInWord (t : ExtTreeMap Nat V compare) (start limit : UInt64) : Prop :=
  start.toNat + limit.toNat < 2 ^ 64 ∨
    ∀ k v, t[k]? = some v → ¬ (start.toNat ≤ k ∧ k - start.toNat < limit.toNat)

/-- A walk of the query over consecutive pages that reach past every key has all entries once. -/
def Covers (t : ExtTreeMap Nat V compare) (f : Nat × V → R)
    (query : UInt64 → UInt64 → Option (List R)) : Prop :=
  ∀ (limit : UInt64) (m : Nat), m * limit.toNat < 2 ^ 64 →
    (∀ k v, t[k]? = some v → k < m * limit.toNat) →
    ∃ pages, (List.range m).mapM (fun j => query (UInt64.ofNat (j * limit.toNat)) limit) = some pages ∧
      pages.flatten = t.toList.map f

section

variable {t : ExtTreeMap Nat V compare} {start limit : UInt64} {l : List (Nat × V)}

theorem toList_ascending (t : ExtTreeMap Nat V compare) :
    t.toList.Pairwise fun a b => a.1 < b.1 :=
  ExtTreeMap.ordered_keys_toList.imp Nat.compare_eq_lt.mp

theorem nodup_of_ascending (h : l.Pairwise fun a b => a.1 < b.1) : l.Nodup := by
  refine h.imp ?_
  intro a b hab e
  rw [e] at hab
  exact Nat.lt_irrefl _ hab

/-- The entries of a window are the window of the entries. -/
theorem inWindow_iff {start limit : Nat} :
    InWindow t start limit l ↔ l = window Prod.fst t.toList start limit := by
  have hmem : ∀ k v, (k, v) ∈ window Prod.fst t.toList start limit ↔
      t[k]? = some v ∧ start ≤ k ∧ k - start < limit := by
    intro k v
    unfold window
    rw [List.mem_filter, ExtTreeMap.mem_toList_iff_getElem?_eq_some, decide_eq_true_eq]
  have hascending : (window Prod.fst t.toList start limit).Pairwise fun a b => a.1 < b.1 :=
    (toList_ascending t).filter _
  constructor
  · rintro ⟨ascending, mem_iff⟩
    have hperm : l.Perm (window Prod.fst t.toList start limit) := by
      rw [List.perm_ext_iff_of_nodup (nodup_of_ascending ascending) (nodup_of_ascending hascending)]
      rintro ⟨k, v⟩
      rw [mem_iff, hmem]
    refine hperm.eq_of_pairwise ?_ ascending hascending
    intro a b _ _ hab hba
    exact absurd hab (Nat.lt_asymm hba)
  · rintro rfl
    exact ⟨hascending, hmem⟩

/-- A range whose end does not wrap is the window. -/
theorem range_of_lt (h : start.toNat + limit.toNat < 2 ^ 64) :
    range t start (start + limit) = window Prod.fst t.toList start.toNat limit.toNat := by
  have hend : (start + limit).toNat = start.toNat + limit.toNat := by
    rw [UInt64.toNat_add]
    exact Nat.mod_eq_of_lt h
  unfold range window
  rw [hend]
  apply List.filter_congr
  intro e _
  rw [← Bool.decide_and, decide_eq_decide]
  omega

/-- A range whose end wraps is empty. -/
theorem range_of_not_lt (h : ¬ start.toNat + limit.toNat < 2 ^ 64) :
    range t start (start + limit) = [] := by
  have hstart := start.toNat_lt
  have hlimit := limit.toNat_lt
  have hend : (start + limit).toNat < start.toNat := by
    rw [UInt64.toNat_add]
    omega
  unfold range
  rw [List.filter_eq_nil_iff]
  intro e _
  rw [Bool.and_eq_true, decide_eq_true_eq, decide_eq_true_eq]
  omega

/-- **A range is exact** where the end of its window is a word. -/
theorem range_exact_iff :
    InWindow t start.toNat limit.toNat (range t start (start + limit)) ↔ EndInWord t start limit := by
  unfold EndInWord
  by_cases h : start.toNat + limit.toNat < 2 ^ 64
  · exact iff_of_true (inWindow_iff.mpr (range_of_lt h)) (.inl h)
  · rw [range_of_not_lt h]
    constructor
    · rintro ⟨_, mem_iff⟩
      refine .inr ?_
      intro k v hv hwindow
      exact List.not_mem_nil ((mem_iff k v).mpr ⟨hv, hwindow⟩)
    · rintro (hlt | hempty)
      · exact absurd hlt h
      · refine ⟨List.Pairwise.nil, ?_⟩
        intro k v
        refine iff_of_false List.not_mem_nil ?_
        rintro ⟨hv, hwindow⟩
        exact hempty k v hv hwindow

/-- A query that answers `f` of the entries of its range is exact where the range is. -/
theorem exact_iff {f : Nat × V → R} {query : UInt64 → UInt64 → Option (List R)}
    (hquery : query start limit = some ((range t start (start + limit)).map f)) :
    Exact t f query start limit ↔ EndInWord t start limit := by
  unfold Exact
  rw [hquery]
  constructor
  · rintro ⟨l, hl, h⟩
    rw [← range_exact_iff]
    by_cases hlt : start.toNat + limit.toNat < 2 ^ 64
    · exact inWindow_iff.mpr (range_of_lt hlt)
    · -- the range is empty, and so is the window
      rw [range_of_not_lt hlt] at h ⊢
      rw [List.map_nil, Option.some.injEq, eq_comm, List.map_eq_nil_iff] at h
      rwa [h] at hl
  · intro h
    exact ⟨_, range_exact_iff.mpr h, rfl⟩

/-- **Consecutive ranges have all entries once.** -/
theorem covers {f : Nat × V → R} {query : UInt64 → UInt64 → Option (List R)}
    (hquery : ∀ start limit, query start limit = some ((range t start (start + limit)).map f)) :
    Covers t f query := by
  intro limit m hword hkeys
  have hpage : ∀ j < m, query (UInt64.ofNat (j * limit.toNat)) limit =
      some ((window Prod.fst t.toList (j * limit.toNat) limit.toNat).map f) := by
    intro j hj
    have hle : (j + 1) * limit.toNat ≤ m * limit.toNat := Nat.mul_le_mul_right _ hj
    rw [Nat.succ_mul] at hle
    have hstart : (UInt64.ofNat (j * limit.toNat)).toNat = j * limit.toNat := by
      rw [UInt64.toNat_ofNat']
      exact Nat.mod_eq_of_lt (by omega)
    have hend : (UInt64.ofNat (j * limit.toNat)).toNat + limit.toNat < 2 ^ 64 := by
      rw [hstart]
      omega
    rw [hquery, range_of_lt hend, hstart]
  obtain ⟨pages, hpages, hflatten⟩ := walk hpage
  refine ⟨pages, hpages, ?_⟩
  rw [hflatten, ← List.map_flatMap, flatMap_window Prod.fst (toList_ascending t)]
  congr 1
  rw [List.filter_eq_self]
  rintro ⟨k, v⟩ he
  exact decide_eq_true (hkeys k v (ExtTreeMap.mem_toList_iff_getElem?_eq_some.mp he))

end

end Pages
