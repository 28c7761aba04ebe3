import Fomowell.Lib.Table
import Mathlib.Data.Set.Card

/-!
# Sparse tables

A table whose entry says the same as no entry at all may keep such entries or drop them. A sparse
table drops them: no value stored is blank (`Sparse`). It is kept by insertions of values that are not
blank, and by erasures. What the sparse form buys is that the table can be counted: its size is the
number of keys with an entry (`encard_keys`), and for a table of tables the sum of the sizes is the
number of pairs (`encard_pairs`).
-/

namespace Table

open Std

variable {K L V : Type*} {cmp : K → K → Ordering} [TransCmp cmp] [LawfulEqCmp cmp]
  {cmp' : L → L → Ordering} [TransCmp cmp'] [LawfulEqCmp cmp']

/-- No value stored is blank. -/
def Sparse (blank : V → Prop) (t : ExtTreeMap K V cmp) : Prop :=
  ∀ (k : K) (v : V), t[k]? = some v → ¬ blank v

section

variable {blank : V → Prop} {t : ExtTreeMap K V cmp}

omit [LawfulEqCmp cmp] in
theorem sparse_empty : Sparse blank (∅ : ExtTreeMap K V cmp) := by
  intro k v h
  rw [ExtTreeMap.getElem?_empty] at h
  cases h

theorem Sparse.insert (sparse : Sparse blank t) (k : K) {v : V} (h : ¬ blank v) :
    Sparse blank (t.insert k v) := by
  intro k' v' hget
  by_cases hk : k' = k
  · subst hk
    rw [ExtTreeMap.getElem?_insert_self] at hget
    cases hget
    exact h
  · rw [get_insert_of_ne _ _ hk] at hget
    exact sparse k' v' hget

theorem Sparse.erase (sparse : Sparse blank t) (k : K) : Sparse blank (t.erase k) := by
  intro k' v' hget
  by_cases hk : k' = k
  · subst hk
    rw [ExtTreeMap.getElem?_erase_self] at hget
    cases hget
  · rw [get_erase_of_ne _ hk] at hget
    exact sparse k' v' hget

end

/-- **Two sparse tables that read the same** are the same, where no entry reads as a zero. -/
theorem Sparse.eq_of_getD [Zero V] {t t' : ExtTreeMap K V cmp} (sparse : Sparse (· = 0) t)
    (sparse' : Sparse (· = 0) t') (h : ∀ k : K, t[k]?.getD 0 = t'[k]?.getD 0) : t = t' := by
  apply ExtTreeMap.ext_getElem?
  intro k
  have hk := h k
  cases hget : t[k]? with
  | none =>
    cases hget' : t'[k]? with
    | none => rfl
    | some value =>
      rw [hget, hget'] at hk
      exact absurd hk.symm (sparse' k value hget')
  | some value =>
    cases hget' : t'[k]? with
    | none =>
      rw [hget, hget'] at hk
      exact absurd hk (sparse k value hget)
    | some value' =>
      rw [hget, hget'] at hk
      exact congrArg some hk

/-! ## Counting -/

/-- A list without duplicates counts its elements. -/
theorem encard_of_nodup {α : Type*} {s : Set α} {l : List α} (hl : l.Nodup)
    (h : ∀ a, a ∈ s ↔ a ∈ l) : s.encard = l.length := by
  classical
  have hs : s = (l.toFinset : Set α) := by
    ext a
    rw [h a, Finset.mem_coe, List.mem_toFinset]
  rw [hs, Set.encard_coe_eq_coe_finsetCard, List.toFinset_card_of_nodup hl]

/-- **The size of a table** is the number of keys that have an entry. -/
theorem encard_keys (t : ExtTreeMap K V cmp) : {k : K | t[k]?.isSome}.encard = t.size := by
  rw [← ExtTreeMap.length_keys]
  apply encard_of_nodup ExtTreeMap.nodup_keys
  intro k
  rw [ExtTreeMap.mem_keys, ExtTreeMap.mem_iff_isSome_getElem?]
  rfl

/-- The pairs of keys that have an entry in a table of tables. -/
def pairs (t : ExtTreeMap K (ExtTreeMap L V cmp') cmp) : List (K × L) :=
  t.toList.flatMap fun e => e.2.keys.map (Prod.mk e.1)

theorem mem_pairs {t : ExtTreeMap K (ExtTreeMap L V cmp') cmp} {k : K} {l : L} :
    (k, l) ∈ pairs t ↔ (t[k]?.bind fun inner => inner[l]?).isSome := by
  unfold pairs
  rw [List.mem_flatMap, Option.isSome_iff_exists]
  constructor
  · rintro ⟨⟨k', inner⟩, hentry, hl⟩
    obtain ⟨l', hkey, hpair⟩ := List.mem_map.mp hl
    cases hpair
    rw [ExtTreeMap.mem_toList_iff_getElem?_eq_some] at hentry
    rw [ExtTreeMap.mem_keys, ExtTreeMap.mem_iff_isSome_getElem?, Option.isSome_iff_exists] at hkey
    obtain ⟨v, hv⟩ := hkey
    exact ⟨v, Option.bind_eq_some_iff.mpr ⟨inner, hentry, hv⟩⟩
  · rintro ⟨v, h⟩
    obtain ⟨inner, hinner, hv⟩ := Option.bind_eq_some_iff.mp h
    refine ⟨(k, inner), ExtTreeMap.mem_toList_iff_getElem?_eq_some.mpr hinner, ?_⟩
    apply List.mem_map_of_mem
    rw [ExtTreeMap.mem_keys, ExtTreeMap.mem_iff_isSome_getElem?, hv]
    rfl

omit [LawfulEqCmp cmp'] in
theorem nodup_pairs (t : ExtTreeMap K (ExtTreeMap L V cmp') cmp) : (pairs t).Nodup := by
  unfold pairs
  rw [List.nodup_flatMap]
  constructor
  · intro e _
    exact ExtTreeMap.nodup_keys.map fun _ _ h => congrArg Prod.snd h
  · refine ExtTreeMap.distinct_keys_toList.imp ?_
    intro e e' hne pair hpair hpair'
    obtain ⟨_, _, rfl⟩ := List.mem_map.mp hpair
    obtain ⟨_, _, heq⟩ := List.mem_map.mp hpair'
    apply hne
    rw [← congrArg Prod.fst heq]
    exact ReflCmp.compare_self

/-- **The sum of the sizes** in a table of tables is the number of pairs that have an entry. -/
theorem encard_pairs (t : ExtTreeMap K (ExtTreeMap L V cmp') cmp) :
    {p : K × L | (t[p.1]?.bind fun inner => inner[p.2]?).isSome}.encard =
      (sumOf (fun _ inner => inner.size) t : Nat) := by
  have hlength : (sumOf (fun _ inner => inner.size) t : Nat) = (pairs t).length := by
    unfold sumOf pairs
    rw [List.length_flatMap]
    simp only [List.length_map, ExtTreeMap.length_keys]
  rw [hlength]
  apply encard_of_nodup (nodup_pairs t)
  rintro ⟨k, l⟩
  exact mem_pairs.symm

end Table
