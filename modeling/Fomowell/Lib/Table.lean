import Std.Data.ExtTreeMap
import Mathlib.Algebra.BigOperators.Group.List.Basic
import Mathlib.Algebra.Group.Nat.Defs

/-!
# Finite tables and sums over them

A finite map whose equality is that of its entries, and the sum of a weight over them (`sumOf`).
Everything about a sum follows from one splitting law: at any key, the sum is the weight of the
entry there and the sum over the table without it (`sumOf_erase`). An update of one key is then
arithmetic on two numbers, whatever else the table holds.

The reading lemmas restate those of the map with equality of keys in place of the comparison.
-/

namespace Table

open Std

variable {K V M : Type*} {cmp : K → K → Ordering} [TransCmp cmp] [LawfulEqCmp cmp]

omit [LawfulEqCmp cmp] in
/-- An empty table has no entry. -/
theorem get_of_isEmpty {t : ExtTreeMap K V cmp} (h : t.isEmpty) (k : K) : t[k]? = none := by
  rw [ExtTreeMap.isEmpty_iff.mp h, ExtTreeMap.getElem?_empty]

/-! ## Reading after an update -/

/-- A table read after an insertion. -/
theorem get_insert [DecidableEq K] (t : ExtTreeMap K V cmp) (k a : K) (v : V) :
    (t.insert k v)[a]? = if a = k then some v else t[a]? := by
  rw [ExtTreeMap.getElem?_insert]
  simp only [LawfulEqCmp.compare_eq_iff_eq]
  exact if_congr eq_comm rfl rfl

/-- Any other key reads as before. -/
theorem get_insert_of_ne (t : ExtTreeMap K V cmp) {k a : K} (v : V) (h : a ≠ k) :
    (t.insert k v)[a]? = t[a]? := by
  rw [ExtTreeMap.getElem?_insert, if_neg (fun e => h (LawfulEqCmp.compare_eq_iff_eq.mp e).symm)]

/-- A key that none of the inserted entries has reads as before. -/
theorem get_foldl_insert_of_ne {β : Type*} (key : β → K) (value : β → V) {l : List β}
    (t : ExtTreeMap K V cmp) {a : K} (h : ∀ b ∈ l, a ≠ key b) :
    (l.foldl (fun t b => t.insert (key b) (value b)) t)[a]? = t[a]? := by
  induction l generalizing t with
  | nil => rfl
  | cons b l ih =>
    rw [List.foldl_cons, ih _ fun c hc => h c (List.mem_cons_of_mem b hc)]
    exact get_insert_of_ne t _ (h b List.mem_cons_self)

/-- Where no two inserted entries have the same key, each reads as it was inserted. -/
theorem get_foldl_insert_of_mem {β : Type*} (key : β → K) (value : β → V) {l : List β}
    (t : ExtTreeMap K V cmp) (nodup : (l.map key).Nodup) {b : β} (hb : b ∈ l) :
    (l.foldl (fun t b => t.insert (key b) (value b)) t)[key b]? = some (value b) := by
  induction l generalizing t with
  | nil => cases hb
  | cons c l ih =>
    rw [List.map_cons, List.nodup_cons] at nodup
    rw [List.foldl_cons]
    obtain rfl | hmem := List.mem_cons.mp hb
    · have hne : ∀ d ∈ l, key b ≠ key d := fun d hd e => nodup.1 (e ▸ List.mem_map_of_mem hd)
      rw [get_foldl_insert_of_ne key value _ hne]
      exact ExtTreeMap.getElem?_insert_self
    · exact ih _ nodup.2 hmem

/-- What holds of every entry and of a new one holds after its insertion. -/
theorem forall_get_insert [DecidableEq K] {P : K → V → Prop} {t : ExtTreeMap K V cmp}
    (h : ∀ a w, t[a]? = some w → P a w) {k : K} {v : V} (hv : P k v) :
    ∀ a w, (t.insert k v)[a]? = some w → P a w := by
  intro a w hw
  rw [get_insert] at hw
  split at hw
  next e =>
    cases hw
    rw [e]
    exact hv
  next => exact h a w hw

/-- Any other key reads as before an erasure. -/
theorem get_erase_of_ne (t : ExtTreeMap K V cmp) {k a : K} (h : a ≠ k) :
    (t.erase k)[a]? = t[a]? := by
  rw [ExtTreeMap.getElem?_erase, if_neg (fun e => h (LawfulEqCmp.compare_eq_iff_eq.mp e).symm)]

/-- An erasure forgets what was inserted at its key. -/
@[simp] theorem erase_insert (t : ExtTreeMap K V cmp) (k : K) (v : V) :
    (t.insert k v).erase k = t.erase k := by
  refine ExtTreeMap.ext_getElem? fun a => ?_
  by_cases h : a = k
  · rw [h, ExtTreeMap.getElem?_erase_self, ExtTreeMap.getElem?_erase_self]
  · rw [get_erase_of_ne _ h, get_insert_of_ne _ _ h, get_erase_of_ne _ h]

/-- Erasing twice is erasing once. -/
@[simp] theorem erase_erase (t : ExtTreeMap K V cmp) (k : K) : (t.erase k).erase k = t.erase k := by
  refine ExtTreeMap.ext_getElem? fun a => ?_
  by_cases h : a = k
  · rw [h, ExtTreeMap.getElem?_erase_self, ExtTreeMap.getElem?_erase_self]
  · rw [get_erase_of_ne _ h]

/-- Erasing an absent key changes nothing. -/
theorem erase_of_get_none {t : ExtTreeMap K V cmp} {k : K} (h : t[k]? = none) : t.erase k = t := by
  refine ExtTreeMap.ext_getElem? fun a => ?_
  by_cases ha : a = k
  · rw [ha, ExtTreeMap.getElem?_erase_self, h]
  · rw [get_erase_of_ne _ ha]

/-! ## Sums -/

section

variable [AddCommMonoid M]

/-- The sum of a weight over the entries of a table. -/
def sumOf (w : K → V → M) (t : ExtTreeMap K V cmp) : M :=
  (t.toList.map fun e => w e.1 e.2).sum

/-- The weight of the entry at a key, zero where there is none. -/
def weightAt (w : K → V → M) (t : ExtTreeMap K V cmp) (k : K) : M :=
  (t[k]?).elim 0 (w k)

omit [LawfulEqCmp cmp] in
@[simp] theorem sumOf_empty (w : K → V → M) : sumOf w (∅ : ExtTreeMap K V cmp) = 0 := rfl

/-- The entries of a table are pairwise different. -/
theorem nodup_toList (t : ExtTreeMap K V cmp) : t.toList.Nodup :=
  ExtTreeMap.distinct_keys_toList.imp fun h e => h (by rw [e]; exact ReflCmp.compare_self)

/-- The entries of a table that has one at `k` are that entry and those of the table without it. -/
theorem toList_perm_erase {t : ExtTreeMap K V cmp} {k : K} {v : V} (h : t[k]? = some v) :
    t.toList.Perm ((k, v) :: (t.erase k).toList) := by
  have hout : (k, v) ∉ (t.erase k).toList := by
    rw [ExtTreeMap.mem_toList_iff_getElem?_eq_some, ExtTreeMap.getElem?_erase_self]
    exact fun e => nomatch e
  refine (List.perm_ext_iff_of_nodup (nodup_toList t)
    (List.nodup_cons.mpr ⟨hout, nodup_toList _⟩)).mpr ?_
  rintro ⟨a, b⟩
  rw [List.mem_cons, ExtTreeMap.mem_toList_iff_getElem?_eq_some,
    ExtTreeMap.mem_toList_iff_getElem?_eq_some, Prod.mk.injEq]
  by_cases ha : a = k
  · subst ha
    rw [h, ExtTreeMap.getElem?_erase_self, Option.some.injEq]
    simp only [true_and, reduceCtorEq, or_false, eq_comm]
  · rw [get_erase_of_ne _ ha]
    simp only [ha, false_and, false_or]

/-- **The splitting law**: at any key, the sum is the weight there and the sum without it. -/
theorem sumOf_erase (w : K → V → M) (t : ExtTreeMap K V cmp) (k : K) :
    sumOf w t = weightAt w t k + sumOf w (t.erase k) := by
  unfold weightAt
  cases h : t[k]? with
  | none => rw [erase_of_get_none h, Option.elim_none, zero_add]
  | some v =>
    rw [sumOf, ((toList_perm_erase h).map _).sum_eq, List.map_cons, List.sum_cons,
      Option.elim_some, sumOf]

/-- The sum after an insertion: the new weight, and the sum without the key. -/
theorem sumOf_insert (w : K → V → M) (t : ExtTreeMap K V cmp) (k : K) (v : V) :
    sumOf w (t.insert k v) = w k v + sumOf w (t.erase k) := by
  rw [sumOf_erase w (t.insert k v) k, erase_insert, weightAt, ExtTreeMap.getElem?_insert_self, Option.elim_some]

/-- A weight that vanishes on the entries of a table has sum zero. -/
theorem sumOf_eq_zero {w : K → V → M} {t : ExtTreeMap K V cmp}
    (h : ∀ k v, t[k]? = some v → w k v = 0) : sumOf w t = 0 := by
  refine List.sum_eq_zero fun x hx => ?_
  obtain ⟨e, he, rfl⟩ := List.mem_map.mp hx
  exact h e.1 e.2 (ExtTreeMap.mem_toList_iff_getElem?_eq_some.mp he)

end

/-- One entry weighs at most the sum. -/
theorem weightAt_le_sumOf (w : K → V → Nat) (t : ExtTreeMap K V cmp) (k : K) :
    weightAt w t k ≤ sumOf w t := by
  rw [sumOf_erase w t k]
  exact Nat.le_add_right _ _

/-- Two entries weigh together at most the sum. -/
theorem weightAt_add_le_sumOf (w : K → V → Nat) (t : ExtTreeMap K V cmp) {k a : K} (h : a ≠ k) :
    weightAt w t k + weightAt w t a ≤ sumOf w t := by
  have hother := weightAt_le_sumOf w (t.erase k) a
  rw [weightAt, get_erase_of_ne _ h, ← weightAt] at hother
  rw [sumOf_erase w t k]
  exact Nat.add_le_add_left hother _

end Table
