import Fomowell.Lib.Table

/-!
# Tables saved and restored

A service that saves a table does so as the list of its entries, and restores it by inserting them one
after another into an empty one. `Part` is a table that is part of a state, read and written without
touching the rest. `Part.restore`: whatever the state is, as long as its table is empty and each saved
entry is accepted, the loop of insertions ends and leaves the table that was saved, with the rest of
the state untouched.
-/

namespace Table

open Std

variable {σ K V : Type*} {cmp : K → K → Ordering} [TransCmp cmp] [LawfulEqCmp cmp]

/-- A table is the table of its entries. -/
theorem ofList_toList [DecidableEq K] (t : ExtTreeMap K V cmp) : ExtTreeMap.ofList t.toList cmp = t := by
  refine ExtTreeMap.ext_getElem? fun a => ?_
  cases h : t[a]? with
  | some v =>
    exact ExtTreeMap.getElem?_ofList_of_mem ReflCmp.compare_self ExtTreeMap.distinct_keys_toList
      (ExtTreeMap.mem_toList_iff_getElem?_eq_some.mpr h)
  | none =>
    refine ExtTreeMap.getElem?_ofList_of_contains_eq_false ?_
    rw [Bool.eq_false_iff, ne_eq, List.contains_iff_mem]
    intro hmem
    obtain ⟨⟨k, v⟩, hentry, rfl⟩ := List.mem_map.mp hmem
    rw [ExtTreeMap.mem_toList_iff_getElem?_eq_some.mp hentry] at h
    cases h

/-- A table that is part of a state. -/
structure Part (σ K V : Type*) (cmp : K → K → Ordering) where
  read : σ → ExtTreeMap K V cmp
  write : σ → ExtTreeMap K V cmp → σ
  read_write : ∀ s t, read (write s t) = t
  write_read : ∀ s, write s (read s) = s
  write_write : ∀ s t t', write (write s t) t' = write s t'

namespace Part

variable (part : Part σ K V cmp) (put : σ → K → V → Option σ)

omit [LawfulEqCmp cmp] in
/-- Insertions that are accepted end. -/
theorem foldlM_put {l : List (K × V)}
    (accepts : ∀ s, ∀ e ∈ l, put s e.1 e.2 = some (part.write s ((part.read s).insert e.1 e.2)))
    (s : σ) :
    l.foldlM (fun s e => put s e.1 e.2) s =
      some (part.write s (l.foldl (fun t e => t.insert e.1 e.2) (part.read s))) := by
  induction l generalizing s with
  | nil => exact congrArg some (part.write_read s).symm
  | cons e l ih =>
    rw [List.foldlM_cons, accepts s e List.mem_cons_self]
    have rest := ih (fun s e he => accepts s e (List.mem_cons_of_mem _ he))
      (part.write s ((part.read s).insert e.1 e.2))
    rw [part.read_write, part.write_write] at rest
    exact rest

/-- **What is saved is restored.** -/
theorem restore [DecidableEq K] {s : σ} (empty : part.read s = ∅) {t : ExtTreeMap K V cmp}
    (accepts : ∀ s (k : K) v, t[k]? = some v →
      put s k v = some (part.write s ((part.read s).insert k v))) :
    t.toList.foldlM (fun s e => put s e.1 e.2) s = some (part.write s t) := by
  rw [part.foldlM_put put fun s e he =>
    accepts s e.1 e.2 (ExtTreeMap.mem_toList_iff_getElem?_eq_some.mp he)]
  rw [empty, ← ExtTreeMap.ofList_eq_foldl, ofList_toList]

end Part

end Table
