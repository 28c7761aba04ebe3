import Fomowell.Lib.Pages
import Fomowell.Lib.Ranking
import Fomowell.Token.Canonical

/-!
# The pages of the holders

`get_holders` enumerates the balance map, sorts it by balance and answers a slice. Its arithmetic is on
32-bit words that wrap: where `start` is past the end, the corrected limit wraps and `start + limit` is
the length again, below `start`; and a sum of `start` and `limit` that is no word falls below `start`
as well. In both cases the slice is out of order and traps, and in no other (`getHolders_eq_some_iff`).
-/

namespace Fomowell.Token.DIP20

open Pages

/-- The order in which a balance map is enumerated. -/
structure Enumeration (balances : Balances) where
  entries : List (Principal × Nat)
  perm : entries.Perm balances.toList

/-- `sort_by` on balances, the highest first. -/
def sortByBalance (balance : List (Principal × Nat)) : List (Principal × Nat) :=
  balance.mergeSort fun a b => b.2 ≤ a.2

/-- `get_holders`. -/
def getHolders (self : DIP20) (order : Enumeration self.balances) (start limit : UInt32) :
    Option (List (Principal × Nat)) := do
  let balance ← collect order.entries
  let balance := sortByBalance balance
  let len := UInt32.ofNat balance.length
  let limit := if start + limit > len then len - start else limit
  slice balance start.toNat (start + limit).toNat

section

variable {balances : Balances} (order : Enumeration balances)

/-- All holders, as `get_holders` sorts them. -/
def holdersByBalance : List (Principal × Nat) := sortByBalance order.entries

theorem length_entries : order.entries.length = balances.size :=
  order.perm.length_eq.trans Std.ExtTreeMap.length_toList

theorem holdersByBalance_perm : (holdersByBalance order).Perm balances.toList :=
  (Ranking.byKey_perm Prod.snd order.entries).trans order.perm

theorem length_holdersByBalance : (holdersByBalance order).length = balances.size :=
  (List.length_mergeSort _).trans (length_entries order)

/-- The holders come by non-increasing balance. -/
theorem holdersByBalance_sorted : (holdersByBalance order).Pairwise fun a b => b.2 ≤ a.2 :=
  Ranking.byKey_sorted Prod.snd order.entries

end

section

variable {s : DIP20} {order : Enumeration s.balances} {start limit : UInt32}

/-- The slice that `get_holders` answers, in numbers that do not wrap. -/
theorem getHolders_eq (hlen : s.balances.size < 2 ^ 32) :
    s.getHolders order start limit =
      if start.toNat ≤ s.balances.size ∧ start.toNat + limit.toNat < 2 ^ 32 then
        some (page (holdersByBalance order) start.toNat limit.toNat)
      else none := by
  have hsize := length_holdersByBalance order
  have hcollect : collect order.entries = some order.entries :=
    collect_eq_some.mpr ⟨by rwa [length_entries], rfl⟩
  unfold getHolders
  rw [hcollect]
  dsimp only [Option.bind_eq_bind, Option.bind_some]
  rw [← holdersByBalance, hsize]
  generalize hlenWord : UInt32.ofNat s.balances.size = len
  have hword : len.toNat = s.balances.size := by
    rw [← hlenWord, UInt32.toNat_ofNat']
    exact Nat.mod_eq_of_lt hlen
  have hstart := start.toNat_lt
  have hlimit := limit.toNat_lt
  by_cases hpast : start + limit > len
  · rw [if_pos hpast]
    have hright : (start + (len - start)).toNat = s.balances.size := by
      rw [UInt32.toNat_add, UInt32.toNat_sub]
      omega
    rw [gt_iff_lt, UInt32.lt_iff_toNat_lt, UInt32.toNat_add] at hpast
    rw [hright]
    split
    next h =>
      rw [slice_of_le h.1 (Nat.le_of_eq hsize.symm)]
      congr 1
      apply page_eq_of_le
      · omega
      · omega
    next h =>
      -- a sum that wraps is below `start`, so `start` is past the end here too
      apply slice_of_not
      omega
  · rw [if_neg hpast]
    rw [gt_iff_lt, UInt32.lt_iff_toNat_lt, UInt32.toNat_add] at hpast
    split
    next h =>
      have hright : (start + limit).toNat = start.toNat + limit.toNat := by
        rw [UInt32.toNat_add]
        exact Nat.mod_eq_of_lt h.2
      rw [hright, slice_of_le (Nat.le_add_right _ _) (by omega), Nat.add_sub_cancel_left]
    next h =>
      have hright : (start + limit).toNat < start.toNat := by
        rw [UInt32.toNat_add]
        omega
      apply slice_of_not
      omega

/-- **When a page of holders is answered**: where `start` is not past the end, and the end of the page
is a word. -/
theorem getHolders_eq_some_iff :
    s.getHolders order start limit =
        some (page (holdersByBalance order) start.toNat limit.toNat) ↔
      s.balances.size < 2 ^ 32 ∧ start.toNat ≤ s.balances.size ∧
        start.toNat + limit.toNat < 2 ^ 32 := by
  by_cases hlen : s.balances.size < 2 ^ 32
  · rw [getHolders_eq hlen]
    split
    next h => exact iff_of_true rfl ⟨hlen, h⟩
    next h =>
      refine iff_of_false ?_ fun hall => h hall.2
      intro hnone
      cases hnone
  · have hcollect : collect order.entries = none := by
      unfold collect
      rw [length_entries, if_neg hlen]
    refine iff_of_false ?_ fun hall => hlen hall.1
    unfold getHolders
    rw [hcollect]
    intro h
    cases h

end

/-- **The pages of the holders.** They are pages of all holders by non-increasing balance, each is
answered exactly where its bounds allow it, and a walk over them lists every holder once. -/
theorem holders_paged_iff (s : DIP20) (order : Enumeration s.balances) (start limit : UInt32) :
    ((holdersByBalance order).Perm s.balances.toList ∧
        (holdersByBalance order).Pairwise fun a b => b.2 ≤ a.2) ∧
      (s.getHolders order start limit =
          some (page (holdersByBalance order) start.toNat limit.toNat) ↔
        s.balances.size < 2 ^ 32 ∧ start.toNat ≤ s.balances.size ∧
          start.toNat + limit.toNat < 2 ^ 32) ∧
      ∀ m, s.balances.size + limit.toNat < 2 ^ 32 → s.balances.size ≤ m * limit.toNat →
        (∀ j < m, j * limit.toNat ≤ s.balances.size) →
        ∃ pages, (List.range m).mapM
            (fun j => s.getHolders order (UInt32.ofNat (j * limit.toNat)) limit) = some pages ∧
          pages.flatten = holdersByBalance order := by
  refine ⟨⟨holdersByBalance_perm order, holdersByBalance_sorted order⟩, getHolders_eq_some_iff, ?_⟩
  intro m hword hcover hstarts
  have hquery : ∀ j < m, s.getHolders order (UInt32.ofNat (j * limit.toNat)) limit =
      some (page (holdersByBalance order) (j * limit.toNat) limit.toNat) := by
    intro j hj
    have hle := hstarts j hj
    have hstart : (UInt32.ofNat (j * limit.toNat)).toNat = j * limit.toNat := by
      rw [UInt32.toNat_ofNat']
      exact Nat.mod_eq_of_lt (by omega)
    have h : s.getHolders order (UInt32.ofNat (j * limit.toNat)) limit =
        some (page (holdersByBalance order) (UInt32.ofNat (j * limit.toNat)).toNat limit.toNat) := by
      refine getHolders_eq_some_iff.mpr ⟨by omega, ?_, ?_⟩
      · rw [hstart]
        exact hle
      · rw [hstart]
        omega
    rwa [hstart] at h
  apply walk_pages hquery
  rw [length_holdersByBalance]
  exact hcover

/-- **A page past the end traps**, where the list of holders has nothing at all. -/
theorem not_holders_paged :
    ¬ ∀ (s : DIP20) (order : Enumeration s.balances) (start limit : UInt32),
      s.getHolders order start limit =
        some (page (holdersByBalance order) start.toNat limit.toNat) := by
  intro all
  have h := all default ⟨[], List.Perm.refl _⟩ 1 0
  obtain ⟨_, hstart, _⟩ := getHolders_eq_some_iff.mp h
  revert hstart
  decide

end Fomowell.Token.DIP20
