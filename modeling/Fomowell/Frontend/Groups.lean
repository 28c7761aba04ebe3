import Fomowell.Frontend.Batch

/-!
# The groups of a batch

A step that hands on ends its group. The places of the steps are those that the wrappers look at.
-/

namespace Fomowell.Frontend.Batch

variable {V : Type}

/-- The groups have all the steps in order. -/
theorem flatten_groups (tempArray : List Nat) (k : Nat) (steps : List (Step V)) :
    (groups tempArray k steps).flatten = tempArray ++ List.range' k steps.length := by
  induction steps generalizing tempArray k with
  | nil =>
    unfold groups
    cases tempArray <;> simp
  | cons x steps ih =>
    unfold groups
    split
    · rw [List.flatten_cons, ih, List.length_cons, List.range'_succ]
      simp
    · rw [ih, List.length_cons, List.range'_succ]
      simp

/-- No group is empty. -/
theorem length_groups_le (tempArray : List Nat) (k : Nat) (steps : List (Step V)) :
    (groups tempArray k steps).length ≤ tempArray.length + steps.length := by
  induction steps generalizing tempArray k with
  | nil =>
    unfold groups
    split
    next hbegun =>
      rw [List.length_singleton]
      exact hbegun
    next => exact Nat.zero_le _
  | cons x steps ih =>
    unfold groups
    split
    · have hle := ih [] (k + 1)
      rw [List.length_nil] at hle
      rw [List.length_cons, List.length_cons]
      omega
    · have hle := ih (tempArray ++ [k]) (k + 1)
      rw [List.length_append, List.length_singleton] at hle
      rw [List.length_cons]
      omega

/-- A group that is begun is ended. -/
theorem groups_begun (tempArray : List Nat) (k : Nat) (steps : List (Step V)) (begun : tempArray ≠ []) :
    ∃ tail more, groups tempArray k steps = (tempArray ++ tail) :: more := by
  induction steps generalizing tempArray k with
  | nil =>
    refine ⟨[], [], ?_⟩
    unfold groups
    rw [if_pos (List.length_pos_iff.mpr begun), List.append_nil]
  | cons x steps ih =>
    unfold groups
    split
    · exact ⟨[k], _, rfl⟩
    · obtain ⟨tail, more, h⟩ := ih (tempArray ++ [k]) (k + 1) (by simp)
      exact ⟨k :: tail, more, by rw [h, List.append_assoc]; rfl⟩

/-- Steps that hand on are alone in their groups. -/
theorem groups_of_hand {k m : Nat} {steps : List (Step V)} (hm : m ≤ steps.length)
    (hand : ∀ i < m, ∀ step, steps[i]? = some step → step.updateNextStep.isSome) :
    groups [] k steps = (List.range' k m).map ([·]) ++ groups [] (k + m) (steps.drop m) := by
  induction m generalizing k steps with
  | zero => rfl
  | succ m ih =>
    cases steps with
    | nil => cases hm
    | cons x steps =>
      have rest := ih (k := k + 1) (Nat.le_of_succ_le_succ hm) fun i hi step hstep =>
        hand (i + 1) (Nat.succ_lt_succ hi) step hstep
      rw [groups, if_pos (hand 0 (Nat.succ_pos m) x rfl), rest, List.range'_succ, List.nil_append,
        List.drop_succ_cons, Nat.add_assoc, Nat.add_comm 1 m]
      rfl

/-- The group of the first step that may not hand on has that step first. -/
theorem groups_eq {m : Nat} {steps : List (Step V)} (hm : m < steps.length)
    (hand : ∀ i < m, ∀ step, steps[i]? = some step → step.updateNextStep.isSome) :
    ∃ tail more, groups [] 0 steps = (List.range m).map ([·]) ++ (m :: tail) :: more := by
  rw [groups_of_hand (Nat.le_of_lt hm) hand, List.drop_eq_getElem_cons hm, Nat.zero_add,
    List.range_eq_range']
  unfold groups
  split
  · exact ⟨[], _, rfl⟩
  · obtain ⟨tail, more, h⟩ := groups_begun ([] ++ [m]) (m + 1) (steps.drop (m + 1)) (by simp)
    exact ⟨tail, more, by rw [h]; rfl⟩

/-- The group of a step that does not hand on has the next step, too. -/
theorem groups_eq_of_keep {m : Nat} {steps : List (Step V)} (hm : m + 1 < steps.length)
    (hand : ∀ i < m, ∀ step, steps[i]? = some step → step.updateNextStep.isSome)
    (keep : steps[m].updateNextStep = none) :
    ∃ tail more, groups [] 0 steps = (List.range m).map ([·]) ++ (m :: (m + 1) :: tail) :: more := by
  have hlt : m < steps.length := Nat.lt_of_succ_lt hm
  rw [groups_of_hand (Nat.le_of_lt hlt) hand, List.drop_eq_getElem_cons hlt,
    List.drop_eq_getElem_cons hm, Nat.zero_add, List.range_eq_range']
  unfold groups
  rw [if_neg (by simp [keep])]
  unfold groups
  split
  · exact ⟨[], _, rfl⟩
  · obtain ⟨tail, more, h⟩ :=
      groups_begun ([] ++ [m] ++ [m + 1]) (m + 1 + 1) (steps.drop (m + 1 + 1)) (by simp)
    exact ⟨tail, more, by rw [h]; rfl⟩

/-- Single steps are each at the front of their groups, and so is the step after them. -/
theorem places_eq (m : Nat) (group : List Nat) (more : List (List Nat)) :
    places ((List.range m).map ([·]) ++ group :: more) =
      (List.range m).map (·, 0) ++ ((List.range group.length).map (m, ·) ++
        (more.zipIdx (m + 1)).flatMap fun group => group.1.zipIdx.map fun el => (group.2, el.2)) := by
  have singles : ∀ i, (((List.range' i m).map ([·])).zipIdx i).flatMap
      (fun group => group.1.zipIdx.map fun el => (group.2, el.2)) = (List.range' i m).map (·, 0) := by
    induction m with
    | zero => intro i; rfl
    | succ m ih =>
      intro i
      rw [List.range'_succ, List.map_cons, List.zipIdx_cons, List.flatMap_cons, ih, List.map_cons]
      rfl
  unfold places
  rw [List.zipIdx_append, List.flatMap_append, List.range_eq_range', singles, List.zipIdx_cons,
    List.flatMap_cons, List.length_map, List.length_range', Nat.zero_add]
  congr 2
  rw [List.range_eq_range', ← List.zipIdx_map_snd, List.map_map]
  rfl

theorem length_places (trxArray : List (List Nat)) : (places trxArray).length = trxArray.flatten.length := by
  suffices ∀ i, ((trxArray.zipIdx i).flatMap fun group =>
      group.1.zipIdx.map fun el => (group.2, el.2)).length = trxArray.flatten.length from this 0
  induction trxArray with
  | nil => intro i; rfl
  | cons group trxArray ih =>
    intro i
    rw [List.zipIdx_cons, List.flatMap_cons, List.length_append, ih, List.flatten_cons, List.length_append]
    simp

end Fomowell.Frontend.Batch
