import Fomowell.Frontend.Batch

/-!
# One attempt at a step of a batch

What an attempt makes of a batch when the step stands where its wrapper looks: the step is settled, or
nothing is done that was not. What a batch goes on with is its layout, the steps that are done, the
names of those and whether one failed.
-/

namespace Fomowell.Frontend

variable {V : Type}

/-- The step was called and answered without an error. -/
def Submission.settled (s : Submission V) : Bool :=
  match s.resp with
  | .answer _ err => !err
  | .nothing => false

/-- A step that can be called and reports its success. -/
structure Step.Callable (step : Step V) : Prop where
  method : step.methodName.isSome
  reports : step.onSuccess = true

namespace Batch

/-- What the wrappers of a step depend on, and whether it is done. -/
def Item.info (item : Item V) : Nat × (Nat × Nat) × Bool := (item.wraps, item.place, item.state = .done)

/-- The `info` of a step. -/
def info (b : Batch V) (k : Nat) : Option (Nat × (Nat × Nat) × Bool) := b.items[k]?.map Item.info

/-- The steps and their groups are the same. -/
structure SameLayout (b b' : Batch V) : Prop where
  list : b'.transactionList = b.transactionList
  trxArray : b'.trxArray = b.trxArray

/-- A step was settled: it is done now, and nothing else changed that a batch goes on with. -/
structure Settles (b b' : Batch V) (k : Nat) : Prop extends SameLayout b b' where
  state : b'.state = b.state
  failedSteps : b'.failedSteps = b.failedSteps
  completed : b'.completed = b.completed ++ (b.name k).toList
  info : ∀ j, b'.info j = if j = k then (b.info k).map fun i => (i.1, i.2.1, true) else b.info j

/-- A step failed: no step is done that was not. -/
structure Fails (b b' : Batch V) : Prop extends SameLayout b b' where
  completed : b'.completed = b.completed
  info : ∀ j, b'.info j = b.info j

theorem Fails.refl (b : Batch V) : Fails b b := ⟨⟨rfl, rfl⟩, rfl, fun _ => rfl⟩

section

variable {b : Batch V} {k found : Nat} {item : Item V} {name : String} {step : Step V} {a : Attempt V}

/-! ## One attempt -/

/-- A callable step that is there is called, where the actor is. -/
theorem attempt_eq (hitem : b.items[k]? = some item) (hstep : b.transactionList[k]? = some (name, step))
    (callable : step.Callable) (actor : a.actor = true) :
    b.attempt k a = ((b.settle k item a.resp).1, (b.settle k item a.resp).2, [⟨k, item.args, a.resp⟩]) := by
  unfold attempt
  rw [hitem, hstep]
  simp only [actor, callable.method, Bool.not_true, Bool.false_eq_true, if_false, if_true]

theorem attempt_of_absent (actor : a.actor = false) : b.attempt k a = (b, false, []) := by
  unfold attempt
  split
  · rw [actor]
    rfl
  · rfl

/-- An answer goes to the step that the wrapper finds. -/
theorem settle_answer {data : V} {err : Bool} (hstep : b.transactionList[k]? = some (name, step))
    (callable : step.Callable) (wraps : item.wraps = 1) (hfound : b.lookAt item.place = some found) :
    b.settle k item (.answer data err) = b.answered found item.place.1 data err := by
  show b.onSuccess k item.place data err item.wraps = _
  rw [wraps]
  unfold onSuccess
  rw [hfound]
  unfold onSuccess
  rw [hstep]
  simp [callable.reports]

theorem info_modifyItem (b : Batch V) (k : Nat) (f : Item V → Item V) (j : Nat) :
    (b.modifyItem k f).info j = if j = k then b.items[j]?.map (Item.info ∘ f) else b.info j := by
  unfold info modifyItem
  rw [List.getElem?_modify]
  by_cases hj : j = k
  · rw [if_pos hj, hj]
    cases b.items[k]? <;> simp
  · rw [if_neg hj]
    simp [Ne.symm hj]

/-- A hand-over changes arguments only. -/
theorem handOver_settles {b' : Batch V} {update : V → List V → Option (List V)} {data : V} {i : Nat}
    (h : Settles b b' k) : Settles b (b'.handOver update data i).1 k := by
  unfold handOver
  split
  · exact h
  · split
    next _ j args _ =>
      refine ⟨⟨h.list, h.trxArray⟩, h.state, h.failedSteps, h.completed, fun j' => ?_⟩
      rw [← h.info, info_modifyItem]
      split <;> rfl
    · exact h

/-- **An answer without an error** settles the step that the wrapper found. -/
theorem answered_settles (b : Batch V) (k i : Nat) (data : V) :
    Settles b (b.answered k i data false).1 k := by
  have settles : ∀ active results, Settles b ({ b with
      completed := b.completed ++ (b.name k).toList
      activeStep := active
      transactionResults := results }.modifyItem k fun item => { item with state := .done }) k := by
    intro active results
    refine ⟨⟨rfl, rfl⟩, rfl, rfl, rfl, fun j => ?_⟩
    rw [info_modifyItem]
    by_cases hj : j = k
    · rw [if_pos hj, if_pos hj, hj]
      show b.items[k]?.map _ = _
      unfold info
      cases b.items[k]? <;> rfl
    · rw [if_neg hj, if_neg hj]
      rfl
  unfold answered
  simp only [Bool.false_eq_true, if_false]
  split
  · exact handOver_settles (settles _ _)
  · exact settles _ _

/-- An error marks the step that the wrapper found, which was not done. -/
theorem failing_fails {results : Std.ExtTreeMap String V compare} {active : Option String}
    {failed : List String} (hfound : (b.info found).map (·.2.2) ≠ some true) :
    Fails b ({ b with
      failedSteps := failed
      activeStep := active
      transactionResults := results
      state := .error }.modifyItem found fun item => { item with state := .error }) := by
  refine ⟨⟨rfl, rfl⟩, rfl, fun j => ?_⟩
  rw [info_modifyItem]
  by_cases hj : j = found
  · rw [if_pos hj, hj]
    show b.items[found]?.map _ = _
    unfold info at hfound ⊢
    cases hitem : b.items[found]? with
    | none => rfl
    | some item =>
      rw [hitem] at hfound
      unfold Item.info at hfound ⊢
      simp only [Option.map_some, ne_eq, Option.some.injEq, decide_eq_true_eq] at hfound
      simp [hfound]
  · rw [if_neg hj]
    rfl

/-- A wrapper that finds nothing throws. -/
theorem settle_lost {data : V} {err : Bool} (wraps : item.wraps = 1)
    (hfound : b.lookAt item.place = none) : b.settle k item (.answer data err) = (b, false) := by
  show b.onSuccess k item.place data err item.wraps = _
  rw [wraps]
  unfold onSuccess
  rw [hfound]

/-- A hand-over fails only where there is a group to hand on to. -/
theorem answered_thrown {b : Batch V} {k i : Nat} {data : V} (h : (b.answered k i data false).2 = false) :
    i + 1 < b.trxArray.length := by
  by_contra hlast
  refine absurd (h.symm.trans ?_) Bool.false_ne_true
  unfold answered
  simp only [Bool.false_eq_true, if_false]
  split
  · unfold handOver
    split
    · rfl
    next hgroup => exact absurd (List.getElem?_eq_some_iff.mp hgroup).1 hlast
  · rfl

/-- What can come of a step that is tried in its own place, in the group `i`. -/
inductive Tried (b : Batch V) (k i : Nat) : Batch V × Bool × List (Submission V) → Prop
  | absent : Tried b k i (b, false, [])
  | settled {b' : Batch V} {returned : Bool} {call : Submission V} (step : call.step = k)
      (ok : call.settled = true) (settles : Settles b b' k)
      (thrown : returned = false → i + 1 < b.trxArray.length) : Tried b k i (b', returned, [call])
  | failed {b' : Batch V} {returned : Bool} {call : Submission V} (step : call.step = k)
      (failed : call.settled = false) (fails : Fails b b')
      (stops : returned = true → b'.state = .error ∧ b'.failedSteps ≠ []) :
    Tried b k i (b', returned, [call])

theorem attempt_tried {place : Nat × Nat} (hinfo : b.info k = some (1, place, false))
    (hstep : b.transactionList[k]? = some (name, step)) (callable : step.Callable)
    (hplace : b.lookAt place = some k) (a : Attempt V) : Tried b k place.1 (b.attempt k a) := by
  obtain ⟨item, hitem, hinfo'⟩ := Option.map_eq_some_iff.mp hinfo
  obtain ⟨hwraps, hfound, _⟩ : item.wraps = 1 ∧ item.place = place ∧ _ :=
    ⟨congrArg Prod.fst hinfo', congrArg (·.2.1) hinfo', trivial⟩
  have hidle : (b.info k).map (·.2.2) ≠ some true := by
    rw [hinfo]
    exact fun h => nomatch h
  have hname : b.name k = some name := by
    unfold Batch.name
    rw [hstep]
    rfl
  rw [← hfound] at hplace
  cases hactor : a.actor with
  | false =>
    rw [attempt_of_absent hactor]
    exact .absent
  | true =>
    rw [attempt_eq hitem hstep callable hactor]
    cases hresp : a.resp with
    | nothing =>
      show Tried b k place.1 ((b.onFail k item.place item.wraps).1, (b.onFail k item.place item.wraps).2, _)
      rw [hwraps]
      unfold onFail onFail
      dsimp only
      split
      next => exact .failed rfl rfl (.refl b) (fun h => nomatch h)
      next found hlook =>
        split at hlook
        next =>
          obtain rfl : k = found := Option.some.inj (hplace.symm.trans hlook)
          refine .failed rfl rfl (failing_fails hidle) fun _ => ⟨rfl, ?_⟩
          show b.failedSteps ++ (b.name k).toList ≠ []
          simp [hname]
        next => cases hlook
    | answer data err =>
      rw [settle_answer hstep callable hwraps hplace]
      cases err with
      | false =>
        rw [hfound]
        exact .settled rfl rfl (answered_settles b k _ data) answered_thrown
      | true =>
        refine .failed rfl rfl ?_ ?_
        · exact failing_fails hidle
        · intro _
          refine ⟨rfl, ?_⟩
          show b.failedSteps ++ (b.name k).toList ≠ []
          simp [hname]

end

end Batch

end Fomowell.Frontend
