import Fomowell.Frontend.Attempts
import Fomowell.Frontend.Groups
import Mathlib.Data.List.Induction

/-!
# Which batches can be retried

A wrapper looks at the place that its step had when the batch was prepared, and `retryExecute` moves
the steps that are left of a group to the front of it. A step that is alone in its group stays where
it is. All this is about steps that can be called and report their success (`Step.Callable`): for any
other step the wrapper throws, or is never asked, and the step is not done when it was answered.
-/

namespace Fomowell.Frontend

variable {V : Type}

/-- Each call is of the first step that is not settled yet, where some are settled before. -/
def InOrder : Nat → List (Submission V) → Prop
  | _, [] => True
  | n, call :: calls => call.step = n ∧ InOrder (if call.settled then n + 1 else n) calls

theorem inOrder_append {n : Nat} {calls later : List (Submission V)} :
    InOrder n (calls ++ later) ↔
      InOrder n calls ∧ InOrder (n + calls.countP Submission.settled) later := by
  induction calls generalizing n with
  | nil => simp [InOrder]
  | cons call calls ih =>
    rw [List.cons_append, InOrder, InOrder, ih, List.countP_cons, and_assoc]
    split <;> simp [Nat.add_assoc, Nat.add_comm]

theorem InOrder.le {n : Nat} {calls : List (Submission V)} (h : InOrder n calls) :
    ∀ call ∈ calls, n ≤ call.step := by
  induction calls generalizing n with
  | nil => exact fun call hcall => absurd hcall List.not_mem_nil
  | cons first calls ih =>
    obtain ⟨hfirst, hcalls⟩ := h
    intro call hcall
    obtain rfl | hlater := List.mem_cons.mp hcall
    · exact Nat.le_of_eq hfirst.symm
    · have hle := ih hcalls call hlater
      split at hle <;> omega

/-- A call that was answered without an error is made again. -/
def SubmitsAgain (calls : List (Submission V)) : Prop :=
  ∃ call again, List.Sublist [call, again] calls ∧ call.settled = true ∧ again.step = call.step

/-- After a call that is settled come calls of later steps only. -/
theorem InOrder.not_submitsAgain {n : Nat} {calls : List (Submission V)} (h : InOrder n calls) :
    ¬SubmitsAgain calls := by
  have hpairwise : calls.Pairwise fun call again => call.settled = true → call.step < again.step := by
    induction calls generalizing n with
    | nil => exact .nil
    | cons first calls ih =>
      obtain ⟨rfl, hcalls⟩ := h
      refine .cons (fun again hagain settled => ?_) (ih hcalls)
      have hle := hcalls.le again hagain
      rwa [if_pos settled] at hle
  rintro ⟨call, again, hsublist, settled, hstep⟩
  have hlt := List.rel_of_pairwise_cons (hpairwise.sublist hsublist) (List.mem_singleton_self again) settled
  exact absurd hstep (Nat.ne_of_gt hlt)

namespace Batch

/-! ## Sessions -/

/-- The steps before the number `m` hand on. -/
def HandOn (steps : List (String × Step V)) (m : Nat) : Prop :=
  ∀ i < m, ∀ step, steps[i]? = some step → step.2.updateNextStep.isSome

/-- A batch between two attempts: `d` of its steps are done, the first ones, and `d₀` of them were
when it was last submitted. -/
structure Held (b : Batch V) (steps : List (String × Step V)) (d₀ d : Nat) : Prop where
  list : b.transactionList = steps
  trxArray : b.trxArray = (groups [] 0 (steps.map Prod.snd)).map (List.filter (d₀ ≤ ·))
  info : ∀ k, b.info k =
    (places (groups [] 0 (steps.map Prod.snd)))[k]?.map fun place => (1, place, decide (k < d))
  completed : b.completed = (steps.take d).map Prod.fst

section

variable {b b' : Batch V} {steps : List (String × Step V)} {d₀ d m k : Nat}

theorem HandOn.snd (h : HandOn steps m) :
    ∀ i < m, ∀ step, (steps.map Prod.snd)[i]? = some step → step.updateNextStep.isSome := by
  intro i hi step hstep
  rw [List.getElem?_map] at hstep
  obtain ⟨named, hnamed, rfl⟩ := Option.map_eq_some_iff.mp hstep
  exact h i hi named hnamed

theorem Held.settles (h : Held b steps d₀ d) (settles : Settles b b' d) :
    Held b' steps d₀ (d + 1) := by
  refine ⟨settles.list.trans h.list, settles.trxArray.trans h.trxArray, fun k => ?_, ?_⟩
  · rw [settles.info]
    by_cases hk : k = d
    · rw [if_pos hk, hk, h.info, Option.map_map]
      congr 1
      funext place
      simp
    · have hlt : k < d + 1 ↔ k < d := by omega
      rw [if_neg hk, h.info, decide_eq_decide.mpr hlt]
  · rw [settles.completed, h.completed, List.take_add_one, List.map_append]
    unfold Batch.name
    rw [h.list]
    cases steps[d]? <;> rfl

theorem Held.fails (h : Held b steps d₀ d) (fails : Fails b b') : Held b' steps d₀ d :=
  ⟨fails.list.trans h.list, fails.trxArray.trans h.trxArray, fun k => (fails.info k).trans (h.info k),
    fails.completed.trans h.completed⟩

/-- The first step that may not hand on, and each before it, is found in its own place. -/
theorem Held.found (h : Held b steps d₀ d) (hm : m < steps.length)
    (hand : HandOn steps m) (hk : k ≤ m) (hd : d₀ ≤ k) :
    b.info k = some (1, (k, 0), decide (k < d)) ∧ b.lookAt (k, 0) = some k := by
  obtain ⟨tail, more, hgroups⟩ := groups_eq (by rwa [List.length_map]) hand.snd
  constructor
  · rw [h.info, hgroups, places_eq]
    rcases Nat.lt_or_eq_of_le hk with hlt | rfl
    · rw [List.getElem?_append_left (by simpa using hlt)]
      simp [List.getElem?_range hlt]
    · rw [List.getElem?_append_right (by simp)]
      simp [List.range_succ_eq_map]
  · unfold lookAt
    rw [h.trxArray, hgroups, List.map_append]
    rcases Nat.lt_or_eq_of_le hk with hlt | rfl
    · rw [List.getElem?_append_left (by simpa using hlt)]
      simp [List.getElem?_range hlt, hd]
    · rw [List.getElem?_append_right (by simp)]
      simp [hd]

/-- Where one group holds a step and the one after it, the wrapper of the first finds a later step in the
place of the second, or nothing. -/
theorem Held.lookAt_later (held : Held b steps d₀ d) {tail : List Nat} {more : List (List Nat)}
    (hgroups : groups [] 0 (steps.map Prod.snd) =
      (List.range m).map ([·]) ++ (m :: (m + 1) :: tail) :: more)
    (hd : d₀ = m + 1) {found : Nat} (hfound : b.lookAt (m, 1) = some found) :
    m + 1 < found ∧ found < steps.length := by
  have hsublist : List.Sublist ((m + 1) :: tail) (List.range' 0 steps.length) := by
    have hflatten := flatten_groups [] 0 (steps.map Prod.snd)
    rw [hgroups, List.flatten_append, List.flatten_cons, List.nil_append, List.length_map] at hflatten
    rw [← hflatten]
    exact (((List.sublist_cons_self m _).trans (List.sublist_append_left _ _)).trans
      (List.sublist_append_right _ _))
  have hmem : found ∈ tail := by
    unfold lookAt at hfound
    rw [held.trxArray, hd, hgroups, List.map_append, List.getElem?_append_right (by simp)] at hfound
    simp only [List.map_cons, decide_eq_true_eq, Nat.not_le, Nat.lt_add_one,
      List.filter_cons_of_neg, Nat.le_refl, decide_true, List.filter_cons_of_pos, List.map_map,
      List.length_map, List.length_range, Nat.sub_self, List.getElem?_cons_zero, Option.bind_some,
      List.getElem?_cons_succ] at hfound
    exact List.mem_of_mem_filter (List.mem_of_getElem? hfound)
  constructor
  · have hpairwise := (List.pairwise_lt_range' (s := 0) (n := steps.length)).sublist hsublist
    exact List.rel_of_pairwise_cons hpairwise hmem
  · have hrange := hsublist.subset (List.mem_cons_of_mem _ hmem)
    simpa using hrange

/-- There is a place for each step. -/
theorem length_places_groups (steps : List (String × Step V)) :
    (places (groups [] 0 (steps.map Prod.snd))).length = steps.length := by
  rw [length_places, flatten_groups]
  simp

theorem held_prepareTrxArray (steps : List (String × Step V)) :
    Held (prepareTrxArray { Batch.new steps with state := .running, failedSteps := [] })
      steps 0 0 := by
  have hle : (places (groups [] 0 (steps.map Prod.snd))).length ≤ steps.length :=
    Nat.le_of_eq (length_places_groups steps)
  refine ⟨rfl, ?_, fun k => ?_, rfl⟩
  · show groups [] 0 (steps.map Prod.snd) = _
    conv_lhs => rw [← List.map_id (groups _ _ _)]
    refine List.map_congr_left fun group _ => ?_
    rw [List.filter_eq_self.mpr (by simp)]
    rfl
  · have hinfo : (prepareTrxArray
        { Batch.new steps with state := .running, failedSteps := [] }).items.map Item.info =
          (places (groups [] 0 (steps.map Prod.snd))).map fun place => (1, place, false) := by
      conv_rhs => rw [← List.map_snd_zip hle, List.map_map]
      show (((steps.map _).zip (places _)).map _).map Item.info = _
      rw [List.map_map, List.zip_map_left, List.map_map]
      rfl
    simp only [Nat.not_lt_zero, decide_false]
    rw [← List.getElem?_map, ← hinfo, List.getElem?_map]
    rfl

/-- What is left of the groups. -/
theorem Held.retry (h : Held b steps d₀ d) (hd : d₀ ≤ d) :
    Held { b with
      trxArray := b.trxArray.map fun group =>
        group.filter fun k => (b.items[k]?.map Item.state) ≠ some .done
      state := .running
      failedSteps := [] } steps d d := by
  refine ⟨h.list, ?_, h.info, h.completed⟩
  show b.trxArray.map _ = _
  rw [h.trxArray, List.map_map]
  refine List.map_congr_left fun group hgroup => ?_
  show (group.filter _).filter _ = _
  rw [List.filter_filter]
  refine List.filter_congr fun k hk => ?_
  have hlt : k < steps.length := by
    have hmem : k ∈ (groups [] 0 (steps.map Prod.snd)).flatten :=
      List.mem_flatten.mpr ⟨group, hgroup, hk⟩
    rw [flatten_groups] at hmem
    simpa using hmem
  obtain ⟨place, hplace⟩ : ∃ place, (places (groups [] 0 (steps.map Prod.snd)))[k]? = some place :=
    ⟨_, List.getElem?_eq_getElem (by rwa [length_places_groups])⟩
  have hinfo : (b.items[k]?).map Item.info = _ := h.info k
  rw [hplace] at hinfo
  obtain ⟨item, hitem, hitem'⟩ := Option.map_eq_some_iff.mp hinfo
  have hdone : decide (item.state = .done) = decide (k < d) := congrArg (·.2.2) hitem'
  rw [decide_eq_decide] at hdone
  rw [hitem]
  simp [hdone]
  omega

/-- What is left to be submitted. -/
theorem Held.flatten (h : Held b steps d₀ d) (hd : d₀ ≤ steps.length) :
    b.trxArray.flatten = List.range' d₀ (steps.length - d₀) := by
  rw [h.trxArray, ← List.filter_flatten, flatten_groups, List.nil_append, List.length_map]
  have happend : List.range' 0 steps.length =
      List.range' 0 d₀ ++ List.range' d₀ (steps.length - d₀) := by
    have := List.range'_append_1 (s := 0) (m := d₀) (n := steps.length - d₀)
    rw [Nat.zero_add, Nat.add_sub_cancel' hd] at this
    exact this.symm
  rw [happend, List.filter_append, List.filter_eq_nil_iff.mpr, List.filter_eq_self.mpr, List.nil_append]
  · simp only [List.mem_range'_1, decide_eq_true_eq]
    exact fun k hk => hk.1
  · simp

end

/-! ### Steps that all hand on -/

/-- What a submission of the steps from the number `d` on comes to. -/
structure Ran (steps : List (String × Step V)) (d₀ d : Nat)
    (r : Batch V × Bool × List (Submission V)) : Prop where
  held : Held r.1 steps d₀ (d + r.2.2.countP Submission.settled)
  inOrder : InOrder d r.2.2
  le : d + r.2.2.countP Submission.settled ≤ steps.length
  ends : (r.2.1 = true ∧ r.1.failedSteps = []) ↔
    d + r.2.2.countP Submission.settled = steps.length

section

variable {b : Batch V} {steps : List (String × Step V)} {d₀ d : Nat}

theorem Ran.cons {call : Submission V} {r : Batch V × Bool × List (Submission V)} (step : call.step = d)
    (settled : call.settled = true) (h : Ran steps d₀ (d + 1) r) :
    Ran steps d₀ d (r.1, r.2.1, call :: r.2.2) := by
  have hcount : d + (call :: r.2.2).countP Submission.settled = d + 1 + r.2.2.countP Submission.settled := by
    rw [List.countP_cons_of_pos settled]
    omega
  refine ⟨?_, ⟨step, ?_⟩, ?_, ?_⟩
  · show Held r.1 _ _ (d + (call :: r.2.2).countP _)
    rw [hcount]
    exact h.held
  · rw [if_pos settled]
    exact h.inOrder
  · show d + (call :: r.2.2).countP _ ≤ _
    rw [hcount]
    exact h.le
  · show _ ↔ d + (call :: r.2.2).countP _ = _
    rw [hcount]
    exact h.ends

/-- A submission that ends at the step `d`, which was not settled. -/
theorem Ran.unsettled {returned : Bool} {calls : List (Submission V)} (h : Held b steps d₀ d)
    (hd : d < steps.length) (calls_eq : calls = [] ∨ ∃ call : Submission V, calls = [call] ∧
      call.step = d ∧ call.settled = false) (failed : returned = true → b.failedSteps ≠ []) :
    Ran steps d₀ d (b, returned, calls) := by
  have hcount : calls.countP Submission.settled = 0 := by
    rcases calls_eq with rfl | ⟨call, rfl, _, hcall⟩
    · rfl
    · simp [hcall]
  refine ⟨?_, ?_, ?_, ?_⟩
  · show Held b _ _ (d + calls.countP _)
    rwa [hcount]
  · rcases calls_eq with rfl | ⟨call, rfl, hstep, _⟩
    · trivial
    · exact ⟨hstep, trivial⟩
  · show d + calls.countP _ ≤ _
    omega
  · show _ ↔ d + calls.countP _ = _
    rw [hcount]
    exact ⟨fun hend => absurd hend.2 (failed hend.1), fun heq => by omega⟩

/-- **The loops** go on from the first step that is not done, where each step but the last hands on.
-/
theorem process_ran (callable : ∀ step ∈ steps, step.2.Callable)
    (hand : HandOn steps (steps.length - 1)) (world : Nat → Attempt V) :
    ∀ (ks n d : Nat) (b : Batch V), Held b steps d₀ d → d₀ ≤ d →
      d + ks = steps.length → b.state = .running → b.failedSteps = [] →
      Ran steps d₀ d (b.process world n (List.range' d ks)) := by
  intro ks
  induction ks with
  | zero =>
    intro n d b held _ hend _ hfailed
    exact ⟨held, trivial, Nat.le_of_eq hend, ⟨fun _ => hend, fun _ => ⟨rfl, hfailed⟩⟩⟩
  | succ ks ih =>
    intro n d b held hd₀ hend hrunning hfailed
    have hd : d < steps.length := by omega
    obtain ⟨hinfo, hplace⟩ := held.found (by omega) hand (by omega) hd₀
    rw [decide_eq_false (Nat.lt_irrefl d)] at hinfo
    have hstep : b.transactionList[d]? = some (steps[d].1, steps[d].2) := by
      rw [held.list, List.getElem?_eq_getElem hd]
    have htried := attempt_tried hinfo hstep (callable _ (List.getElem_mem hd)) hplace (world n)
    rw [List.range'_succ]
    unfold process
    rw [if_neg (by simp [hrunning])]
    revert htried
    generalize b.attempt d (world n) = r
    intro htried
    cases htried with
    | absent => exact .unsettled held hd (.inl rfl) (fun h => nomatch h)
    | @failed b' returned call step failed fails stops =>
      cases returned with
      | false =>
        exact .unsettled (held.fails fails) hd (.inr ⟨call, rfl, step, failed⟩) (fun h => nomatch h)
      | true =>
        have hcut : b'.process world (n + 1) (List.range' (d + 1) ks) = (b', true, []) := by
          cases ks with
          | zero => rfl
          | succ ks =>
            rw [List.range'_succ]
            unfold process
            rw [if_pos (.inl (stops rfl).1)]
        show Ran _ _ _ (_, _, _)
        rw [hcut]
        exact .unsettled (held.fails fails) hd (.inr ⟨call, rfl, step, failed⟩) (fun _ => (stops rfl).2)
    | @settled b' returned call step ok settles thrown =>
      cases returned with
      | true =>
        exact Ran.cons step ok (ih (n + 1) (d + 1) b' (held.settles settles) (by omega) (by omega)
          (settles.state.trans hrunning) (settles.failedSteps.trans hfailed))
      | false =>
        refine Ran.cons (r := (b', false, [])) step ok (.unsettled (held.settles settles) ?_ (.inl rfl)
          (fun h => nomatch h))
        have hlt := thrown rfl
        rw [held.trxArray, List.length_map] at hlt
        have hle := length_groups_le [] 0 (steps.map Prod.snd)
        rw [List.length_map] at hle
        exact Nat.lt_of_lt_of_le hlt (by simpa using hle)

/-- A batch and the calls that were made for it: the first steps are done, and the batch is done with
them all. -/
structure Rests (steps : List (String × Step V)) (r : Batch V × List (Submission V)) : Prop where
  held : ∃ d₀ ≤ r.2.countP Submission.settled, Held r.1 steps d₀ (r.2.countP Submission.settled)
  inOrder : InOrder 0 r.2
  le : r.2.countP Submission.settled ≤ steps.length
  state : r.1.state = if r.2.countP Submission.settled = steps.length then .done else .error

/-- Where there are steps, there are groups. -/
theorem Held.length_trxArray (h : Held b steps d₀ d) (nonempty : steps ≠ []) :
    b.trxArray.length ≠ 0 := by
  intro hempty
  rw [h.trxArray, List.length_map, List.length_eq_zero_iff] at hempty
  have hflatten := flatten_groups [] 0 (steps.map Prod.snd)
  rw [hempty] at hflatten
  rw [List.flatten_nil, List.nil_append, List.length_map, eq_comm, List.range'_eq_nil_iff,
    List.length_eq_zero_iff] at hflatten
  exact nonempty hflatten

/-- `_processBatch` ends done where nothing was thrown and nothing failed. -/
theorem processBatch_eq (hlength : b.trxArray.length ≠ 0) (world : Nat → Attempt V)
    {r : Batch V × Bool × List (Submission V)}
    (hr : process world 0 { b with activeStep := b.name b.completed.length } b.trxArray.flatten = r) :
    b.processBatch world =
      ({ r.1 with state := if r.2.1 = true ∧ r.1.failedSteps = [] then .done else .error }, r.2.2) := by
  unfold processBatch
  rw [if_neg hlength]
  dsimp only
  rw [hr]
  obtain ⟨b', _ | _, calls⟩ := r
  · simp
  · simp

/-- A submission goes on with the calls that were made before. -/
theorem processBatch_rests (callable : ∀ step ∈ steps, step.2.Callable)
    (hand : HandOn steps (steps.length - 1)) (nonempty : steps ≠ [])
    (world : Nat → Attempt V) (calls : List (Submission V)) (inOrder : InOrder 0 calls)
    (hd : calls.countP Submission.settled = d) (held : Held b steps d d)
    (hle : d ≤ steps.length) (running : b.state = .running) (failed : b.failedSteps = []) :
    Rests steps ((b.processBatch world).1, calls ++ (b.processBatch world).2) := by
  have ran := process_ran callable hand world (steps.length - d) 0 d
    { b with activeStep := b.name b.completed.length }
    ⟨held.list, held.trxArray, held.info, held.completed⟩
    (Nat.le_refl d) (by omega) running failed
  rw [processBatch_eq (held.length_trxArray nonempty) world rfl, held.flatten hle]
  revert ran
  generalize process world 0 _ _ = r
  intro ran
  have hcount : (calls ++ r.2.2).countP Submission.settled = d + r.2.2.countP Submission.settled := by
    rw [List.countP_append, hd]
  refine ⟨⟨d, ?_, ?_⟩, ?_, ?_, ?_⟩
  · show d ≤ (calls ++ r.2.2).countP _
    omega
  · show Held _ _ _ ((calls ++ r.2.2).countP _)
    rw [hcount]
    exact ⟨ran.held.list, ran.held.trxArray, ran.held.info, ran.held.completed⟩
  · show InOrder 0 (calls ++ r.2.2)
    rw [inOrder_append, hd, Nat.zero_add]
    exact ⟨inOrder, ran.inOrder⟩
  · show (calls ++ r.2.2).countP _ ≤ _
    rw [hcount]
    exact ran.le
  · show (if _ then _ else _) = if (calls ++ r.2.2).countP _ = _ then _ else _
    simp only [hcount, ran.ends]

/-- The steps of a batch that was not submitted yet. -/
theorem execute_new (nonempty : steps ≠ []) (world : Nat → Attempt V) :
    (Batch.new steps).execute world =
      (prepareTrxArray { Batch.new steps with state := .running, failedSteps := [] }).processBatch
        world := by
  have hlength : steps.length ≠ 0 := fun h => nonempty (List.length_eq_zero_iff.mp h)
  unfold execute
  rw [if_neg]
  rintro (h | h | h)
  · cases h
  · exact hlength h
  · cases h

theorem session_append (b : Batch V) (world : Nat → Attempt V) (retries : List (Nat → Attempt V))
    (retry : Nat → Attempt V) :
    b.session world (retries ++ [retry]) =
      (((b.session world retries).1.retryExecute retry).1,
        (b.session world retries).2 ++ ((b.session world retries).1.retryExecute retry).2) := by
  unfold session
  rw [List.foldl_append]
  rfl

/-- **Every session** of a batch where each step but the last hands on. -/
theorem session_rests (callable : ∀ step ∈ steps, step.2.Callable)
    (hand : HandOn steps (steps.length - 1)) (nonempty : steps ≠ [])
    (world : Nat → Attempt V) (retries : List (Nat → Attempt V)) :
    Rests steps ((Batch.new steps).session world retries) := by
  induction retries using List.reverseRecOn with
  | nil =>
    show Rests _ ((Batch.new steps).execute world)
    rw [execute_new nonempty]
    exact processBatch_rests callable hand nonempty world [] trivial rfl (held_prepareTrxArray _)
      (Nat.zero_le _) rfl rfl
  | append_singleton retries retry ih =>
    rw [session_append]
    revert ih
    generalize (Batch.new steps).session world retries = s
    intro ih
    obtain ⟨d₀, hd₀, held⟩ := ih.held
    unfold retryExecute
    split
    next =>
      dsimp only
      rw [List.append_nil]
      exact ih
    next =>
      exact processBatch_rests callable hand nonempty retry s.2 ih.inOrder rfl (held.retry hd₀) ih.le rfl rfl

end

/-! ### A step that does not hand on -/

section

variable {b : Batch V} {steps : List (String × Step V)} {d₀ d k : Nat} {place : Nat × Nat}
  {done : Bool} {named : String × Step V}

/-- No actor is there. -/
def nobody : Nat → Attempt V := fun _ => ⟨false, .nothing⟩

/-- A batch that was submitted with no actor there has done nothing. -/
theorem execute_nobody (nonempty : steps ≠ []) :
    ∃ b, (Batch.new steps).execute nobody = (b, []) ∧ Held b steps 0 0 ∧ b.state = .error := by
  have held := held_prepareTrxArray steps
  rw [execute_new nonempty, processBatch_eq (held.length_trxArray nonempty) _ rfl,
    held.flatten (Nat.zero_le _)]
  obtain ⟨n, hn⟩ := Nat.exists_eq_succ_of_ne_zero fun h => nonempty (List.length_eq_zero_iff.mp h)
  rw [hn, Nat.sub_zero, List.range'_succ]
  unfold process
  rw [if_neg (fun h => nomatch h), attempt_of_absent rfl]
  exact ⟨_, rfl, ⟨held.list, held.trxArray, held.info, held.completed⟩, rfl⟩

/-- What a submission of a batch comes to, from what its loops come to. -/
theorem Held.submit (held : Held b steps d d) (nonempty : steps ≠ [])
    (running : b.state = .running) (world : Nat → Attempt V) :
    ∃ b', Held b' steps d d ∧ b'.state = .running ∧ ∀ r,
      process world 0 b' b'.trxArray.flatten = r → b.processBatch world =
        ({ r.1 with state := if r.2.1 = true ∧ r.1.failedSteps = [] then .done else .error }, r.2.2) :=
  ⟨{ b with activeStep := b.name b.completed.length },
    ⟨held.list, held.trxArray, held.info, held.completed⟩, running,
    fun _ hr => processBatch_eq (held.length_trxArray nonempty) world hr⟩

theorem Held.retryExecute_eq (held : Held b steps d₀ d) (hd : d₀ ≤ d)
    (nonempty : steps ≠ []) (error : b.state = .error) (world : Nat → Attempt V) :
    ∃ b', Held b' steps d d ∧ b'.state = .running ∧ ∀ r,
      process world 0 b' b'.trxArray.flatten = r → b.retryExecute world =
        ({ r.1 with state := if r.2.1 = true ∧ r.1.failedSteps = [] then .done else .error }, r.2.2) := by
  unfold retryExecute
  rw [if_neg (by simp [error])]
  exact (held.retry hd).submit nonempty rfl world

/-- The steps that are left, with the first one apart. -/
theorem Held.flatten_cons (h : Held b steps d₀ d) (hd : d₀ < steps.length) :
    b.trxArray.flatten = d₀ :: List.range' (d₀ + 1) (steps.length - (d₀ + 1)) := by
  rw [h.flatten (Nat.le_of_lt hd), ← List.range'_succ]
  congr 1
  omega

/-- One call is answered, and then no actor is there. -/
def once [Inhabited V] : Nat → Attempt V
  | 0 => ⟨true, .answer default false⟩
  | _ + 1 => ⟨false, .nothing⟩

variable [Inhabited V]

/-- The first step that is left is called, whatever its wrapper finds. -/
theorem process_called (hitem : (b.items[k]?).isSome) (hstep : b.transactionList[k]? = some named)
    (callable : named.2.Callable) (running : b.state = .running) (rest : List Nat) :
    ∃ call later, (b.process once 0 (k :: rest)).2.2 = call :: later ∧ call.step = k := by
  obtain ⟨item, hitem⟩ := Option.isSome_iff_exists.mp hitem
  unfold process
  rw [if_neg (by simp [running]), attempt_eq hitem hstep callable rfl]
  generalize b.settle k item (once 0).resp = r
  obtain ⟨b', _ | _⟩ := r
  · exact ⟨_, [], rfl, rfl⟩
  · exact ⟨_, _, rfl, rfl⟩

/-- The first step that is left is called, and then the batch stops; the step that is done is the one
that the wrapper finds. -/
theorem process_once (hinfo : b.info k = some (1, place, done)) (hstep : b.transactionList[k]? = some named)
    (callable : named.2.Callable) (running : b.state = .running) {rest : List Nat}
    (hrest : b.lookAt place ≠ none → rest ≠ []) :
    ∃ b' args, b.process once 0 (k :: rest) = (b', false, [⟨k, args, .answer default false⟩]) ∧
      (∀ found, b.lookAt place = some found → Settles b b' found) ∧ (b.lookAt place = none → b' = b) := by
  obtain ⟨item, hitem, hinfo'⟩ := Option.map_eq_some_iff.mp hinfo
  obtain ⟨hwraps, hplace⟩ : item.wraps = 1 ∧ item.place = place :=
    ⟨congrArg Prod.fst hinfo', congrArg (·.2.1) hinfo'⟩
  unfold process
  rw [if_neg (by simp [running]), attempt_eq hitem hstep callable rfl]
  simp only [once]
  cases hfound : b.lookAt place with
  | none =>
    rw [settle_lost hwraps (hplace ▸ hfound)]
    exact ⟨b, item.args, rfl, (fun _ h => nomatch h), fun _ => rfl⟩
  | some found =>
    rw [settle_answer hstep callable hwraps (hplace ▸ hfound)]
    have settles := answered_settles b found item.place.1 default
    revert settles
    generalize b.answered found item.place.1 default false = r
    obtain ⟨b', _ | _⟩ := r
    · exact fun settles => ⟨b', item.args, rfl, fun _ h => Option.some.inj h ▸ settles, fun h => nomatch h⟩
    · intro settles
      cases rest with
      | nil => exact absurd rfl (hrest (by simp [hfound]))
      | cons next rest =>
        refine ⟨b', item.args, ?_, fun _ h => Option.some.inj h ▸ settles, fun h => nomatch h⟩
        dsimp only
        unfold process
        rw [if_neg (by rw [settles.state]; simp [running]), attempt_of_absent rfl]
        rfl

/-- A retry settles a step that is found in its own place. -/
theorem Held.retry_once (held : Held b steps d₀ d) (hd : d₀ ≤ d) (error : b.state = .error)
    (callable : ∀ step ∈ steps, step.2.Callable) {m : Nat} (hm : m + 1 < steps.length)
    (hand : HandOn steps m) (hdm : d ≤ m) :
    ∃ b' call, b.retryExecute once = (b', [call]) ∧ call.settled = true ∧
      Held b' steps d (d + 1) ∧ b'.state = .error := by
  have nonempty : steps ≠ [] := fun h => by simp [h] at hm
  have hlt : d < steps.length := by omega
  obtain ⟨b₁, held₁, running, hretry⟩ := held.retryExecute_eq hd nonempty error once
  obtain ⟨hinfo, hfound⟩ := held₁.found (Nat.lt_of_succ_lt hm) hand hdm (Nat.le_refl d)
  have hrest : List.range' (d + 1) (steps.length - (d + 1)) ≠ [] := by
    rw [ne_eq, List.range'_eq_nil_iff]
    omega
  obtain ⟨b', args, hprocess, hsettles, _⟩ := process_once hinfo (held₁.list ▸ List.getElem?_eq_getElem hlt)
    (callable _ (List.getElem_mem hlt)) running (fun _ => hrest)
  have held' := held₁.settles (hsettles d hfound)
  rw [hretry _ (held₁.flatten_cons hlt ▸ hprocess)]
  exact ⟨_, _, rfl, rfl, ⟨held'.list, held'.trxArray, held'.info, held'.completed⟩, rfl⟩

/-- A session that settles one step each time, up to the first that does not hand on. -/
theorem session_once (callable : ∀ step ∈ steps, step.2.Callable) {m : Nat}
    (hm : m + 1 < steps.length) (hand : HandOn steps m) :
    ∀ d ≤ m + 1, ∃ b calls, (Batch.new steps).session nobody (List.replicate d once) = (b, calls) ∧
      calls.countP Submission.settled = d ∧ (∃ d₀ ≤ d, Held b steps d₀ d) ∧ b.state = .error := by
  intro d
  induction d with
  | zero =>
    intro _
    have nonempty : steps ≠ [] := fun h => by simp [h] at hm
    obtain ⟨b, heq, held, error⟩ := execute_nobody nonempty
    exact ⟨b, [], heq, rfl, ⟨0, Nat.le_refl 0, held⟩, error⟩
  | succ d ih =>
    intro hd
    obtain ⟨b, calls, heq, hcount, ⟨d₀, hd₀, held⟩, error⟩ := ih (Nat.le_of_succ_le hd)
    obtain ⟨b', call, hretry, settled, held', error'⟩ :=
      held.retry_once hd₀ error callable hm hand (Nat.le_of_succ_le_succ hd)
    refine ⟨b', calls ++ [call], ?_, ?_, ⟨d, Nat.le_succ d, held'⟩, error'⟩
    · rw [List.replicate_succ', session_append, heq, hretry]
    · rw [List.countP_append, hcount, List.countP_cons_of_pos settled]
      rfl

/-- **The step after one that does not hand on** is not done when it is settled alone. -/
theorem Held.retry_stuck (held : Held b steps d₀ d) (hd : d₀ ≤ d) (error : b.state = .error)
    (callable : ∀ step ∈ steps, step.2.Callable) {m : Nat} (hdm : d = m + 1)
    (hm : m + 1 < steps.length) (hand : HandOn steps m)
    (keep : steps[m].2.updateNextStep = none) :
    ∃ b' call, b.retryExecute once = (b', [call]) ∧ call.settled = true ∧ call.step = d ∧
      b'.state = .error ∧ b'.transactionList = steps ∧ b'.info d = some (1, (m, 1), false) ∧
      ∃ rest, b'.trxArray.flatten = d :: rest := by
  subst hdm
  have nonempty : steps ≠ [] := fun h => by simp [h] at hm
  obtain ⟨b₁, held₁, running, hretry⟩ := held.retryExecute_eq hd nonempty error once
  have hlength : m + 1 < (steps.map Prod.snd).length := by rwa [List.length_map]
  obtain ⟨tail, more, hgroups⟩ :=
    groups_eq_of_keep hlength hand.snd (by rw [List.getElem_map]; exact keep)
  have hinfo : b₁.info (m + 1) = some (1, (m, 1), false) := by
    rw [held₁.info, hgroups, places_eq, List.getElem?_append_right (by simp)]
    simp [List.range_succ_eq_map]
  have hrest : b₁.lookAt (m, 1) ≠ none →
      List.range' (m + 1 + 1) (steps.length - (m + 1 + 1)) ≠ [] := by
    intro h
    obtain ⟨found, hfound⟩ := Option.ne_none_iff_exists'.mp h
    obtain ⟨hgt, hlt⟩ := held₁.lookAt_later hgroups rfl hfound
    rw [ne_eq, List.range'_eq_nil_iff]
    omega
  obtain ⟨b', args, hprocess, hsettles, hlost⟩ := process_once hinfo
    (held₁.list ▸ List.getElem?_eq_getElem hm) (callable _ (List.getElem_mem hm)) running hrest
  rw [hretry _ (held₁.flatten_cons hm ▸ hprocess)]
  obtain ⟨hlayout, hinfo'⟩ : SameLayout b₁ b' ∧ b'.info (m + 1) = b₁.info (m + 1) := by
    cases hfound : b₁.lookAt (m, 1) with
    | none =>
      rw [hlost hfound]
      exact ⟨⟨rfl, rfl⟩, rfl⟩
    | some found =>
      have settles := hsettles found hfound
      refine ⟨settles.toSameLayout, ?_⟩
      rw [settles.info, if_neg (Nat.ne_of_lt (held₁.lookAt_later hgroups rfl hfound).1)]
  refine ⟨_, _, rfl, rfl, rfl, rfl, hlayout.list.trans held₁.list, hinfo'.trans hinfo,
    _, (congrArg List.flatten hlayout.trxArray).trans (held₁.flatten_cons hm)⟩

/-- A step that is not done is submitted again. -/
theorem retryExecute_again (callable : ∀ step ∈ b.transactionList, step.2.Callable) (error : b.state = .error)
    (hk : k < b.transactionList.length) (hinfo : b.info k = some (1, place, false)) {rest : List Nat}
    (hflatten : b.trxArray.flatten = k :: rest) :
    ∃ call later, (b.retryExecute once).2 = call :: later ∧ call.step = k := by
  obtain ⟨item, hitem, hinfo'⟩ := Option.map_eq_some_iff.mp hinfo
  have hidle : item.state ≠ .done := by
    have : decide (item.state = .done) = false := congrArg (·.2.2) hinfo'
    simpa using this
  unfold retryExecute
  rw [if_neg (by simp [error])]
  have hleft : (b.trxArray.map fun group =>
      group.filter fun k => (b.items[k]?.map Item.state) ≠ some .done).flatten =
        k :: rest.filter fun k => (b.items[k]?.map Item.state) ≠ some .done := by
    rw [← List.filter_flatten, hflatten, List.filter_cons_of_pos]
    rw [hitem]
    simpa using hidle
  have hlength : (b.trxArray.map fun group =>
      group.filter fun k => (b.items[k]?.map Item.state) ≠ some .done).length ≠ 0 := by
    intro h
    rw [List.length_eq_zero_iff.mp h] at hleft
    cases hleft
  rw [processBatch_eq hlength once rfl]
  dsimp only
  rw [hleft]
  refine process_called ?_ ?_ (callable _ (List.getElem_mem hk)) rfl _
  · exact Option.isSome_of_eq_some hitem
  · exact List.getElem?_eq_getElem hk

end

end Batch

open Batch

/-- The first step of those that do not hand on. -/
theorem exists_keep {steps : List (String × Step V)} {m : Nat} (hm : m < steps.length)
    (h : ¬HandOn steps m) :
    ∃ (k : Nat) (hk : k < steps.length), k < m ∧ HandOn steps k ∧
      steps[k].2.updateNextStep = none := by
  induction m with
  | zero => exact absurd (fun i hi => absurd hi (Nat.not_lt_zero i)) h
  | succ m ih =>
    by_cases hand : HandOn steps m
    · refine ⟨m, Nat.lt_of_succ_lt hm, Nat.lt_succ_self m, hand, ?_⟩
      by_contra hsome
      refine h fun i hi step hstep => ?_
      rcases Nat.lt_succ_iff_lt_or_eq.mp hi with hlt | rfl
      · exact hand i hlt step hstep
      · rw [List.getElem?_eq_getElem (Nat.lt_of_succ_lt hm)] at hstep
        rw [← Option.some.inj hstep]
        exact Option.isSome_iff_ne_none.mpr hsome
    · obtain ⟨k, hk, hkm, rest⟩ := ih (Nat.lt_of_succ_lt hm) hand
      exact ⟨k, hk, Nat.lt_succ_of_lt hkm, rest⟩

/-- Every session submits the first step that is not settled yet, has the settled ones in `completed`,
and ends done with the last. -/
def Retriable (steps : List (String × Step V)) : Prop :=
  ∀ world retries,
    let (b, calls) := (Batch.new steps).session world retries
    let d := calls.countP Submission.settled
    InOrder 0 calls ∧ b.completed = (steps.take d).map Prod.fst ∧
      b.state = if d = steps.length then .done else .error

/-- Where a step other than the last does not hand on, some session submits the step after it again. -/
theorem exists_submitsAgain [Inhabited V] {steps : List (String × Step V)} (nonempty : steps ≠ [])
    (callable : ∀ step ∈ steps, step.2.Callable) (hnot : ¬HandOn steps (steps.length - 1)) :
    ∃ world retries, SubmitsAgain ((Batch.new steps).session world retries).2 := by
  have hpos : 0 < steps.length := List.length_pos_iff.mpr nonempty
  obtain ⟨m, hm, hlast, hand, keep⟩ := exists_keep (by omega) hnot
  have hlt : m + 1 < steps.length := by omega
  -- the steps up to `m` are settled one by one, and then the one after it, twice
  obtain ⟨b, calls, hsession, _, ⟨d₀, hd₀, held⟩, error⟩ :=
    session_once callable hlt hand (m + 1) (Nat.le_refl _)
  obtain ⟨b', call, hretry, settled, hcall, error', hlist, hinfo, rest, hflatten⟩ :=
    held.retry_stuck hd₀ error callable rfl hlt hand keep
  obtain ⟨again, later, hagain, hstep⟩ :=
    retryExecute_again (hlist ▸ callable) error' (hlist ▸ hlt) hinfo hflatten
  refine ⟨nobody, List.replicate (m + 1) once ++ [once] ++ [once], call, again, ?_, settled,
    hstep.trans hcall.symm⟩
  rw [session_append, session_append, hsession, hretry]
  dsimp only
  rw [hagain, List.append_assoc]
  have hpair : List.Sublist [call, again] ([call] ++ again :: later) :=
    .cons_cons call (.cons_cons again (List.nil_sublist later))
  exact hpair.trans (List.sublist_append_right calls _)

/-- **A batch can be retried** exactly if each of its steps but the last hands on; of any other, some
session submits a step again that was settled. -/
theorem retriable_iff [Inhabited V] (steps : List (String × Step V)) (nonempty : steps ≠ [])
    (callable : ∀ step ∈ steps, step.2.Callable) :
    (Retriable steps ↔ HandOn steps (steps.length - 1)) ∧
      (¬HandOn steps (steps.length - 1) →
        ∃ world retries, SubmitsAgain ((Batch.new steps).session world retries).2) := by
  refine ⟨⟨fun h => ?_, fun hand world retries => ?_⟩, exists_submitsAgain nonempty callable⟩
  · by_contra hnot
    obtain ⟨world, retries, submitsAgain⟩ := exists_submitsAgain nonempty callable hnot
    exact (h world retries).1.not_submitsAgain submitsAgain
  · have rests := session_rests callable hand nonempty world retries
    obtain ⟨_, _, held⟩ := rests.held
    exact ⟨rests.inOrder, held.completed, rests.state⟩

/-- One call in a batch is retried in order; of two, where the first does not hand on, one may be made
again after it was answered. -/
theorem retriable_iff_calls :
    let step : Step Nat := ⟨"aaaaa-aa", some "approve", [], true, true, none⟩
    Retriable [("approve", step)] ∧
      ∃ world retries, SubmitsAgain
        ((Batch.new [("approve", step), ("create_fomo", step)]).session world retries).2 := by
  intro step
  have callable : step.Callable := ⟨rfl, rfl⟩
  constructor
  · refine (retriable_iff _ (List.cons_ne_nil _ _) fun named hnamed => ?_).1.mpr fun i hi => ?_
    · rwa [List.mem_singleton.mp hnamed]
    · exact absurd hi (Nat.not_lt_zero i)
  · refine (retriable_iff _ (List.cons_ne_nil _ _) fun named hnamed => ?_).2 fun hand => ?_
    · obtain rfl | hsecond := List.mem_cons.mp hnamed
      · exact callable
      · rwa [List.mem_singleton.mp hsecond]
    · cases hand 0 (Nat.zero_lt_succ 0) _ rfl

end Fomowell.Frontend
