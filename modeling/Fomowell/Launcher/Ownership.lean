import Fomowell.Launcher.Duties

/-!
# What `ownership_transfer` is paid for

`ownership_transfer` quotes its fee, has the backend remove the controllers of the token, and collects
the fee last. A removal takes effect where its call is answered, and a charge is collected where the
ledger answers `Ok`: a history tells both, and how much was due. `Settles` keeps the book of every run:
what is removed is what is collected and what the run still owes.

A run owes from the removal to the end of `transfer_from`, and the caller may empty its account
meanwhile: a choice that `Defaults` ends such a run without the charge. `removals_paid_iff`: the runs
that are over have collected what they owed in exactly the schedules without such a choice. The other
half needs no condition, `collected_sublist_removed`.
-/

namespace Fomowell.Launcher

open Std Canister Runs Token

/-! ## The book of a run -/

/-- The charge that becomes due with a removal. -/
def dueBy (env : Env) : Cause Message Frame Rep → List Charge
  | .resumed (.removeTokensControllers o) reply =>
    match unwrap reply with
    | some _ => [o.charge env]
    | none => []
  | _ => []

/-- The charge that a run of `ownership_transfer` collects. -/
def collectedBy : Cause Message Frame Rep → List Charge
  | .resumed (.ledger _ (.transferFrom charge)) reply =>
    match charge.k, transferFromResult reply with
    | .ownershipTransfer, .ok _ => [charge]
    | _, _ => []
  | _ => []

/-- The charges due for the removals of a run. -/
def removals (env : Env) (history : List (Entry Message Frame Answer Rep)) : List Charge :=
  history.flatMap fun entry => dueBy env entry.cause

/-- The charges that a run has collected for them. -/
def payments (history : List (Entry Message Frame Answer Rep)) : List Charge :=
  history.flatMap fun entry => collectedBy entry.cause

/-- In every run that is over, the controllers were removed exactly where the charge was collected. -/
def RemovalsPaid (env : Env) (s : System) : Prop :=
  ∀ run : Nat, s.suspended[run]? = none → removals env (s.history run) = payments (s.history run)

/-- A choice that ends a run which owes: the ledger refuses the charge, or the type of the token that
is to be charged is not one with a ledger. -/
inductive Defaults (env : Env) (s : System) (choice : Choice) : Prop
  | refused {a run type charge reply}
      (starts : s.starts choice = some (a, run, .resumed (.ledger type (.transferFrom charge)) reply))
      (owes : charge.k = .ownershipTransfer) (refused : transferFromResult reply ≠ .ok ())
  | looked {a run charge reply}
      (starts : s.starts choice = some (a, run, .resumed (.getToken (.transferFrom charge)) reply))
      (owes : charge.k = .ownershipTransfer)
      (unsupported : (TokenCall.transferFrom charge).supports
        ((s.state.tokenCache.refreshToken a.time reply).tokenType charge.tokenId) = false)
  | removed {a run o}
      (starts : s.starts choice = some (a, run, .resumed (.removeTokensControllers o) (.ok ())))
      (cached : s.state.tokenCache.needsRefresh env.icpAddr a.time = false)
      (unsupported : (TokenCall.transferFrom (o.charge env)).supports
        (s.state.tokenCache.tokenType env.icpAddr) = false)

/-- What a run still owes. -/
def Duty.owed : Duty → List Charge
  | .owes charge => [charge]
  | _ => []

/-! ## What a segment does to the book -/

section

variable {env : Env} {a : Ambient} {st st' : State} {cause : Cause Message Frame Rep}

/-- A cause that passes neither removes nor collects. -/
theorem nothing_due_of_passes (h : causePasses cause = true) :
    dueBy env cause = [] ∧ collectedBy cause = [] := by
  cases cause with
  | received m => exact ⟨rfl, rfl⟩
  | delivered frame => exact ⟨rfl, rfl⟩
  | resumed frame reply =>
    cases frame with
    | removeTokensControllers o => cases h
    | ledger type call =>
      cases call with
      | transferFrom charge => cases h
      | _ => exact ⟨rfl, rfl⟩
    | _ => exact ⟨rfl, rfl⟩

/-- A collected charge was owed. -/
theorem collectedBy_eq_owed {type : TokenType} {charge : Charge}
    {reply : CallResult (Except String Nat)} (ok : transferFromResult reply = .ok ()) :
    collectedBy (.resumed (.ledger type (.transferFrom charge)) reply) =
      (TokenCall.transferFrom charge).duty.owed := by
  cases hk : charge.k <;> simp only [collectedBy, TokenCall.duty, hk, ok, Duty.owed]

/-- **A segment that ends keeps the book**: what was owed or becomes due, is owed or is collected. -/
theorem Does.settles {frame? : Option Frame} (does : Does env a st cause st' frame?) :
    dueBy env cause ++ (dutyOf cause.frame?).owed = (dutyOf frame?).owed ++ collectedBy cause := by
  cases does with
  | idle passes keeps free =>
    obtain ⟨hdue, hcollected⟩ := nothing_due_of_passes passes
    rw [hdue, hcollected, duty_of_passes passes, free]
    rfl
  | looked keeps => exact (List.append_nil _).symm
  | replied ends => rfl
  | spent ends => rfl
  | airdropped ends => rfl
  | began passes keeps has asks => rfl
  | beganUpload passes absent asks => rfl
  | deducted ends => rfl
  | refused => rfl
  | uploaded => rfl
  | wrote duty ends keeps free =>
    rw [free]
    obtain rfl | ⟨url, rfl⟩ := Frame.of_edit_duty duty
    · rfl
    · rfl
  | @charged type charge reply _ next ok ends =>
    have free := chargeReturn_free ends
    rw [collectedBy_eq_owed ok, free]
    rfl
  | traded ends => rfl
  | finished passes ends free =>
    obtain ⟨hdue, hcollected⟩ := nothing_due_of_passes passes
    rw [hdue, hcollected, duty_of_passes passes, free]
    rfl
  | installed ends => rfl
  | removed owes =>
    rw [dutyOf_some, owes]
    rfl

/-- A segment that traps collects nothing. -/
theorem collectedBy_of_trap (h : (program env).segment a cause st = none) :
    collectedBy cause = [] := by
  cases cause with
  | received m => rfl
  | delivered frame => rfl
  | resumed frame reply =>
    cases frame with
    | ledger type call =>
      cases call with
      | transferFrom charge =>
        cases hk : charge.k with
        | ownershipTransfer =>
          cases ok : transferFromResult reply with
          | ok _ =>
            -- once the charge is collected, nothing is left that could trap
            replace h : resumeLedger env a type (.transferFrom charge) reply st = none := h
            simp only [resumeLedger, ok, unwrap, Option.bind_eq_bind, Option.bind_some,
              chargeReturn, hk, reduceCtorEq] at h
          | error e => simp only [collectedBy, hk, ok]
        | _ => simp only [collectedBy, hk]
      | _ => rfl
    | _ => rfl

end

section

variable {env : Env} {s : System} {choice : Choice}

/-- What a call owes is the charge of `ownership_transfer`. -/
theorem owed_of_duty {call : TokenCall} (h : call.duty.owed ≠ []) :
    ∃ charge, call = .transferFrom charge ∧ charge.k = .ownershipTransfer := by
  obtain free | ⟨charge, hcall, hk, _⟩ := call.duty_cases
  · rw [free] at h
    exact absurd rfl h
  · exact ⟨charge, hcall, hk⟩

theorem owed_of_ownership {charge : Charge} (h : charge.k = .ownershipTransfer) :
    (TokenCall.transferFrom charge).duty.owed = [charge] := by
  simp only [TokenCall.duty, h, Duty.owed]

/-- **A choice defaults where it ends a run in a trap, and the run owes.** -/
theorem defaults_iff :
    Defaults env s choice ↔ ∃ a run frame reply,
      s.starts choice = some (a, run, .resumed frame reply) ∧
        (program env).segment a (.resumed frame reply) s.state = none ∧
        dueBy env (.resumed frame reply) ++ frame.duty.owed ≠ [] := by
  constructor
  · intro h
    cases h with
    | @refused a run type charge reply starts owes refused =>
      refine ⟨a, run, _, reply, starts, ?_, ?_⟩
      · change resumeLedger env a type (.transferFrom charge) reply s.state = none
        cases hresult : transferFromResult reply with
        | ok _ => exact absurd hresult refused
        | error e =>
          simp only [resumeLedger, hresult, unwrap, Option.bind_eq_bind, Option.bind_none]
      · rw [Frame.duty, owed_of_ownership owes]
        exact List.cons_ne_nil _ _
    | @looked a run charge reply starts owes unsupported =>
      refine ⟨a, run, _, reply, starts, callLedger_eq_none.mpr unsupported, ?_⟩
      rw [Frame.duty, owed_of_ownership owes]
      exact List.cons_ne_nil _ _
    | @removed a run o starts cached unsupported =>
      refine ⟨a, run, _, _, starts, callToken_eq_none.mpr ⟨cached, unsupported⟩, ?_⟩
      exact List.cons_ne_nil _ _
  · rintro ⟨a, run, frame, reply, starts, trap, owes⟩
    cases frame with
    | getToken call =>
      obtain ⟨charge, rfl, hk⟩ := owed_of_duty owes
      exact .looked starts hk (callLedger_eq_none.mp trap)
    | ledger type call =>
      obtain ⟨charge, rfl, hk⟩ := owed_of_duty owes
      refine .refused starts hk ?_
      intro ok
      have collected := collectedBy_of_trap trap
      rw [collectedBy_eq_owed ok, owed_of_ownership hk] at collected
      cases collected
    | removeTokensControllers o =>
      cases reply with
      | ok _ =>
        obtain ⟨cached, unsupported⟩ := callToken_eq_none.mp trap
        exact .removed starts cached unsupported
      | error e => exact absurd rfl owes
    | httpRequest url k => cases k <;> exact absurd rfl owes
    | _ => exact absurd rfl owes

end

/-! ## Every schedule -/

/-- The book of every run: what is removed is what is collected and what the run still owes. -/
structure Settles (env : Env) (s : System) : Prop where
  ordered : s.Ordered
  book : ∀ run : Nat,
    removals env (s.history run) = (dutyOf s.suspended[run]?).owed ++ payments (s.history run)

theorem Settles.paid {env : Env} {s : System} (settles : Settles env s) : RemovalsPaid env s := by
  intro run ended
  rw [settles.book, ended]
  rfl

section

variable {env : Env} {s : System} {choice : Choice} {run : Nat} {cause : Cause Message Frame Rep}

/-- The two books of a run after its segment. -/
theorem removals_after (result : Segment) :
    removals env ((s.after run cause result).history run) =
      dueBy env cause ++ removals env (s.history run) := by
  unfold removals
  rw [history_after, List.flatMap_cons]

theorem payments_after (result : Segment) :
    payments ((s.after run cause result).history run) =
      collectedBy cause ++ payments (s.history run) := by
  unfold payments
  rw [history_after, List.flatMap_cons]

/-- A segment that neither ends its run nor leaves a debt behind keeps the books of all runs. -/
theorem Settles.after {result : Segment} (settles : Settles env s) (enabled : s.Enabled run cause)
    (ordered : (s.after run cause result).Ordered)
    (own : dueBy env cause ++ (dutyOf cause.frame?).owed =
      (dutyOf (frameOf result)).owed ++ collectedBy cause) :
    Settles env (s.after run cause result) := by
  refine ⟨ordered, ?_⟩
  intro run'
  by_cases hne : run' = run
  · subst hne
    have book := settles.book run'
    rw [enabled.get_eq settles.ordered] at book
    rw [get_after, removals_after, payments_after, book, ← List.append_assoc, own,
      List.append_assoc]
  · rw [get_after_of_ne s cause result hne, history_after_of_ne s cause result hne]
    exact settles.book run'

/-- **A step that does not default keeps every book.** -/
theorem step_settles (settles : Settles env s) (honest : ¬ Defaults env s choice) :
    Settles env ((program env).step s choice) := by
  have ordered : ((program env).step s choice).Ordered := ordered_step settles.ordered choice
  rcases step_cases (program env) s choice with e | ⟨a, run, cause, starts, enabled, delivered, e⟩
  · rw [e]
    exact settles
  rw [e] at ordered ⊢
  apply settles.after enabled ordered
  cases hsegment : (program env).segment a cause s.state with
  | some result => exact (segment_does hsegment).settles
  | none =>
    rw [collectedBy_of_trap hsegment]
    cases cause with
    | received m => rfl
    | delivered frame => exact absurd hsegment (delivered rfl)
    | resumed frame reply =>
      by_contra owes
      exact honest (defaults_iff.mpr ⟨a, run, frame, reply, starts, hsegment, owes⟩)

/-- After a default, a run is over that has not collected what it owed. -/
theorem Defaults.not_paid (settles : Settles env s) (defaults : Defaults env s choice) :
    ¬ RemovalsPaid env ((program env).step s choice) := by
  obtain ⟨a, run, frame, reply, starts, hsegment, owes⟩ := defaults_iff.mp defaults
  have enabled : s.suspended[run]? = some frame := by
    cases choice with
    | receive a m => cases starts
    | deliver a run' =>
      obtain ⟨_, _, starts⟩ := Option.map_eq_some_iff.mp starts
      cases starts
    | resume a run' reply' =>
      obtain ⟨frame', hframe, starts⟩ := Option.map_eq_some_iff.mp starts
      cases starts
      exact hframe
  rw [step_resumed starts, hsegment]
  intro paid
  have equal := paid run (get_after s run _ none)
  rw [removals_after, payments_after, collectedBy_of_trap hsegment, settles.book, enabled,
    ← List.append_assoc] at equal
  exact owes (List.append_cancel_right equal)

end

theorem settles_start (env : Env) (st : State) : Settles env (Sys.start st) := by
  refine ⟨ordered_start st, ?_⟩
  intro run
  rw [get_start]
  rfl

/-- **Every removal of controllers is paid for**, and only removals are, after every step of exactly
the schedules in which nobody defaults. -/
theorem removals_paid_iff (env : Env) (caller : Principal) (time : Nat) (addrConfig : AddrConfig)
    (icpAddr : Principal) (choices : List Choice) :
    Along (program env).step (fun s choice => RemovalsPaid env ((program env).step s choice))
        (Sys.start (init env caller time addrConfig icpAddr)) choices ↔
      Along (program env).step (fun s choice => ¬ Defaults env s choice)
        (Sys.start (init env caller time addrConfig icpAddr)) choices := by
  have agree : ∀ (s : System) (choice : Choice), Settles env s →
      (RemovalsPaid env ((program env).step s choice) ↔ ¬ Defaults env s choice) := by
    intro s choice settles
    constructor
    · intro paid defaults
      exact defaults.not_paid settles paid
    · intro honest
      exact (step_settles settles honest).paid
  apply along_congr_of_invariant (I := Settles env) agree
  · intro s choice settles honest
    exact step_settles settles honest
  · exact settles_start env _

/-- The ledger refuses every transfer. -/
def transferRefused : (frame : Frame) → Rep frame
  | .ledger _ (.transferFrom _) => .ok (.error "insufficient allowance")
  | frame => sampleReply frame

/-- The creator of the sample project has its controllers removed, as run 15, and the charge fails. -/
def defaultSchedule : List Choice :=
  sampleSchedule ++ sampleMessage (.ownershipTransfer sampleUser sampleProject none) ::
    (List.replicate 5 (sampleAnswer 15) ++ [.resume sampleAmbient 15 transferRefused])

/-- **A removal without a charge.** -/
theorem not_removals_paid :
    ¬ ∀ env caller time addrConfig icpAddr (choices : List Choice),
      RemovalsPaid env (choices.foldl (program env).step
        (Sys.start (init env caller time addrConfig icpAddr))) := by
  intro all
  have paid : RemovalsPaid sampleEnv (defaultSchedule.foldl (program sampleEnv).step sampleStart) :=
    all _ _ _ _ _ _
  have hover : ((defaultSchedule.foldl (program sampleEnv).step
      sampleStart).suspended[15]?.isNone) = true := by
    decide +kernel
  have equal := paid 15 (Option.isNone_iff_eq_none.mp hover)
  have hremoved : (removals sampleEnv ((defaultSchedule.foldl (program sampleEnv).step
      sampleStart).history 15)).length = 1 := by
    decide +kernel
  have hpaid : (payments ((defaultSchedule.foldl (program sampleEnv).step
      sampleStart).history 15)).length = 0 := by
    decide +kernel
  rw [equal, hpaid] at hremoved
  cases hremoved

/-! ## The half that needs no condition -/

/-- What a run has collected, it has collected for a removal. -/
structure Earned (env : Env) (s : System) : Prop where
  ordered : s.Ordered
  book : ∀ run : Nat,
    ((dutyOf s.suspended[run]?).owed ++ payments (s.history run)).Sublist
      (removals env (s.history run))

/-- Every step keeps it, defaults included. -/
theorem step_earned {env : Env} (s : System) (choice : Choice) (earned : Earned env s) :
    Earned env ((program env).step s choice) := by
  have ordered : ((program env).step s choice).Ordered := ordered_step earned.ordered choice
  rcases step_cases (program env) s choice with e | ⟨a, run, cause, _, enabled, _, e⟩
  · rw [e]
    exact earned
  rw [e] at ordered ⊢
  refine ⟨ordered, ?_⟩
  intro run'
  by_cases hne : run' = run
  · subst hne
    have book := earned.book run'
    rw [enabled.get_eq earned.ordered] at book
    rw [get_after, removals_after, payments_after, ← List.append_assoc]
    cases hsegment : (program env).segment a cause s.state with
    | some result =>
      have own : dueBy env cause ++ (dutyOf cause.frame?).owed =
          (dutyOf (frameOf (some result))).owed ++ collectedBy cause :=
        (segment_does hsegment).settles
      rw [← own, List.append_assoc]
      exact book.append_left _
    | none =>
      rw [collectedBy_of_trap hsegment]
      exact ((List.sublist_append_right _ _).trans book).trans (List.sublist_append_right _ _)
  · rw [get_after_of_ne s cause _ hne, history_after_of_ne s cause _ hne]
    exact earned.book run'

/-- **Nobody is charged without a removal**, in any schedule. -/
theorem collected_sublist_removed (env : Env) (caller : Principal) (time : Nat)
    (addrConfig : AddrConfig) (icpAddr : Principal) (choices : List Choice) (run : Nat) :
    let s := choices.foldl (program env).step (Sys.start (init env caller time addrConfig icpAddr))
    (payments (s.history run)).Sublist (removals env (s.history run)) := by
  intro s
  have earned : Earned env s := by
    apply foldl_invariant step_earned
    refine ⟨ordered_start _, ?_⟩
    intro run
    rw [get_start]
    exact .slnil
  exact (List.sublist_append_right _ _).trans (earned.book run)

end Fomowell.Launcher
