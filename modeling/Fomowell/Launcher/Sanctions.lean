import Fomowell.Launcher.Callers
import Fomowell.Launcher.Records

/-!
# Whose doing a record is

Every change of anybody's points leaves a record, so who may change them is who may cause a record.
`Sanctioned` lists it: a deduction was asked for by the launcher itself or by the canister of a stored
project, or it is the price of the user's own edit; points were added by the owner, by the user's own top-up
once the ledger had answered `Ok` to its charge, or for a project of the user's that is stored.

The invariant `Sourced` finds the segment that wrote a record (`Does.lays`), with what it was permitted by;
`runs_serve_callers` then gives the message that its run was started by. `points_sanctioned` puts them
together for every reachable launcher.
-/

namespace Fomowell.Launcher

open Std Canister Table Runs Token

/-- A canister may spend the points of its users: the launcher, and the canister of a project. -/
def MaySpend (env : Env) (st : State) (caller : Principal) : Prop :=
  caller = env.id ∨ ∃ (k : Nat) (p : FomoProject), st.bornAt k = some p ∧ p.fomoPid = caller

/-- What a segment that records was permitted by. -/
def Permits (env : Env) (st : State) : Cause Message Frame Rep → Prop
  | .received (.spendingPoints caller _ busiName) =>
    MaySpend env st caller ∧ (spendingAmount busiName).isSome
  | .received (.airdropPoints caller ..) => caller = st.context.owner
  | .resumed (.installCode c) _ => st.bornAt c.idx = some c.fomoProject
  | _ => True

/-- A ledger answered `Ok` to a charge of a user's ICP for the launcher, in a run that had it asked. -/
def Collected (env : Env) (s : System) (run : Nat) (user : Principal) : Prop :=
  ∃ type charge reply outcome,
    (⟨run, .resumed (.ledger type (.transferFrom charge)) reply, outcome⟩ : Entry ..) ∈ s.log ∧
      transferFromResult reply = .ok () ∧ charge.sender = user ∧ charge.tokenId = env.icpAddr ∧
      charge.recipient = env.id

/-- **Who may cause a record**, and which. -/
inductive Sanctioned (env : Env) (s : System) : Move → Prop
  /-- A canister spends a user's points, at the list price. -/
  | spent {run caller userPid busiName amount} (may : MaySpend env s.state caller)
      (asked : s.Began run (.spendingPoints caller userPid busiName))
      (price : spendingAmount busiName = some amount) :
    Sanctioned env s ⟨userPid, .DEDUCT, busiName, some amount⟩
  /-- The user edits its profile. -/
  | edited {run userPid userInfo} (asked : s.Began run (.editUser userPid userInfo))
      (edits : userInfo.userName.isSome ∨ userInfo.avatar.isSome) :
    Sanctioned env s ⟨userPid, .DEDUCT, "EDIT_AVATAR", some 8⟩
  /-- The owner adds points. -/
  | airdropped {run userPid amount busiName}
      (asked : s.Began run (.airdropPoints s.state.context.owner userPid amount busiName)) :
    Sanctioned env s ⟨userPid, .ADD, busiName, some amount⟩
  /-- The user tops up, and pays. -/
  | toppedUp {run userPid pointsAmount move} (asked : s.Began run (.topupPoints userPid pointsAmount))
      (paid : Collected env s run userPid)
      (moves : move = ⟨userPid, .ADD, "TOPUP", some pointsAmount⟩ ∨
        move = ⟨userPid, .INIT, "INIT", some 20⟩) :
    Sanctioned env s move
  /-- The user creates a project, and it is stored. -/
  | created {run userPid fomoCreate move} {k : Nat} {p : FomoProject}
      (asked : s.Began run (.createFomo userPid fomoCreate))
      (stored : s.state.bornAt k = some p) (creator : p.createUserPid = userPid)
      (moves : move = ⟨userPid, .ADD, "CREATEFOMO", some 10⟩ ∨
        move = ⟨userPid, .INIT, "INIT", some 20⟩) :
    Sanctioned env s move

/-- Every record of a launcher is sanctioned. -/
def PointsSanctioned (env : Env) (s : System) : Prop :=
  ∀ (k : Nat) record, s.state.pointHistoryMap[k]? = some record → Sanctioned env s record.move

/-- Every record was written by a segment that was permitted to. -/
def Sourced (env : Env) (s : System) : Prop :=
  ∀ (k : Nat) record, s.state.pointHistoryMap[k]? = some record →
    ∃ entry ∈ s.log, record.move ∈ movesOf entry.cause ∧ Permits env s.state entry.cause

section

variable {env : Env} {st st' : State}

/-! ## One segment -/

/-- A record that is there now was there before, or is of one of the moves. -/
theorem Lays.source {moves : List Move} (h : Lays st moves st') {k : Nat} {record : PointHistory}
    (hrecord : st'.pointHistoryMap[k]? = some record) :
    st.pointHistoryMap[k]? = some record ∨ record.move ∈ moves := by
  induction h with
  | nothing history =>
    rw [history] at hrecord
    exact .inl hrecord
  | record earlier laid about history ih =>
    rw [history, get_insert] at hrecord
    split at hrecord
    · cases hrecord
      rw [about]
      exact .inr List.mem_cons_self
    · exact (ih hrecord).imp_right (List.mem_cons_of_mem _)

theorem MaySpend.mono {caller : Principal} (h : MaySpend env st caller) (kept : BirthsKept st st') :
    MaySpend env st' caller :=
  h.imp_right fun ⟨k, p, hp, pid⟩ => ⟨k, p, kept k p hp, pid⟩

/-- A permission stays while projects stay and the owner does. -/
theorem Permits.mono {cause : Cause Message Frame Rep} (h : Permits env st cause)
    (kept : BirthsKept st st') (owner : st'.context.owner = st.context.owner) :
    Permits env st' cause := by
  unfold Permits at h ⊢
  split at h
  next => exact ⟨h.1.mono kept, h.2⟩
  next =>
    rw [owner]
    exact h
  next => exact kept _ _ h
  next => trivial

/-- A cause that passes needs no permission. -/
theorem Permits.of_passes {cause : Cause Message Frame Rep} (passes : causePasses cause = true) :
    Permits env st cause := by
  unfold Permits
  split
  next => cases passes
  next => cases passes
  next => cases passes
  next => trivial

/-- `spending_points` is for those who may, at the list price. -/
theorem spendingPoints_permits {time : Nat} {caller userPid : Principal} {busiName : String}
    (h : spendingPoints env time caller userPid busiName st = some st') :
    MaySpend env st caller ∧ (spendingAmount busiName).isSome := by
  unfold spendingPoints at h
  split at h
  next => cases h
  next may =>
    obtain ⟨amount, hamount, _⟩ := Option.bind_eq_some_iff.mp h
    refine ⟨?_, Option.isSome_of_eq_some hamount⟩
    by_cases self : caller = env.id
    · exact .inl self
    · have found : (st.getFomoByFomoPid caller).isSome := by
        cases hp : st.getFomoByFomoPid caller with
        | none => exact absurd ⟨self, Option.isNone_iff_eq_none.mpr hp⟩ may
        | some p => rfl
      obtain ⟨p, hp⟩ := Option.isSome_iff_exists.mp found
      obtain ⟨k, hk, pid⟩ := getFomoByFomoPid_eq_some hp
      exact .inr ⟨k, p.born, bornAt_of_stored hk, pid⟩

/-- **A segment that records was permitted to**, by the state it leaves. -/
theorem Does.permits {a : Ambient} {cause : Cause Message Frame Rep} {frame? : Option Frame}
    (does : Does env a st cause st' frame?) (kept : BirthsKept st st')
    (owner : st'.context.owner = st.context.owner) : Permits env st' cause := by
  cases does with
  | idle passes => exact .of_passes passes
  | spent ends =>
    obtain ⟨may, price⟩ := spendingPoints_permits ends
    exact ⟨may.mono kept, price⟩
  | airdropped ends =>
    unfold airdropPoints at ends
    split at ends
    next => cases ends
    next howner => exact (Classical.byContradiction howner).trans owner.symm
  | began passes => exact .of_passes passes
  | beganUpload passes => exact .of_passes passes
  | finished passes => exact .of_passes passes
  | @installed c _ _ _ ends =>
    have stored := bornAt_insert (createFomoInstalled_writes ends) c.idx
    rw [if_pos rfl] at stored
    exact stored
  | wrote duty =>
    obtain rfl | ⟨url, rfl⟩ := Frame.of_edit_duty duty
    · trivial
    · trivial
  | _ => trivial

end

/-! ## Every event -/

theorem Sourced.mono {env : Env} {s s' : System} (h : Sourced env s)
    (history : s'.state.pointHistoryMap = s.state.pointHistoryMap) (log : ∀ entry ∈ s.log, entry ∈ s'.log)
    (kept : BirthsKept s.state s'.state)
    (owner : s'.state.context.owner = s.state.context.owner) : Sourced env s' := by
  intro k record hrecord
  rw [history] at hrecord
  obtain ⟨entry, hentry, moves, permits⟩ := h k record hrecord
  exact ⟨entry, log entry hentry, moves, permits.mono kept owner⟩

/-- **Every step** records what it is permitted to. -/
theorem step_sourced {env : Env} {s : System} (lasting : Lasting env s) (sourced : Sourced env s)
    (choice : Choice) : Sourced env ((program env).step s choice) := by
  have kept : BirthsKept s.state ((program env).step s choice).state :=
    (step_born lasting.1.inv lasting.2 choice).2
  have owner : ((program env).step s choice).state.context.owner = s.state.context.owner :=
    step_owner s choice
  obtain e | ⟨a, run, cause, _, enabled, _, e⟩ := step_cases (program env) s choice
  · rw [e]
    exact sourced
  rw [e] at kept owner ⊢
  cases hsegment : (program env).segment a cause s.state with
  | none =>
    refine sourced.mono rfl (fun entry hentry => List.mem_cons_of_mem _ hentry) (fun _ _ h => h) rfl
  | some result =>
    obtain ⟨st', next⟩ := result
    rw [hsegment] at kept owner
    intro k record hrecord
    have does := segment_does hsegment
    obtain hold | hnew := does.lays.source hrecord
    · obtain ⟨entry, hentry, moves, permits⟩ := sourced k record hold
      exact ⟨entry, List.mem_cons_of_mem _ hentry, moves, permits.mono kept owner⟩
    · exact ⟨_, List.mem_cons_self, hnew, does.permits kept owner⟩

/-- **Every event** records what it is permitted to. -/
theorem live_sourced {env : Env} {s : System} (event : LifeEvent)
    (so : (Lasting env s ∧ Told (ServesAt env) s) ∧ Sourced env s) :
    (Lasting env (live env s event) ∧ Told (ServesAt env) (live env s event)) ∧
      Sourced env (live env s event) := by
  obtain ⟨⟨lasting, told⟩, sourced⟩ := so
  refine ⟨live_told event ⟨lasting, told⟩, ?_⟩
  obtain ⟨choice, e⟩ | e | ⟨st', _, _, preserved, e⟩ := live_cases lasting.1.fits event
  · rw [e]
    exact step_sourced lasting sourced choice
  · rw [e]
    exact sourced
  · rw [e]
    refine sourced.mono preserved.history (fun _ hentry => hentry) (fun k p hp => ?_) preserved.owner
    exact (bornAt_congr preserved.projects k).trans hp

/-- An edit that was paid for is the user's own, and asks for something. -/
theorem Edit.Serves.asked {e : Edit} {m : Message} (h : e.Serves m) (asks : e.asks = true) :
    m = .editUser e.caller e.userInfo ∧ (e.userInfo.userName.isSome ∨ e.userInfo.avatar.isSome) := by
  unfold Edit.Serves at h
  unfold Edit.asks at asks
  refine ⟨?_, by simpa using asks⟩
  split at h
  next => exact h
  next =>
    rw [h.2] at asks
    cases asks

/-- What a segment recorded, by the message that started its run. -/
theorem Permits.sanctioned {env : Env} {s : System} {run : Nat} {cause : Cause Message Frame Rep}
    {outcome : Option (Next Frame Answer)} {move : Move} (permits : Permits env s.state cause)
    (hentry : (⟨run, cause, outcome⟩ : Entry ..) ∈ s.log) (moves : move ∈ movesOf cause)
    (tells : ∀ frame, cause.frame? = some frame → ∃ m, s.Began run m ∧ ServesAt env s m frame) :
    Sanctioned env s move := by
  unfold movesOf at moves
  split at moves
  next =>
    obtain ⟨amount, hamount⟩ := Option.isSome_iff_exists.mp permits.2
    cases List.mem_singleton.mp moves
    rw [hamount]
    exact .spent permits.1 ⟨_, hentry⟩ hamount
  next caller userPid amount busiName =>
    cases List.mem_singleton.mp moves
    replace permits : caller = s.state.context.owner := permits
    rw [permits] at hentry
    exact .airdropped ⟨_, hentry⟩
  next e =>
    cases List.mem_singleton.mp moves
    obtain ⟨m, began, serves, asks⟩ := tells _ rfl
    obtain ⟨rfl, edits⟩ := serves.asked asks
    exact .edited began edits
  next type charge reply =>
    split at moves
    next hk ok =>
      obtain ⟨m, began, token, recipient, serves⟩ := tells _ rfl
      rw [hk] at serves
      cases serves
      have both := moves
      rw [List.mem_cons, List.mem_singleton] at both
      exact .toppedUp began ⟨type, charge, reply, outcome, hentry, ok, rfl, token, recipient⟩ both
    next => cases moves
  next c reply =>
    obtain ⟨m, began, asked, description, rfl, _⟩ := tells _ rfl
    rw [List.mem_cons, List.mem_singleton] at moves
    exact .created began permits rfl moves
  next => cases moves

/-- **Nobody else moves a user's points**: every record of a reachable launcher is sanctioned. -/
theorem points_sanctioned (env : Env) (caller : Principal) (time : Nat) (addrConfig : AddrConfig)
    (icpAddr : Principal) (events : List LifeEvent) :
    PointsSanctioned env (lived env caller time addrConfig icpAddr events) := by
  have nothing : Sourced env (Sys.start (init env caller time addrConfig icpAddr)) := by
    intro k record hrecord
    rw [Sys.start, init, ExtTreeMap.getElem?_empty] at hrecord
    cases hrecord
  have reached := foldl_invariant
    (I := fun s => (Lasting env s ∧ Told (ServesAt env) s) ∧ Sourced env s)
    (fun _ event so => live_sourced event so)
    ⟨served_start env caller time addrConfig icpAddr, nothing⟩ events
  intro k record hrecord
  obtain ⟨⟨run, cause, outcome⟩, hentry, moves, permits⟩ := reached.2 k record hrecord
  exact Permits.sanctioned permits hentry moves (reached.1.2.logged _ hentry)

end Fomowell.Launcher
