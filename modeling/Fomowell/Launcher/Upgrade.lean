import Fomowell.Lib.Snapshot
import Fomowell.Launcher.Writes

/-!
# The upgrade of the launcher (`fomowell-launcher/src/main.rs`)

`pre_upgrade` saves six components as one tuple, the three stable maps as the lists of their entries;
`post_upgrade` starts from a fresh heap and empty maps, inserts record by record what it restores, and
copies the context and the projects field by field. The code compiled into the launcher and the cache
of token types are not saved.

An insertion above the `MAX_SIZE` of a record is a trap, so `post_upgrade` ends because every stored
record fits, which every segment keeps (`Fits`). `upgrade_preserves`: a reachable launcher comes through
an upgrade with everything it saved. `LifeEvent`s are what can happen to a launcher: the choices of its
scheduler, and upgrades where no run is suspended.
-/

namespace Fomowell.Launcher

open Std Canister Table Runs Token

/-! ## `pre_upgrade` and `post_upgrade` -/

/-- The tuple that `pre_upgrade` saves. -/
structure Saved where
  context : Context
  addrConfig : AddrConfig
  counterState : CounterState
  userProfiles : List (Principal × UserProfile)
  fomoList : List (Nat × FomoProject)
  historyProject : List (Nat × PointHistory)

/-- `pre_upgrade`. -/
def preUpgrade (st : State) : Saved where
  context := st.context
  addrConfig := st.addrConfig
  counterState := st.counter
  userProfiles := st.userProfileMap.toList
  fomoList := st.fomoProjectMap.toList
  historyProject := st.pointHistoryMap.toList

/-- `AddrConfig::default`. -/
def AddrConfig.default : AddrConfig where
  backendAddr := Principal.anonymous
  routerAddr := Principal.anonymous
  icplAddr := Principal.anonymous
  oracleAddr := Principal.anonymous
  txAddr := Principal.anonymous

/-- The state in which `post_upgrade` starts, at a time: nothing is on the heap, and the stable maps are
created again. -/
def State.fresh (time : Nat) : State where
  context := Context.default time
  addrConfig := AddrConfig.default
  counter := ⟨0, 0⟩
  userProfileMap := ∅
  fomoProjectMap := ∅
  pointHistoryMap := ∅
  tokenCache := TokenCache.empty

/-- The project that `post_upgrade` inserts for a saved one. -/
def FomoProject.restored (fomoProj : FomoProject) : FomoProject where
  fomoIdx := fomoProj.fomoIdx
  name := fomoProj.name
  ticker := fomoProj.ticker
  description := fomoProj.description
  imgUrl := fomoProj.imgUrl
  twitterLink := fomoProj.twitterLink
  telegramLink := fomoProj.telegramLink
  website := fomoProj.website
  tokenPid := fomoProj.tokenPid
  poolPid := fomoProj.poolPid
  fomoPid := fomoProj.fomoPid
  poolProgress := fomoProj.poolProgress
  poolProgressDoneTime := fomoProj.poolProgressDoneTime
  godOfWellsProgress := fomoProj.godOfWellsProgress
  godOfWellsTime := fomoProj.godOfWellsTime
  marketCap := fomoProj.marketCap
  createTime := fomoProj.createTime
  createUserPid := fomoProj.createUserPid
  replyCount := fomoProj.replyCount
  recentlyReplyTime := fomoProj.recentlyReplyTime
  recentlyBumpTime := fomoProj.recentlyBumpTime
  sneedDaoLock := fomoProj.sneedDaoLock
  dogmiDaoLock := fomoProj.dogmiDaoLock

/-- `post_upgrade`. -/
def postUpgrade (env : Env) (time : Nat) (optAddrConfig : Option AddrConfig) (saved : Saved) :
    Option State := do
  let st ← saved.userProfiles.foldlM (fun st e => st.insertProfile env e.1 e.2) (State.fresh time)
  let st ← saved.fomoList.foldlM (fun st e => st.insertProject env e.1 e.2.restored) st
  let st ← saved.historyProject.foldlM (fun st e => st.insertHistory env e.1 e.2) st
  return { st with
    context :=
      { st.context with
        owner := saved.context.owner
        fomoCanisterTemplate := env.fomoCanisterTemplate
        icpAddr := saved.context.icpAddr
        godOfWellsIdx := saved.context.godOfWellsIdx
        lastCreateFomo := saved.context.lastCreateFomo
        lastBuySellOp := saved.context.lastBuySellOp }
    addrConfig :=
      match optAddrConfig with
      | none => saved.addrConfig
      | some addrConfig => addrConfig
    counter := saved.counterState }

/-- `pre_upgrade`, then `post_upgrade` with what was saved. -/
def upgrade (env : Env) (time : Nat) (optAddrConfig : Option AddrConfig) (st : State) :
    Option State :=
  postUpgrade env time optAddrConfig (preUpgrade st)

/-- The law of an upgrade. -/
structure Preserved (optAddrConfig : Option AddrConfig) (st st' : State) : Prop where
  profiles : st'.userProfileMap = st.userProfileMap
  projects : st'.fomoProjectMap = st.fomoProjectMap
  history : st'.pointHistoryMap = st.pointHistoryMap
  counter : st'.counter = st.counter
  owner : st'.context.owner = st.context.owner
  icpAddr : st'.context.icpAddr = st.context.icpAddr
  godOfWellsIdx : st'.context.godOfWellsIdx = st.context.godOfWellsIdx
  lastCreateFomo : st'.context.lastCreateFomo = st.context.lastCreateFomo
  lastBuySellOp : st'.context.lastBuySellOp = st.context.lastBuySellOp
  addrConfig : st'.addrConfig = optAddrConfig.getD st.addrConfig

/-! ## Every record fits -/

/-- Every stored record is within the `MAX_SIZE` of its map. -/
structure Fits (env : Env) (st : State) : Prop where
  profiles : ∀ (user : Principal) p, st.userProfileMap[user]? = some p → env.profileSize p ≤ 2048
  projects : ∀ (k : Nat) p, st.fomoProjectMap[k]? = some p → env.projectSize p ≤ 4096
  history : ∀ (k : Nat) record, st.pointHistoryMap[k]? = some record →
    env.historySize record ≤ 4096

section

variable {env : Env} {st st' : State}

theorem AccountWrite.fits (h : AccountWrite env st st') (fits : Fits env st) : Fits env st' := by
  cases h with
  | profile user p size =>
    exact ⟨forall_get_insert fits.profiles size, fits.projects, fits.history⟩
  | record record size next =>
    exact ⟨fits.profiles, fits.projects, forall_get_insert fits.history size⟩
  | counted => exact ⟨fits.profiles, fits.projects, fits.history⟩
  | pointCounted => exact ⟨fits.profiles, fits.projects, fits.history⟩
  | cached tokenCache => exact ⟨fits.profiles, fits.projects, fits.history⟩

theorem StateWrite.fits (h : StateWrite env st st') (fits : Fits env st) : Fits env st' := by
  cases h with
  | account write => exact write.fits fits
  | project k p size =>
    exact ⟨fits.profiles, forall_get_insert fits.projects size, fits.history⟩
  | context context => exact ⟨fits.profiles, fits.projects, fits.history⟩

theorem StateWrites.fits (h : StateWrites env st st') (fits : Fits env st) : Fits env st' := by
  induction h with
  | refl => exact fits
  | tail _ write ih => exact write.fits ih

theorem Preserved.fits {optAddrConfig : Option AddrConfig} (h : Preserved optAddrConfig st st')
    (fits : Fits env st) : Fits env st' := by
  refine ⟨?_, ?_, ?_⟩
  · rw [h.profiles]
    exact fits.profiles
  · rw [h.projects]
    exact fits.projects
  · rw [h.history]
    exact fits.history

/-! ## An upgrade -/

/-- The three stable maps, as parts of the state. -/
def profilePart : Part State Principal UserProfile compare where
  read st := st.userProfileMap
  write st userProfileMap := { st with userProfileMap }
  read_write _ _ := rfl
  write_read _ := rfl
  write_write _ _ _ := rfl

def projectPart : Part State Nat FomoProject compare where
  read st := st.fomoProjectMap
  write st fomoProjectMap := { st with fomoProjectMap }
  read_write _ _ := rfl
  write_read _ := rfl
  write_write _ _ _ := rfl

def historyPart : Part State Nat PointHistory compare where
  read st := st.pointHistoryMap
  write st pointHistoryMap := { st with pointHistoryMap }
  read_write _ _ := rfl
  write_read _ := rfl
  write_write _ _ _ := rfl

/-- **An upgrade ends, and preserves what it saves**, where every record fits. -/
theorem Fits.upgrade (fits : Fits env st) (time : Nat) (optAddrConfig : Option AddrConfig) :
    ∃ st', upgrade env time optAddrConfig st = some st' ∧ Preserved optAddrConfig st st' := by
  have profiles := profilePart.restore (fun st user p => st.insertProfile env user p)
    (s := State.fresh time) rfl (t := st.userProfileMap)
    fun _ user p hp => if_pos (fits.profiles user p hp)
  have projects := fun s empty => projectPart.restore
    (fun st k p => st.insertProject env k p.restored) (s := s) empty (t := st.fomoProjectMap)
    fun _ k p hp => if_pos (fits.projects k p hp)
  have history := fun s empty => historyPart.restore
    (fun st k record => st.insertHistory env k record) (s := s) empty (t := st.pointHistoryMap)
    fun _ k record hrecord => if_pos (fits.history k record hrecord)
  unfold Launcher.upgrade postUpgrade preUpgrade
  dsimp only
  rw [profiles, Option.bind_eq_bind, Option.bind_some, projects _ rfl, Option.bind_some,
    history _ rfl, Option.bind_some]
  refine ⟨_, rfl, rfl, rfl, rfl, rfl, rfl, rfl, rfl, rfl, rfl, ?_⟩
  cases optAddrConfig <;> rfl

end

/-! ## Reachable launchers -/

/-- What can happen to a launcher: a choice of its scheduler, or an upgrade. -/
inductive LifeEvent
  | choice (choice : Choice)
  | upgrade (time : Nat) (optAddrConfig : Option AddrConfig)

/-- The launcher after an event. It is upgraded only where no run is suspended; an upgrade that traps is
undone. -/
def live (env : Env) (s : System) : LifeEvent → System
  | .choice choice => (program env).step s choice
  | .upgrade time optAddrConfig =>
    if s.suspended.isEmpty then
      match upgrade env time optAddrConfig s.state with
      | some st => { s with state := st }
      | none => s
    else s

/-- The launcher after some events from its installation. -/
def lived (env : Env) (caller : Principal) (time : Nat) (addrConfig : AddrConfig)
    (icpAddr : Principal) (events : List LifeEvent) : System :=
  events.foldl (live env) (Sys.start (init env caller time addrConfig icpAddr))

theorem step_fits {env : Env} (s : System) (choice : Choice) (fits : Fits env s.state) :
    Fits env ((program env).step s choice).state := by
  refine step_state (R := fun st st' => Fits env st → Fits env st') (fun _ fits => fits) ?_ fits
  intro a run cause st' next _ _ hsegment
  exact (segment_writes hsegment).all.fits

/-- **What an event can be**: a step of the scheduler, nothing, or an upgrade that preserves what it
saves, of a launcher without suspended runs. -/
theorem live_cases {env : Env} {s : System} (fits : Fits env s.state) (event : LifeEvent) :
    (∃ choice, live env s event = (program env).step s choice) ∨ live env s event = s ∨
      ∃ st' optAddrConfig, s.suspended.isEmpty ∧ Preserved optAddrConfig s.state st' ∧
        live env s event = { s with state := st' } := by
  cases event with
  | choice choice => exact .inl ⟨choice, rfl⟩
  | upgrade time optAddrConfig =>
    obtain ⟨st', hupgrade, preserved⟩ := fits.upgrade time optAddrConfig
    by_cases hidle : s.suspended.isEmpty
    · refine .inr (.inr ⟨st', optAddrConfig, hidle, preserved, ?_⟩)
      simp only [live, if_pos hidle, hupgrade]
    · refine .inr (.inl ?_)
      simp only [live, if_neg hidle]

theorem live_fits {env : Env} (s : System) (event : LifeEvent) (fits : Fits env s.state) :
    Fits env (live env s event).state := by
  obtain ⟨choice, e⟩ | e | ⟨st', optAddrConfig, _, preserved, e⟩ := live_cases fits event
  · rw [e]
    exact step_fits s choice fits
  · rw [e]
    exact fits
  · rw [e]
    exact preserved.fits fits

theorem fits_start (env : Env) (caller : Principal) (time : Nat) (addrConfig : AddrConfig)
    (icpAddr : Principal) : Fits env (init env caller time addrConfig icpAddr) := by
  refine ⟨fun user p h => ?_, fun k p h => ?_, fun k record h => ?_⟩
  all_goals
    rw [init, ExtTreeMap.getElem?_empty] at h
    cases h

/-- **A reachable launcher comes through an upgrade** with all that it saves. -/
theorem upgrade_preserves (env : Env) (caller : Principal) (time : Nat) (addrConfig : AddrConfig)
    (icpAddr : Principal) (events : List LifeEvent) (upgradeTime : Nat)
    (optAddrConfig : Option AddrConfig) :
    ∃ st', upgrade env upgradeTime optAddrConfig
        (lived env caller time addrConfig icpAddr events).state = some st' ∧
      Preserved optAddrConfig (lived env caller time addrConfig icpAddr events).state st' :=
  (foldl_invariant (I := fun s : System => Fits env s.state) live_fits
    (fits_start env caller time addrConfig icpAddr) events).upgrade upgradeTime optAddrConfig

end Fomowell.Launcher
