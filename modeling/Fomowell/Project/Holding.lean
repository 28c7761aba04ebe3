import Fomowell.Lib.Countdown
import Fomowell.Lib.Pages
import Fomowell.Lib.Ranking
import Fomowell.Launcher.System
import Fomowell.Project.Segments
import Fomowell.Token.Operations

/-!
# The list of holders

`update_user_holding_list` asks the token for its supply, and then for the holders, a thousand at a time,
until a page is empty or short. Its list replaces the stored one in the last segment.
`get_top10_holders` sorts what is stored.

The method reads the metadata that the launcher installed the canister with. An upgrade, which drops them,
is no step here. The share of a holder is an `f64` and nothing is computed with it: its type is a parameter.

`updateUserHoldingList_stores`: where the ledger answers from one list of holders, the run ends after two
replies and one for every full page, and what it stored is that list. A holder with an amount that is no
`u128` makes it trap instead, and no list of the canister has `2 ^ 32` entries (`not_stores`).
-/

namespace Fomowell.Launcher

open Std

/-- `to_hashmap`. -/
def FomoProject.toHashmap (toText : Principal → String) (self : FomoProject) :
    ExtTreeMap String String compare :=
  ExtTreeMap.ofList
    [("fomo_idx", toString self.fomoIdx), ("name", self.name), ("ticker", self.ticker),
      ("description", self.description), ("img_url", self.imgUrl),
      ("twitter_link", self.twitterLink), ("telegram_link", self.telegramLink),
      ("website", self.website), ("token_pid", toText self.tokenPid),
      ("pool_pid", toText self.poolPid), ("fomo_pid", toText self.fomoPid),
      ("pool_progress", displayNat self.poolProgress),
      ("god_of_wells_progress", displayNat self.godOfWellsProgress),
      ("create_time", toString self.createTime), ("create_user_pid", toText self.createUserPid),
      ("market_cap", displayNat self.marketCap)]

end Fomowell.Launcher

namespace Fomowell.Project

open Std Canister Pages Ranking Runs Token
open Launcher (unwrap sampleFomo)

/-! ## Records -/

/-- `HoldersBalances`. -/
structure HoldersBalances where
  maxLength : Nat
  balances : List (Account × Nat)

/-- `HolderInfo`. -/
structure HolderInfo (F : Type) where
  account : Account
  amount : Nat
  holderPercent : F
  holderType : String

/-- The text of a principal, and the quotient of two amounts as an `f64`. -/
structure HoldingEnv (F : Type) where
  toText : Principal → String
  fromText : String → Option Principal
  fromText_toText : ∀ p, fromText (toText p) = some p
  percent : Nat → Nat → Option F
  percent_isSome : ∀ amount supply, 0 < supply → (percent amount supply).isSome

/-- The canister with the stored list of holders. -/
structure Holding (F : Type) where
  project : State
  balances : List (HolderInfo F)

/-- A canister that the launcher installed for a project. -/
def Holding.install {F : Type} (env : HoldingEnv F) (caller : Principal) (v : Launcher.FomoProject) :
    Holding F where
  project := init caller (v.toHashmap env.toText)
  balances := []

/-! ## Messages and frames -/

/-- The message to `update_user_holding_list`, which the timer sends too. -/
inductive HoldingMessage
  | updateUserHoldingList

/-- What `update_user_holding_list` reads of the metadata. -/
structure Refresh where
  tokenPrincipal : Principal
  poolPid : String
  createUserPid : String

/-- An await of `update_user_holding_list`. -/
inductive HoldingFrame (F : Type)
  | icrc1TotalSupply (r : Refresh)
  | icrcPlusHoldersBalance (r : Refresh) (totalSupply start : Nat) (allBalances : List (HolderInfo F))

/-- The replies that may resume it. -/
def HoldingRep {F : Type} : HoldingFrame F → Type
  | .icrc1TotalSupply _ => CallResult Nat
  | .icrcPlusHoldersBalance .. => CallResult HoldersBalances

/-- What a segment ends with. -/
abbrev Held (F : Type) : Type := Holding F × Next (Frame ⊕ HoldingFrame F) (Answer ⊕ Unit)

/-! ## The methods -/

section

variable {F : Type} (env : HoldingEnv F)

/-- `nat_to_u128`. -/
def natToU128 (value : Nat) : Option Nat := if value < 2 ^ 128 then some value else none

/-- The type of a holder. -/
def Refresh.holderType (r : Refresh) (owner : Principal) : String :=
  if env.toText owner = r.poolPid then "pool"
  else if env.toText owner = r.createUserPid then "dev"
  else ""

/-- One holder of a page joins the list. A list that does not fit the memory traps. -/
def readHolder (r : Refresh) (totalSupply : Nat) (allBalances : List (HolderInfo F))
    (holder : Account × Nat) : Option (List (HolderInfo F)) := do
  let amount ← natToU128 holder.2
  let supply ← natToU128 totalSupply
  let holderPercent ← env.percent amount supply
  collect (allBalances ++
    [{ account := holder.1, amount := holder.2, holderPercent,
       holderType := r.holderType env holder.1.owner }])

/-- The end of `update_user_holding_list`. -/
def storeBalances (allBalances : List (HolderInfo F)) (st : Holding F) : Option (Held F) :=
  some ({ st with balances := allBalances }, .returned (.inr ()))

/-- `update_user_holding_list` up to the call of `icrc1_total_supply`. -/
def updateUserHoldingList (st : Holding F) : Option (Held F) := do
  let tokenPid ← st.project.heap.metadata["token_pid"]?
  let poolPid ← st.project.heap.metadata["pool_pid"]?
  let createUserPid ← st.project.heap.metadata["create_user_pid"]?
  let tokenPrincipal ← env.fromText tokenPid
  return (st, .awaits (.inr (.icrc1TotalSupply { tokenPrincipal, poolPid, createUserPid })))

/-- `update_user_holding_list` up to the first page. -/
def updateUserHoldingListSupply (r : Refresh) (totalSupplyRes : CallResult Nat) (st : Holding F) :
    Option (Held F) := do
  let totalSupply ← unwrap totalSupplyRes
  return (st, .awaits (.inr (.icrcPlusHoldersBalance r totalSupply 0 [])))

/-- One round of the loop. The start of a page is a `usize`. -/
def updateUserHoldingListPage (r : Refresh) (totalSupply start : Nat)
    (allBalances : List (HolderInfo F)) (holdersBalances : CallResult HoldersBalances)
    (st : Holding F) : Option (Held F) := do
  let balancesRes := (← unwrap holdersBalances).balances
  if balancesRes.length = 0 then
    storeBalances allBalances st
  else
    let allBalances ← balancesRes.foldlM (readHolder env r totalSupply) allBalances
    if balancesRes.length < 1000 then
      storeBalances allBalances st
    else
      return (st, .awaits (.inr
        (.icrcPlusHoldersBalance r totalSupply ((start + 1000) % 2 ^ 32) allBalances)))

/-- `get_top10_holders`. -/
def getTop10Holders (st : Holding F) : Option (List (HolderInfo F)) := do
  let balancesVec ← collect st.balances
  return (byKey HolderInfo.amount balancesVec).take 10

/-! ## The program -/

/-- The segment that a reply resumes. -/
def resumeHolding : (frame : HoldingFrame F) → HoldingRep frame → Holding F → Option (Held F)
  | .icrc1TotalSupply r, reply, st => updateUserHoldingListSupply r reply st
  | .icrcPlusHoldersBalance r totalSupply start allBalances, reply, st =>
    updateUserHoldingListPage env r totalSupply start allBalances reply st

/-- A segment of the other methods. -/
def Holding.within (st : Holding F) (segment : Segment) : Option (Held F) :=
  segment.map fun r => ({ st with project := r.1 }, r.2.map .inl .inl)

/-- The canister with all its methods. -/
def holdingProgram (penv : Env) :
    Program Nat (Holding F) (Message ⊕ HoldingMessage) (Frame ⊕ HoldingFrame F) (Answer ⊕ Unit)
      (Sum.elim Rep HoldingRep) where
  receive
    | _, .inl message, st => st.within (receive message st.project)
    | _, .inr .updateUserHoldingList, st => updateUserHoldingList env st
  deliver
    | time, .inl frame, st =>
      ((program penv).deliver time frame st.project).map fun r =>
        ({ st with project := r.1 }, .inl r.2)
    | _, .inr _, _ => none
  resume
    | time, .inl frame, reply, st => st.within (resume penv time frame reply st.project)
    | _, .inr frame, reply, st => resumeHolding env frame reply st

/-- The canister with its suspended runs and its log. -/
abbrev HoldingSystem (F : Type) : Type :=
  Sys (Holding F) (Message ⊕ HoldingMessage) (Frame ⊕ HoldingFrame F) (Answer ⊕ Unit)
    (Sum.elim Rep HoldingRep)

/-- A choice of its scheduler. -/
abbrev HoldingChoice (F : Type) : Type :=
  Label Nat (Message ⊕ HoldingMessage) (Frame ⊕ HoldingFrame F) (Sum.elim Rep HoldingRep)

end

/-! ## What a refresh is for -/

/-- What a ledger answers from: its supply, and the holders with their amounts. -/
structure Ledger where
  totalSupply : Nat
  holders : List (Account × Nat)

section

variable {F : Type}

/-- The replies of a ledger. What it reports as `max_length` is not read. -/
def Ledger.Answers (ledger : Ledger) :
    (frame : Frame ⊕ HoldingFrame F) → Sum.elim Rep HoldingRep frame → Prop
  | .inl _, _ => True
  | .inr (.icrc1TotalSupply _), (reply : CallResult Nat) => reply = .ok ledger.totalSupply
  | .inr (.icrcPlusHoldersBalance _ _ start _), (reply : CallResult HoldersBalances) =>
    ∃ maxLength, reply = .ok ⟨maxLength, page ledger.holders start 1000⟩

variable (env : HoldingEnv F) (v : Launcher.FomoProject)

/-- What is stored of a holder. -/
structure Listed (totalSupply : Nat) (holder : Account × Nat) (info : HolderInfo F) : Prop where
  account : info.account = holder.1
  amount : info.amount = holder.2
  percent : env.percent holder.2 totalSupply = some info.holderPercent
  pool : info.holderType = "pool" ↔ holder.1.owner = v.poolPid
  dev : info.holderType = "dev" ↔ holder.1.owner ≠ v.poolPid ∧ holder.1.owner = v.createUserPid

/-- What a refresh leaves: the holders of the ledger in their order, and the ten with the highest
amounts to ask for. -/
structure Refreshed (ledger : Ledger) (st : Holding F) : Prop where
  stored : List.Forall₂ (Listed env v ledger.totalSupply) ledger.holders st.balances
  top : ∃ top, getTop10Holders st = some top ∧ Top HolderInfo.amount 10 st.balances top

/-- The law of a refresh that a message starts in a system, for what happens after it: after two
replies and one for every full page it is over, and where it ends, it has refreshed. -/
structure Completes (penv : Env) (ledger : Ledger) (s : HoldingSystem F) (time : Nat)
    (later : List (HoldingChoice F)) : Prop where
  started : ((holdingProgram env penv).step s
    (.receive time (.inr .updateUserHoldingList))).suspended[s.log.length]? ≠ none
  finished : ledger.holders.length / 1000 + 2 ≤
      later.countP (fun choice => choice.resumes s.log.length) →
    (later.foldl (holdingProgram env penv).step ((holdingProgram env penv).step s
      (.receive time (.inr .updateUserHoldingList)))).suspended[s.log.length]? = none
  refreshed : Along (holdingProgram env penv).step
    (fun s' choice => (holdingProgram env penv).Ends s' s.log.length choice →
      Refreshed env v ledger ((holdingProgram env penv).step s' choice).state)
    ((holdingProgram env penv).step s (.receive time (.inr .updateUserHoldingList))) later

/-- The canister after some choices from its installation. -/
def installed (penv : Env) (caller : Principal) (choices : List (HoldingChoice F)) : HoldingSystem F :=
  choices.foldl (holdingProgram env penv).step (Sys.start (Holding.install env caller v))

end

/-! ## One page -/

/-- What a refresh reads of the metadata of a project. -/
def Refresh.ofProject {F : Type} (env : HoldingEnv F) (v : Launcher.FomoProject) : Refresh where
  tokenPrincipal := v.tokenPid
  poolPid := env.toText v.poolPid
  createUserPid := env.toText v.createUserPid

/-- A supply that the shares are computed from, and amounts of which shares are computed. -/
structure Ledger.Computable (ledger : Ledger) : Prop where
  positive : 0 < ledger.totalSupply
  totalSupply : ledger.totalSupply < 2 ^ 128
  amounts : ∀ holder ∈ ledger.holders, holder.2 < 2 ^ 128

section

variable {F : Type} {env : HoldingEnv F} {v : Launcher.FomoProject} {ledger : Ledger}
  {allBalances : List (HolderInfo F)}

theorem HoldingEnv.toText_injective (env : HoldingEnv F) {p q : Principal}
    (h : env.toText p = env.toText q) : p = q := by
  have hp := env.fromText_toText p
  rw [h, env.fromText_toText q] at hp
  exact (Option.some.inj hp).symm

/-- The type of a holder tells the pool of the project and its creator. -/
theorem holderType_iff (env : HoldingEnv F) (v : Launcher.FomoProject) (owner : Principal) :
    ((Refresh.ofProject env v).holderType env owner = "pool" ↔ owner = v.poolPid) ∧
      ((Refresh.ofProject env v).holderType env owner = "dev" ↔
        owner ≠ v.poolPid ∧ owner = v.createUserPid) := by
  have hpool : env.toText owner = env.toText v.poolPid ↔ owner = v.poolPid :=
    ⟨env.toText_injective, congrArg env.toText⟩
  have hdev : env.toText owner = env.toText v.createUserPid ↔ owner = v.createUserPid :=
    ⟨env.toText_injective, congrArg env.toText⟩
  by_cases pool : owner = v.poolPid
  · have htype : (Refresh.ofProject env v).holderType env owner = "pool" := if_pos (hpool.mpr pool)
    rw [htype]
    exact ⟨iff_of_true rfl pool, iff_of_false (by decide) fun h => h.1 pool⟩
  by_cases dev : owner = v.createUserPid
  · have htype : (Refresh.ofProject env v).holderType env owner = "dev" :=
      (if_neg (mt hpool.mp pool)).trans (if_pos (hdev.mpr dev))
    rw [htype]
    exact ⟨iff_of_false (by decide) pool, iff_of_true rfl ⟨pool, dev⟩⟩
  · have htype : (Refresh.ofProject env v).holderType env owner = "" :=
      (if_neg (mt hpool.mp pool)).trans (if_neg (mt hdev.mp dev))
    rw [htype]
    exact ⟨iff_of_false (by decide) pool, iff_of_false (by decide) fun h => dev h.2⟩

/-- **One holder** joins the list, with its type and its share. -/
theorem readHolder_listed (computable : ledger.Computable) {pre : List (Account × Nat)}
    (listed : List.Forall₂ (Listed env v ledger.totalSupply) pre allBalances)
    {holder : Account × Nat} (amount : holder.2 < 2 ^ 128) (room : pre.length + 1 < 2 ^ 32) :
    ∃ longer, readHolder env (.ofProject env v) ledger.totalSupply allBalances holder = some longer ∧
      List.Forall₂ (Listed env v ledger.totalSupply) (pre ++ [holder]) longer := by
  obtain ⟨holderPercent, hpercent⟩ :=
    Option.isSome_iff_exists.mp (env.percent_isSome holder.2 _ computable.positive)
  obtain ⟨pool, dev⟩ := holderType_iff env v holder.1.owner
  refine ⟨allBalances ++
    [{ account := holder.1, amount := holder.2, holderPercent,
       holderType := (Refresh.ofProject env v).holderType env holder.1.owner }], ?_,
    List.rel_append listed (.cons ⟨rfl, rfl, hpercent, pool, dev⟩ .nil)⟩
  unfold readHolder natToU128
  rw [if_pos amount, if_pos computable.totalSupply]
  dsimp only [Option.bind_eq_bind, Option.bind_some]
  rw [hpercent]
  refine collect_eq_some.mpr ⟨?_, rfl⟩
  rw [List.length_append, ← listed.length_eq]
  exact room

/-- **The loop over a page** extends the list by the page, in its order. -/
theorem readHolders_listed (computable : ledger.Computable) {pre l : List (Account × Nat)}
    (listed : List.Forall₂ (Listed env v ledger.totalSupply) pre allBalances)
    (amounts : ∀ holder ∈ l, holder.2 < 2 ^ 128) (room : pre.length + l.length < 2 ^ 32) :
    ∃ longer, l.foldlM (readHolder env (.ofProject env v) ledger.totalSupply) allBalances =
        some longer ∧
      List.Forall₂ (Listed env v ledger.totalSupply) (pre ++ l) longer := by
  induction l generalizing pre allBalances with
  | nil =>
    rw [List.append_nil]
    exact ⟨allBalances, rfl, listed⟩
  | cons holder l ih =>
    rw [List.length_cons] at room
    obtain ⟨longer, hread, listed⟩ := readHolder_listed computable listed
      (amounts holder List.mem_cons_self) (by omega)
    obtain ⟨all, hfold, listed⟩ := ih listed
      (fun h hmem => amounts h (List.mem_cons_of_mem _ hmem)) (by
        rw [List.length_append, List.length_singleton]
        omega)
    refine ⟨all, ?_, ?_⟩
    · rw [List.foldlM_cons, hread]
      exact hfold
    · rwa [List.append_assoc] at listed

end

/-! ## The segments of a refresh -/

section

variable {F : Type} {env : HoldingEnv F} {penv : Env} {v : Launcher.FomoProject} {ledger : Ledger}

/-- What a refresh has still to be told: its supply and every page, or the pages from one on. -/
inductive Reading (env : HoldingEnv F) (v : Launcher.FomoProject) (ledger : Ledger) :
    Frame ⊕ HoldingFrame F → Nat → Prop
  | supply : Reading env v ledger (.inr (.icrc1TotalSupply (.ofProject env v)))
      (ledger.holders.length / 1000 + 2)
  | page (j n : Nat) (allBalances : List (HolderInfo F)) :
    1000 * j ≤ ledger.holders.length → n + j = ledger.holders.length / 1000 + 1 →
    List.Forall₂ (Listed env v ledger.totalSupply) (ledger.holders.take (1000 * j)) allBalances →
    Reading env v ledger
      (.inr (.icrcPlusHoldersBalance (.ofProject env v) ledger.totalSupply (1000 * j) allBalances)) n

/-- The list of the ledger can be ranked once it is stored. -/
theorem refreshed_of_stored {st : Holding F}
    (stored : List.Forall₂ (Listed env v ledger.totalSupply) ledger.holders st.balances)
    (hlen : ledger.holders.length < 2 ^ 32) : Refreshed env v ledger st := by
  have hcollect : collect st.balances = some st.balances :=
    collect_eq_some.mpr ⟨by rw [← stored.length_eq]; exact hlen, rfl⟩
  refine ⟨stored, (byKey HolderInfo.amount st.balances).take 10, ?_, top_take_byKey _ 10 _⟩
  unfold getTop10Holders
  rw [hcollect]
  rfl

/-- **A round of the loop**: it stores the whole list, or goes on with one page more. -/
theorem page_counts (computable : ledger.Computable) (hlen : ledger.holders.length < 2 ^ 32)
    {j n : Nat} {allBalances : List (HolderInfo F)} (hj : 1000 * j ≤ ledger.holders.length)
    (hn : n + j = ledger.holders.length / 1000 + 1)
    (listed : List.Forall₂ (Listed env v ledger.totalSupply) (ledger.holders.take (1000 * j))
      allBalances) (maxLength : Nat) (st : Holding F) :
    ∃ st' next, updateUserHoldingListPage env (.ofProject env v) ledger.totalSupply (1000 * j)
        allBalances (.ok ⟨maxLength, page ledger.holders (1000 * j) 1000⟩) st = some (st', next) ∧
      next.Leaves (Reading env v ledger) (Refreshed env v ledger) (n - 1) st' := by
  have hpage := length_page ledger.holders (1000 * j) 1000
  have hjoin : ledger.holders.take (1000 * j) ++ page ledger.holders (1000 * j) 1000 =
      ledger.holders.take (1000 * (j + 1)) := by
    rw [Nat.mul_succ, List.take_add]
    rfl
  have hall : ledger.holders.length ≤ 1000 * (j + 1) →
      ledger.holders.take (1000 * (j + 1)) = ledger.holders := List.take_of_length_le
  unfold updateUserHoldingListPage
  dsimp only [unwrap, Option.bind_eq_bind, Option.bind_some]
  by_cases hempty : (page ledger.holders (1000 * j) 1000).length = 0
  · rw [if_pos hempty]
    refine ⟨_, _, rfl, refreshed_of_stored ?_ hlen⟩
    rw [List.length_eq_zero_iff.mp hempty, List.append_nil, hall (by omega)] at hjoin
    rwa [hjoin] at listed
  rw [if_neg hempty]
  have hamounts : ∀ holder ∈ page ledger.holders (1000 * j) 1000, holder.2 < 2 ^ 128 := fun holder hmem =>
    computable.amounts holder (List.mem_of_mem_drop (List.mem_of_mem_take hmem))
  have hroom : (ledger.holders.take (1000 * j)).length +
      (page ledger.holders (1000 * j) 1000).length < 2 ^ 32 := by
    rw [← List.length_append, hjoin]
    exact Nat.lt_of_le_of_lt (List.length_take_le' _ _) hlen
  obtain ⟨longer, hfold, listed⟩ := readHolders_listed computable listed hamounts hroom
  rw [hjoin] at listed
  rw [hfold]
  dsimp only [Option.bind_some]
  by_cases hshort : (page ledger.holders (1000 * j) 1000).length < 1000
  · rw [if_pos hshort]
    refine ⟨_, _, rfl, refreshed_of_stored ?_ hlen⟩
    rwa [hall (by omega)] at listed
  · rw [if_neg hshort]
    -- the page was full, so the next one starts within the list and its start is a word
    have hstart : (1000 * j + 1000) % 2 ^ 32 = 1000 * (j + 1) := by
      rw [Nat.mod_eq_of_lt (by omega)]
      rfl
    rw [hstart]
    exact ⟨_, _, rfl, .page (j + 1) (n - 1) longer (by omega) (by omega) listed⟩

/-- **A refresh counts down** the replies of the ledger, and ends with its list stored. -/
theorem countsDown (env : HoldingEnv F) (penv : Env) (v : Launcher.FomoProject)
    (computable : ledger.Computable) (hlen : ledger.holders.length < 2 ^ 32) :
    (holdingProgram env penv).CountsDown ledger.Answers (Reading env v ledger)
      (Refreshed env v ledger) where
  positive reading := by
    cases reading with
    | supply => exact Nat.succ_pos _
    | page j n allBalances hj hn listed => omega
  undelivered reading _ _ := by
    cases reading with
    | supply => rfl
    | page j n allBalances hj hn listed => rfl
  resumed reading reply answered _ st := by
    cases reading with
    | supply =>
      replace answered : reply = Except.ok ledger.totalSupply := answered
      rw [answered]
      refine ⟨_, _, rfl, .page 0 _ [] (Nat.zero_le _) rfl ?_⟩
      exact .nil
    | page j n allBalances hj hn listed =>
      obtain ⟨maxLength, rfl⟩ := answered
      exact page_counts computable hlen hj hn listed maxLength st

end

/-! ## The metadata -/

section

variable {F : Type} {env : HoldingEnv F} {penv : Env} {v : Launcher.FomoProject}

/-- The keys of the metadata. -/
def metadataKeys : List String :=
  ["fomo_idx", "name", "ticker", "description", "img_url", "twitter_link", "telegram_link", "website",
    "token_pid", "pool_pid", "fomo_pid", "pool_progress", "god_of_wells_progress", "create_time",
    "create_user_pid", "market_cap"]

theorem metadataKeys_distinct : metadataKeys.Pairwise fun a b => ¬ compare a b = .eq := by
  decide +kernel

/-- An entry of the metadata is read. -/
theorem get_metadata {entries : List (String × String)} (hkeys : entries.map Prod.fst = metadataKeys)
    {key value : String} (hmem : (key, value) ∈ entries) :
    (ExtTreeMap.ofList entries)[key]? = some value := by
  have distinct := metadataKeys_distinct
  rw [← hkeys, List.pairwise_map] at distinct
  exact ExtTreeMap.getElem?_ofList_of_mem ReflCmp.compare_self distinct hmem

/-- The texts of the principals of a project, in its metadata. -/
theorem get_toHashmap (toText : Principal → String) (v : Launcher.FomoProject) :
    (v.toHashmap toText)["token_pid"]? = some (toText v.tokenPid) ∧
      (v.toHashmap toText)["pool_pid"]? = some (toText v.poolPid) ∧
      (v.toHashmap toText)["create_user_pid"]? = some (toText v.createUserPid) := by
  unfold Launcher.FomoProject.toHashmap
  refine ⟨get_metadata rfl ?_, get_metadata rfl ?_, get_metadata rfl ?_⟩ <;>
    simp only [List.mem_cons, true_or, or_true]

/-- A canister with its metadata asks for the supply of its token. -/
theorem updateUserHoldingList_eq {st : Holding F}
    (hmetadata : st.project.heap.metadata = v.toHashmap env.toText) :
    updateUserHoldingList env st =
      some (st, .awaits (.inr (.icrc1TotalSupply (.ofProject env v)))) := by
  obtain ⟨htoken, hpool, hdev⟩ := get_toHashmap env.toText v
  unfold updateUserHoldingList
  rw [hmetadata, htoken, hpool, hdev]
  dsimp only [Option.bind_eq_bind, Option.bind_some]
  rw [env.fromText_toText]
  rfl

/-- The delivery of a call leaves the state of the canister. -/
theorem deliver_state {time : Nat} {frame : Frame} {st : State} {result : State × Frame}
    (h : (program penv).deliver time frame st = some result) :
    result.1 = st := by
  obtain ⟨served, _, h⟩ := Option.map_eq_some_iff.mp h
  cases h
  rfl

section

variable {st st' : Holding F} {next : Next (Frame ⊕ HoldingFrame F) (Answer ⊕ Unit)}

/-- A refresh leaves everything but the stored list. -/
theorem updateUserHoldingList_project (h : updateUserHoldingList env st = some (st', next)) :
    st'.project = st.project := by
  obtain ⟨tokenPid, _, h⟩ := Option.bind_eq_some_iff.mp h
  obtain ⟨poolPid, _, h⟩ := Option.bind_eq_some_iff.mp h
  obtain ⟨createUserPid, _, h⟩ := Option.bind_eq_some_iff.mp h
  obtain ⟨tokenPrincipal, _, h⟩ := Option.bind_eq_some_iff.mp h
  cases h
  rfl

theorem resumeHolding_project {frame : HoldingFrame F} {reply : HoldingRep frame}
    (h : resumeHolding env frame reply st = some (st', next)) : st'.project = st.project := by
  cases frame with
  | icrc1TotalSupply r =>
    obtain ⟨totalSupply, _, h⟩ := Option.bind_eq_some_iff.mp h
    cases h
    rfl
  | icrcPlusHoldersBalance r totalSupply start allBalances =>
    obtain ⟨balances, _, h⟩ := Option.bind_eq_some_iff.mp h
    dsimp only at h
    split at h
    · cases h
      rfl
    obtain ⟨longer, _, h⟩ := Option.bind_eq_some_iff.mp h
    split at h
    · cases h
      rfl
    · cases h
      rfl

/-- No segment of the canister writes its metadata. -/
theorem segment_metadata {time : Nat}
    {cause : Cause (Message ⊕ HoldingMessage) (Frame ⊕ HoldingFrame F) (Sum.elim Rep HoldingRep)}
    (h : (holdingProgram env penv).segment time cause st = some (st', next)) :
    st'.project.heap.metadata = st.project.heap.metadata := by
  cases cause with
  | received message =>
    cases message with
    | inl message =>
      obtain ⟨r, hsegment, h⟩ := Option.map_eq_some_iff.mp h
      cases h
      exact (receive_started hsegment).unchanged.2.1
    | inr message => rw [updateUserHoldingList_project h]
  | delivered frame =>
    obtain ⟨r, hdeliver, h⟩ := Option.map_eq_some_iff.mp h
    cases h
    cases frame with
    | inl frame =>
      obtain ⟨result, hcall, h⟩ := Option.map_eq_some_iff.mp hdeliver
      cases h
      exact congrArg (·.heap.metadata) (deliver_state hcall)
    | inr frame => cases hdeliver
  | resumed frame reply =>
    cases frame with
    | inl frame =>
      obtain ⟨r, hsegment, h⟩ := Option.map_eq_some_iff.mp h
      cases h
      exact congrArg Heap.metadata (resume_resumed hsegment).heap_eq
    | inr frame => rw [resumeHolding_project h]

end

/-- **The metadata stay** what the launcher installed the canister with. -/
theorem installed_metadata (env : HoldingEnv F) (penv : Env) (v : Launcher.FomoProject)
    (caller : Principal) (choices : List (HoldingChoice F)) :
    (installed env v penv caller choices).state.project.heap.metadata = v.toHashmap env.toText :=
  state_invariant (P := holdingProgram env penv)
    (I := fun st => st.project.heap.metadata = v.toHashmap env.toText)
    (fun _ _ _ _ _ h hst => (segment_metadata h).trans hst) rfl choices

end

/-! ## Every schedule -/

section

variable {F : Type} {env : HoldingEnv F} {penv : Env} {v : Launcher.FomoProject} {ledger : Ledger}

/-- **A refresh is complete**: whatever else the canister does meanwhile, it ends, and what it has stored
is the list of the ledger. -/
theorem updateUserHoldingList_stores (env : HoldingEnv F) (penv : Env) (v : Launcher.FomoProject)
    (caller : Principal) (earlier later : List (HoldingChoice F)) (time : Nat) (ledger : Ledger)
    (computable : ledger.Computable) (hlen : ledger.holders.length < 2 ^ 32)
    (answered : ∀ choice ∈ later, choice.AnsweredBy ledger.Answers
      (installed env v penv caller earlier).log.length) :
    Completes env v penv ledger (installed env v penv caller earlier) time later := by
  have hmetadata := installed_metadata env penv v caller earlier
  generalize installed env v penv caller earlier = s at answered hmetadata
  have hsegment : (holdingProgram env penv).segment time
      (.received (.inr .updateUserHoldingList)) s.state =
        some (s.state, .awaits (.inr (.icrc1TotalSupply (.ofProject env v)))) :=
    updateUserHoldingList_eq hmetadata
  have hasked : ((holdingProgram env penv).step s
      (.receive time (.inr .updateUserHoldingList))).suspended[s.log.length]? =
        some (.inr (.icrc1TotalSupply (.ofProject env v))) := by
    rw [step_receive, hsegment, get_after]
    rfl
  have hrun : s.log.length < ((holdingProgram env penv).step s
      (.receive time (.inr .updateUserHoldingList))).log.length := Nat.lt_succ_self _
  have toGo : ((holdingProgram env penv).step s
      (.receive time (.inr .updateUserHoldingList))).ToGo (Reading env v ledger) s.log.length
        (ledger.holders.length / 1000 + 2) := by
    intro frame hframe
    rw [hasked] at hframe
    cases hframe
    exact .supply
  have counts := countsDown env penv v computable hlen
  refine ⟨?_, counts.finished toGo hrun answered, (counts.ends toGo hrun answered).2⟩
  rw [hasked]
  exact Option.some_ne_none _

end

/-! ## A ledger to try -/

/-- A text for every principal, which is the usual one for the two that have a name. -/
def sampleText (p : Principal) : String :=
  if p = .managementCanister then "aaaaa-aa"
  else if p = .anonymous then "2vxsx-fae"
  else String.ofList ('#' :: p.bytes.map UInt8.toChar)

/-- The principal of such a text. -/
def sampleParse (s : String) : Option Principal :=
  if s = "aaaaa-aa" then some .managementCanister
  else if s = "2vxsx-fae" then some .anonymous
  else
    let bytes := s.toList.tail.map Char.toUInt8
    if h : bytes.length ≤ 29 then some ⟨bytes, h⟩ else none

theorem sampleParse_sampleText (p : Principal) : sampleParse (sampleText p) = some p := by
  unfold sampleText
  split
  next canister =>
    rw [canister]
    rfl
  split
  next anonymous =>
    rw [anonymous]
    decide +kernel
  have hash : ∀ (s : String) (ds : List Char), s.toList.head? ≠ some '#' →
      String.ofList ('#' :: ds) ≠ s := by
    rintro s ds hs rfl
    rw [String.toList_ofList] at hs
    exact hs rfl
  have byte : ∀ b : UInt8, b.toChar.toUInt8 = b := fun b => UInt8.toUInt8_toUInt32 b
  unfold sampleParse
  rw [if_neg (hash "aaaaa-aa" _ (by decide)), if_neg (hash "2vxsx-fae" _ (by decide))]
  simp only [String.toList_ofList, List.tail_cons, List.map_map, Function.comp_def, byte, List.map_id']
  rw [dif_pos p.length_le]

/-- An environment whose shares are the quotients of the machine. -/
def sampleHoldingEnv : HoldingEnv Float where
  toText := sampleText
  fromText := sampleParse
  fromText_toText := sampleParse_sampleText
  percent amount supply := if supply = 0 then none else some (Float.ofNat amount / Float.ofNat supply)
  percent_isSome amount supply h := by
    rw [if_neg (Nat.ne_of_gt h)]
    rfl

/-- The replies of a ledger, with zero for what is not read. -/
def Ledger.reply {F : Type} (ledger : Ledger) :
    (frame : Frame ⊕ HoldingFrame F) → Sum.elim Rep HoldingRep frame
  | .inl frame => sampleReply frame
  | .inr (.icrc1TotalSupply _) => Except.ok ledger.totalSupply
  | .inr (.icrcPlusHoldersBalance _ _ start _) => Except.ok ⟨0, page ledger.holders start 1000⟩

theorem Ledger.reply_answers {F : Type} (ledger : Ledger) (run time : Nat) :
    (Label.resume time run ledger.reply : HoldingChoice F).AnsweredBy ledger.Answers run := by
  intro _ frame
  match frame with
  | .inl _ => trivial
  | .inr (.icrc1TotalSupply _) => rfl
  | .inr (.icrcPlusHoldersBalance ..) => exact ⟨0, rfl⟩

/-- As many replies as the first run of a canister needs. -/
def Ledger.replies {F : Type} (ledger : Ledger) : List (HoldingChoice F) :=
  List.replicate (ledger.holders.length / 1000 + 2) (.resume 0 0 ledger.reply)

theorem Ledger.replies_answered {F : Type} (ledger : Ledger) :
    ∀ choice ∈ (ledger.replies : List (HoldingChoice F)), choice.AnsweredBy ledger.Answers 0 := by
  intro choice hmem
  rw [List.eq_of_mem_replicate hmem]
  exact ledger.reply_answers 0 0

/-- A pool and a creator that hold the supply. -/
def sampleLedger : Ledger := ⟨100, [(⟨.managementCanister, none⟩, 60), (⟨.anonymous, none⟩, 40)]⟩

theorem updateUserHoldingList_stores_sample :
    Completes sampleHoldingEnv sampleFomo sampleEnv sampleLedger
      (installed sampleHoldingEnv sampleFomo sampleEnv sampleOwner []) 0 sampleLedger.replies :=
  updateUserHoldingList_stores sampleHoldingEnv sampleEnv sampleFomo sampleOwner [] _ 0 sampleLedger
    ⟨by decide, by decide, by decide⟩ (by decide) sampleLedger.replies_answered

/-- What can be asked for its first ten is a list of the canister. -/
theorem Refreshed.length_lt {F : Type} {env : HoldingEnv F} {v : Launcher.FomoProject} {ledger : Ledger}
    {st : Holding F} (h : Refreshed env v ledger st) : ledger.holders.length < 2 ^ 32 := by
  obtain ⟨_, htop, _⟩ := h.top
  obtain ⟨_, hcollect, _⟩ := Option.bind_eq_some_iff.mp htop
  rw [h.stored.length_eq]
  exact (collect_eq_some.mp hcollect).1

/-- A run that ends has asked a ledger whose holders are a list of the canister. -/
theorem not_completes_of_le {ledger : Ledger} (hlen : 2 ^ 32 ≤ ledger.holders.length) :
    ¬ Completes sampleHoldingEnv sampleFomo sampleEnv ledger
      (installed sampleHoldingEnv sampleFomo sampleEnv sampleOwner []) 0 ledger.replies := by
  intro completes
  have hcount : ledger.replies.countP (fun choice : HoldingChoice Float => choice.resumes 0) =
      ledger.holders.length / 1000 + 2 := List.countP_replicate
  refine exists_ends _ completes.started (completes.finished (Nat.le_of_eq hcount.symm)) ?_
  refine completes.refreshed.imp fun s' choice refreshed ends => ?_
  exact Nat.not_lt.mpr hlen (refreshed ends).length_lt

/-- A ledger with an amount that is no `u128`. -/
def oversizedLedger : Ledger := ⟨1, [(⟨.anonymous, none⟩, 2 ^ 128)]⟩

/-- A refresh from it, after some replies. -/
def oversizedRun (replies : Nat) : HoldingSystem Float :=
  (List.replicate replies (.resume 0 0 oversizedLedger.reply)).foldl
    (holdingProgram sampleHoldingEnv sampleEnv).step
    ((holdingProgram sampleHoldingEnv sampleEnv).step
      (installed sampleHoldingEnv sampleFomo sampleEnv sampleOwner [])
      (.receive 0 (.inr .updateUserHoldingList)))

/-- The reply with the page traps, and nothing is stored. -/
theorem oversizedRun_traps :
    (oversizedRun 1).suspended[0]?.isSome ∧ (oversizedRun 2).suspended[0]?.isNone ∧
      (oversizedRun 2).state.balances.length = 0 := by
  decide +kernel

/-- A ledger with more holders than a list of the canister can have. -/
def crowdedLedger : Ledger := ⟨2 ^ 32, List.replicate (2 ^ 32) (⟨.anonymous, none⟩, 1)⟩

/-- **Amounts and lists have to fit the machine**: a refresh from either ledger traps. -/
theorem not_completes :
    ((0 < oversizedLedger.totalSupply ∧ oversizedLedger.totalSupply < 2 ^ 128 ∧
        oversizedLedger.holders.length < 2 ^ 32) ∧
      ¬ Completes sampleHoldingEnv sampleFomo sampleEnv oversizedLedger
        (installed sampleHoldingEnv sampleFomo sampleEnv sampleOwner []) 0 oversizedLedger.replies) ∧
    crowdedLedger.Computable ∧
      ¬ Completes sampleHoldingEnv sampleFomo sampleEnv crowdedLedger
        (installed sampleHoldingEnv sampleFomo sampleEnv sampleOwner []) 0 crowdedLedger.replies := by
  refine ⟨⟨by decide, fun completes => ?_⟩, ⟨by decide, by decide, fun holder hmem => ?_⟩,
    fun completes => ?_⟩
  · have refreshed : (holdingProgram sampleHoldingEnv sampleEnv).Ends (oversizedRun 1) 0 _ →
        Refreshed _ _ _ (oversizedRun 2).state :=
      along_iff.mp completes.refreshed [_] (.resume 0 0 oversizedLedger.reply) [] rfl
    obtain ⟨hsome, hnone, hempty⟩ := oversizedRun_traps
    have stored := (refreshed ⟨Option.isSome_iff_ne_none.mp hsome, Option.isNone_iff_eq_none.mp hnone⟩).stored
    rw [List.length_eq_zero_iff.mp hempty] at stored
    cases stored
  · obtain rfl := List.eq_of_mem_replicate hmem
    exact Nat.one_lt_two_pow (by decide)
  · exact not_completes_of_le (Nat.le_of_eq List.length_replicate.symm) completes

end Fomowell.Project
