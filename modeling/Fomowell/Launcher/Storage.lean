import Fomowell.Launcher.Requests

/-!
# The room of a project

`create_fomo` checks the texts of its request by their trimmed lengths, and stores them untrimmed;
`FOMO_PROJECT_MAP` takes a project of at most 4096 bytes in its candid encoding. So the record fits
where the texts as they are stored leave room (`project_stored_iff`), which the checks do not see to.
-/

namespace Fomowell.Launcher

open Std Wire Canister Token Pmm

/-- The candid encoding of `FomoProject`. -/
def projectCodec : Codec FomoProject :=
  .record
    [.named "fomo_idx" .nat64 FomoProject.fomoIdx,
      .named "name" .text FomoProject.name,
      .named "ticker" .text FomoProject.ticker,
      .named "description" .text FomoProject.description,
      .named "img_url" .text FomoProject.imgUrl,
      .named "twitter_link" .text FomoProject.twitterLink,
      .named "telegram_link" .text FomoProject.telegramLink,
      .named "website" .text FomoProject.website,
      .named "token_pid" Principal.codec FomoProject.tokenPid,
      .named "pool_pid" Principal.codec FomoProject.poolPid,
      .named "fomo_pid" Principal.codec FomoProject.fomoPid,
      .named "pool_progress" .nat FomoProject.poolProgress,
      .named "pool_progress_done_time" (.opt .nat64) FomoProject.poolProgressDoneTime,
      .named "god_of_wells_progress" .nat FomoProject.godOfWellsProgress,
      .named "god_of_wells_time" (.opt .nat64) FomoProject.godOfWellsTime,
      .named "market_cap" .nat FomoProject.marketCap,
      .named "create_time" .nat64 FomoProject.createTime,
      .named "create_user_pid" Principal.codec FomoProject.createUserPid,
      .named "reply_count" .nat64 FomoProject.replyCount,
      .named "recently_reply_time" .nat64 FomoProject.recentlyReplyTime,
      .named "recently_bump_time" .nat64 FomoProject.recentlyBumpTime,
      .named "sneed_dao_lock" (.opt .nat) FomoProject.sneedDaoLock,
      .named "dogmi_dao_lock" (.opt .nat) FomoProject.dogmiDaoLock]

theorem length_header_project : (header projectCodec.type).length = 148 := by decide +kernel

/-- What a share to lock takes. -/
def lockSize : Option Nat → Nat
  | none => 0
  | some _ => 9

/-- A share that the checks let through has nine digits in base 128. -/
theorem length_lock {lock : Option Nat} (h : lock.all lockInRange = true) :
    ((Codec.opt .nat).serialize lock).length = 1 + lockSize lock := by
  cases lock with
  | none => exact Codec.length_opt_none _
  | some lockPercent =>
    have hrange : nat18 / 10 ≤ lockPercent ∧ lockPercent ≤ nat18 / 2 := by
      simpa [lockInRange] using h
    have hdigits : (leb128 lockPercent).length = 9 := by
      apply length_leb128
      · exact .inr (Nat.le_trans (by decide) hrange.1)
      · exact Nat.lt_of_le_of_lt hrange.2 (by decide)
    rw [Codec.length_opt_some]
    unfold lockSize Codec.nat
    dsimp only
    rw [hdigits]

/-- The bytes that the principals, the texts and the shares of a new project take. -/
def Created.room (c : Created) : Nat :=
  c.caller.bytes.length + c.tokenPid.bytes.length + c.poolPid.bytes.length + c.tid.bytes.length +
    blobSize c.fomoCreate.name.utf8ByteSize + blobSize c.fomoCreate.ticker.utf8ByteSize +
    blobSize c.fomoCreate.description.utf8ByteSize + blobSize c.imgUrl.utf8ByteSize +
    blobSize c.fomoCreate.twitterLink.utf8ByteSize +
    blobSize c.fomoCreate.telegramLink.utf8ByteSize + blobSize c.fomoCreate.website.utf8ByteSize +
    lockSize c.fomoCreate.sneedDaoLock + lockSize c.fomoCreate.dogmiDaoLock

/-- A new project has two hundred and three bytes besides. -/
theorem length_project {c : Created} (hsneed : c.fomoCreate.sneedDaoLock.all lockInRange = true)
    (hdogmi : c.fomoCreate.dogmiDaoLock.all lockInRange = true) :
    (projectCodec.encode c.fomoProject).length = 203 + c.room := by
  rw [Codec.length_encode, length_header_project]
  unfold projectCodec Created.room
  rw [Codec.length_record]
  simp only [List.map_cons, List.map_nil, List.sum_cons, List.sum_nil, Field.named,
    Created.fomoProject, length_lock hsneed, length_lock hdogmi, Codec.length_text,
    Codec.length_nat_zero, Codec.length_nat64, Codec.length_opt_none, Principal.length_codec]
  -- the ranges of the shares are not about these lengths
  clear hsneed hdogmi
  omega

/-! ## What `create_fomo` stores -/

/-- The project fits, and its insertion does not trap. -/
def Storable (env : Env) (c : Created) (st : State) : Prop :=
  (projectCodec.encode c.fomoProject).length ≤ 4096 ∧
    (st.insertProject env c.idx c.fomoProject).isSome

/-- A request, a caller and answers of the other canisters for which a project fits. -/
def RoomFor (caller : Principal) (fomoCreate : FomoProjectCreate) (tokenPid poolPid tid : Principal)
    (imgUrl : String) : Prop :=
  caller.bytes.length + tokenPid.bytes.length + poolPid.bytes.length + tid.bytes.length +
    blobSize fomoCreate.name.utf8ByteSize + blobSize fomoCreate.ticker.utf8ByteSize +
    blobSize (min fomoCreate.description.utf8ByteSize 2000) + blobSize imgUrl.utf8ByteSize +
    blobSize fomoCreate.twitterLink.utf8ByteSize + blobSize fomoCreate.telegramLink.utf8ByteSize +
    blobSize fomoCreate.website.utf8ByteSize + lockSize fomoCreate.sneedDaoLock +
    lockSize fomoCreate.dogmiDaoLock ≤ 3893

section

variable {env : Env} {st stored : State} {caller : Principal} {fomoCreate : FomoProjectCreate}
  {c : Created}

/-- A check that is passed is followed by the rest. -/
theorem check_eq_ok {p : Prop} [Decidable p] {e : String} {rest : Except String Unit} :
    (if p then .error e else rest) = .ok () ↔ ¬ p ∧ rest = .ok () := by
  split
  next h => exact iff_of_false (fun h => nomatch h) fun passes => passes.1 h
  next h => exact ⟨fun hrest => ⟨h, hrest⟩, fun passes => passes.2⟩

/-- The shares of a request that passes the checks are in range. -/
theorem locks_of_check (h : createFomoCheck st caller fomoCreate = .ok ()) :
    fomoCreate.sneedDaoLock.all lockInRange = true ∧
      fomoCreate.dogmiDaoLock.all lockInRange = true := by
  unfold createFomoCheck at h
  simp only [check_eq_ok] at h
  obtain ⟨_, _, _, _, _, _, _, _, hsneed, hdogmi, _⟩ := h
  refine ⟨?_, ?_⟩
  · simpa using hsneed
  · simpa using hdogmi

/-- **A project fits** where its request leaves room. -/
theorem storable_iff (candid : ∀ p, env.projectSize p = (projectCodec.encode p).length)
    (accepts : Accepts st caller fomoCreate c.request) :
    Storable env c stored ↔ RoomFor caller fomoCreate c.tokenPid c.poolPid c.tid c.imgUrl := by
  obtain ⟨hcaller, hcheck, description, hdescription, hcut⟩ := accepts
  obtain ⟨hsneed, hdogmi⟩ := locks_of_check hcheck
  replace hcaller : c.caller = caller := hcaller
  replace hcut : c.fomoCreate = { fomoCreate with description } := hcut
  have hlen : (projectCodec.encode c.fomoProject).length = 203 + c.room := by
    apply length_project
    · rwa [hcut]
    · rwa [hcut]
  have hroom : RoomFor caller fomoCreate c.tokenPid c.poolPid c.tid c.imgUrl ↔ c.room ≤ 3893 := by
    unfold RoomFor Created.room
    rw [hcaller, hcut, ← (sliceTo_eq_some.mp hdescription).2]
  rw [hroom]
  have stores : Storable env c stored ↔ (projectCodec.encode c.fomoProject).length ≤ 4096 := by
    unfold Storable State.insertProject
    rw [candid]
    refine and_iff_left_of_imp fun hfits => ?_
    rw [if_pos hfits]
    rfl
  rw [stores, hlen]
  omega

end

/-- **When a project that is paid for can be stored**: exactly where what its request, its caller and
the answers of the other canisters take leaves room; and every run that installs a project's code was
started by a request that passed the checks. -/
theorem project_stored_iff {env : Env}
    (candid : ∀ p, env.projectSize p = (projectCodec.encode p).length) :
    (∀ (st stored : State) (caller : Principal) (fomoCreate : FomoProjectCreate) (c : Created),
        Accepts st caller fomoCreate c.request →
        (Storable env c stored ↔ RoomFor caller fomoCreate c.tokenPid c.poolPid c.tid c.imgUrl)) ∧
      ∀ (st : State) (choices : List Choice) (run : Nat) (c : Created),
        let s := choices.foldl (program env).step (Sys.start st)
        s.suspended[run]? = some (.installCode c) →
        ∃ fomoCreate started outcome,
          ⟨run, .received (.createFomo c.caller fomoCreate), outcome⟩ ∈ s.log ∧
            Accepts started c.caller fomoCreate c.request ∧
            (Storable env c s.state ↔
              RoomFor c.caller fomoCreate c.tokenPid c.poolPid c.tid c.imgUrl) := by
  refine ⟨fun st stored caller fomoCreate c accepts => storable_iff candid accepts, ?_⟩
  intro st choices run c s hframe
  obtain ⟨fomoCreate, started, outcome, hmem, accepts⟩ :=
    requests_logged env st choices run _ hframe c.request rfl
  exact ⟨fomoCreate, started, outcome, hmem, accepts, storable_iff candid accepts⟩

/-! ## A name with many blanks -/

/-- A letter with blanks after it. -/
def paddedName (n : Nat) : String := String.ofList ('a' :: List.replicate n ' ')

theorem trimmedLen_padded (n : Nat) : trimmedLen (paddedName n) = 1 := by
  have hletter : ¬ isWhitespace 'a' = true := by decide
  have hblanks : ∀ c ∈ List.replicate n ' ', isWhitespace c = true := by
    intro c hc
    rw [List.eq_of_mem_replicate hc]
    decide
  unfold trimmedLen trim paddedName
  rw [String.toList_ofList, List.dropWhile_cons_of_neg hletter, List.reverse_cons,
    List.reverse_replicate, List.dropWhile_append_of_pos hblanks, List.dropWhile_cons_of_neg hletter]
  decide

theorem utf8ByteSize_padded (n : Nat) : (paddedName n).utf8ByteSize = n + 1 := by
  have hletter : 'a'.utf8Size = 1 := by decide
  have hblank : ' '.utf8Size = 1 := by decide
  unfold paddedName
  rw [utf8ByteSize_eq, String.toList_ofList, byteLen_cons, byteLen_replicate, hletter, hblank]
  omega

/-- A user with a profile asks for a project of such a name. -/
def paddedCreate (n : Nat) : FomoProjectCreate := { sampleCreate with name := paddedName n }

def profiledState : State :=
  { sampleStart.state with
    userProfileMap := sampleStart.state.userProfileMap.insert sampleUser
      ⟨sampleUser, "a", "", 0, none, none, none⟩ }

/-- The project of such a name, with everything that the other canisters answer. -/
def paddedCreated (n : Nat) : Created where
  caller := sampleUser
  fomoCreate := paddedCreate n
  idx := 1
  tokenPid := sampleCanister
  poolPid := sampleCanister
  tid := sampleProject
  imgUrl := "reference"
  createTime := 0

/-- The checks pass, whatever the number of blanks. -/
theorem accepts_padded (n : Nat) :
    Accepts profiledState sampleUser (paddedCreate n) (paddedCreated n).request := by
  have hprofile : profiledState.userProfileMap[sampleUser]?.isNone = false := by
    unfold profiledState
    dsimp only
    rw [ExtTreeMap.getElem?_insert_self]
    rfl
  have hname : trimmedLen (paddedCreate n).name = 1 := trimmedLen_padded n
  have hdescription : sliceTo "" (min "".utf8ByteSize 2000) = some "" := by decide
  refine ⟨rfl, ?_, "", hdescription, rfl⟩
  unfold createFomoCheck
  simp only [check_eq_ok]
  rw [hname, hprofile]
  refine ⟨by decide, by decide, by decide, ?_⟩
  -- nothing else depends on the name
  unfold paddedCreate
  dsimp only
  decide

/-- An environment that measures projects as they are encoded. -/
def measuringEnv : Env := { sampleEnv with projectSize := fun p => (projectCodec.encode p).length }

theorem measuringEnv_candid (p : FomoProject) :
    measuringEnv.projectSize p = (projectCodec.encode p).length := rfl

/-- A project of a short name. -/
theorem project_stored_sample :
    Storable measuringEnv (paddedCreated 1) profiledState ↔
      RoomFor sampleUser (paddedCreate 1) sampleCanister sampleCanister sampleProject "reference" :=
  (project_stored_iff measuringEnv_candid).1 profiledState profiledState sampleUser (paddedCreate 1)
    (paddedCreated 1) (accepts_padded 1)

/-- **A project that cannot be stored**: its name is one letter and four thousand blanks. -/
theorem not_project_stored :
    ¬ ∀ env : Env, (∀ p, env.projectSize p = (projectCodec.encode p).length) →
      ∀ (st stored : State) (caller : Principal) (fomoCreate : FomoProjectCreate) (c : Created),
        Accepts st caller fomoCreate c.request → c.imgUrl.utf8ByteSize ≤ 100 → Storable env c stored := by
  intro all
  obtain ⟨n, hn⟩ : ∃ n, n = 4000 := ⟨_, rfl⟩
  have hreference : "reference".utf8ByteSize ≤ 100 := by decide
  have storable := all measuringEnv measuringEnv_candid profiledState profiledState sampleUser
    (paddedCreate n) (paddedCreated n) (accepts_padded n) hreference
  have hroom := (storable_iff measuringEnv_candid (accepts_padded n)).mp storable
  have hname : n + 1 ≤ blobSize (paddedCreate n).name.utf8ByteSize := by
    rw [← utf8ByteSize_padded n]
    exact le_blobSize _
  unfold RoomFor at hroom
  omega

end Fomowell.Launcher
