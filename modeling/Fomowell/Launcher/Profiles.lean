import Fomowell.Launcher.Outcomes
import Fomowell.Lib.Traces

/-!
# What an edit of a profile does

`edit_user` writes the profile it finds at its end, with the name and the reference that were asked for,
and before that only has the price of an edit deducted, at most once. `OwnSegment` says what one of its
segments does to its user's profile and to those of others, and `editUser_asked` carries it to every
schedule, whatever other runs write in between.

Where no profile is found at the end one is made, and there the code departs from what was asked: the name
is the start of the principal's text, and the avatar is not the one that was uploaded. The law says nothing
of a name or an avatar asked for in that case (`not_editUser_asked`).
-/

namespace Fomowell.Launcher

open Std Canister Table Token Runs

/-! ## What was asked for -/

/-- The edit that a message asks for. -/
def Edit.ofMessage (caller : Principal) (userInfo : UserEditObj) : Edit :=
  { caller, userInfo, k := .editUser }

/-- The reference that an upload was answered with. -/
def uploaded (env : Env) : Cause Message Frame Rep → Option String
  | .resumed (.httpRequest _ _) (reply : CallResult HttpResponse) => uploadReference env reply
  | _ => none

/-- An existing profile after an edit: as asked, and as it was in what was not asked for. -/
structure Applied (e : Edit) (reference? : Option String) (old new : UserProfile) : Prop where
  userName : new.userName = e.userInfo.userName.getD old.userName
  asked : ∀ avatar, e.userInfo.avatar = some avatar → avatar ≠ "default" → reference? = some new.avatar
  kept : e.userInfo.avatar = none → new.avatar = old.avatar
  userPoints : new.userPoints = old.userPoints
  userPreRewardPoints : new.userPreRewardPoints.getD 0 = old.userPreRewardPoints.getD 0

/-- A new profile: the defaults for what was not asked for. -/
structure Made (env : Env) (e : Edit) (new : UserProfile) : Prop where
  userName : e.userInfo.userName = none → substring (env.toText e.caller) 5 = some new.userName
  avatar : e.userInfo.avatar = none → new.avatar = ""
  userPoints : new.userPoints = none
  userPreRewardPoints : new.userPreRewardPoints.getD 0 = 0

/-- What an edit makes of the profile that it finds at its end. -/
def AsAsked (env : Env) (e : Edit) (reference? : Option String) (new : UserProfile) :
    Option UserProfile → Prop
  | none => Made env e new
  | some old => Applied e reference? old new

/-- A profile that an edit leaves alone, but for the price of the edit where it is paid. -/
structure Spared (paid : Bool) (old new : UserProfile) : Prop where
  userName : new.userName = old.userName
  avatar : new.avatar = old.avatar
  userPreRewardPoints : new.userPreRewardPoints.getD 0 = old.userPreRewardPoints.getD 0
  userPoints : if paid then ∃ points, old.userPoints = some (points + 8) ∧ new.userPoints = some points
    else new.userPoints = old.userPoints

/-- What a segment before the end leaves of a profile. -/
def Waits (paid : Bool) : Option UserProfile → Option UserProfile → Prop
  | none, new => new = none
  | some old, new => ∃ p, new = some p ∧ Spared paid old p

/-- A segment ends `edit_user` with success. -/
def Succeeds : Next Frame Answer → Prop
  | .returned (.editUser (.ok _)) => True
  | _ => False

/-- The law of a segment of an edit: it uploads the avatar that was asked for; it writes nobody else's
profile; where it succeeds, the profile is what was asked for; and before that the profile is spared. -/
structure OwnSegment (env : Env) (e : Edit) (cause : Cause Message Frame Rep) (st st' : State)
    (next : Next Frame Answer) : Prop where
  uploads : ∀ url k, next.frame? = some (.httpRequest url k) → ∃ avatar,
    e.userInfo.avatar = some avatar ∧
      url = "https://image.fomowell.com/api/files/replace?file=" ++ avatar
  others : ∀ user, user ≠ e.caller → st'.userProfileMap[user]? = st.userProfileMap[user]?
  asked : Succeeds next → ∃ new, st'.userProfileMap[e.caller]? = some new ∧
    AsAsked env e (uploaded env cause) new st.userProfileMap[e.caller]?
  before : ¬ Succeeds next →
    Waits cause.isDelivery st.userProfileMap[e.caller]? st'.userProfileMap[e.caller]?

/-! ## The profile that is written -/

section

variable {env : Env} {time : Nat} {st st' : State} {next : Next Frame Answer} {e : Edit}
  {cause : Cause Message Frame Rep}

theorem Spared.refl (p : UserProfile) : Spared false p p := ⟨rfl, rfl, rfl, rfl⟩

theorem Waits.refl (old? : Option UserProfile) : Waits false old? old? := by
  cases old? with
  | none => rfl
  | some p => exact ⟨p, rfl, .refl p⟩

/-- A profile that is written after it was spared is what was asked for. -/
theorem Applied.of_spared {reference? : Option String} {old p new : UserProfile}
    (h : Applied e reference? p new) (spared : Spared false old p) : Applied e reference? old new where
  userName := h.userName.trans (by rw [spared.userName])
  asked := h.asked
  kept none := (h.kept none).trans spared.avatar
  userPoints := h.userPoints.trans spared.userPoints
  userPreRewardPoints := h.userPreRewardPoints.trans spared.userPreRewardPoints

/-- The profile that an edit writes, with the reference of what was to be uploaded. -/
theorem write_asked {imageUrl : String} {reference? old? : Option _} {new : UserProfile}
    (h : e.write env time imageUrl old? = some new)
    (reference : ∀ avatar, e.userInfo.avatar = some avatar → avatar ≠ "default" →
      reference? = some imageUrl) : AsAsked env e reference? new old? := by
  cases old? with
  | none =>
    obtain ⟨userName, hname, h⟩ := Option.bind_eq_some_iff.mp h
    cases h
    refine ⟨fun _ => hname, fun none => ?_, rfl, rfl⟩
    dsimp only
    rw [none]
    rfl
  | some old =>
    cases h
    refine ⟨rfl, fun avatar havatar hnot => ?_, fun none => ?_, rfl, rfl⟩
    · unfold Edit.apply
      rw [havatar]
      exact reference avatar havatar hnot
    · unfold Edit.apply
      rw [none]
      rfl

theorem insertProfile_eq {user : Principal} {p : UserProfile}
    (h : st.insertProfile env user p = some st') :
    st' = { st with userProfileMap := st.userProfileMap.insert user p } := by
  unfold State.insertProfile at h
  split at h
  · cases h
    rfl
  · cases h

/-- The end of an edit writes its user's profile as asked. -/
theorem editUserWrite_own (cause : Cause Message Frame Rep) {imageUrl : String} (hk : e.k = .editUser)
    (reference : ∀ avatar, e.userInfo.avatar = some avatar → avatar ≠ "default" →
      uploaded env cause = some imageUrl)
    (h : editUserWrite env time e imageUrl st = some (st', next)) :
    OwnSegment env e cause st st' next ∧ Succeeds next := by
  obtain ⟨new, hnew, h⟩ := Option.bind_eq_some_iff.mp h
  obtain ⟨written, hwrite, h⟩ := Option.bind_eq_some_iff.mp h
  obtain rfl := insertProfile_eq hwrite
  unfold editUserReturn at h
  rw [hk] at h
  cases h
  refine ⟨⟨fun _ _ hframe => (nomatch hframe), fun user hne => get_insert_of_ne _ _ hne, fun _ => ?_,
    fun hnot => (hnot trivial).elim⟩, trivial⟩
  exact ⟨new, ExtTreeMap.getElem?_insert_self, write_asked hnew reference⟩

/-- From the upload on, an edit succeeds or awaits the upload of the avatar that was asked for. -/
theorem editUserUpload_own (hk : e.k = .editUser) (hcause : cause.isDelivery = false)
    (h : editUserUpload env time e st = some (st', next)) :
    OwnSegment env e cause st st' next ∧
      (Succeeds next ∨ ∃ url, next = .awaits (.httpRequest url (.editUser e))) := by
  unfold editUserUpload at h
  split at h
  next havatar =>
    obtain ⟨own, succeeds⟩ := editUserWrite_own cause hk (fun avatar h => by
      rw [havatar] at h
      cases h) h
    exact ⟨own, .inl succeeds⟩
  next avatar havatar =>
    split at h
    · cases h
      refine ⟨⟨fun url k hframe => ?_, fun _ _ => rfl, False.elim, fun _ => ?_⟩, .inr ⟨_, rfl⟩⟩
      · cases hframe
        exact ⟨avatar, havatar, rfl⟩
      · rw [hcause]
        exact .refl _
    next hdefault =>
      obtain ⟨own, succeeds⟩ := editUserWrite_own cause hk (fun avatar' h hnot => by
        rw [havatar] at h
        cases h
        exact absurd hnot hdefault) h
      exact ⟨own, .inl succeeds⟩

/-- A segment that first writes a profile that it spares. -/
theorem OwnSegment.after_spared {p p' : UserProfile} (hp : st.userProfileMap[e.caller]? = some p)
    (spared : Spared false p p') (hcause : cause.isDelivery = false)
    (h : OwnSegment env e cause { st with userProfileMap := st.userProfileMap.insert e.caller p' }
      st' next) : OwnSegment env e cause st st' next := by
  have hself : (st.userProfileMap.insert e.caller p')[e.caller]? = some p' :=
    ExtTreeMap.getElem?_insert_self
  refine ⟨h.uploads, fun user hne => ?_, fun succeeds => ?_, fun hnot => ?_⟩
  · exact (h.others user hne).trans (get_insert_of_ne _ _ hne)
  · obtain ⟨new, hnew, asked⟩ := h.asked succeeds
    refine ⟨new, hnew, ?_⟩
    dsimp only at asked
    rw [hself] at asked
    rw [hp]
    exact Applied.of_spared asked spared
  · have waits := h.before hnot
    dsimp only at waits
    rw [hself, hcause] at waits
    rw [hp, hcause]
    obtain ⟨q, hq, spared'⟩ := waits
    exact ⟨q, hq, spared'.userName.trans spared.userName, spared'.avatar.trans spared.avatar,
      spared'.userPreRewardPoints.trans spared.userPreRewardPoints,
      spared'.userPoints.trans spared.userPoints⟩

/-- **The price of an edit**: eight points of the user who asked for it. -/
theorem spendingPoints_spared {user : Principal}
    (h : spendingPoints env time env.id user "EDIT_AVATAR" st = some st') :
    ∃ old new, st.userProfileMap[user]? = some old ∧
      st'.userProfileMap = st.userProfileMap.insert user new ∧ Spared true old new := by
  unfold spendingPoints at h
  split at h
  · cases h
  obtain ⟨amount, hamount, h⟩ := Option.bind_eq_some_iff.mp h
  obtain rfl : 8 = amount := Option.some.inj hamount
  obtain ⟨old, hold, h⟩ := Option.bind_eq_some_iff.mp h
  obtain ⟨new, hnew, h⟩ := Option.bind_eq_some_iff.mp h
  obtain ⟨written, hwrite, h⟩ := Option.bind_eq_some_iff.mp h
  refine ⟨old, new, hold, congrArg State.userProfileMap (recordPoints_eq hwrite h), ?_⟩
  obtain ⟨points, hpoints, hnew⟩ := Option.bind_eq_some_iff.mp hnew
  split at hnew
  · cases hnew
  next henough =>
    cases hnew
    refine ⟨rfl, rfl, rfl, points - 8, ?_, rfl⟩
    rw [hpoints, Nat.sub_add_cancel (Nat.le_of_not_lt henough)]

end

/-! ## The segments of an edit -/

/-- Where an edit is suspended, and how often its price was deducted by then. -/
inductive EditFrame (e : Edit) (pays : Bool) : Frame → Nat → Prop
  | unpaid : pays = true → EditFrame e pays (.spendingPoints e) 0
  | paid : pays = true → EditFrame e pays (.spendingPointsDone e) 1
  | uploads (url : String) : EditFrame e pays (.httpRequest url (.editUser e)) pays.toNat

/-- An edit goes on after some deductions, or succeeds after as many as it has to pay. -/
def Counts (e : Edit) (pays : Bool) (n : Nat) : Next Frame Answer → Prop
  | .awaits frame => EditFrame e pays frame n
  | .returned (.editUser (.ok _)) => n = pays.toNat
  | .returned _ => True

section

variable {env : Env} {time : Nat} {st st' : State} {next : Next Frame Answer} {e : Edit}
  {cause : Cause Message Frame Rep} {pays : Bool}

theorem Counts.of_succeeds (h : Succeeds next) : Counts e pays pays.toNat next := by
  cases next with
  | awaits frame => exact h.elim
  | returned answer =>
    cases answer with
    | editUser result =>
      cases result with
      | ok user => rfl
      | error error => exact h.elim
    | _ => exact h.elim

/-- From the upload on, an edit that has paid what it has to counts. -/
theorem editUserUpload_counts (cause : Cause Message Frame Rep) (pays : Bool) (hk : e.k = .editUser)
    (hcause : cause.isDelivery = false)
    (h : editUserUpload env time e st = some (st', next)) :
    OwnSegment env e cause st st' next ∧ Counts e pays pays.toNat next := by
  obtain ⟨own, succeeds | ⟨url, rfl⟩⟩ := editUserUpload_own hk hcause h
  · exact ⟨own, .of_succeeds succeeds⟩
  · exact ⟨own, .uploads url⟩

/-- A segment that ends an edit with an error, and writes nothing. -/
theorem editUserReturn_own {error : String} (hk : e.k = .editUser) (hcause : cause.isDelivery = false)
    (h : editUserReturn env time e (.error error) st = some (st', next)) (n : Nat) :
    OwnSegment env e cause st st' next ∧ Counts e pays n next := by
  unfold editUserReturn at h
  rw [hk] at h
  cases h
  refine ⟨⟨fun _ _ hframe => (nomatch hframe), fun _ _ => rfl, False.elim, fun _ => ?_⟩, trivial⟩
  rw [hcause]
  exact .refl _

/-- **The start of an edit**: it pays where it finds a profile and asks for a change of it. -/
theorem editUser_own {m : Message} (hk : e.k = .editUser)
    (h : editUser env time e st = some (st', next)) :
    OwnSegment env e (.received m) st st' next ∧
      Counts e (e.asks && st.userProfileMap[e.caller]?.isSome) 0 next := by
  unfold editUser at h
  split at h
  · exact editUserReturn_own hk rfl h 0
  split at h
  next hnone =>
    rw [hnone, Option.isSome_none, Bool.and_false]
    exact editUserUpload_counts _ false hk rfl h
  next p hp =>
    obtain ⟨written, hwrite, h⟩ := Option.bind_eq_some_iff.mp h
    obtain rfl := insertProfile_eq hwrite
    have spared : Spared false p
        (if p.userPoints = none ∧ p.userAllSpendPoints = none then
          { p with userAllSpendPoints := some 0 } else p) := by
      split
      · exact ⟨rfl, rfl, rfl, rfl⟩
      · exact .refl p
    rw [hp, Option.isSome_some, Bool.and_true]
    split at h
    next hempty =>
      have hasks : e.asks = false := by
        unfold Edit.asks
        rw [Option.isNone_iff_eq_none.mp hempty.1, Option.isNone_iff_eq_none.mp hempty.2]
        rfl
      obtain ⟨own, counts⟩ := editUserUpload_counts (.received m) false hk rfl h
      rw [hasks]
      exact ⟨own.after_spared hp spared rfl, counts⟩
    next hasks =>
      have hasks : e.asks = true := by
        rw [Option.isNone_iff_eq_none, Option.isNone_iff_eq_none, ← Option.not_isSome_iff_eq_none,
          ← Option.not_isSome_iff_eq_none, not_and_or, not_not, not_not] at hasks
        exact Bool.or_eq_true _ _ ▸ hasks
      cases h
      refine ⟨OwnSegment.after_spared hp spared rfl ?_, .unpaid hasks⟩
      exact ⟨fun _ _ hframe => (nomatch hframe), fun _ _ => rfl, False.elim, fun _ => .refl _⟩

/-- **A later segment of an edit** keeps its law. -/
theorem EditFrame.segment {frame : Frame} {n : Nat} {a : Ambient} (h : EditFrame e pays frame n)
    (hk : e.k = .editUser) (hcause : cause.frame? = some frame)
    (hsegment : (program env).segment a cause st = some (st', next)) :
    OwnSegment env e cause st st' next ∧ Counts e pays (cause.isDelivery.toNat + n) next := by
  cases cause with
  | received m => cases hcause
  | delivered frame' =>
    cases hcause
    obtain ⟨_, rfl, hspend, rfl⟩ := segment_delivered hsegment
    cases h with
    | unpaid hpays =>
      obtain ⟨old, new, hold, hnew, spared⟩ := spendingPoints_spared hspend
      refine ⟨⟨fun _ _ hframe => (nomatch hframe), fun user hne => ?_, False.elim, fun _ => ?_⟩,
        .paid hpays⟩
      · rw [hnew]
        exact get_insert_of_ne _ _ hne
      · rw [hold, hnew, ExtTreeMap.getElem?_insert_self]
        exact ⟨new, rfl, spared⟩
  | resumed frame' reply =>
    cases hcause
    rw [show (Cause.resumed frame reply : Cause Message Frame Rep).isDelivery.toNat + n = n from
      Nat.zero_add n]
    cases h with
    | unpaid hpays =>
      replace hsegment : editUserReturn env a.time e (.error reply.2) st = some (st', next) := hsegment
      exact editUserReturn_own hk rfl hsegment 0
    | paid hpays =>
      subst hpays
      exact editUserUpload_counts _ true hk rfl hsegment
    | uploads url =>
      obtain ⟨imageUrl, hupload, hsegment⟩ := Option.bind_eq_some_iff.mp hsegment
      obtain ⟨own, succeeds⟩ := editUserWrite_own
        (.resumed (.httpRequest url (.editUser e)) reply) hk (fun _ _ _ => hupload) hsegment
      exact ⟨own, .of_succeeds succeeds⟩

end

/-! ## Every schedule -/

/-- How often a run had its calls of the launcher executed, which for an edit are deductions. -/
def deductions (run : Nat) (s : System) : Nat :=
  (s.history run).countP fun entry => entry.cause.isDelivery

/-- The law of a step: a segment of the run keeps the law of an edit, and where it succeeds, the price was
deducted once if it was to be paid, and not at all otherwise. -/
def EditStep (env : Env) (e : Edit) (pays : Bool) (run : Nat) (s : System) (choice : Choice) : Prop :=
  ∀ a cause st' next, s.starts choice = some (a, run, cause) →
    (program env).segment a cause s.state = some (st', next) →
      OwnSegment env e cause s.state st' next ∧
        (Succeeds next → deductions run ((program env).step s choice) = pays.toNat)

/-- The law of an edit that a message starts, for what happens after it. It is to be paid where there is a
profile and something is asked for. -/
def EditedAsAsked (env : Env) (s : System) (a : Ambient) (caller : Principal) (userInfo : UserEditObj)
    (later : List Choice) : Prop :=
  Along (program env).step
    (EditStep env (.ofMessage caller userInfo)
      ((Edit.ofMessage caller userInfo).asks && s.state.userProfileMap[caller]?.isSome) s.log.length)
    s (.receive a (.editUser caller userInfo) :: later)

/-- The invariant of a run: it goes on with its edit. -/
structure EditRun (e : Edit) (pays : Bool) (run : Nat) (s : System) : Prop where
  started : run < s.log.length
  frames : ∀ frame, s.suspended[run]? = some frame → EditFrame e pays frame (deductions run s)

section

variable {env : Env} {e : Edit} {pays : Bool} {run : Nat} {s : System} {choice : Choice}

theorem deductions_after (s : System) (run : Nat) (cause : Cause Message Frame Rep) (result : Segment) :
    deductions run (s.after run cause result) = cause.isDelivery.toNat + deductions run s := by
  unfold deductions
  rw [history_after, List.countP_cons, Nat.add_comm]
  dsimp only
  cases cause.isDelivery <;> rfl

theorem deductions_after_of_ne (s : System) {run run' : Nat} (cause : Cause Message Frame Rep)
    (result : Segment) (h : run' ≠ run) : deductions run' (s.after run cause result) = deductions run' s := by
  unfold deductions
  rw [history_after_of_ne s cause result h]

/-- A segment that ends, ends its step. -/
theorem step_of_segment {label : Choice} {a : Ambient} {cause : Cause Message Frame Rep}
    {result : State × Next Frame Answer} (starts : s.starts label = some (a, run, cause))
    (h : (program env).segment a cause s.state = some result) :
    (program env).step s label = s.after run cause (some result) := by
  obtain ⟨_, htrap, _⟩ | ⟨_, e⟩ := step_of_starts (P := program env) starts
  · rw [h] at htrap
    cases htrap
  · rw [e, h]

theorem Counts.of_succeeds_eq {n : Nat} {next : Next Frame Answer} (h : Counts e pays n next)
    (succeeds : Succeeds next) : n = pays.toNat := by
  cases next with
  | awaits frame => exact succeeds.elim
  | returned answer =>
    cases answer with
    | editUser result =>
      cases result with
      | ok user => exact h
      | error error => exact succeeds.elim
    | _ => exact succeeds.elim

/-- The frame that a segment of an edit leaves behind. -/
theorem Counts.frames {n : Nat} {result : Segment}
    (h : ∀ st' next, result = some (st', next) → Counts e pays n next) :
    ∀ frame, frameOf result = some frame → EditFrame e pays frame n := by
  intro frame hframe
  match result with
  | some (st', .awaits frame') =>
    cases hframe
    exact h st' _ rfl

/-- The law of a step, from that of its segment. -/
theorem EditStep.of_segment {n : Nat}
    (h : ∀ a cause st' next, s.starts choice = some (a, run, cause) →
      (program env).segment a cause s.state = some (st', next) →
        OwnSegment env e cause s.state st' next ∧ Counts e pays (cause.isDelivery.toNat + n) next)
    (hn : deductions run s = n) : EditStep env e pays run s choice := by
  intro a cause st' next starts hsegment
  obtain ⟨own, counts⟩ := h a cause st' next starts hsegment
  refine ⟨own, fun succeeds => ?_⟩
  rw [step_of_segment starts hsegment, deductions_after, hn]
  exact counts.of_succeeds_eq succeeds

/-- **One step** of a suspended edit. -/
theorem EditRun.segment (editing : EditRun e pays run s) (hk : e.k = .editUser) {a : Ambient}
    {cause : Cause Message Frame Rep} {st' : State} {next : Next Frame Answer}
    (starts : s.starts choice = some (a, run, cause))
    (h : (program env).segment a cause s.state = some (st', next)) :
    OwnSegment env e cause s.state st' next ∧
      Counts e pays (cause.isDelivery.toNat + deductions run s) next := by
  have enabled := enabled_of_starts starts
  cases cause with
  | received m => exact absurd enabled (Nat.ne_of_lt editing.started)
  | delivered frame => exact (editing.frames frame enabled).segment hk rfl h
  | resumed frame reply => exact (editing.frames frame enabled).segment hk rfl h

theorem step_editing (editing : EditRun e pays run s) (hk : e.k = .editUser) (choice : Choice) :
    EditRun e pays run ((program env).step s choice) := by
  obtain h | ⟨a, run', cause, starts, enabled, _, h⟩ := step_cases (program env) s choice
  · rw [h]
    exact editing
  rw [h]
  refine ⟨Nat.lt_succ_of_lt editing.started, fun frame hframe => ?_⟩
  by_cases hne : run = run'
  · subst hne
    rw [get_after] at hframe
    rw [deductions_after]
    exact Counts.frames (fun st' next hsegment => (editing.segment hk starts hsegment).2) frame hframe
  · rw [get_after_of_ne s cause _ hne] at hframe
    rw [deductions_after_of_ne s cause _ hne]
    exact editing.frames frame hframe

end

/-- **An edit does what was asked for**, in every schedule. -/
theorem editUser_asked (env : Env) (st : State) (earlier later : List Choice) (a : Ambient)
    (caller : Principal) (userInfo : UserEditObj) :
    EditedAsAsked env (earlier.foldl (program env).step (Sys.start st)) a caller userInfo later := by
  have ordered : (earlier.foldl (program env).step (Sys.start st)).Ordered :=
    foldl_invariant (I := Sys.Ordered) (fun _ choice h => ordered_step h choice) (ordered_start st) earlier
  generalize earlier.foldl (program env).step (Sys.start st) = s at ordered
  have hk : (Edit.ofMessage caller userInfo).k = .editUser := rfl
  have nothing : deductions s.log.length s = 0 := by
    unfold deductions
    rw [history_eq_nil ordered (Nat.le_refl _)]
    rfl
  have first : ∀ st' next, (program env).segment a (.received (.editUser caller userInfo)) s.state =
      some (st', next) → OwnSegment env (.ofMessage caller userInfo)
        (.received (.editUser caller userInfo)) s.state st' next ∧
      Counts (.ofMessage caller userInfo)
        ((Edit.ofMessage caller userInfo).asks && s.state.userProfileMap[caller]?.isSome) 0 next :=
    fun st' next h => editUser_own hk h
  refine ⟨.of_segment (fun a' cause st' next starts h => ?_) nothing, ?_⟩
  · cases starts
    exact first st' next h
  generalize ((Edit.ofMessage caller userInfo).asks && s.state.userProfileMap[caller]?.isSome) = pays
    at first ⊢
  have editing : EditRun (.ofMessage caller userInfo) pays s.log.length
      ((program env).step s (.receive a (.editUser caller userInfo))) := by
    refine ⟨Nat.lt_succ_self _, fun frame hframe => ?_⟩
    rw [step_receive] at hframe ⊢
    rw [get_after] at hframe
    rw [deductions_after, nothing]
    exact Counts.frames (fun st' next hsegment => (first st' next hsegment).2) frame hframe
  refine Along.of_invariant (I := EditRun (.ofMessage caller userInfo) pays s.log.length)
    (fun s choice h => step_editing h hk choice) (fun s choice h => ?_) editing later
  exact .of_segment (fun a cause st' next starts hsegment => h.segment hk starts hsegment) rfl

/-! ## Edits to try -/

/-- A launcher where the sample user has a profile with twenty points. -/
def profileStart : State :=
  { sampleStart.state with userProfileMap :=
      (∅ : PrincipalMap UserProfile).insert sampleUser ⟨sampleUser, "a", "", 0, some 20, some 0, some 0⟩ }

/-- An edit of the sample user, with a deduction and two replies where it awaits them. -/
def editEnd (st : State) (userInfo : UserEditObj) : System :=
  [sampleMessage (.editUser sampleUser userInfo), .deliver sampleAmbient 0, sampleAnswer 0,
    sampleAnswer 0].foldl (program sampleEnv).step (.start st)

/-- A run of `edit_user` was answered with success. -/
def succeeded (s : System) : Bool :=
  s.log.any fun entry =>
    match entry.outcome with
    | some (.returned (.editUser (.ok _))) => true
    | _ => false

/-- The profile of the sample user. -/
def sampleProfile (s : System) : Option UserProfile := s.state.userProfileMap[sampleUser]?

/-- **What is not as asked**: an existing profile loses the price of its edit; and a new one has neither
the name that was asked for nor the reference of the avatar that was uploaded. -/
theorem not_editUser_asked :
    (succeeded (editEnd profileStart ⟨some "b", none⟩) ∧
        (sampleProfile (.start profileStart)).bind (·.userPoints) = some 20 ∧
        (sampleProfile (editEnd profileStart ⟨some "b", none⟩)).bind (·.userPoints) = some 12) ∧
      (succeeded (editEnd sampleStart.state ⟨some "b", none⟩) ∧
        (sampleProfile (editEnd sampleStart.state ⟨some "b", none⟩)).map (·.userName) = some "aaaaa") ∧
      (succeeded (editEnd sampleStart.state ⟨none, some "b"⟩) ∧
        sampleEnv.beeRes [] = some "reference" ∧
        (sampleProfile (editEnd sampleStart.state ⟨none, some "b"⟩)).map (·.avatar) = some "b") := by
  decide +kernel

end Fomowell.Launcher
