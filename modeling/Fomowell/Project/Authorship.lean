import Fomowell.Lib.Origins
import Fomowell.Numerals
import Fomowell.Project.Comments
import Fomowell.Project.Holding

/-!
# Who wrote a comment

A comment is stored several awaits after `add_comment` was called, in a canister that serves everyone at
once. `Frame.Carries` says what each await still has of the message: the author is its caller, the text is its
text with at most two thousand bytes, and an image is stored only if one was asked for. The canister was
installed with the metadata of one project, so the reply that it has the launcher count is a reply to that
project. The reference of an image comes from a reply, which the log has: the answer to the upload of the
same run (`Uploaded`).

`comments_genuine`: every stored comment was sent by its author, in a run of its own that answered `Ok`; it
never changes and never goes away. The program leaves out `update_user_holding_list`, which reads the
metadata and writes neither the comments nor the heap.
-/

namespace Fomowell.Project

open Std Canister Table Runs Token

/-! ## What a frame carries -/

/-- The message asks for a comment with this text, of this author. -/
structure Asks (asked : CommentsCreate) (content : String) : Prop where
  cut : sliceTo asked.content (min asked.content.utf8ByteSize 2000) = some content

/-- The locals of `add_comment` are of the message. -/
def AddComment.Carries (c : AddComment) (m : Message) : Prop :=
  ∃ asked, m = .addComment c.caller asked ∧ Asks asked c.comment.content ∧
    c.comment.imageUrl = asked.imageUrl

/-- A comment on a project, under its index, as its author sent it. -/
structure Comments.Carries (v : Launcher.FomoProject) (com : Comments) (idx : Nat)
    (asked : CommentsCreate) : Prop where
  fomoIdx : com.fomoIdx = toString v.fomoIdx
  commentIdx : com.commentIdx = idx
  content : Asks asked com.content
  image : com.imageUrl.isSome = asked.imageUrl.isSome
  fresh : com.userStar = [] ∧ com.extended = []

/-- What an await has of the message that started its run. -/
def Frame.Carries (v : Launcher.FomoProject) (owner : Principal) (m : Message) : Frame → Prop
  | .spendingPoints launcher c => launcher = owner ∧ c.Carries m
  | .spendingPointsDone c => c.Carries m
  | .httpRequest url c =>
    c.Carries m ∧ ∃ uri imageUrl, c.comment.imageUrl = some imageUrl ∧ url = uri ++ imageUrl
  | .replyUpdate launcher fi idx com =>
    launcher = owner ∧ fi = v.fomoIdx ∧
      ∃ asked, m = .addComment com.userPid asked ∧ com.Carries v idx asked
  | .replyUpdateDone idx com =>
    ∃ asked, m = .addComment com.userPid asked ∧ com.Carries v idx asked

/-- The canister has the metadata of a project, and the owner that installed it. -/
structure InstalledFor (toText : Principal → String) (v : Launcher.FomoProject) (owner : Principal)
    (st : State) : Prop where
  metadata : st.heap.metadata = v.toHashmap toText
  owner : st.heap.owner = owner

/-- A frame of either canister has this of the message that started its run. -/
def CarriesAt (v : Launcher.FomoProject) (owner : Principal) (_ : JointSystem) :
    Launcher.Message ⊕ Message → Launcher.Frame ⊕ Frame → Prop
  | .inr m, .inr frame => frame.Carries v owner m
  | .inl _, .inr _ => False
  | _, .inl _ => True

section

variable {lenv : Launcher.Env} {env : Env} {toText : Principal → String} {v : Launcher.FomoProject}
  {owner : Principal} {st st' : State} {next : Next Frame Answer} {m : Message}

/-! ## Segments -/

/-- The index of the project is read back from the metadata. -/
theorem InstalledFor.fomoIdx (installed : InstalledFor toText v owner st) :
    st.heap.metadata["fomo_idx"]? = some (toString v.fomoIdx) := by
  rw [installed.metadata]
  unfold Launcher.FomoProject.toHashmap
  refine get_metadata rfl ?_
  simp only [List.mem_cons, true_or]

theorem parseU64_toString {n fi : Nat} (h : parseU64 (toString n) = some fi) : fi = n := by
  have hparse : parseWord 64 (toString n) = some fi := h
  rw [parseWord_toString] at hparse
  split at hparse
  · exact (Option.some.inj hparse).symm
  · cases hparse

/-- The comment that `add_comment` makes is on the project, and of its author. -/
theorem AddComment.Carries.made {time fi : Nat} {c : AddComment} {fomoIdx : String}
    {newImageUrl : Option String} (carries : c.Carries m) (installed : InstalledFor toText v owner st)
    (named : st.heap.metadata["fomo_idx"]? = some fomoIdx) (parsed : parseU64 fomoIdx = some fi)
    (image : newImageUrl.isSome = c.comment.imageUrl.isSome) :
    (Frame.replyUpdate st.heap.owner fi c.idx (c.made fomoIdx newImageUrl time)).Carries v owner m := by
  rw [installed.fomoIdx] at named
  cases named
  obtain ⟨asked, hm, asks, asksImage⟩ := carries
  refine ⟨installed.owner, parseU64_toString parsed, asked, hm, ?_⟩
  exact ⟨rfl, rfl, asks, image.trans (congrArg Option.isSome asksImage), rfl, rfl⟩

theorem Started.carries (h : Started st m st' next) (installed : InstalledFor toText v owner st) :
    ∀ frame, next.frame? = some frame → frame.Carries v owner m := by
  intro frame hframe
  cases h with
  | @asks caller comment content cut =>
    cases hframe
    exact ⟨installed.owner, comment, rfl, ⟨cut⟩, rfl⟩
  | draws => cases hframe
  | replaces owner => cases hframe

theorem Resumed.carries {time : Nat} {frame : Frame} {reply : Rep frame}
    (h : Resumed env time st frame reply st' next) (installed : InstalledFor toText v owner st)
    (carries : frame.Carries v owner m) :
    ∀ frame', next.frame? = some frame' → frame'.Carries v owner m := by
  intro frame' hframe
  cases h with
  | refused => cases hframe
  | uploads image =>
    cases hframe
    exact ⟨carries, _, _, image, rfl⟩
  | replies plain named parsed =>
    cases hframe
    refine AddComment.Carries.made carries installed named parsed ?_
    rw [plain]
  | repliesImage status reads named parsed =>
    obtain ⟨carries, uri, imageUrl, image, _⟩ := carries
    cases hframe
    refine carries.made installed named parsed ?_
    rw [image, Option.isSome_some, Option.isSome_some]
  | stores fits => cases hframe

theorem Served.carries {a : Launcher.Ambient} {frame frame' : Frame} {lst lst' : Launcher.State}
    (h : Served lenv env a frame lst lst' frame') (carries : frame.Carries v owner m) :
    frame'.Carries v owner m := by
  cases h with
  | charges callee h => exact carries.2
  | counts callee h => exact carries.2.2

/-! ## What is stored -/

/-- A segment that stores a comment is the last of its run, which answers `Ok`. -/
def StoresFrom (frame? : Option Frame) (st st' : State) (next : Next Frame Answer) : Prop :=
  ∃ idx com, frame? = some (.replyUpdateDone idx com) ∧
    st'.comments = st.comments.insert idx com ∧ next = .returned (.addComment (.ok ()))

/-- What a segment leaves of the canister: its metadata, its owner, and the comments, but for one that it
stores. -/
structure Leaves (frame? : Option Frame) (st st' : State) (next : Next Frame Answer) : Prop where
  metadata : st'.heap.metadata = st.heap.metadata
  owner : st'.heap.owner = st.heap.owner
  comments : st'.comments = st.comments ∨ StoresFrom frame? st st' next

theorem InstalledFor.left {frame? : Option Frame} (h : InstalledFor toText v owner st)
    (leaves : Leaves frame? st st' next) : InstalledFor toText v owner st' :=
  ⟨leaves.metadata.trans h.metadata, leaves.owner.trans h.owner⟩

theorem Started.leaves (h : Started st m st' next) : Leaves none st st' next := by
  obtain ⟨hcomments, hmetadata, howner⟩ := h.unchanged
  exact ⟨hmetadata, howner, .inl hcomments⟩

theorem Resumed.leaves {time : Nat} {frame : Frame} {reply : Rep frame}
    (h : Resumed env time st frame reply st' next) : Leaves (some frame) st st' next := by
  refine ⟨congrArg Heap.metadata h.heap_eq, congrArg Heap.owner h.heap_eq, ?_⟩
  cases h with
  | refused => exact .inl rfl
  | uploads image => exact .inl rfl
  | replies plain named parsed => exact .inl rfl
  | repliesImage status reads named parsed => exact .inl rfl
  | stores fits => exact .inr ⟨_, _, rfl, rfl, rfl⟩

end

/-! ## Both canisters -/

/-- The frame of the project canister that a segment takes up, if of this canister. -/
def ownFrame : Option (Launcher.Frame ⊕ Frame) → Option Frame
  | some (.inr frame) => some frame
  | _ => none

theorem eq_inr_of_ownFrame {frame? : Option (Launcher.Frame ⊕ Frame)} {frame : Frame}
    (h : ownFrame frame? = some frame) : frame? = some (.inr frame) := by
  cases frame? with
  | none => cases h
  | some both =>
    cases both with
    | inl lframe => cases h
    | inr pframe => exact congrArg (Option.map Sum.inr) h

theorem exists_of_frame?_inl {next : Next Launcher.Frame Launcher.Answer}
    {frame : Launcher.Frame ⊕ Frame}
    (h : (next.map .inl .inl : Next (Launcher.Frame ⊕ Frame) (Launcher.Answer ⊕ Answer)).frame? =
      some frame) : ∃ lframe, frame = .inl lframe := by
  cases next with
  | returned answer => cases h
  | awaits lframe =>
    cases h
    exact ⟨lframe, rfl⟩

theorem exists_of_frame?_inr {next : Next Frame Answer} {frame : Launcher.Frame ⊕ Frame}
    (h : (next.map .inr .inr : Next (Launcher.Frame ⊕ Frame) (Launcher.Answer ⊕ Answer)).frame? =
      some frame) : ∃ pframe, next.frame? = some pframe ∧ frame = .inr pframe := by
  cases next with
  | returned answer => cases h
  | awaits pframe =>
    cases h
    exact ⟨pframe, rfl, rfl⟩

/-- A segment of either canister leaves the project canister so. -/
def JointLeaves (cause : JointCause) (st st' : State)
    (next : Next (Launcher.Frame ⊕ Frame) (Launcher.Answer ⊕ Answer)) : Prop :=
  st' = st ∨ ∃ own, Leaves (ownFrame cause.frame?) st st' own ∧ next = own.map .inr .inr

section

variable {lenv : Launcher.Env} {env : Env} {toText : Principal → String} {v : Launcher.FomoProject}
  {owner : Principal}

theorem joint_leaves {a : Launcher.Ambient} {cause : JointCause} {sts sts' : Launcher.State × State}
    {next : Next (Launcher.Frame ⊕ Frame) (Launcher.Answer ⊕ Answer)}
    (h : (joint lenv env).segment a cause sts = some (sts', next)) :
    JointLeaves cause sts.2 sts'.2 next := by
  cases serving_segment h with
  | first c hcause hsegment => exact .inl rfl
  | received hreceive => exact .inr ⟨_, (receive_started hreceive).leaves, rfl⟩
  | served hserve => exact .inl rfl
  | resumed hresume => exact .inr ⟨_, (resume_resumed hresume).leaves, rfl⟩

/-- The project canister of a system stays installed for its project. -/
theorem step_installed (s : JointSystem) (choice : JointChoice)
    (installed : InstalledFor toText v owner s.state.2) :
    InstalledFor toText v owner ((joint lenv env).step s choice).state.2 := by
  refine step_state
    (R := fun st st' : Launcher.State × State =>
      InstalledFor toText v owner st.2 → InstalledFor toText v owner st'.2)
    (fun _ installed => installed) ?_ installed
  intro a run cause st' next _ _ hsegment installed
  obtain same | ⟨own, leaves, _⟩ := joint_leaves hsegment
  · rw [same]
    exact installed
  · exact installed.left leaves

/-- **Every await carries** what the message that started its run asked for. -/
theorem joint_carries (lenv : Launcher.Env) (env : Env) (toText : Principal → String)
    (v : Launcher.FomoProject) (owner : Principal) :
    (joint lenv env).Tells (fun s => InstalledFor toText v owner s.state.2) (CarriesAt v owner) := by
  refine .of_segment (fun _ _ _ _ carries => carries) fun {s a cause sts' next message frame} h
    installed started hframe => ?_
  generalize s.state = sts at h installed
  cases serving_segment h with
  | @first _ _ _ _ lnext c hcause hsegment =>
    -- what the launcher leaves behind carries nothing of ours
    obtain ⟨lframe, rfl⟩ := exists_of_frame?_inl hframe
    cases message <;> trivial
  | @received m _ _ _ pnext hreceive =>
    obtain e | ⟨taken, htaken, _⟩ := started
    · cases e
      obtain ⟨pframe, hleft, rfl⟩ := exists_of_frame?_inr hframe
      exact (receive_started hreceive).carries installed pframe hleft
    · cases htaken
  | @served pframe _ _ _ _ hserve =>
    obtain e | ⟨taken, htaken, carries⟩ := started
    · cases e
    · cases htaken
      cases hframe
      cases message with
      | inl m => exact carries
      | inr m => exact (serve_served hserve).carries carries
  | @resumed pframe _ _ _ _ pnext hresume =>
    obtain e | ⟨taken, htaken, carries⟩ := started
    · cases e
    · cases htaken
      obtain ⟨pframe', hleft, rfl⟩ := exists_of_frame?_inr hframe
      cases message with
      | inl m => exact carries
      | inr m => exact (resume_resumed hresume).carries installed carries pframe' hleft

end

/-! ## The image -/

/-- The cause is the answer to an upload, with the status 200 and this reference in its body. -/
def UploadAnswered (env : Env) (url reference : String) (cause : JointCause) : Prop :=
  ∃ (c : AddComment) (response : HttpResponse),
    cause = .resumed (.inr (.httpRequest url c)) (Except.ok response : CallResult HttpResponse) ∧
      response.status = 200 ∧ env.beeRes response.body = some reference

/-- The reference of an image that a frame holds. -/
def imageOf : Launcher.Frame ⊕ Frame → Option String
  | .inr (.replyUpdate _ _ _ com) => com.imageUrl
  | .inr (.replyUpdateDone _ com) => com.imageUrl
  | _ => none

/-- **A reference is what an upload answered**: no segment makes one up. -/
theorem joint_handsDown (lenv : Launcher.Env) (env : Env) :
    (joint lenv env).HandsDown imageOf fun cause reference =>
      ∃ url, UploadAnswered env url reference cause := by
  refine ⟨fun {a cause sts sts' next frame reference} h hframe holds => ?_⟩
  cases serving_segment h with
  | first c hcause hsegment =>
    obtain ⟨lframe, rfl⟩ := exists_of_frame?_inl hframe
    cases holds
  | received hreceive =>
    cases receive_started hreceive with
    | asks cut =>
      cases hframe
      cases holds
    | draws => cases hframe
    | replaces owner => cases hframe
  | served hserve =>
    cases serve_served hserve with
    | charges callee h =>
      cases hframe
      cases holds
    | counts callee h =>
      cases hframe
      exact .inr ⟨_, rfl, holds⟩
  | resumed hresume =>
    cases resume_resumed hresume with
    | refused => cases hframe
    | uploads image =>
      cases hframe
      cases holds
    | replies plain named parsed =>
      cases hframe
      cases holds
    | @repliesImage url c _ _ response _ status reads named parsed =>
      cases hframe
      cases holds
      exact .inl ⟨url, c, response, rfl, status, reads⟩
    | stores fits => cases hframe

/-! ## Every schedule -/

/-- The segment that stored a comment. -/
def Stored (s : JointSystem) (run idx : Nat) (com : Comments) : Prop :=
  ∃ cause, (⟨run, cause, some (.returned (.inr (.addComment (.ok ()))))⟩ : JointEntry) ∈ s.log ∧
    ownFrame cause.frame? = some (.replyUpdateDone idx com)

/-- The upload of an image was answered in a run, with this reference. -/
def Uploaded (env : Env) (s : JointSystem) (run : Nat) (imageUrl reference : String) : Prop :=
  ∃ entry ∈ s.log, entry.run = run ∧ ∃ uri, UploadAnswered env (uri ++ imageUrl) reference entry.cause

/-- The message of an author that asked for a comment, and for its image. -/
structure Sent (env : Env) (v : Launcher.FomoProject) (s : JointSystem) (run idx : Nat) (com : Comments)
    (asked : CommentsCreate) : Prop where
  began : s.Began run (.inr (.addComment com.userPid asked))
  carries : com.Carries v idx asked
  uploaded : ∀ reference, com.imageUrl = some reference →
    ∃ imageUrl, asked.imageUrl = some imageUrl ∧ Uploaded env s run imageUrl reference

/-- **A comment is genuine**: its author sent it, in a run that had its image uploaded, if it has one, and
ended by storing it and answering `Ok`. -/
structure Genuine (env : Env) (v : Launcher.FomoProject) (s : JointSystem) (run idx : Nat)
    (com : Comments) : Prop where
  sent : ∃ asked, Sent env v s run idx com asked
  stored : Stored s run idx com

/-- The law of the comments: each is genuine, no run stores two, and what is counted at the launcher is a
reply to this project. -/
structure GenuineComments (env : Env) (v : Launcher.FomoProject) (s : JointSystem) : Prop where
  genuine : ∀ (idx : Nat) com, s.state.2.comments[idx]? = some com → ∃ run, Genuine env v s run idx com
  oneEach : ∀ {run idx idx' com com'}, Stored s run idx com → Stored s run idx' com' →
    idx = idx' ∧ com = com'
  counted : ∀ (entry : JointEntry) launcher fi idx com, entry ∈ s.log →
    entry.cause = .delivered (.inr (.replyUpdate launcher fi idx com)) → fi = v.fomoIdx

/-- No comment changes or goes away. -/
def KeepsComments (lenv : Launcher.Env) (env : Env) (s : JointSystem) (choice : JointChoice) : Prop :=
  ∀ (idx : Nat) com, s.state.2.comments[idx]? = some com →
    ((joint lenv env).step s choice).state.2.comments[idx]? = some com

/-- The invariant of the two canisters. -/
structure Authored (env : Env) (toText : Principal → String) (v : Launcher.FomoProject) (owner : Principal)
    (s : JointSystem) : Prop where
  installed : InstalledFor toText v owner s.state.2
  balanced : Balanced s
  closed : Over s
  told : Told (CarriesAt v owner) s
  backed : Backed imageOf (fun cause reference => ∃ url, UploadAnswered env url reference cause) s
  stored : ∀ (idx : Nat) com, s.state.2.comments[idx]? = some com → ∃ run, Stored s run idx com

section

variable {lenv : Launcher.Env} {env : Env} {toText : Principal → String} {v : Launcher.FomoProject}
  {owner : Principal}

/-- A run that holds an index finds nothing stored under it. -/
theorem comment_absent {s : JointSystem} (balanced : Balanced s) {run : Nat}
    {cause : JointCause} (enabled : s.Enabled run cause) {k : Nat}
    {com : Comments} (hframe : ownFrame cause.frame? = some (.replyUpdateDone k com)) :
    s.state.2.comments[k]? = none := by
  have owned := balanced.phaseOwned enabled k
  rw [eq_inr_of_ownFrame hframe] at owned
  replace owned : (if k = k then 1 else 0) + Project.stored k s.state.2 ≤ drawn k s.state.2 := owned
  cases hold : s.state.2.comments[k]? with
  | none => rfl
  | some com =>
    unfold Project.stored Project.drawn at owned
    rw [if_pos rfl, hold, Option.isSome_some, if_pos rfl] at owned
    split at owned <;> omega

/-- What was stored is stored, and what a step stores it stores where there was nothing. -/
theorem step_comments {s : JointSystem} (balanced : Balanced s)
    (stored : ∀ (idx : Nat) com, s.state.2.comments[idx]? = some com → ∃ run, Stored s run idx com)
    (choice : JointChoice) :
    KeepsComments lenv env s choice ∧
      ∀ (idx : Nat) com, ((joint lenv env).step s choice).state.2.comments[idx]? = some com →
        ∃ run, Stored ((joint lenv env).step s choice) run idx com := by
  unfold KeepsComments
  obtain e | ⟨a, run, cause, _, enabled, _, e⟩ := step_cases (joint lenv env) s choice
  · rw [e]
    exact ⟨fun _ _ h => h, stored⟩
  rw [e]
  have older : ∀ {result idx com}, (∃ run, Stored s run idx com) →
      ∃ run', Stored (s.after run cause result) run' idx com := by
    rintro result idx com ⟨run', cause', hentry, own⟩
    exact ⟨run', cause', List.mem_cons_of_mem _ hentry, own⟩
  cases hsegment : (joint lenv env).segment a cause s.state with
  | none => exact ⟨fun _ _ h => h, fun idx com h => older (stored idx com h)⟩
  | some result =>
    obtain ⟨sts', next⟩ := result
    have unchanged (comments : sts'.2.comments = s.state.2.comments) :
        (∀ (idx : Nat) com, s.state.2.comments[idx]? = some com → sts'.2.comments[idx]? = some com) ∧
          ∀ (idx : Nat) com, sts'.2.comments[idx]? = some com →
            ∃ run', Stored (s.after run cause (some (sts', next))) run' idx com := by
      rw [comments]
      exact ⟨fun _ _ h => h, fun idx com h => older (stored idx com h)⟩
    obtain same | ⟨own, leaves, rfl⟩ := joint_leaves hsegment
    · exact unchanged (congrArg State.comments same)
    obtain comments | ⟨k, c, hframe, comments, rfl⟩ := leaves.comments
    · exact unchanged comments
    · have absent := comment_absent balanced enabled hframe
      refine ⟨fun idx com h => ?_, fun idx com h => ?_⟩
      · replace h : s.state.2.comments[idx]? = some com := h
        have hne : idx ≠ k := by
          rintro rfl
          exact nomatch absent.symm.trans h
        have kept : sts'.2.comments[idx]? = some com := by
          rw [comments, get_insert_of_ne _ _ hne]
          exact h
        exact kept
      · replace h : sts'.2.comments[idx]? = some com := h
        rw [comments, get_insert] at h
        split at h
        next e =>
          cases h
          rw [e]
          exact ⟨run, cause, List.mem_cons_self, hframe⟩
        next => exact older (stored idx com h)

/-- **Every step keeps the law of the comments.** -/
theorem step_authored {s : JointSystem} (choice : JointChoice) (so : Authored env toText v owner s) :
    Authored env toText v owner ((joint lenv env).step s choice) :=
  ⟨step_installed s choice so.installed, step_balanced s choice so.balanced, step_over so.closed choice,
    (joint_carries lenv env toText v owner).step so.installed so.told choice,
    (joint_handsDown lenv env).step so.backed choice,
    (step_comments so.balanced so.stored choice).2⟩

/-- The upload that a comment has its reference of is one of its own run, and of the image that was asked
for. -/
theorem Authored.uploaded {s : JointSystem} (so : Authored env toText v owner s) {entry : JointEntry}
    (hentry : entry ∈ s.log) {idx : Nat} {com : Comments}
    (hframe : entry.cause.frame? = some (.inr (.replyUpdateDone idx com))) {asked : CommentsCreate}
    (began : s.Began entry.run (.inr (.addComment com.userPid asked))) (reference : String)
    (image : com.imageUrl = some reference) :
    ∃ imageUrl, asked.imageUrl = some imageUrl ∧ Uploaded env s entry.run imageUrl reference := by
  obtain ⟨upload, hupload, hrun, url, c, response, hcause, status, reads⟩ :=
    so.backed.logged entry hentry _ hframe reference image
  have htaken : upload.cause.frame? = some (.inr (.httpRequest url c)) := by
    rw [hcause]
    rfl
  obtain ⟨m, began', carries⟩ := so.told.logged upload hupload _ htaken
  rw [hrun] at began'
  cases began_once so.closed began began'
  obtain ⟨⟨asked', hm, _, hasked⟩, uri, imageUrl, himage, rfl⟩ := carries
  obtain ⟨_, rfl⟩ := Message.addComment.inj hm
  exact ⟨imageUrl, hasked.symm.trans himage, upload, hupload, hrun, uri, c, response, hcause, status, reads⟩

/-- What the invariant says of the comments. -/
theorem Authored.genuine {s : JointSystem} (so : Authored env toText v owner s) :
    GenuineComments env v s := by
  refine ⟨fun idx com h => ?_, ?_, ?_⟩
  · obtain ⟨run, stored⟩ := so.stored idx com h
    obtain ⟨cause, hentry, own⟩ := stored
    obtain ⟨m, began, carries⟩ := so.told.logged _ hentry _ (eq_inr_of_ownFrame own)
    cases m with
    | inl m => cases carries
    | inr m =>
      obtain ⟨asked, rfl, carries⟩ := carries
      have uploaded := so.uploaded hentry (eq_inr_of_ownFrame own) began
      exact ⟨run, ⟨asked, began, carries, uploaded⟩, ⟨cause, hentry, own⟩⟩
  · rintro run idx idx' com com' ⟨cause, hentry, own⟩ ⟨cause', hentry', own'⟩
    have same := ended_once so.closed hentry hentry' rfl rfl rfl
    cases same
    cases own.symm.trans own'
    exact ⟨rfl, rfl⟩
  · intro entry launcher fi idx com hentry hcause
    obtain ⟨m, began, carries⟩ := so.told.logged entry hentry (.inr (.replyUpdate launcher fi idx com))
      (by rw [hcause]; rfl)
    cases m with
    | inl m => cases carries
    | inr m => exact carries.2.1

end

/-- **Comments are genuine and stay**, whatever the launcher and the canister of a project do. -/
theorem comments_genuine (lenv : Launcher.Env) (env : Env) (toText : Principal → String)
    (v : Launcher.FomoProject) (launcher : Launcher.State) (owner : Principal)
    (choices : List JointChoice) :
    GenuineComments env v (choices.foldl (joint lenv env).step
        (Sys.start (launcher, init owner (v.toHashmap toText)))) ∧
      Along (joint lenv env).step (KeepsComments lenv env)
        (Sys.start (launcher, init owner (v.toHashmap toText))) choices := by
  have empty : ∀ idx : Nat, (init owner (v.toHashmap toText)).comments[idx]? = none :=
    fun _ => ExtTreeMap.getElem?_empty
  have start : Authored env toText v owner (Sys.start (launcher, init owner (v.toHashmap toText))) := by
    exact ⟨⟨rfl, rfl⟩, balanced_start launcher owner (v.toHashmap toText), over_start _, told_start _,
      backed_start _, fun idx com h => nomatch (empty idx).symm.trans h⟩
  refine ⟨(Runs.foldl_invariant (I := Authored env toText v owner)
    (fun _ choice so => step_authored choice so) start choices).genuine, ?_⟩
  exact .of_invariant (I := Authored env toText v owner) (fun _ choice so => step_authored choice so)
    (fun s choice so => (step_comments so.balanced so.stored choice).1) start choices

end Fomowell.Project
