import Fomowell.Project.State

/-!
# What a segment of a project canister does

`Started` and `Resumed` list the segments that end, each with what it read, wrote and left behind:
`receive_started` and `resume_resumed` are the inversions of `receive` and `resume`. What the canister
keeps is derived from these lists, and no method is unfolded again.
-/

namespace Fomowell.Project

open Std Canister Token

/-- The comment that a run of `add_comment` makes. -/
def AddComment.made (c : AddComment) (fomoIdx : String) (newImageUrl : Option String) (time : Nat) :
    Comments where
  fomoIdx
  commentIdx := c.idx
  userPid := c.caller
  content := c.comment.content
  userStar := []
  imageUrl := newImageUrl
  createTime := time
  extended := []

/-- The segments that a message starts. -/
inductive Started (st : State) : Message → State → Next Frame Answer → Prop
  /-- `add_comment` draws an index and asks for its charge. -/
  | asks {caller comment content}
    (cut : sliceTo comment.content (min comment.content.utf8ByteSize 2000) = some content) :
    Started st (.addComment caller comment) st.count.1 (.awaits (.spendingPoints st.heap.owner
      { caller, comment := { comment with content }, idx := st.count.2 }))
  | draws : Started st .count st.count.1 (.returned (.index st.count.2))
  | replaces {caller imagePrefix} (owner : caller = st.heap.owner) :
    Started st (.updateImageReplaceUri caller imagePrefix)
      { st with heap := { st.heap with uri := imagePrefix } } (.returned .unit)

/-- The segments that a reply resumes. -/
inductive Resumed (env : Env) (time : Nat) (st : State) :
    (frame : Frame) → Rep frame → State → Next Frame Answer → Prop
  /-- The charge is rejected. -/
  | refused {launcher c} {reply : Rejection} :
    Resumed env time st (.spendingPoints launcher c) reply st
      (.returned (.addComment (.error reply.2)))
  | uploads {c imageUrl reply} (image : c.comment.imageUrl = some imageUrl) :
    Resumed env time st (.spendingPointsDone c) reply st
      (.awaits (.httpRequest (st.heap.uri ++ imageUrl) c))
  /-- A comment without an image goes on to the reply that the launcher counts. -/
  | replies {c fomoIdx fi reply} (plain : c.comment.imageUrl = none)
    (named : st.heap.metadata["fomo_idx"]? = some fomoIdx) (parsed : parseU64 fomoIdx = some fi) :
    Resumed env time st (.spendingPointsDone c) reply st
      (.awaits (.replyUpdate st.heap.owner fi c.idx (c.made fomoIdx none time)))
  /-- So does a comment whose image is uploaded. -/
  | repliesImage {url c fomoIdx fi response reference} (status : response.status = 200)
    (reads : env.beeRes response.body = some reference)
    (named : st.heap.metadata["fomo_idx"]? = some fomoIdx) (parsed : parseU64 fomoIdx = some fi) :
    Resumed env time st (.httpRequest url c) (.ok response) st
      (.awaits (.replyUpdate st.heap.owner fi c.idx (c.made fomoIdx (some reference) time)))
  | stores {idx com reply} (fits : env.commentsSize com ≤ 2048) :
    Resumed env time st (.replyUpdateDone idx com) reply
      { st with comments := st.comments.insert idx com } (.returned (.addComment (.ok ())))

section

variable {env : Env} {time : Nat} {st st' : State} {next : Next Frame Answer}

/-! ## The inversions -/

theorem receive_started {m : Message} (h : receive m st = some (st', next)) :
    Started st m st' next := by
  cases m with
  | addComment caller comment =>
    obtain ⟨content, hcut, h⟩ := Option.bind_eq_some_iff.mp h
    cases h
    exact .asks hcut
  | count =>
    cases h
    exact .draws
  | updateImageReplaceUri caller imagePrefix =>
    replace h : updateImageReplaceUri caller imagePrefix st = some (st', next) := h
    unfold updateImageReplaceUri at h
    split at h
    next => cases h
    next howner =>
      cases h
      exact .replaces (not_not.mp howner)

theorem addCommentReply_eq {c : AddComment} {newImageUrl : Option String}
    (h : addCommentReply time c newImageUrl st = some (st', next)) :
    ∃ fomoIdx fi, st.heap.metadata["fomo_idx"]? = some fomoIdx ∧ parseU64 fomoIdx = some fi ∧
      st' = st ∧
      next = .awaits (.replyUpdate st.heap.owner fi c.idx (c.made fomoIdx newImageUrl time)) := by
  obtain ⟨fomoIdx, hnamed, h⟩ := Option.bind_eq_some_iff.mp h
  obtain ⟨fi, hparsed, h⟩ := Option.bind_eq_some_iff.mp h
  cases h
  exact ⟨fomoIdx, fi, hnamed, hparsed, rfl, rfl⟩

/-- What an upload has for a reference is in the body of a reply with the status 200. -/
theorem uploadReference_eq {reply : CallResult HttpResponse} {reference : String}
    (h : uploadReference env reply = some reference) :
    ∃ response, reply = .ok response ∧ response.status = 200 ∧
      env.beeRes response.body = some reference := by
  unfold uploadReference at h
  split at h
  next => cases h
  next response =>
    split at h
    next => cases h
    next hstatus => exact ⟨response, rfl, not_not.mp hstatus, h⟩

theorem resume_resumed {frame : Frame} {reply : Rep frame}
    (h : resume env time frame reply st = some (st', next)) :
    Resumed env time st frame reply st' next := by
  cases frame with
  | spendingPoints launcher c =>
    cases h
    exact .refused
  | spendingPointsDone c =>
    replace h : addCommentPaid time c st = some (st', next) := h
    unfold addCommentPaid at h
    split at h
    next hplain =>
      obtain ⟨fomoIdx, fi, hnamed, hparsed, rfl, rfl⟩ := addCommentReply_eq h
      exact .replies hplain hnamed hparsed
    next imageUrl himage =>
      cases h
      exact .uploads himage
  | httpRequest url c =>
    obtain ⟨reference, hupload, hreply⟩ := Option.bind_eq_some_iff.mp h
    obtain ⟨response, rfl, hstatus, hreads⟩ := uploadReference_eq hupload
    obtain ⟨fomoIdx, fi, hnamed, hparsed, rfl, rfl⟩ := addCommentReply_eq hreply
    exact .repliesImage hstatus hreads hnamed hparsed
  | replyUpdate launcher fi idx com => cases h
  | replyUpdateDone idx com =>
    obtain ⟨written, hwrite, h⟩ := Option.bind_eq_some_iff.mp h
    cases h
    unfold State.insertComment at hwrite
    split at hwrite
    next hfits =>
      cases hwrite
      exact .stores hfits
    next => cases hwrite

/-! ## What they leave -/

/-- A message leaves the comments, the metadata and the owner. -/
theorem Started.unchanged {m : Message} (h : Started st m st' next) :
    st'.comments = st.comments ∧ st'.heap.metadata = st.heap.metadata ∧
      st'.heap.owner = st.heap.owner := by
  cases h <;> exact ⟨rfl, rfl, rfl⟩

/-- A reply leaves the heap. -/
theorem Resumed.heap_eq {frame : Frame} {reply : Rep frame}
    (h : Resumed env time st frame reply st' next) : st'.heap = st.heap := by
  cases h <;> rfl

end

end Fomowell.Project
