import Fomowell.Project.State

/-!
# The room of a comment

`add_comment` cuts a content to two thousand bytes, and `COMMENTS` takes a comment of at most 2048
bytes in its candid encoding. The encoding has ninety bytes besides the caller, the texts and the
reference of the image, so a long content does not fit (`comment_stored_iff`).
-/

namespace Fomowell.Project

open Std Wire Canister

/-- The candid encoding of `Comments`. -/
def commentsCodec : Codec Comments :=
  .record
    [.named "fomo_idx" .text Comments.fomoIdx,
      .named "comment_idx" .nat64 Comments.commentIdx,
      .named "user_pid" Principal.codec Comments.userPid,
      .named "content" .text Comments.content,
      .named "user_star" (.vec Principal.codec) Comments.userStar,
      .named "image_url" (.opt .text) Comments.imageUrl,
      .named "create_time" .nat64 Comments.createTime,
      .named "extended"
        (.vec (.record [.numbered 0 .text Prod.fst, .numbered 1 .text Prod.snd]))
        Comments.extended]

theorem length_header_comments : (header commentsCodec.type).length = 69 := by decide +kernel

/-- What the reference of an image takes. -/
def referenceSize : Option String → Nat
  | none => 0
  | some reference => blobSize reference.utf8ByteSize

/-- A comment with no stars and no extensions has ninety bytes besides its own. -/
theorem length_comments {com : Comments} (hstar : com.userStar = []) (hext : com.extended = []) :
    (commentsCodec.encode com).length =
      90 + com.userPid.bytes.length + blobSize com.content.utf8ByteSize +
        blobSize com.fomoIdx.utf8ByteSize + referenceSize com.imageUrl := by
  have himage :
      ((Codec.opt .text).serialize com.imageUrl).length = 1 + referenceSize com.imageUrl := by
    unfold referenceSize
    cases com.imageUrl with
    | none => exact Codec.length_opt_none _
    | some reference =>
      dsimp only
      rw [Codec.length_opt_some, Codec.length_text, Nat.add_comm]
  rw [Codec.length_encode, length_header_comments]
  unfold commentsCodec
  rw [Codec.length_record]
  simp only [List.map_cons, List.map_nil, List.sum_cons, List.sum_nil, Field.named, hstar, hext,
    himage, Codec.length_text, Codec.length_nat64, Codec.length_vec_nil, Principal.length_codec]
  omega

/-! ## What `add_comment` stores -/

/-- The comment fits, and its insertion does not trap. -/
def Storable (env : Env) (idx : Nat) (com : Comments) (st : State) : Prop :=
  (commentsCodec.encode com).length ≤ 2048 ∧ (addCommentStore env idx com st).isSome

/-- A caller, a content, an index and a reference for which a comment fits. -/
def RoomFor (caller : Principal) (content fomoIdx : String) (reference : Option String) : Prop :=
  caller.bytes.length + blobSize (min content.utf8ByteSize 2000) +
      blobSize fomoIdx.utf8ByteSize + referenceSize reference ≤ 1958

section

variable {env : Env} {caller : Principal} {comment : CommentsCreate} {st st' : State}
  {launcher : Principal} {c : AddComment}

/-- The insertion traps where the comment does not fit. -/
theorem storable_iff (candid : ∀ com, env.commentsSize com = (commentsCodec.encode com).length)
    {idx : Nat} {com : Comments} (hstar : com.userStar = []) (hext : com.extended = []) :
    Storable env idx com st ↔
      com.userPid.bytes.length + blobSize com.content.utf8ByteSize +
        blobSize com.fomoIdx.utf8ByteSize + referenceSize com.imageUrl ≤ 1958 := by
  have hlen := length_comments hstar hext
  have stores : Storable env idx com st ↔ (commentsCodec.encode com).length ≤ 2048 := by
    unfold Storable addCommentStore State.insertComment
    rw [candid]
    refine and_iff_left_of_imp fun hfits => ?_
    rw [if_pos hfits]
    rfl
  rw [stores]
  omega

/-- What `add_comment` takes along to the charge. -/
theorem addComment_charged
    (h : addComment caller comment st = some (st', .awaits (.spendingPoints launcher c))) :
    c.caller = caller ∧
      c.comment.content.utf8ByteSize = min comment.content.utf8ByteSize 2000 := by
  obtain ⟨content, hcontent, h⟩ := Option.bind_eq_some_iff.mp h
  cases h
  exact ⟨rfl, (sliceTo_eq_some.mp hcontent).2⟩

/-- A content that is not cut. -/
theorem addComment_of_le (h : comment.content.utf8ByteSize ≤ 2000) :
    addComment caller comment st =
      some (st.count.1, .awaits (.spendingPoints st.heap.owner ⟨caller, comment, st.count.2⟩)) := by
  have hslice : sliceTo comment.content (min comment.content.utf8ByteSize 2000) =
      some comment.content :=
    sliceTo_eq_some.mpr ⟨List.prefix_refl _, (Nat.min_eq_left h).symm⟩
  unfold addComment
  dsimp only
  rw [hslice]
  rfl

variable {time idx fi : Nat} {fomoIdx : String} {reference : Option String} {com : Comments}

/-- The comment that is built once it is paid for. -/
theorem addCommentReply_iff (hfomo : st.heap.metadata["fomo_idx"]? = some fomoIdx) :
    addCommentReply time c reference st =
        some (st', .awaits (.replyUpdate launcher fi idx com)) ↔
      parseU64 fomoIdx = some fi ∧ st' = st ∧ launcher = st.heap.owner ∧ idx = c.idx ∧
        com = ⟨fomoIdx, c.idx, c.caller, c.comment.content, [], reference, time, []⟩ := by
  unfold addCommentReply
  rw [hfomo, Option.bind_eq_bind, Option.bind_some]
  cases parseU64 fomoIdx with
  | none => exact iff_of_false (fun h => nomatch h) (fun h => nomatch h.1)
  | some parsed =>
    constructor
    · intro h
      cases h
      exact ⟨rfl, rfl, rfl, rfl, rfl⟩
    · rintro ⟨hfi, rfl, rfl, rfl, rfl⟩
      cases hfi
      rfl

end

/-- **When a comment that is paid for can be stored**: exactly where its caller, its cut content, the
index of its project and the reference of its image take at most 1958 bytes. -/
theorem comment_stored_iff {env : Env}
    (candid : ∀ com, env.commentsSize com = (commentsCodec.encode com).length)
    {caller launcher launcher' : Principal} {comment : CommentsCreate} {c : AddComment}
    {time fi idx : Nat} {fomoIdx : String} {reference : Option String} {com : Comments}
    {start asked paid replied : State}
    (hcharge : addComment caller comment start = some (asked, .awaits (.spendingPoints launcher c)))
    (hfomo : paid.heap.metadata["fomo_idx"]? = some fomoIdx)
    (hreply : addCommentReply time c reference paid =
      some (replied, .awaits (.replyUpdate launcher' fi idx com)))
    (stored : State) :
    Storable env idx com stored ↔ RoomFor caller comment.content fomoIdx reference := by
  obtain ⟨hcaller, hcontent⟩ := addComment_charged hcharge
  obtain ⟨_, _, _, _, rfl⟩ := (addCommentReply_iff hfomo).mp hreply
  rw [storable_iff candid rfl rfl]
  dsimp only
  rw [hcaller, hcontent]
  rfl

/-- An environment that measures comments as they are encoded. -/
def measuringEnv : Env := { sampleEnv with commentsSize := fun com => (commentsCodec.encode com).length }

theorem measuringEnv_candid (com : Comments) :
    measuringEnv.commentsSize com = (commentsCodec.encode com).length := rfl

/-- The principal of a user with a key. -/
def sampleAuthor : Principal := ⟨List.replicate 28 7 ++ [2], by decide⟩

/-- The canister of the first project. -/
def sampleStart : State := init sampleOwner sampleMetadata

theorem sampleStart_fomoIdx : sampleStart.count.1.heap.metadata["fomo_idx"]? = some "1" :=
  ExtTreeMap.getElem?_insert_self

/-- A short comment on the first project. -/
theorem comment_stored_sample :
    Storable measuringEnv 1 ⟨"1", 1, samplePid, "a", [], none, 0, []⟩ sampleStart ↔
      RoomFor samplePid "a" "1" none := by
  have hcharge : addComment samplePid sampleComment sampleStart =
      some (sampleStart.count.1, .awaits (.spendingPoints sampleOwner ⟨samplePid, sampleComment, 1⟩)) :=
    addComment_of_le (by decide)
  have hreply : addCommentReply 0 ⟨samplePid, sampleComment, 1⟩ none sampleStart.count.1 =
      some (sampleStart.count.1,
        .awaits (.replyUpdate sampleOwner 1 1 ⟨"1", 1, samplePid, "a", [], none, 0, []⟩)) :=
    (addCommentReply_iff sampleStart_fomoIdx).mpr ⟨by decide, rfl, rfl, rfl, rfl⟩
  exact comment_stored_iff measuringEnv_candid hcharge sampleStart_fomoIdx hreply sampleStart

/-- **A comment that cannot be stored**: two thousand letters without an image. -/
theorem not_comment_stored :
    ¬ ∀ env : Env, (∀ com, env.commentsSize com = (commentsCodec.encode com).length) →
      ∀ (caller launcher launcher' : Principal) (comment : CommentsCreate) (c : AddComment)
        (time fi idx : Nat) (reference : Option String) (com : Comments)
        (start asked paid replied stored : State),
        addComment caller comment start = some (asked, .awaits (.spendingPoints launcher c)) →
        (∀ r, reference = some r → r.utf8ByteSize ≤ 64) →
        addCommentReply time c reference paid =
          some (replied, .awaits (.replyUpdate launcher' fi idx com)) →
        Storable env idx com stored := by
  intro all
  obtain ⟨s, hs⟩ := exists_utf8ByteSize 2000
  have hcharge : addComment sampleAuthor ⟨s, none, []⟩ sampleStart =
      some (sampleStart.count.1,
        .awaits (.spendingPoints sampleOwner ⟨sampleAuthor, ⟨s, none, []⟩, 1⟩)) :=
    addComment_of_le hs.le
  have hreply : addCommentReply 0 ⟨sampleAuthor, ⟨s, none, []⟩, 1⟩ none sampleStart.count.1 =
      some (sampleStart.count.1, .awaits
        (.replyUpdate sampleOwner 1 1 ⟨"1", 1, sampleAuthor, s, [], none, 0, []⟩)) :=
    (addCommentReply_iff sampleStart_fomoIdx).mpr ⟨by decide, rfl, rfl, rfl, rfl⟩
  have storable := all measuringEnv measuringEnv_candid _ _ _ _ _ _ _ _ none _ _ _ _ _ sampleStart hcharge
    (fun _ h => nomatch h) hreply
  have hroom := (storable_iff measuringEnv_candid rfl rfl).mp storable
  have hcontent := le_blobSize s.utf8ByteSize
  dsimp only at hroom
  omega

end Fomowell.Project
