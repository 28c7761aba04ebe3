import Fomowell.Lib.Canister
import Fomowell.Text
import Fomowell.Token.IToken

/-!
# The project canister (`fomowell-project/src`)

Each project has a canister of its own, which keeps the comments on it. A comment is paid for at the
launcher, its image is uploaded, the launcher counts the reply, and last it is stored. `add_comment`
is given by its segments, in the order of its awaits.

The comments are in stable memory. The metadata, the owner, the counter and the address of the image
store are on the heap, which an upgrade makes anew; what `pre_upgrade` and `post_upgrade` do to them
is `upgrade`. The list of holders, which `update_user_holding_list` fills, is read by no method here;
it stands beside this state where it is modelled. The calls to `print` are left out.
-/

namespace Fomowell.Project

open Std Canister Token

/-! ## Records -/

/-- `CommentsCreate`, the argument of `add_comment`. -/
structure CommentsCreate where
  content : String
  imageUrl : Option String
  extended : List (String × String)
  deriving DecidableEq

/-- `Comments`. -/
structure Comments where
  fomoIdx : String
  commentIdx : Nat
  userPid : Principal
  content : String
  userStar : List Principal
  imageUrl : Option String
  createTime : Nat
  extended : List (String × String)
  deriving DecidableEq

/-- What the canister takes from outside its source. -/
structure Env where
  /-- `ic_cdk::id`. -/
  id : Principal
  /-- The `reference` in the body of an upload's reply; `none` where the body is not one. -/
  beeRes : List UInt8 → Option String
  /-- The length of the candid encoding of a comment. -/
  commentsSize : Comments → Nat

/-- What an upgrade discards: `Context`, `CounterState` and `FileReplaceURI`. -/
structure Heap where
  metadata : ExtTreeMap String String compare
  owner : Principal
  count : Nat
  uri : String

/-- The heap of a canister that has just started. -/
def Heap.default : Heap where
  metadata := ∅
  owner := Principal.anonymous
  count := 0
  uri := "https://image.fomowell.com/api/files/replace?file="

/-- The state of the canister. -/
structure State where
  heap : Heap
  comments : ExtTreeMap Nat Comments compare

/-- `init`. -/
def init (caller : Principal) (fmPj : ExtTreeMap String String compare) : State where
  heap := { Heap.default with metadata := fmPj, owner := caller }
  comments := ∅

/-! ## Upgrades -/

/-- `pre_upgrade`. -/
def preUpgrade (st : State) : State := st

/-- `post_upgrade`. It starts a timer. -/
def postUpgrade (st : State) : State := st

/-- An upgrade: the heap is made anew, between the two hooks. -/
def upgrade (st : State) : State :=
  let st := preUpgrade st
  postUpgrade { st with heap := Heap.default }

/-! ## Messages, answers and frames -/

/-- A message to an update method, with its caller where the method reads it.
`update_user_holding_list` is not among them: it has a program of its own. -/
inductive Message
  | addComment (caller : Principal) (comment : CommentsCreate)
  | count
  | updateImageReplaceUri (caller : Principal) (imagePrefix : String)

/-- What a method answers. -/
inductive Answer
  | unit
  | index (idx : Nat)
  | addComment (result : Except String Unit)

/-- The locals of `add_comment`. -/
structure AddComment where
  caller : Principal
  comment : CommentsCreate
  idx : Nat

/-- What a comment is charged as. -/
def AddComment.spendType (c : AddComment) : String :=
  match c.comment.imageUrl with
  | none => "COMMENT"
  | some _ => "IMAGE_COMMENT"

/-- An await. A call to the launcher has two frames: before it is executed it can only be rejected,
and once it is executed it can only be answered. -/
inductive Frame
  | spendingPoints (launcher : Principal) (c : AddComment)
  | spendingPointsDone (c : AddComment)
  | httpRequest (url : String) (c : AddComment)
  | replyUpdate (launcher : Principal) (fi : Nat) (idx : Nat) (com : Comments)
  | replyUpdateDone (idx : Nat) (com : Comments)

/-- The replies that may resume a frame. -/
def Rep : Frame → Type
  | .spendingPoints .. => Rejection
  | .spendingPointsDone _ => Unit
  | .httpRequest .. => CallResult HttpResponse
  | .replyUpdate .. => Rejection
  | .replyUpdateDone .. => Unit

/-- How a segment ends. -/
abbrev Segment : Type := Option (State × Next Frame Answer)

/-! ## The methods -/

/-- `count`. -/
def State.count (st : State) : State × Nat :=
  let count := st.heap.count + 1
  ({ st with heap := { st.heap with count } }, count)

/-- `insert` on `COMMENTS`, with the `MAX_SIZE` of `Comments`. -/
def State.insertComment (env : Env) (st : State) (idx : Nat) (com : Comments) : Option State :=
  if env.commentsSize com ≤ 2048 then some { st with comments := st.comments.insert idx com }
  else none

/-- `add_comment` up to the call of `spending_points`. The content is cut to two thousand bytes. -/
def addComment (caller : Principal) (comment : CommentsCreate) (st : State) : Segment := do
  let (st, idx) := st.count
  let content ← sliceTo comment.content (min comment.content.utf8ByteSize 2000)
  return (st, .awaits (.spendingPoints st.heap.owner
    { caller, comment := { comment with content }, idx }))

/-- `add_comment` from the upload to the call of `reply_update`. -/
def addCommentReply (time : Nat) (c : AddComment) (newImageUrl : Option String) (st : State) :
    Segment := do
  let fomoIdx ← st.heap.metadata["fomo_idx"]?
  let fi ← parseU64 fomoIdx
  return (st, .awaits (.replyUpdate st.heap.owner fi c.idx
    { fomoIdx
      commentIdx := c.idx
      userPid := c.caller
      content := c.comment.content
      userStar := []
      imageUrl := newImageUrl
      createTime := time
      extended := [] }))

/-- `add_comment` once it is paid for, up to the upload if there is an image. -/
def addCommentPaid (time : Nat) (c : AddComment) (st : State) : Segment :=
  match c.comment.imageUrl with
  | none => addCommentReply time c none st
  | some imageUrl => some (st, .awaits (.httpRequest (st.heap.uri ++ imageUrl) c))

/-- The end of `upload_file`. -/
def uploadReference (env : Env) : CallResult HttpResponse → Option String
  | .error _ => none
  | .ok response => if response.status ≠ 200 then none else env.beeRes response.body

/-- The end of `add_comment`. -/
def addCommentStore (env : Env) (idx : Nat) (com : Comments) (st : State) : Segment := do
  let st ← st.insertComment env idx com
  return (st, .returned (.addComment (.ok ())))

/-- `update_image_replace_uri`, for the owner. -/
def updateImageReplaceUri (caller : Principal) (imagePrefix : String) (st : State) : Segment :=
  if caller ≠ st.heap.owner then none
  else some ({ st with heap := { st.heap with uri := imagePrefix } }, .returned .unit)

/-! ## The program -/

/-- The segment that a message starts. -/
def receive : Message → State → Segment
  | .addComment caller comment, st => addComment caller comment st
  | .count, st => some (st.count.1, .returned (.index st.count.2))
  | .updateImageReplaceUri caller imagePrefix, st => updateImageReplaceUri caller imagePrefix st

/-- The segment that a reply resumes. A charge that is rejected is answered with its message; a
`reply_update` that is rejected traps. -/
def resume (env : Env) (time : Nat) : (frame : Frame) → Rep frame → State → Segment
  | .spendingPoints _ _, reply, st => some (st, .returned (.addComment (.error reply.2)))
  | .spendingPointsDone c, _, st => addCommentPaid time c st
  | .httpRequest _ c, reply, st => do
    let reference ← uploadReference env reply
    addCommentReply time c (some reference) st
  | .replyUpdate .., _, _ => none
  | .replyUpdateDone idx com, _, st => addCommentStore env idx com st

/-- The frame after the call that a frame awaits is executed. -/
def Frame.served : Frame → Option Frame
  | .spendingPoints _ c => some (.spendingPointsDone c)
  | .replyUpdate _ _ idx com => some (.replyUpdateDone idx com)
  | _ => none

/-- The canister by itself: whether its calls are executed is up to the scheduler. -/
def program (env : Env) : Program Nat State Message Frame Answer Rep where
  receive _ := receive
  deliver _ frame st := frame.served.map fun frame => (st, frame)
  resume := resume env

/-- The canister with its suspended runs and its log. -/
abbrev System : Type := Sys State Message Frame Answer Rep

/-- A choice of the canister's scheduler: the ambient value is the time. -/
abbrev Choice : Type := Label Nat Message Frame Rep

/-! ## A canister to try schedules on -/

def sampleOwner : Principal := .ofByte 3

def samplePid : Principal := .ofByte 5

/-- An environment in which every comment fits. -/
def sampleEnv : Env where
  id := samplePid
  beeRes := fun _ => some "reference"
  commentsSize := fun _ => 0

/-- The metadata of the first project. -/
def sampleMetadata : ExtTreeMap String String compare :=
  (∅ : ExtTreeMap String String compare).insert "fomo_idx" "1"

def sampleComment : CommentsCreate := ⟨"a", none, []⟩

/-- Replies of canisters that do what they are asked. -/
def sampleReply : (frame : Frame) → Rep frame
  | .spendingPoints .. => (.NoError, "")
  | .spendingPointsDone _ => ()
  | .httpRequest .. => .ok ⟨200, []⟩
  | .replyUpdate .. => (.NoError, "")
  | .replyUpdateDone .. => ()

end Fomowell.Project
