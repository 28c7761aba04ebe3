import Fomowell.Launcher.Termination
import Fomowell.Project.Comments

/-!
# Every run of the two canisters ends

`add_comment` awaits the launcher twice, each time in two segments, and an upload at most once.
`joint_descends` puts its weights beside those of the launcher: the execution of its calls by the launcher
counts as a segment of its run. `joint_over` is the termination of every method of the two but
`update_user_holding_list`, under every schedule and for all replies. That one goes on for as long as the
token answers with full pages; it has a program of its own, with the ledger that it ends for.
-/

namespace Fomowell.Project

open Canister

/-- How many segments a run has left at an await, at most. -/
def Frame.left : Frame → Nat
  | .spendingPoints .. => 5
  | .spendingPointsDone _ => 4
  | .httpRequest .. => 3
  | .replyUpdate .. => 2
  | .replyUpdateDone .. => 1

/-- How many segments a method has after its first, at most. -/
def Message.calls : Message → Nat
  | .addComment .. => 5
  | _ => 0

theorem Frame.left_pos (frame : Frame) : 0 < frame.left := by
  cases frame <;> exact Nat.succ_pos _

section

variable {lenv : Launcher.Env} {env : Env} {time : Nat} {st st' : State} {next : Next Frame Answer}

theorem Started.left {m : Message} (h : Started st m st' next) :
    weigh Frame.left next.frame? ≤ m.calls := by
  cases h <;> exact Nat.le_refl _

theorem Resumed.left {frame : Frame} {reply : Rep frame}
    (h : Resumed env time st frame reply st' next) : weigh Frame.left next.frame? < frame.left := by
  cases h with
  | refused => exact Nat.succ_pos 4
  | uploads image => exact Nat.lt_succ_self 3
  | replies plain named parsed => exact Nat.lt_of_lt_of_le (Nat.lt_succ_self 2) (Nat.le_succ 3)
  | repliesImage status reads named parsed => exact Nat.lt_succ_self 2
  | stores fits => exact Nat.one_pos

theorem Served.left {a : Launcher.Ambient} {frame frame' : Frame} {lst lst' : Launcher.State}
    (h : Served lenv env a frame lst lst' frame') : frame'.left < frame.left := by
  cases h <;> exact Nat.lt_succ_self _

/-- **The project canister descends.** -/
theorem program_descends (env : Env) : (program env).Descends Frame.left where
  positive := Frame.left_pos
  delivered {a frame st st' frame'} h := by
    obtain ⟨served, hserved, h⟩ := Option.map_eq_some_iff.mp h
    cases h
    unfold Frame.served at hserved
    split at hserved <;> cases hserved <;> exact Nat.lt_succ_self _
  resumed h := (resume_resumed h).left

/-- What a run of either canister has left at an await. -/
def jointLeft : Launcher.Frame ⊕ Frame → Nat := Sum.elim Launcher.Frame.left Frame.left

/-- **The two canisters descend.** -/
theorem joint_descends (lenv : Launcher.Env) (env : Env) : (joint lenv env).Descends jointLeft :=
  (Launcher.program_descends lenv).serving (program_descends env) _ fun h =>
    (serve_served h).left

/-- How many segments a method of either canister has after its first, at most. -/
def jointCalls (sts : Launcher.State × State) : Launcher.Message ⊕ Message → Nat
  | .inl message => message.calls sts.1
  | .inr message => message.calls

/-- What the first segment of a method of either canister leaves. -/
theorem joint_receive_left (lenv : Launcher.Env) (env : Env) (a : Launcher.Ambient)
    (message : Launcher.Message ⊕ Message) (sts : Launcher.State × State) :
    weigh jointLeft (frameOf ((joint lenv env).segment a (.received message) sts)) ≤
      jointCalls sts message := by
  cases hsegment : (joint lenv env).segment a (.received message) sts with
  | none => exact Nat.zero_le _
  | some result =>
    obtain ⟨sts', next⟩ := result
    cases serving_segment hsegment with
    | @first _ _ _ _ lnext cause hcause h =>
      cases cause with
      | received m =>
        cases hcause
        exact (weigh_inl Launcher.Frame.left Frame.left lnext).trans_le (Launcher.receive_left h)
      | delivered frame => cases hcause
      | resumed frame reply => cases hcause
    | @received _ _ _ _ pnext h =>
      exact (weigh_inr Launcher.Frame.left Frame.left pnext).trans_le (receive_started h).left

end

/-- **Termination**: whatever message of the program arrives at whatever point of a schedule, its run has at most
`jointCalls` segments after its first, and is over after that many replies, whatever these are and
whatever the other runs of both canisters do in between. -/
theorem joint_over (lenv : Launcher.Env) (env : Env) (sts : Launcher.State × State)
    (before rest : List JointChoice) (a : Launcher.Ambient) (message : Launcher.Message ⊕ Message) :
    let s : JointSystem := before.foldl (joint lenv env).step (Sys.start sts)
    let s' := rest.foldl (joint lenv env).step ((joint lenv env).step s (.receive a message))
    (s'.history s.log.length).length ≤ 1 + jointCalls s.state message ∧
      (jointCalls s.state message ≤ rest.countP (fun choice => choice.resumes s.log.length) →
        s'.suspended[s.log.length]? = none) := by
  intro s s'
  have ordered : s.Ordered :=
    Runs.foldl_invariant (I := Sys.Ordered) (fun _ choice h => ordered_step h choice)
      (ordered_start sts) before
  exact (joint_descends lenv env).over ordered (joint_receive_left lenv env a message s.state) rest

end Fomowell.Project
