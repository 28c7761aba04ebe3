import Fomowell.Lib.Origins
import Fomowell.Numerals
import Fomowell.Pool.State

/-!
# Who orders a payment

Only the master of a pool may have it pay, and a payment is made awaits after it was ordered, so the order
has to be read off the frame: `Payment.Orders` says that the message ordered this payment, of this amount or
of what is left of a larger one.

`pool_obeys_master`: whatever the pool is about to pay, its present master ordered, and no order is paid
twice. After an upgrade the master is the management canister, which calls nobody, so an upgraded pool pays
nothing any more.

The memos are dealt out in turn (`memos_in_turn`): under any interleaving, traps included, the payments and
the calls of `count_meno` get the numbers from 1 on, modulo a thousand.
-/

namespace Fomowell.Pool

open Canister Runs Token

/-! ## Orders -/

/-- The caller of a payment's message. -/
def Message.caller? : Message → Option Principal
  | .transfer caller .. => some caller
  | .retrieve caller .. => some caller
  | .countMeno => none

/-- The message orders a payment: of its amount, or of what a quote leaves of it. -/
def Message.Orders (m : Message) (master : Principal) (p : Payment) : Prop :=
  m = .transfer master p.token p.recipient p.value ∨
    ∃ amount cache, m = .retrieve master p.token amount p.recipient ∧
      getAmountWithoutFeeQuery cache p.token amount = some (.ok p.value) ∧ p.value ≤ amount

/-- A frame is about what the master ordered. -/
def Frame.Ordered (master : Principal) (m : Message) : Frame → Prop
  | .quoteToken _ r => m = .retrieve master r.token r.amount r.recipient
  | .payToken _ p => m.Orders master p
  | .ledger _ _ p => m.Orders master p

def OrderedAt (s : System) (m : Message) (frame : Frame) : Prop := frame.Ordered s.state.master m

section

variable {time : Nat} {st st' : State} {next : Next Frame Answer} {master : Principal} {m : Message}

/-- A segment draws a memo, and leaves the master alone. -/
structure Draws (st st' : State) (memo : String) : Prop where
  master : st'.master = st.master
  count : st'.count = st.countMeno.1.count
  memo : memo = st.countMeno.2

theorem draws_countMeno (st : State) : Draws st st.countMeno.1 st.countMeno.2 := by
  refine ⟨?_, rfl, rfl⟩
  unfold State.countMeno
  split <;> rfl

/-- The memo does not depend on what is cached. -/
theorem Draws.of_refresh {tokenCache : TokenCache} {memo : String}
    (h : Draws { st with tokenCache } st' memo) : Draws st st' memo := by
  refine ⟨h.master, h.count.trans ?_, h.memo.trans ?_⟩
  all_goals
    unfold State.countMeno
    dsimp only
    split <;> rfl

/-- A quote is at most what it is of. -/
theorem receiveAmount_le {name : String} {amount fee net : Nat}
    (h : receiveAmount name amount fee = some (.ok net)) : net ≤ amount := by
  unfold receiveAmount at h
  split at h
  · cases h
  · obtain ⟨rest, hrest, e⟩ := Option.map_eq_some_iff.mp h
    cases e
    rw [Checked.sub_eq_some.mp hrest]
    exact Nat.le_add_left _ _

theorem amountWithoutFee_le {name : String} {token : TokenInfo} {amount net : Nat}
    (h : amountWithoutFee name token amount = some (.ok net)) : net ≤ amount := by
  obtain ⟨feeInfo, _, h⟩ := Option.bind_eq_some_iff.mp h
  obtain ⟨transferFee, _, h⟩ := Option.bind_eq_some_iff.mp h
  split at h
  next => cases h
  next =>
    obtain ⟨burnFee, _, h⟩ := Option.bind_eq_some_iff.mp h
    split at h
    next => cases h
    next =>
      obtain ⟨actualAmount, _, h⟩ := Option.bind_eq_some_iff.mp h
      obtain ⟨fee, _, h⟩ := Option.bind_eq_some_iff.mp h
      exact receiveAmount_le h

theorem getAmountWithoutFeeQuery_le {cache : TokenCache} {cid : Principal} {amount net : Nat}
    (h : getAmountWithoutFeeQuery cache cid amount = some (.ok net)) : net ≤ amount := by
  unfold getAmountWithoutFeeQuery at h
  split at h
  · cases h
    exact Nat.zero_le _
  split at h
  next =>
    obtain ⟨token, _, h⟩ := Option.bind_eq_some_iff.mp h
    exact amountWithoutFee_le h
  next =>
    obtain ⟨token, _, h⟩ := Option.bind_eq_some_iff.mp h
    exact receiveAmount_le h
  next =>
    obtain ⟨token, _, h⟩ := Option.bind_eq_some_iff.mp h
    exact amountWithoutFee_le h
  next => cases h

/-! ## Segments -/

/-- A payment that is made is under way to the ledger. -/
theorem payLedger_eq {p : Payment} (h : payLedger time p st = some (st', next)) :
    st' = st ∧ ∃ type, next = .awaits (.ledger time type p) := by
  unfold payLedger at h
  dsimp only at h
  split at h
  · cases h
    exact ⟨rfl, _, rfl⟩
  · cases h

theorem pay_cases {p : Payment} (h : pay time p st = some (st', next)) :
    st' = st ∧ ((∃ backend, next = .awaits (.payToken backend p)) ∨
      ∃ type, next = .awaits (.ledger time type p)) := by
  unfold pay at h
  split at h
  · cases h
    exact ⟨rfl, .inl ⟨_, rfl⟩⟩
  · obtain ⟨same, ledger⟩ := payLedger_eq h
    exact ⟨same, .inr ledger⟩

/-- A payment under way, with its memo. -/
def Frame.payment? : Frame → Option Payment
  | .quoteToken .. => none
  | .payToken _ p => some p
  | .ledger _ _ p => some p

/-- A payment goes on under the next memo. -/
theorem payNext_eq {token recipient : Principal} {value : Nat}
    (h : payNext time token recipient value st = some (st', next)) :
    ∃ frame memo, next = .awaits frame ∧ Draws st st' memo ∧
      frame.payment? = some { token, recipient, value, memo } := by
  obtain ⟨rfl, ⟨backend, rfl⟩ | ⟨type, rfl⟩⟩ := pay_cases h
  · exact ⟨_, _, rfl, draws_countMeno st, rfl⟩
  · exact ⟨_, _, rfl, draws_countMeno st, rfl⟩

/-- A frame that is about a payment is ordered where the payment is. -/
theorem Frame.Ordered.of_payment {frame : Frame} {p : Payment} (h : frame.payment? = some p)
    (orders : m.Orders master p) : frame.Ordered master m := by
  cases frame with
  | quoteToken backend r => cases h
  | payToken backend p' =>
    cases h
    exact orders
  | ledger issued type p' =>
    cases h
    exact orders

/-- A segment starts a payment that its message orders, under the next memo. -/
def StartsPayment (st st' : State) (master : Principal) (m : Message) (next : Next Frame Answer) : Prop :=
  ∃ frame p, next = .awaits frame ∧ frame.payment? = some p ∧ Draws st st' p.memo ∧ m.Orders master p

/-- What a retrieval pays its message ordered. -/
theorem retrieveQuoted_starts {r : Retrieval} (h : retrieveQuoted time r st = some (st', next)) :
    StartsPayment st st' master (.retrieve master r.token r.amount r.recipient) next := by
  obtain ⟨quote, hquote, h⟩ := Option.bind_eq_some_iff.mp h
  obtain ⟨value, hvalue, h⟩ := Option.bind_eq_some_iff.mp h
  obtain ⟨frame, memo, hnext, draws, hpayment⟩ := payNext_eq h
  cases quote with
  | error e => cases hvalue
  | ok net =>
    cases hvalue
    refine ⟨frame, _, hnext, hpayment, draws, .inr ⟨r.amount, _, rfl, hquote, ?_⟩⟩
    exact getAmountWithoutFeeQuery_le hquote

/-- What the first segment of a run can be: a memo that anyone draws, or an order of the master. -/
inductive Receives (st : State) : Message → State → Next Frame Answer → Prop
  | counts {st' : State} {memo : String} (draws : Draws st st' memo) :
    Receives st .countMeno st' (.returned (.memo memo))
  | quotes {backend : Principal} {r : Retrieval} :
    Receives st (.retrieve st.master r.token r.amount r.recipient) st (.awaits (.quoteToken backend r))
  | starts {m : Message} {st' : State} {next : Next Frame Answer} (caller : m.caller? = some st.master)
      (starts : StartsPayment st st' st.master m next) : Receives st m st' next

theorem receive_cases (h : receive time m st = some (st', next)) : Receives st m st' next := by
  cases m with
  | transfer caller token recipient amount =>
    replace h : (if caller ≠ st.master then none else payNext time token recipient amount st) =
      some (st', next) := h
    split at h
    next => cases h
    next hmaster =>
      have hcaller : caller = st.master := Classical.byContradiction hmaster
      obtain ⟨frame, memo, hnext, draws, hpayment⟩ := payNext_eq h
      refine .starts (congrArg some hcaller) ⟨frame, _, hnext, hpayment, draws, .inl ?_⟩
      rw [hcaller]
  | retrieve caller token amount recipient =>
    replace h : retrieve time caller token amount recipient st = some (st', next) := h
    unfold retrieve at h
    split at h
    next => cases h
    next hmaster =>
      have hcaller : caller = st.master := Classical.byContradiction hmaster
      rw [hcaller]
      split at h
      next =>
        cases h
        exact .quotes (r := { token, amount, recipient })
      next => exact .starts rfl (retrieveQuoted_starts h)
  | countMeno =>
    cases h
    exact .counts (draws_countMeno st)

/-- What a later segment can be: the quote is in, or a payment goes on. -/
inductive Resumes (st : State) : Frame → State → Next Frame Answer → Prop
  | quoted {backend : Principal} {r : Retrieval} {st' : State} {next : Next Frame Answer}
      (starts : ∀ master, StartsPayment st st' master
        (.retrieve master r.token r.amount r.recipient) next) :
    Resumes st (.quoteToken backend r) st' next
  | goesOn {frame : Frame} {p : Payment} {st' : State} {next : Next Frame Answer}
      (payment : frame.payment? = some p) (master : st'.master = st.master)
      (count : st'.count = st.count)
      (goes : next = .returned .unit ∨ ∃ frame', next = .awaits frame' ∧ frame'.payment? = some p) :
    Resumes st frame st' next

theorem resume_cases {frame : Frame} {reply : Rep frame}
    (h : resume time frame reply st = some (st', next)) : Resumes st frame st' next := by
  cases frame with
  | quoteToken backend r =>
    refine .quoted fun master => ?_
    obtain ⟨frame', p, hnext, hpayment, draws, orders⟩ := retrieveQuoted_starts h
    exact ⟨frame', p, hnext, hpayment, draws.of_refresh, orders⟩
  | payToken backend p =>
    obtain ⟨rfl, type, rfl⟩ := payLedger_eq h
    exact .goesOn rfl rfl rfl (.inr ⟨_, rfl, rfl⟩)
  | ledger issued type p =>
    obtain ⟨result, _, h⟩ := Option.bind_eq_some_iff.mp h
    obtain ⟨_, _, h⟩ := Option.bind_eq_some_iff.mp h
    cases h
    exact .goesOn rfl rfl rfl (.inl rfl)

/-- No segment changes the master. -/
theorem segment_master {cause : Cause Message Frame Rep}
    (h : program.segment time cause st = some (st', next)) : st'.master = st.master := by
  cases cause with
  | received m =>
    cases receive_cases h with
    | counts draws => exact draws.master
    | quotes => rfl
    | starts _ starts =>
      obtain ⟨_, _, _, _, draws, _⟩ := starts
      exact draws.master
  | delivered frame => cases h
  | resumed frame reply =>
    cases resume_cases h with
    | quoted starts =>
      obtain ⟨_, _, _, _, draws, _⟩ := starts st.master
      exact draws.master
    | goesOn _ master => exact master

end

/-! ## Every event -/

theorem step_master (s : System) (choice : Choice) :
    (program.step s choice).state.master = s.state.master := by
  refine step_state (R := fun st st' : State => st'.master = st.master) (fun _ => rfl) ?_
  intro a run cause st' next _ _ hsegment
  exact segment_master hsegment

/-- **Every await** is about what the master ordered. -/
theorem program_obeys : program.Tells (fun _ => True) OrderedAt := by
  refine ⟨?_, ?_, ?_, ?_⟩
  · intro s choice m frame _ ordered
    unfold OrderedAt
    rw [step_master]
    exact ordered
  · intro s a m st' frame h _
    cases receive_cases h with
    | quotes => rfl
    | starts _ starts =>
      obtain ⟨_, _, hnext, hpayment, _, orders⟩ := starts
      cases hnext
      exact .of_payment hpayment orders
  · intro s a m frame st' frame' h
    cases h
  · intro s a m frame reply st' frame' h _ ordered
    cases resume_cases h with
    | quoted starts =>
      obtain ⟨_, _, hnext, hpayment, _, orders⟩ := starts s.state.master
      cases hnext
      cases ordered
      exact .of_payment hpayment orders
    | @goesOn _ p _ _ payment _ _ goes =>
      obtain hnext | ⟨_, hnext, goes⟩ := goes
      · cases hnext
      cases hnext
      refine .of_payment goes ?_
      cases frame with
      | quoteToken backend r => cases payment
      | payToken backend p' =>
        cases payment
        exact ordered
      | ledger issued type p' =>
        cases payment
        exact ordered

/-! ## No order is paid twice -/

/-- A payment that is under way to its ledger. -/
def Frame.atLedger : Frame → Bool
  | .ledger .. => true
  | _ => false

/-- A segment that calls a ledger. -/
def Pays (entry : Entry Message Frame Answer Rep) : Bool :=
  (entry.outcome.bind Next.frame?).any Frame.atLedger

/-- How often a run called a ledger. -/
def System.payments (s : System) (run : Nat) : Nat := (s.history run).countP Pays

/-- A run that is not at the ledger has not been there, and none was there twice. -/
structure PaidOnce (s : System) : Prop where
  ordered : s.Ordered
  once : ∀ run, s.payments run ≤ 1
  before : ∀ (run : Nat) frame, s.suspended[run]? = some frame → frame.atLedger = false → s.payments run = 0

theorem PaidOnce.start (st : State) : PaidOnce (Sys.start st) :=
  ⟨ordered_start st, fun _ => Nat.zero_le 1, frames_start st⟩

/-- After the ledger a run awaits nothing. -/
theorem resume_atLedger {a : Nat} {frame : Frame} {reply : Rep frame} {st st' : State}
    {next : Next Frame Answer} (hledger : frame.atLedger = true)
    (h : program.resume a frame reply st = some (st', next)) : next.frame? = none := by
  cases frame with
  | quoteToken backend r => cases hledger
  | payToken backend p => cases hledger
  | ledger issued type p =>
    obtain ⟨result, _, h⟩ := Option.bind_eq_some_iff.mp h
    obtain ⟨_, _, h⟩ := Option.bind_eq_some_iff.mp h
    cases h
    rfl

/-- A segment of a run that has been at the ledger does not go there again. -/
theorem PaidOnce.taken {s : System} (paid : PaidOnce s) {a run : Nat} {cause : Cause Message Frame Rep}
    (enabled : s.Enabled run cause) :
    s.payments run = 0 ∨ frameOf (program.segment a cause s.state) = none := by
  cases cause with
  | received m =>
    left
    unfold System.payments
    rw [history_eq_nil paid.ordered (Nat.le_of_eq enabled.symm)]
    rfl
  | delivered frame => exact .inr rfl
  | resumed frame reply =>
    cases hledger : frame.atLedger with
    | false => exact .inl (paid.before run frame enabled hledger)
    | true =>
      right
      cases hsegment : program.segment a (.resumed frame reply) s.state with
      | none => rfl
      | some result => exact resume_atLedger hledger hsegment

theorem PaidOnce.step {s : System} (paid : PaidOnce s) (choice : Choice) :
    PaidOnce (program.step s choice) := by
  have ordered := ordered_step (P := program) paid.ordered choice
  rcases step_cases program s choice with e | ⟨a, run, cause, _, enabled, _, e⟩
  · rw [e]
    exact paid
  rw [e] at ordered ⊢
  have own : System.payments (s.after run cause (program.segment a cause s.state)) run =
      s.payments run + if (frameOf (program.segment a cause s.state)).any Frame.atLedger then 1 else 0 := by
    unfold System.payments
    rw [history_after, List.countP_cons, frameOf_eq]
    rfl
  have other : ∀ run', run' ≠ run →
      System.payments (s.after run cause (program.segment a cause s.state)) run' = s.payments run' := by
    intro run' hne
    unfold System.payments
    rw [history_after_of_ne s cause _ hne]
  refine ⟨ordered, fun run' => ?_, fun run' frame hframe hledger => ?_⟩
  · by_cases hrun : run' = run
    · rw [hrun, own]
      obtain hzero | hnone := paid.taken (a := a) enabled
      · rw [hzero]
        split <;> decide
      · rw [hnone]
        exact paid.once run
    · rw [other run' hrun]
      exact paid.once run'
  · by_cases hrun : run' = run
    · rw [hrun, get_after] at hframe
      rw [hrun, own, hframe]
      obtain hzero | hnone := paid.taken (a := a) enabled
      · rw [hzero]
        simp [hledger]
      · rw [hnone] at hframe
        cases hframe
    · rw [get_after_of_ne s cause _ hrun] at hframe
      rw [other run' hrun]
      exact paid.before run' frame hframe hledger

/-! ## Pools that were upgraded -/

/-- An upgrade, as the master sees it. -/
def LifeEvent.isUpgrade : LifeEvent → Bool
  | .choice _ => false
  | .upgrade => true

/-- The master of a pool: an upgrade forgets the one that it was installed with. -/
def masterAfter (master : Principal) (events : List LifeEvent) : Principal :=
  if events.any LifeEvent.isUpgrade then Principal.managementCanister else master

/-- A pool that pays what its master ordered, and no order twice. -/
structure Obeys (master : Principal) (s : System) : Prop where
  ordered : ∀ (run : Nat) frame, s.suspended[run]? = some frame → ∃ m, s.Began run m ∧ frame.Ordered master m
  once : ∀ run, s.payments run ≤ 1

/-- The invariant behind it. -/
structure Sound (s : System) : Prop where
  told : ∀ (run : Nat) frame, s.suspended[run]? = some frame → TellsOf OrderedAt s run frame
  paid : PaidOnce s

theorem live_sound {s : System} (sound : Sound s) (event : LifeEvent) : Sound (live s event) := by
  cases event with
  | choice choice => exact ⟨program_obeys.step_suspended trivial sound.told choice, sound.paid.step choice⟩
  | upgrade =>
    -- nothing is suspended any more, and the log is what it was
    have hnone : ∀ (run : Nat), (live s .upgrade).suspended[run]? = none := fun run =>
      Std.ExtTreeMap.getElem?_empty
    refine ⟨fun run frame hframe => ?_, ⟨?_, sound.paid.ordered.logged⟩, sound.paid.once,
      fun run frame hframe => ?_⟩
    · exact nomatch (hnone run).symm.trans hframe
    · intro run frame hframe
      exact nomatch (hnone run).symm.trans hframe
    · exact nomatch (hnone run).symm.trans hframe

theorem live_master (s : System) (event : LifeEvent) :
    (live s event).state.master =
      if event.isUpgrade then Principal.managementCanister else s.state.master := by
  cases event with
  | choice choice => exact step_master s choice
  | upgrade => rfl

/-- The master is the one of the installation until the first upgrade. -/
theorem lived_master (events : List LifeEvent) (s : System) :
    (events.foldl live s).state.master = masterAfter s.state.master events := by
  induction events generalizing s with
  | nil => rfl
  | cons event events ih =>
    rw [List.foldl_cons, ih, live_master]
    unfold masterAfter
    rw [List.any_cons]
    cases event.isUpgrade <;> simp

/-- **A pool obeys its master**: in every life of a pool, upgrades included, whatever a run awaits was ordered
by the message of the present master that started the run, and no run calls a ledger twice. -/
theorem pool_obeys_master (creator master backendAddr : Principal) (events : List LifeEvent) :
    Obeys (masterAfter master events) (lived creator master backendAddr events) := by
  have sound : Sound (lived creator master backendAddr events) :=
    foldl_invariant (I := Sound) (fun _ event h => live_sound h event) ⟨frames_start _, .start _⟩ events
  refine ⟨fun run frame hframe => ?_, sound.paid.once⟩
  obtain ⟨m, began, ordered⟩ := sound.told run frame hframe
  refine ⟨m, began, ?_⟩
  unfold OrderedAt lived at ordered
  rw [lived_master] at ordered
  exact ordered

/-! ## The memos -/

/-- The memo that a segment draws: `count_meno` answers it, a payment starts with it. -/
def drawn (entry : Entry Message Frame Answer Rep) : Option String :=
  match entry.outcome with
  | some (.returned (.memo memo)) => some memo
  | some (.returned .unit) => none
  | some (.awaits frame) =>
    if (entry.cause.frame?.bind Frame.payment?).isSome then none else frame.payment?.map Payment.memo
  | none => none

/-- The memos that were drawn, the first one first. -/
def System.memos (s : System) : List String := s.log.reverse.filterMap drawn

/-- The memo of a number: the counter starts again after 999. -/
def numbered (n : Nat) : String := "p:" ++ toString (n % 1000)

/-- The memos are numbered from 1 on, and the counter is at the last one. -/
structure InTurn (s : System) : Prop where
  count : s.state.count = s.memos.length % 1000
  memos : ∀ (i : Nat) memo, s.memos[i]? = some memo → memo = numbered (i + 1)

/-- A segment draws the next memo, or leaves the counter alone. -/
theorem segment_draws {a : Nat} (run : Nat) {cause : Cause Message Frame Rep} {st st' : State}
    {next : Next Frame Answer} (h : program.segment a cause st = some (st', next)) :
    (st'.count = st.count ∧ drawn ⟨run, cause, some next⟩ = none) ∨
      ∃ memo, Draws st st' memo ∧ drawn ⟨run, cause, some next⟩ = some memo := by
  cases cause with
  | received m =>
    cases receive_cases h with
    | counts draws => exact .inr ⟨_, draws, rfl⟩
    | quotes => exact .inl ⟨rfl, rfl⟩
    | starts _ starts =>
      obtain ⟨frame, p, rfl, hpayment, draws, _⟩ := starts
      refine .inr ⟨p.memo, draws, ?_⟩
      exact congrArg (Option.map Payment.memo) hpayment
  | delivered frame => cases h
  | resumed frame reply =>
    cases resume_cases h with
    | quoted starts =>
      obtain ⟨frame, p, rfl, hpayment, draws, _⟩ := starts st.master
      refine .inr ⟨p.memo, draws, ?_⟩
      exact congrArg (Option.map Payment.memo) hpayment
    | goesOn payment _ count goes =>
      refine .inl ⟨count, ?_⟩
      obtain rfl | ⟨frame', rfl, _⟩ := goes
      · rfl
      · exact if_pos (congrArg Option.isSome payment)

/-- The counter at the number of the last memo gives the next one. -/
theorem countMeno_eq {st : State} {n : Nat} (h : st.count = n % 1000) :
    st.countMeno.1.count = (n + 1) % 1000 ∧ st.countMeno.2 = numbered (n + 1) := by
  unfold State.countMeno numbered
  rw [h]
  split
  next hlast =>
    have hzero : (n + 1) % 1000 = 0 := by omega
    rw [hzero]
    exact ⟨rfl, rfl⟩
  next hlast =>
    have hnext : n % 1000 + 1 = (n + 1) % 1000 := by omega
    rw [hnext]
    exact ⟨rfl, rfl⟩

theorem InTurn.start {st : State} (h : st.count = 0) : InTurn (Sys.start st) := by
  refine ⟨h, fun i memo hmemo => ?_⟩
  cases hmemo

/-- The memos after a segment. -/
theorem memos_after (s : System) (run : Nat) (cause : Cause Message Frame Rep)
    (result : Option (State × Next Frame Answer)) :
    System.memos (s.after run cause result) =
      s.memos ++ (drawn ⟨run, cause, result.map Prod.snd⟩).toList := by
  unfold System.memos Sys.after
  rw [List.reverse_cons, List.filterMap_append]
  congr 1

/-- A system whose memos and counter are the same. -/
theorem InTurn.of_same {s s' : System} (inTurn : InTurn s) (count : s'.state.count = s.state.count)
    (memos : s'.memos = s.memos) : InTurn s' := by
  refine ⟨?_, ?_⟩
  · rw [count, memos]
    exact inTurn.count
  · rw [memos]
    exact inTurn.memos

/-- A system that drew the next memo. -/
theorem InTurn.of_drawn {s s' : System} (inTurn : InTurn s) {memo : String}
    (draws : Draws s.state s'.state memo) (memos : s'.memos = s.memos ++ [memo]) : InTurn s' := by
  obtain ⟨hcount, hmemo⟩ := countMeno_eq inTurn.count
  refine ⟨?_, fun i memo' h => ?_⟩
  · rw [memos, List.length_append, draws.count, hcount]
    rfl
  · rw [memos] at h
    rcases Nat.lt_or_ge i s.memos.length with hi | hi
    · rw [List.getElem?_append_left hi] at h
      exact inTurn.memos i memo' h
    · rw [List.getElem?_append_right hi] at h
      rw [List.getElem?_singleton] at h
      split at h
      next hlast =>
        cases h
        have hlength : i = s.memos.length := by omega
        rw [draws.memo, hmemo, hlength]
      next => cases h

theorem InTurn.step {s : System} (inTurn : InTurn s) (choice : Choice) :
    InTurn (program.step s choice) := by
  rcases step_cases program s choice with e | ⟨a, run, cause, _, _, _, e⟩
  · rw [e]
    exact inTurn
  rw [e]
  have memos := memos_after s run cause (program.segment a cause s.state)
  cases hsegment : program.segment a cause s.state with
  | none =>
    -- a trap undoes its draw
    rw [hsegment] at memos
    exact inTurn.of_same rfl (memos.trans (List.append_nil _))
  | some result =>
    rw [hsegment] at memos
    obtain ⟨count, hdrawn⟩ | ⟨memo, draws, hdrawn⟩ := segment_draws run hsegment
    · rw [Option.map_some, hdrawn] at memos
      exact inTurn.of_same count (memos.trans (List.append_nil _))
    · rw [Option.map_some, hdrawn] at memos
      exact inTurn.of_drawn draws memos

/-- Of numbers below a thousand, the memos are different. -/
theorem numbered_inj {m n : Nat} (h : numbered m = numbered n) : m % 1000 = n % 1000 := by
  have hlists := congrArg String.toList h
  unfold numbered at hlists
  rw [String.toList_append, String.toList_append] at hlists
  have hdigits := congrArg (parseWord 10) (String.toList_inj.mp (List.append_cancel_left hlists))
  rw [parseWord_toString, parseWord_toString, if_pos (by omega), if_pos (by omega)] at hdigits
  exact Option.some.inj hdigits

/-- **The memos are dealt out in turn**: whatever is interleaved and whatever traps, the first memo is number
one, each next one has the next number modulo a thousand, and so no two of a thousand successive ones are
the same. -/
theorem memos_in_turn (creator master backendAddr : Principal) (choices : List Choice) :
    (∀ (i : Nat) memo, (System.memos (choices.foldl program.step
        (Sys.start (init creator master backendAddr))))[i]? = some memo → memo = numbered (i + 1)) ∧
      ∀ (i j : Nat) memo, i < j → j < i + 1000 →
        (System.memos (choices.foldl program.step
          (Sys.start (init creator master backendAddr))))[i]? = some memo →
        (System.memos (choices.foldl program.step
          (Sys.start (init creator master backendAddr))))[j]? ≠ some memo := by
  have inTurn : InTurn (choices.foldl program.step (Sys.start (init creator master backendAddr))) :=
    foldl_invariant (I := InTurn) (fun _ choice h => h.step choice) (.start rfl) choices
  refine ⟨inTurn.memos, fun i j memo hij hji hi hj => ?_⟩
  have same := numbered_inj ((inTurn.memos i memo hi).symm.trans (inTurn.memos j memo hj))
  omega

end Fomowell.Pool
