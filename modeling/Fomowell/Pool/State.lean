import Fomowell.Lib.Canister
import Fomowell.Token.FeeQuote
import Fomowell.Token.Operations

/-!
# The canister of a pool (`fomowell-pool/src/main.rs`)

A pool keeps the tokens of one pair, and its master, the router, has it pay them out: `transfer` pays an
amount, `retrieve` what is left of an amount net of the token's fees. Each payment has a memo, which
`count_meno` numbers; anyone may call it.

Everything the canister knows is on its heap, and it has no upgrade hooks, so an upgrade leaves the defaults
behind. The queries, which ask the router, and the address of the router, which they read, are left out.
-/

namespace Fomowell.Pool

open Canister Token

/-- `InnerPoolInfo`, `CounterState`, the `backend_addr` of `AddrConfig`, and the cache of the tokens. -/
structure State where
  creator : Principal
  master : Principal
  backendAddr : Principal
  count : Nat
  tokenCache : TokenCache

/-- What the canister has that was not set: the `Default` of each record. -/
def State.default : State where
  creator := Principal.managementCanister
  master := Principal.managementCanister
  backendAddr := Principal.anonymous
  count := 0
  tokenCache := TokenCache.empty

/-- `init`. -/
def init (creator master backendAddr : Principal) : State :=
  { State.default with creator, master, backendAddr }

/-- `count_meno`: the number after the last, and zero after 999. -/
def State.countMeno (st : State) : State × String :=
  if st.count ≥ 999 then
    ({ st with count := 0 }, "p:" ++ toString 0)
  else
    ({ st with count := st.count + 1 }, "p:" ++ toString (st.count + 1))

/-! ## Messages and frames -/

/-- A message to an update method, with its caller where the method reads it. -/
inductive Message
  | transfer (caller token recipient : Principal) (amount : Nat)
  | retrieve (caller token : Principal) (amount : Nat) (recipient : Principal)
  | countMeno

/-- What a method answers. -/
inductive Answer
  | unit
  | memo (memo : String)

/-- A payment, with its memo. -/
structure Payment where
  token : Principal
  recipient : Principal
  value : Nat
  memo : String

/-- The locals of `retrieve` before its quote. -/
structure Retrieval where
  token : Principal
  amount : Nat
  recipient : Principal

/-- An await. The type of a token is looked up at the backend, for the quote and again for the payment. -/
inductive Frame
  | quoteToken (backend : Principal) (r : Retrieval)
  | payToken (backend : Principal) (p : Payment)
  | ledger (time : Nat) (type : TokenType) (p : Payment)

/-- The replies that may resume a frame. -/
def Rep : Frame → Type
  | .quoteToken .. => CallResult TokenInfo
  | .payToken .. => CallResult TokenInfo
  | .ledger .. => LedgerReply

/-- How a segment ends. -/
abbrev Segment : Type := Option (State × Next Frame Answer)

/-! ## The methods -/

/-- What `IToken::transfer` does for a payment. -/
def Payment.program (p : Payment) (time : Nat) (type : TokenType) : Token.Program :=
  transfer time p.recipient p.value p.memo type

/-- A payment asks the ledger of its token, for the types that are supported. -/
def payLedger (time : Nat) (p : Payment) (st : State) : Segment :=
  let type := st.tokenCache.tokenType p.token
  match p.program time type with
  | .submit .. => some (st, .awaits (.ledger time type p))
  | _ => none

/-- `IToken::transfer` up to its first await. -/
def pay (time : Nat) (p : Payment) (st : State) : Segment :=
  if st.tokenCache.needsRefresh p.token time then
    some (st, .awaits (.payToken st.backendAddr p))
  else payLedger time p st

/-- The end of both methods: a payment that failed traps. -/
def paid (time : Nat) (type : TokenType) (p : Payment) (reply : LedgerReply) (st : State) : Segment := do
  let result ← (p.program time type).run (.ok 0) reply
  let _ ← result.toOption
  return (st, .returned .unit)

/-- The payment of both methods, under the next memo. -/
def payNext (time : Nat) (token recipient : Principal) (value : Nat) (st : State) : Segment :=
  let (st, memo) := st.countMeno
  pay time { token, recipient, value, memo } st

/-- `retrieve` from the quote to the payment. -/
def retrieveQuoted (time : Nat) (r : Retrieval) (st : State) : Segment := do
  let quote ← getAmountWithoutFeeQuery st.tokenCache r.token r.amount
  let inputAmount ← quote.toOption
  payNext time r.token r.recipient inputAmount st

/-- `retrieve` up to its first await, for the master. Nothing is looked up for an amount of zero. -/
def retrieve (time : Nat) (caller token : Principal) (amount : Nat) (recipient : Principal)
    (st : State) : Segment :=
  if caller ≠ st.master then
    none
  else if amount ≠ 0 ∧ st.tokenCache.needsRefresh token time then
    some (st, .awaits (.quoteToken st.backendAddr { token, amount, recipient }))
  else
    retrieveQuoted time { token, amount, recipient } st

/-- The segment that a message starts. -/
def receive (time : Nat) : Message → State → Segment
  | .transfer caller token recipient amount, st =>
    if caller ≠ st.master then none else payNext time token recipient amount st
  | .retrieve caller token amount recipient, st => retrieve time caller token amount recipient st
  | .countMeno, st => some (st.countMeno.1, .returned (.memo st.countMeno.2))

/-- The segment that a reply resumes. -/
def resume (time : Nat) : (frame : Frame) → Rep frame → State → Segment
  | .quoteToken _ r, reply, st =>
    retrieveQuoted time r { st with tokenCache := st.tokenCache.refreshToken time reply }
  | .payToken _ p, reply, st =>
    payLedger time p { st with tokenCache := st.tokenCache.refreshToken time reply }
  | .ledger issued type p, reply, st => paid issued type p reply st

/-- The canister. It makes no call to itself. -/
def program : Program Nat State Message Frame Answer Rep where
  receive := receive
  deliver _ _ _ := none
  resume := resume

/-- The canister with its suspended runs and its log. -/
abbrev System : Type := Sys State Message Frame Answer Rep

/-- A choice of the scheduler: the ambient value is the time. -/
abbrev Choice : Type := Label Nat Message Frame Rep

/-! ## Upgrades -/

/-- What can happen to a pool: a choice of its scheduler, or an upgrade. -/
inductive LifeEvent
  | choice (choice : Choice)
  | upgrade

/-- The pool after an event. An upgrade drops every suspended run. -/
def live (s : System) : LifeEvent → System
  | .choice choice => program.step s choice
  | .upgrade => { s with state := State.default, suspended := ∅ }

/-- The pool after some events from its installation. -/
def lived (creator master backendAddr : Principal) (events : List LifeEvent) : System :=
  events.foldl live (Sys.start (init creator master backendAddr))

end Fomowell.Pool
