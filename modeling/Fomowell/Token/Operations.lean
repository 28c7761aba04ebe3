import Fomowell.Token.IToken

/-!
# Operations of a token (`fomowell-icpex-lib/src/interface/itoken.rs`)

The six methods of `IToken` that move or approve tokens, for each type of token they support. Each is
a program that may ask an ICRC-1 ledger for its fee and then submits one request to the ledger; what
it returns is computed from the reply by hand, in each method and for each type (`Program`). The
reply has two layers: the call may be rejected, and a call that is answered may carry an error of the
ledger, which is kept here as its printed text.

`reports_iff` says that a method succeeds exactly where the reply is an inner `Ok`, except for
`approve` on an ICRC-2 ledger: it matches the outer layer only.
-/

namespace Fomowell.Token

/-! ## Requests -/

/-- `Subaccount`, 32 bytes. -/
abbrev Subaccount : Type := List UInt8

/-- `Account`. -/
structure Account where
  owner : Principal
  subaccount : Option Subaccount

/-- `TransferArg`. -/
structure TransferArg where
  fromSubaccount : Option Subaccount
  recipient : Account
  amount : Nat
  fee : Option Nat
  memo : Option (List UInt8)
  createdAtTime : Option Nat

/-- `ICRC2TransferArg`. -/
structure ICRC2TransferArg where
  amount : Nat
  createdAtTime : Option Nat
  fee : Option Nat
  source : Account
  memo : Option (List UInt8)
  spenderSubaccount : Option Subaccount
  recipient : Account

/-- `ApproveArgs`. -/
structure ApproveArgs where
  fromSubaccount : Option Subaccount
  spender : Account
  amount : Nat
  expectedAllowance : Option Nat
  expiresAt : Option Nat
  fee : Option Nat
  memo : Option (List UInt8)
  createdAtTime : Option Nat

/-- A call of a ledger's method. -/
inductive Request
  | transfer (recipient : Principal) (value : Nat)
  | transferFrom (source recipient : Principal) (value : Nat)
  | approve (spender : Principal) (value : Nat)
  | mint (recipient : Principal) (amount : Nat)
  | icrc1Transfer (arg : TransferArg)
  | icrc2TransferFrom (arg : ICRC2TransferArg)
  | icrc2Approve (arg : ApproveArgs)

/-- The reply is an inner `Ok`. -/
def Accepted (reply : LedgerReply) : Prop := ∃ block, reply = .ok (.ok block)

/-- A method as a program of its awaits: it traps, returns, asks for the ICRC-1 fee, or submits its
request and returns what it makes of the reply. -/
inductive Program
  | trap
  | done (result : CallResult Unit)
  | fee (k : CallResult Nat → Program)
  | submit (request : Request) (k : LedgerReply → CallResult Unit)

/-- What a program returns, for the fee and the reply that the ledger answers. -/
def Program.run (fee : CallResult Nat) (reply : LedgerReply) : Program → Option (CallResult Unit)
  | .trap => none
  | .done result => some result
  | .fee k => (k fee).run fee reply
  | .submit _ k => some (k reply)

/-- The request that a program submits. -/
def Program.request (fee : CallResult Nat) : Program → Option Request
  | .trap => none
  | .done _ => none
  | .fee k => (k fee).request fee
  | .submit request _ => some request

/-! ## The methods -/

section

variable (principalToSubaccount : Principal → Subaccount) (time : Nat)

/-- The transfer arguments of `transfer`. -/
def transferArgOf (recipient : Principal) (value : Nat) (memo : String) : TransferArg where
  recipient := { owner := recipient, subaccount := none }
  fee := none
  memo := some memo.toUTF8.toList
  fromSubaccount := none
  createdAtTime := some time
  amount := value

/-- `transfer`. -/
def transfer (recipient : Principal) (value : Nat) (memo : String) : TokenType → Program
  | .DIP20 => .submit (.transfer recipient value) (replyResult fun e => "transfer_failed:" ++ e)
  | .ICRC1 =>
    .submit (.icrc1Transfer (transferArgOf time recipient value memo))
      (replyResult fun e => "transfer_failed:" ++ e)
  | .ICRC2 =>
    .submit (.icrc1Transfer (transferArgOf time recipient value memo))
      (replyResult fun e => "transfer_failed:" ++ e)
  | _ => .trap

/-- `transfer_from`. -/
def transferFrom (source recipient : Principal) (value : Nat) (memo : String) : TokenType → Program
  | .DIP20 => .submit (.transferFrom source recipient value) transferFromResult
  | .ICRC1 =>
    .submit
      (.icrc1Transfer
        { recipient := { owner := recipient, subaccount := none }
          fee := none
          memo := some memo.toUTF8.toList
          fromSubaccount := some (principalToSubaccount source)
          createdAtTime := some time
          amount := value })
      transferFromResult
  | .ICRC2 =>
    .submit
      (.icrc2TransferFrom
        { source := { owner := source, subaccount := none }
          recipient := { owner := recipient, subaccount := none }
          amount := value
          fee := none
          memo := some memo.toUTF8.toList
          createdAtTime := some time
          spenderSubaccount := none })
      transferFromResult
  | _ => .done (.error (.Unknown, "\"unsupport transfer token\""))

/-- `approve`. -/
def approve (spender : Principal) (value : Nat) : TokenType → Program
  | .DIP20 => .submit (.approve spender value) (approveResult .DIP20)
  | .ICRC1 => .done (.error (.CanisterError, "Approve unsupport for ICRC-1"))
  | .ICRC2 =>
    .submit
      (.icrc2Approve
        { fromSubaccount := none
          spender := { owner := spender, subaccount := none }
          amount := value
          expectedAllowance := none
          expiresAt := none
          fee := none
          memo := none
          createdAtTime := none })
      (approveResult .ICRC2)
  | _ => .trap

/-- `mint`, whose caller names the type of the token. -/
def mint (recipient : Principal) (amount : Nat) : TokenType → Program
  | .DIP20 => .submit (.mint recipient amount) (replyResult fun e => "DIP20 mint failed:" ++ e)
  | .ICRC2 =>
    .submit
      (.icrc1Transfer
        { recipient := { owner := recipient, subaccount := none }
          fee := none
          memo := none
          fromSubaccount := none
          createdAtTime := some time
          amount := amount })
      (replyResult fun e => "transfer_failed:" ++ e)
  | _ => .trap

/-- The ICRC-1 branch of `transfer_sub` and of `withdraw`: the fee is asked for and subtracted, and
the account that pays it is the one given. -/
def icrc1Send (fromSubaccount : Option Subaccount) (recipient : Account) (value : Nat) : Program :=
  .fee fun
    | .error _ => .trap
    | .ok fee =>
      if value ≤ fee then .trap
      else
        .submit
          (.icrc1Transfer
            { recipient := recipient
              fee := some fee
              memo := none
              fromSubaccount := fromSubaccount
              createdAtTime := some time
              amount := value - fee })
          (replyResult fun e => e)

/-- `transfer_sub`. -/
def transferSub (recipient : Account) (value : Nat) : TokenType → Program
  | .ICRC1 => icrc1Send time none recipient value
  | _ => .trap

/-- `withdraw`. -/
def withdraw (recipient : Principal) (value : Nat) : TokenType → Program
  | .ICRC1 =>
    icrc1Send time (some (principalToSubaccount recipient))
      { owner := recipient, subaccount := none } value
  | _ => .trap

end

/-! ## What the methods report -/

/-- One of the methods, with its arguments. -/
inductive Operation
  | transfer (recipient : Principal) (value : Nat) (memo : String)
  | transferFrom (source recipient : Principal) (value : Nat) (memo : String)
  | approve (spender : Principal) (value : Nat)
  | mint (recipient : Principal) (amount : Nat)
  | transferSub (recipient : Account) (value : Nat)
  | withdraw (recipient : Principal) (value : Nat)

namespace Operation

/-- The program of a method, for a type of token. -/
def program (principalToSubaccount : Principal → Subaccount) (time : Nat) :
    Operation → TokenType → Program
  | .transfer recipient value memo => Token.transfer time recipient value memo
  | .transferFrom source recipient value memo =>
    Token.transferFrom principalToSubaccount time source recipient value memo
  | .approve spender value => Token.approve spender value
  | .mint recipient amount => Token.mint time recipient amount
  | .transferSub recipient value => Token.transferSub time recipient value
  | .withdraw recipient value => Token.withdraw principalToSubaccount time recipient value

/-- The types of token that a method has a branch for. -/
def Supports : Operation → TokenType → Prop
  | .transfer .., type => type = .DIP20 ∨ type = .ICRC1 ∨ type = .ICRC2
  | .transferFrom .., type => type = .DIP20 ∨ type = .ICRC1 ∨ type = .ICRC2
  | .approve .., type => type = .DIP20 ∨ type = .ICRC2
  | .mint .., type => type = .DIP20 ∨ type = .ICRC2
  | .transferSub .., type => type = .ICRC1
  | .withdraw .., type => type = .ICRC1

end Operation

/-- A program that returns has submitted a request, and reports success exactly where the ledger
accepted it. -/
def Program.ReportsTruly (p : Program) (fee : CallResult Nat) (reply : LedgerReply) : Prop :=
  ∀ result, p.run fee reply = some result →
    (p.request fee).isSome ∧ (result = .ok () ↔ Accepted reply)

/-- The two layers are matched as they should be. -/
theorem replyResult_eq_ok (text : String → String) (reply : LedgerReply) :
    replyResult text reply = .ok () ↔ Accepted reply := by
  unfold Accepted
  constructor
  · intro h
    cases reply with
    | error => cases h
    | ok inner =>
      cases inner with
      | error => cases h
      | ok block => exact ⟨block, rfl⟩
  · rintro ⟨block, rfl⟩
    rfl

/-- A request whose reply is matched in both layers. -/
theorem submit_reportsTruly (request : Request) (text : String → String) (fee : CallResult Nat)
    (reply : LedgerReply) : (Program.submit request (replyResult text)).ReportsTruly fee reply := by
  intro result h
  cases h
  exact ⟨rfl, replyResult_eq_ok text reply⟩

/-- Asking for the fee first changes nothing: without a fee below the value the program traps. -/
theorem icrc1Send_reportsTruly (time : Nat) (fromSubaccount : Option Subaccount) (recipient : Account)
    (value : Nat) (fee : CallResult Nat) (reply : LedgerReply) :
    (icrc1Send time fromSubaccount recipient value).ReportsTruly fee reply := by
  intro result h
  unfold icrc1Send Program.run at h
  unfold icrc1Send Program.request
  cases fee with
  | error => cases h
  | ok fee =>
    dsimp only at h ⊢
    split at h
    · cases h
    next hfee =>
      rw [if_neg hfee]
      exact submit_reportsTruly _ _ (.ok fee) reply result h

/-- The ICRC-2 branch of `approve` looks at the outer layer only. -/
theorem icrc2Approve_reportsTruly_iff (request : Request) (fee : CallResult Nat)
    (reply : LedgerReply) :
    (Program.submit request icrc2ApproveResult).ReportsTruly fee reply ↔
      ∀ e, reply ≠ .ok (.error e) := by
  constructor
  · rintro h e rfl
    obtain ⟨block, hblock⟩ := ((h (.ok ()) rfl).2).mp rfl
    cases hblock
  · intro hreply result h
    cases h
    refine ⟨rfl, ?_⟩
    cases reply with
    | error e =>
      exact ⟨(fun h => nomatch h), (fun ⟨_, h⟩ => nomatch h)⟩
    | ok inner =>
      cases inner with
      | error e => exact absurd rfl (hreply e)
      | ok block => exact ⟨fun _ => ⟨block, rfl⟩, fun _ => rfl⟩

/-- **A method that returns reports success exactly where the ledger accepted its request**, except
for an approval that an ICRC-2 ledger answers with an error of its own. -/
theorem reports_iff (principalToSubaccount : Principal → Subaccount) (time : Nat) (op : Operation)
    (type : TokenType) (hsupports : op.Supports type) (fee : CallResult Nat) (reply : LedgerReply) :
    (op.program principalToSubaccount time type).ReportsTruly fee reply ↔
      ¬ ((∃ spender value, op = .approve spender value) ∧ type = .ICRC2 ∧
        ∃ e, reply = .ok (.error e)) := by
  cases op with
  | transfer recipient value memo =>
    refine iff_of_true ?_ (by rintro ⟨⟨_, _, h⟩, -⟩; cases h)
    obtain rfl | rfl | rfl := hsupports <;> exact submit_reportsTruly _ _ fee reply
  | transferFrom source recipient value memo =>
    refine iff_of_true ?_ (by rintro ⟨⟨_, _, h⟩, -⟩; cases h)
    obtain rfl | rfl | rfl := hsupports <;> exact submit_reportsTruly _ _ fee reply
  | approve spender value =>
    obtain rfl | rfl := hsupports
    · refine iff_of_true (submit_reportsTruly _ _ fee reply) ?_
      rintro ⟨-, h, -⟩
      cases h
    · rw [show (Operation.approve spender value).program principalToSubaccount time .ICRC2 =
        .submit _ icrc2ApproveResult from rfl, icrc2Approve_reportsTruly_iff]
      constructor
      · rintro h ⟨-, -, e, he⟩
        exact h e he
      · intro h e he
        exact h ⟨⟨spender, value, rfl⟩, rfl, e, he⟩
  | mint recipient amount =>
    refine iff_of_true ?_ (by rintro ⟨⟨_, _, h⟩, -⟩; cases h)
    obtain rfl | rfl := hsupports <;> exact submit_reportsTruly _ _ fee reply
  | transferSub recipient value =>
    refine iff_of_true ?_ (by rintro ⟨⟨_, _, h⟩, -⟩; cases h)
    cases hsupports
    exact icrc1Send_reportsTruly time none recipient value fee reply
  | withdraw recipient value =>
    refine iff_of_true ?_ (by rintro ⟨⟨_, _, h⟩, -⟩; cases h)
    cases hsupports
    exact icrc1Send_reportsTruly time _ _ value fee reply

/-- An ICRC-2 ledger refuses an approval for lack of funds, and the method succeeds. -/
theorem approve_not_reportsTruly :
    ¬ ((Operation.approve Principal.anonymous 5).program Principal.bytes 0 .ICRC2).ReportsTruly
      (.ok 0) (.ok (.error "InsufficientFunds { balance: Nat(0) }")) := by
  intro h
  exact (icrc2Approve_reportsTruly_iff _ _ _).mp h _ rfl

theorem reports_iff_withdraw :
    ((Operation.withdraw Principal.anonymous 5).program Principal.bytes 0 .ICRC1).ReportsTruly
        (.ok 2) (.ok (.error "TooOld")) ↔
      ¬ ((∃ spender value, Operation.withdraw Principal.anonymous 5 = .approve spender value) ∧
        TokenType.ICRC1 = .ICRC2 ∧
          ∃ e, (.ok (.error "TooOld") : LedgerReply) = .ok (.error e)) :=
  reports_iff Principal.bytes 0 (.withdraw Principal.anonymous 5) .ICRC1 rfl (.ok 2)
    (.ok (.error "TooOld"))

end Fomowell.Token
