import Fomowell.Candid

/-!
# Calls of a token (`fomowell-icpex-lib/src/interface/itoken.rs`)

A canister calls a token through `IToken`, which picks the ledger method by the type of the token.
The type is read from a cache; where the token is not cached, or its entry is older than a day,
`get_token_type_by_principal` first awaits the backend's `getToken` and stores what it answers under
the address in the answer. A failed lookup leaves the cache as it was.

`CallResult` is the reply to a call of another canister: a value, or a rejection with its code and
message. The ledgers answer a transfer or an approval with a result of their own inside it, whose
error is printed and kept here as its text.
-/

namespace Fomowell.Token

/-- `RejectionCode`. -/
inductive RejectionCode
  | NoError
  | SysFatal
  | SysTransient
  | DestinationInvalid
  | CanisterReject
  | CanisterError
  | Unknown
  deriving DecidableEq

/-- A call that was not answered with a value. -/
abbrev Rejection : Type := RejectionCode × String

/-- `CallResult`. -/
abbrev CallResult (V : Type) : Type := Except Rejection V

/-- `TokenType`. -/
inductive TokenType
  | DIP20
  | EXT
  | ICRC1
  | ICRC2
  | UNKOWN
  deriving DecidableEq

/-- `TokenType::from`. -/
def TokenType.ofString : String → TokenType
  | "DIP20" => .DIP20
  | "EXT" => .EXT
  | "ICRC-1" => .ICRC1
  | "ICRC-2" => .ICRC2
  | _ => .UNKOWN

/-- `TokenInfo`. -/
structure TokenInfo where
  address : Principal
  tokenType : String
  symbol : String
  name : String
  decimals : Nat
  owner : Principal
  logo : String
  platformTokenType : String
  flatFee : Bool
  burnRate : Nat
  feeRate : Nat
  flatBurnFee : Bool
  totalSupply : Nat
  mintOn : Bool
  deriving DecidableEq

/-- `TOKENS_INFO` and `TOKENS_TIME_OUT`. -/
structure TokenCache where
  tokensInfo : PrincipalMap TokenInfo
  tokensTimeOut : PrincipalMap Nat

namespace TokenCache

def empty : TokenCache := ⟨∅, ∅⟩

/-- `token_exists`. -/
def tokenExists (cache : TokenCache) (tokenAddr : Principal) : Bool :=
  cache.tokensInfo[tokenAddr]?.isSome

/-- `token_out`: the entry is older than a day. -/
def tokenOut (cache : TokenCache) (tokenAddr : Principal) (time : Nat) : Bool :=
  let v := cache.tokensTimeOut[tokenAddr]?.getD 0
  let outtime := v + 86400000000000
  time > outtime

/-- The condition under which `get_token_type_by_principal` awaits the backend. -/
def needsRefresh (cache : TokenCache) (tokenAddr : Principal) (time : Nat) : Bool :=
  !cache.tokenExists tokenAddr || cache.tokenOut tokenAddr time

/-- The end of `refresh_token`. -/
def refreshToken (cache : TokenCache) (time : Nat) : CallResult TokenInfo → TokenCache
  | .ok info =>
    { tokensInfo := cache.tokensInfo.insert info.address info
      tokensTimeOut := cache.tokensTimeOut.insert info.address time }
  | .error _ => cache

/-- `get_token_type_by_principal_without_refresh`, and the end of `get_token_type_by_principal`. -/
def tokenType (cache : TokenCache) (tokenAddr : Principal) : TokenType :=
  match cache.tokensInfo[tokenAddr]? with
  | some info => .ofString info.tokenType
  | none => .UNKOWN

end TokenCache

/-! ## Replies of the ledgers -/

/-- What a ledger answers to a request: a rejection, the printed text of its own error, or the
number of the block. -/
abbrev LedgerReply : Type := CallResult (Except String Nat)

/-- The match on a reply whose outer layer is passed on by `?`, with the text of an inner error. -/
def replyResult (text : String → String) : LedgerReply → CallResult Unit
  | .ok (.ok _) => .ok ()
  | .ok (.error e) => .error (.CanisterError, text e)
  | .error e => .error e

/-- The match of `approve` on an ICRC-2 ledger's reply, whose inner error is not looked at. -/
def icrc2ApproveResult : LedgerReply → CallResult Unit
  | .ok _ => .ok ()
  | .error v => .error v

/-- What `IToken::transfer_from` returns for the reply of a ledger: the same for every type. -/
def transferFromResult : LedgerReply → CallResult Unit := replyResult fun e => e

/-- What `IToken::approve` returns for the reply of a ledger. -/
def approveResult (type : TokenType) : LedgerReply → CallResult Unit :=
  if type = .ICRC2 then icrc2ApproveResult else replyResult fun e => e

end Fomowell.Token
