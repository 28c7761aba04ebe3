import Fomowell.Pool.State
import Fomowell.Token.Dispatch

/-!
# How a pool calls tokens

A pool is a dispatcher: a quote and a payment each look the type of their token up where the cache is not
fresh, and go on with what came back. So every payment calls its ledger by a type that the backend answered
for the token (`payments_backed`).
-/

namespace Fomowell.Pool

open Canister Token

/-- The token that a frame calls its ledger for, and by which type. -/
def Frame.call? : Frame → Option (Principal × TokenType)
  | .ledger _ type p => some (p.token, type)
  | _ => none

/-- What the backend was asked about, and what it answered. -/
def lookup : Cause Message Frame Rep → Option (Principal × CallResult TokenInfo)
  | .resumed (.quoteToken _ r) reply => some (r.token, reply)
  | .resumed (.payToken _ p) reply => some (p.token, reply)
  | _ => none

section

variable {time : Nat} {st st' : State} {next : Next Frame Answer}

theorem countMeno_tokenCache (st : State) : st.countMeno.1.tokenCache = st.tokenCache := by
  unfold State.countMeno
  split <;> rfl

theorem payLedger_calls {p : Payment} {asked : Option Principal}
    (fresh : st.tokenCache.needsRefresh p.token time = false ∨ asked = some p.token)
    (h : payLedger time p st = some (st', next)) :
    CallsBy Frame.call? time asked st.tokenCache st'.tokenCache next.frame? := by
  unfold payLedger at h
  dsimp only at h
  have unsupported : st.tokenCache.tokenType p.token = .UNKOWN →
      p.program time (st.tokenCache.tokenType p.token) = .trap := by
    intro hunknown
    rw [hunknown]
    rfl
  split at h
  next hsubmit =>
    cases h
    refine ⟨rfl, ?_⟩
    rintro frame ⟨⟩ token type hcall
    cases hcall
    refine ⟨fun hunknown => ?_, rfl, fresh⟩
    rw [unsupported hunknown] at hsubmit
    cases hsubmit
  next => cases h

theorem pay_calls {p : Payment} {asked : Option Principal} (h : pay time p st = some (st', next)) :
    CallsBy Frame.call? time asked st.tokenCache st'.tokenCache next.frame? := by
  unfold pay at h
  split at h
  next =>
    cases h
    exact .quiet rfl rfl
  next hfresh => exact payLedger_calls (.inl (Bool.not_eq_true _ ▸ hfresh)) h

theorem payNext_calls {token recipient : Principal} {value : Nat} {asked : Option Principal}
    (h : payNext time token recipient value st = some (st', next)) :
    CallsBy Frame.call? time asked st.tokenCache st'.tokenCache next.frame? :=
  (pay_calls h).of_eq (countMeno_tokenCache st)

theorem retrieveQuoted_calls {r : Retrieval} (asked : Option Principal)
    (h : retrieveQuoted time r st = some (st', next)) :
    CallsBy Frame.call? time asked st.tokenCache st'.tokenCache next.frame? := by
  obtain ⟨_, _, h⟩ := Option.bind_eq_some_iff.mp h
  obtain ⟨_, _, h⟩ := Option.bind_eq_some_iff.mp h
  exact payNext_calls h

/-- The first segment of a run goes on with the cache as it is. -/
theorem receive_calls {m : Message} (h : receive time m st = some (st', next)) :
    CallsBy Frame.call? time none st.tokenCache st'.tokenCache next.frame? := by
  cases m with
  | transfer caller token recipient amount =>
    replace h : (if caller ≠ st.master then none else payNext time token recipient amount st) =
      some (st', next) := h
    split at h
    · cases h
    · exact payNext_calls h
  | retrieve caller token amount recipient =>
    replace h : retrieve time caller token amount recipient st = some (st', next) := h
    unfold retrieve at h
    split at h
    · cases h
    split at h
    · cases h
      exact .quiet rfl rfl
    · exact retrieveQuoted_calls none h
  | countMeno =>
    cases h
    exact .quiet (countMeno_tokenCache st) rfl

/-- A later one goes on with what it was told. -/
theorem resume_calls {frame : Frame} {reply : Rep frame}
    (h : resume time frame reply st = some (st', next)) :
    CallsBy Frame.call? time ((lookup (.resumed frame reply)).map Prod.fst)
      (st.tokenCache.after time (lookup (.resumed frame reply))) st'.tokenCache next.frame? := by
  cases frame with
  | quoteToken backend r => exact retrieveQuoted_calls (some r.token) h
  | payToken backend p => exact payLedger_calls (.inr rfl) h
  | ledger issued type p =>
    obtain ⟨_, _, h⟩ := Option.bind_eq_some_iff.mp h
    obtain ⟨_, _, h⟩ := Option.bind_eq_some_iff.mp h
    cases h
    exact .quiet rfl rfl

end

/-- A pool calls tokens by what it looked up. -/
def dispatcher : Dispatcher program where
  clock := id
  cache := State.tokenCache
  call := Frame.call?
  lookup := lookup
  segment {_ cause _ _ _} h := by
    cases cause with
    | received m => exact receive_calls h
    | delivered frame => cases h
    | resumed frame reply => exact resume_calls h

/-- **Every payment calls its ledger by a type that the backend answered** for the token, under every
schedule. -/
theorem payments_backed (creator master backendAddr : Principal) (choices : List Choice) :
    dispatcher.AllBacked
      (choices.foldl program.trace (Sys.start (init creator master backendAddr), [])).2 :=
  dispatcher.allBacked rfl choices

end Fomowell.Pool
