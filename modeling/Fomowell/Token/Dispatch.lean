import Fomowell.Lib.Traces
import Fomowell.Token.IToken

/-!
# The type that a token is called by

The launcher and a pool pick the ledger method of a token by its type, which they look up at the backend and
cache for a day. A lookup is an await, so the call that it was made for comes later, and other runs look up
and call the same tokens in the meantime.

A cache `Holds` some answers if it says of every token what the latest of them about it says. A program
that keeps such a cache and calls tokens by it, whatever it is for, is a `Dispatcher`; then every call of a
ledger is `Backed` (`Dispatcher.allBacked`): the backend answered this type for this token, nothing later
about it came in, and the answer is at most a day old, unless the backend was asked again for this very call
and said nothing about the token.
-/

namespace Fomowell.Token

open Std Canister Table Runs

/-! ## What a cache holds -/

/-- What an answer says about a token, with its time. -/
def about (token : Principal) : Nat × CallResult TokenInfo → Option (Nat × TokenInfo)
  | (time, .ok info) => if info.address = token then some (time, info) else none
  | (_, .error _) => none

/-- The latest of some answers about a token. The latest answer comes first. -/
def latestAbout (answers : List (Nat × CallResult TokenInfo)) (token : Principal) :
    Option (Nat × TokenInfo) :=
  answers.findSome? (about token)

/-- A cache says what was answered last. -/
structure TokenCache.Holds (cache : TokenCache) (answers : List (Nat × CallResult TokenInfo)) :
    Prop where
  info : ∀ token : Principal, cache.tokensInfo[token]? = (latestAbout answers token).map Prod.snd
  time : ∀ token : Principal, cache.tokensTimeOut[token]? = (latestAbout answers token).map Prod.fst

theorem TokenCache.holds_empty : TokenCache.empty.Holds [] :=
  ⟨fun _ => ExtTreeMap.getElem?_empty, fun _ => ExtTreeMap.getElem?_empty⟩

/-- **A refreshed cache** holds one answer more. -/
theorem TokenCache.Holds.refresh {cache : TokenCache} {answers : List (Nat × CallResult TokenInfo)}
    (h : cache.Holds answers) (time : Nat) (reply : CallResult TokenInfo) :
    (cache.refreshToken time reply).Holds ((time, reply) :: answers) := by
  cases reply with
  | error e => exact ⟨h.info, h.time⟩
  | ok info =>
    have hlatest : ∀ token, latestAbout ((time, .ok info) :: answers) token =
        if token = info.address then some (time, info) else latestAbout answers token := by
      intro token
      unfold latestAbout
      by_cases htoken : token = info.address
      · have hsays : about token (time, .ok info) = some (time, info) := if_pos htoken.symm
        rw [if_pos htoken, List.findSome?_cons, hsays]
      · have hsays : about token (time, .ok info) = none := if_neg fun same => htoken same.symm
        rw [if_neg htoken, List.findSome?_cons, hsays]
    refine ⟨fun token => ?_, fun token => ?_⟩
    · show (cache.tokensInfo.insert info.address info)[token]? = _
      rw [get_insert, hlatest, h.info]
      split <;> rfl
    · show (cache.tokensTimeOut.insert info.address time)[token]? = _
      rw [get_insert, hlatest, h.time]
      split <;> rfl

/-- A token whose type is known was answered. -/
theorem TokenCache.Holds.type {cache : TokenCache} {answers : List (Nat × CallResult TokenInfo)}
    (h : cache.Holds answers) {token : Principal} (known : cache.tokenType token ≠ .UNKOWN) :
    ∃ time info, latestAbout answers token = some (time, info) ∧
      cache.tokenType token = .ofString info.tokenType := by
  unfold TokenCache.tokenType at known ⊢
  rw [h.info] at known ⊢
  cases hlatest : latestAbout answers token with
  | none =>
    rw [hlatest] at known
    exact absurd rfl known
  | some answer => exact ⟨answer.1, answer.2, rfl, rfl⟩

/-- Where no refresh is needed the answer is at most a day old. -/
theorem TokenCache.Holds.fresh {cache : TokenCache} {answers : List (Nat × CallResult TokenInfo)}
    (h : cache.Holds answers) {token : Principal} {now time : Nat} {info : TokenInfo}
    (hlatest : latestAbout answers token = some (time, info))
    (fresh : cache.needsRefresh token now = false) : now ≤ time + 86400000000000 := by
  have hold : cache.tokenOut token now = false := (Bool.or_eq_false_iff.mp fresh).2
  unfold TokenCache.tokenOut at hold
  rw [h.time, hlatest] at hold
  exact Nat.not_lt.mp (of_decide_eq_false hold)

/-! ## Programs that call tokens -/

section

variable {α σ μ φ ρ : Type} {Rep : φ → Type}

/-- The cache with what a lookup brought, if there was one. -/
def TokenCache.after (cache : TokenCache) (time : Nat) :
    Option (Principal × CallResult TokenInfo) → TokenCache
  | some (_, reply) => cache.refreshToken time reply
  | none => cache

/-- A segment that goes on with a cache: it leaves it alone, and calls a token by the type there, where that
is fresh or the token was just asked about. -/
structure CallsBy (call : φ → Option (Principal × TokenType)) (time : Nat) (asked : Option Principal)
    (cache cache' : TokenCache) (frame? : Option φ) : Prop where
  same : cache' = cache
  calls : ∀ frame, frame? = some frame → ∀ token type, call frame = some (token, type) →
    type ≠ .UNKOWN ∧ type = cache.tokenType token ∧
      (cache.needsRefresh token time = false ∨ asked = some token)

/-- A segment that calls no token. -/
theorem CallsBy.quiet {call : φ → Option (Principal × TokenType)} {time : Nat}
    {asked : Option Principal} {cache cache' : TokenCache} {frame? : Option φ} (same : cache' = cache)
    (silent : frame?.bind call = none) : CallsBy call time asked cache cache' frame? := by
  refine ⟨same, ?_⟩
  rintro frame rfl token type hcall
  exact nomatch hcall.symm.trans silent

/-- A write that leaves the cache alone may come first. -/
theorem CallsBy.of_eq {call : φ → Option (Principal × TokenType)} {time : Nat}
    {asked : Option Principal} {cache mid cache' : TokenCache} {frame? : Option φ}
    (h : CallsBy call time asked mid cache' frame?) (same : mid = cache) :
    CallsBy call time asked cache cache' frame? := by
  rw [← same]
  exact h

/-- **A program that calls tokens by its cache**: where it keeps the cache, which frames await a ledger, and
what a segment was told about the token that it asked about. -/
structure Dispatcher (P : Canister.Program α σ μ φ ρ Rep) where
  clock : α → Nat
  cache : σ → TokenCache
  call : φ → Option (Principal × TokenType)
  lookup : Cause μ φ Rep → Option (Principal × CallResult TokenInfo)
  segment : ∀ {a cause st st' next}, P.segment a cause st = some (st', next) →
    CallsBy call (clock a) ((lookup cause).map Prod.fst) ((cache st).after (clock a) (lookup cause))
      (cache st') next.frame?

namespace Dispatcher

variable {P : Canister.Program α σ μ φ ρ Rep} (D : Dispatcher P)

/-- What a segment that ended has learnt. -/
def learns (ev : Executed α σ μ φ ρ Rep) : Option (Nat × CallResult TokenInfo) :=
  ev.result.bind fun _ => (D.lookup ev.cause).map fun asked => (D.clock ev.ambient, asked.2)

/-- What was learnt in a record of segments. -/
def answers (record : List (Executed α σ μ φ ρ Rep)) : List (Nat × CallResult TokenInfo) :=
  record.filterMap D.learns

/-- The type that a token is called by is what the backend answered last, at most a day ago, or when it
was asked in vain for this call. -/
def Backed (ev : Executed α σ μ φ ρ Rep) (older : List (Executed α σ μ φ ρ Rep)) (token : Principal)
    (type : TokenType) : Prop :=
  ∃ time info, latestAbout (D.answers (ev :: older)) token = some (time, info) ∧
    type = .ofString info.tokenType ∧
      (D.clock ev.ambient ≤ time + 86400000000000 ∨
        ∃ reply, D.lookup ev.cause = some (token, reply) ∧
          ∀ answer, reply = .ok answer → answer.address ≠ token)

/-- A segment that traps has learnt nothing. -/
theorem answers_cons_of_trap {ev : Executed α σ μ φ ρ Rep} (htrap : ev.result = none)
    (older : List (Executed α σ μ φ ρ Rep)) : D.answers (ev :: older) = D.answers older := by
  refine List.filterMap_cons_none ?_
  unfold learns
  rw [htrap]
  rfl

/-- The cache after a segment holds what was learnt in it too. -/
theorem holds_after {ev : Executed α σ μ φ ρ Rep} {older : List (Executed α σ μ φ ρ Rep)} {st' : σ}
    {next : Next φ ρ} (holds : (D.cache ev.before).Holds (D.answers older))
    (result : P.segment ev.ambient ev.cause ev.before = some (st', next))
    (hresult : ev.result = some (st', next)) : (D.cache st').Holds (D.answers (ev :: older)) := by
  have refreshes := (D.segment result).same
  have hlearns : D.learns ev = (D.lookup ev.cause).map fun asked => (D.clock ev.ambient, asked.2) := by
    unfold learns
    rw [hresult]
    rfl
  unfold answers
  cases hlookup : D.lookup ev.cause with
  | none =>
    rw [hlookup] at refreshes hlearns
    rw [List.filterMap_cons_none hlearns, refreshes]
    exact holds
  | some asked =>
    obtain ⟨token, reply⟩ := asked
    rw [hlookup] at refreshes hlearns
    rw [List.filterMap_cons_some hlearns, refreshes]
    exact holds.refresh (D.clock ev.ambient) reply

/-- A call that a segment makes is backed. -/
theorem backed_of_call {ev : Executed α σ μ φ ρ Rep} {older : List (Executed α σ μ φ ρ Rep)} {st' : σ}
    {frame : φ} (holds : (D.cache ev.before).Holds (D.answers older))
    (result : P.segment ev.ambient ev.cause ev.before = some (st', .awaits frame))
    (hresult : ev.result = some (st', .awaits frame)) {token : Principal} {type : TokenType}
    (hcall : D.call frame = some (token, type)) : D.Backed ev older token type := by
  have holds' := D.holds_after holds result hresult
  have segment := D.segment result
  obtain ⟨known, htype, fresh⟩ := segment.calls frame rfl token type hcall
  rw [← segment.same] at htype fresh
  rw [htype] at known
  obtain ⟨time, info, hlatest, hinfo⟩ := holds'.type known
  refine ⟨time, info, hlatest, htype.trans hinfo, ?_⟩
  obtain fresh | asked := fresh
  · exact .inl (holds'.fresh hlatest fresh)
  obtain ⟨⟨lookedUp, reply⟩, hlookup, htoken⟩ := Option.map_eq_some_iff.mp asked
  replace htoken : lookedUp = token := htoken
  rw [htoken] at hlookup
  by_cases told : ∃ answer, reply = .ok answer ∧ answer.address = token
  · -- the answer to this very lookup is the latest one
    obtain ⟨answer, rfl, haddress⟩ := told
    have hlearns : D.learns ev = some (D.clock ev.ambient, .ok answer) := by
      unfold learns
      rw [hresult, hlookup]
      rfl
    have hsays : about token (D.clock ev.ambient, .ok answer) = some (D.clock ev.ambient, answer) :=
      if_pos haddress
    unfold answers latestAbout at hlatest
    rw [List.filterMap_cons_some hlearns, List.findSome?_cons, hsays] at hlatest
    cases hlatest
    exact .inl (Nat.le_add_right _ _)
  · exact .inr ⟨reply, hlookup, fun answer hreply haddress => told ⟨answer, hreply, haddress⟩⟩

/-- Every call in a record was backed when it was made. -/
def AllBacked (record : List (Executed α σ μ φ ρ Rep)) : Prop :=
  ∀ ev older, (ev :: older) <:+ record → ∀ frame, frameOf ev.result = some frame →
    ∀ token type, D.call frame = some (token, type) → D.Backed ev older token type

/-- The cache holds what was learnt, and every call was backed. -/
structure Holds (m : Traced α σ μ φ ρ Rep) : Prop where
  cache : (D.cache m.1.state).Holds (D.answers m.2)
  backed : D.AllBacked m.2

theorem AllBacked.cons {ev : Executed α σ μ φ ρ Rep} {older : List (Executed α σ μ φ ρ Rep)}
    (backed : D.AllBacked older)
    (latest : ∀ frame, frameOf ev.result = some frame → ∀ token type,
      D.call frame = some (token, type) → D.Backed ev older token type) :
    D.AllBacked (ev :: older) := by
  intro ev' older' hsuffix
  rcases List.suffix_cons_iff.mp hsuffix with same | hsuffix
  · cases same
    exact latest
  · exact backed ev' older' hsuffix

theorem trace_holds {m : Traced α σ μ φ ρ Rep} (h : D.Holds m) (label : Label α μ φ Rep) :
    D.Holds (P.trace m label) := by
  obtain ⟨_, e⟩ | ⟨ev, _, hbefore, hresult, _, hend⟩ := trace_cases P m label
  · rw [e]
    exact h
  have holds : (D.cache ev.before).Holds (D.answers m.2) := hbefore ▸ h.cache
  have backed : D.AllBacked (ev :: m.2) := by
    refine AllBacked.cons D h.backed fun frame hframe token type hcall => ?_
    match result : ev.result with
    | none =>
      rw [result] at hframe
      cases hframe
    | some (st', .returned answer) =>
      rw [result] at hframe
      cases hframe
    | some (st', .awaits left) =>
      rw [result] at hframe
      cases hframe
      exact D.backed_of_call holds (hresult.symm.trans result) result hcall
  obtain ⟨_, htrap, e⟩ | ⟨_, e⟩ := hend
  · rw [e]
    refine ⟨?_, backed⟩
    rw [D.answers_cons_of_trap htrap]
    exact h.cache
  · rw [e]
    refine ⟨?_, backed⟩
    cases hsegment : P.segment ev.ambient ev.cause ev.before with
    | none =>
      rw [hsegment] at hresult
      rw [D.answers_cons_of_trap hresult, hresult]
      exact h.cache
    | some result =>
      rw [hsegment] at hresult
      have holds' := D.holds_after holds hsegment hresult
      rw [hresult]
      exact holds'

/-- **Every call of a ledger is backed**, under every schedule from an empty cache. -/
theorem allBacked {st : σ} (empty : D.cache st = TokenCache.empty)
    (labels : List (Label α μ φ Rep)) :
    D.AllBacked (labels.foldl P.trace (Sys.start st, [])).2 := by
  refine (foldl_invariant (I := D.Holds) (fun _ label h => D.trace_holds h label) ⟨?_, ?_⟩ labels).backed
  · show (D.cache st).Holds []
    rw [empty]
    exact TokenCache.holds_empty
  · intro ev older hsuffix
    exact absurd (List.suffix_nil.mp hsuffix) (List.cons_ne_nil ev older)

end Dispatcher

end

end Fomowell.Token
