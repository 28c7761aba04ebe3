import Mathlib.Data.List.Basic

/-!
# Methods as scripts

A method that asks other services one question after another and computes what it asks next from the
answers. `Script` is the tree of its questions: it traps, is done, or asks and goes on with any answer
of the question's type. Nothing is assumed about the services, so a run is any list of questions with
answers that the script follows (`Returns`).

Most methods can fail, and pass a failure on at once: `Method` is a script whose result is a value or
an error. The rules read a successful run backwards, one bind at a time (`succeeds_bind`), and say of a
part which question it asks (`Asks`) or that it asks none (`Silent`).
-/

namespace Scripts

variable {Q ε α β : Type} {Ans : Q → Type}

/-- A tree of questions. -/
inductive Script (Q : Type) (Ans : Q → Type) (α : Type)
  | trap
  | done (result : α)
  | ask (q : Q) (next : Ans q → Script Q Ans α)

/-- A question with its answer. -/
abbrev Event (Q : Type) (Ans : Q → Type) : Type := (q : Q) × Ans q

/-- The script goes on with another one. -/
def Script.bind : Script Q Ans α → (α → Script Q Ans β) → Script Q Ans β
  | .trap, _ => .trap
  | .done result, f => f result
  | .ask q next, f => .ask q fun answer => (next answer).bind f

instance : Monad (Script Q Ans) where
  pure := .done
  bind := .bind

/-- The script returns a result after some questions with their answers. -/
inductive Returns : Script Q Ans α → List (Event Q Ans) → α → Prop
  | done (result : α) : Returns (.done result) [] result
  | ask {q : Q} {next : Ans q → Script Q Ans α} {rest : List (Event Q Ans)} {result : α}
      (answer : Ans q) (h : Returns (next answer) rest result) :
      Returns (.ask q next) (⟨q, answer⟩ :: rest) result

/-- The run in which every question is answered by `world`: its questions and answers, and what it
returns. -/
def Script.play (world : (q : Q) → Ans q) : Script Q Ans α → Option (List (Event Q Ans) × α)
  | .trap => none
  | .done result => some ([], result)
  | .ask q next => ((next (world q)).play world).map fun run => (⟨q, world q⟩ :: run.1, run.2)

/-- It is a run. -/
theorem returns_of_play (world : (q : Q) → Ans q) {m : Script Q Ans α}
    {trace : List (Event Q Ans)} {a : α} (h : m.play world = some (trace, a)) :
    Returns m trace a := by
  induction m generalizing trace with
  | trap => cases h
  | done result =>
    cases h
    exact .done _
  | ask q next ih =>
    obtain ⟨run, hrun, h⟩ := Option.map_eq_some_iff.mp h
    cases h
    exact .ask (world q) (ih (world q) hrun)

theorem returns_done {trace : List (Event Q Ans)} {a b : α} :
    Returns (.done a) trace b ↔ trace = [] ∧ a = b := by
  constructor
  · rintro ⟨⟩
    exact ⟨rfl, rfl⟩
  · rintro ⟨rfl, rfl⟩
    exact .done a

/-- A run of two scripts in turn is a run of the one and then of the other. -/
theorem returns_then {m : Script Q Ans α} {f : α → Script Q Ans β} {trace : List (Event Q Ans)}
    {b : β} : Returns (m.bind f) trace b ↔
      ∃ first a rest, Returns m first a ∧ Returns (f a) rest b ∧ trace = first ++ rest := by
  constructor
  · intro h
    induction m generalizing trace with
    | trap => cases h
    | done a => exact ⟨[], a, trace, .done a, h, rfl⟩
    | ask q next ih =>
      cases h with
      | ask answer h =>
        obtain ⟨first, a, rest, hfirst, hrest, rfl⟩ := ih answer h
        exact ⟨_, a, rest, .ask answer hfirst, hrest, rfl⟩
  · rintro ⟨first, a, rest, hfirst, hrest, rfl⟩
    induction hfirst with
    | done a => exact hrest
    | ask answer _ ih => exact .ask answer (ih hrest)

/-! ## Methods that can fail -/

/-- A script whose result is a value or an error. -/
abbrev Method (Q : Type) (Ans : Q → Type) (ε α : Type) : Type := ExceptT ε (Script Q Ans) α

/-- A method that asks one question. -/
def ask (q : Q) : Method Q Ans ε (Ans q) := ExceptT.mk (.ask q fun answer => .done (.ok answer))

/-- `unwrap`: a missing value is a trap. -/
def unwrap : Option α → Method Q Ans ε α
  | some a => pure a
  | none => ExceptT.mk .trap

/-- A run of the method that ends with a value. -/
def Succeeds (m : Method Q Ans ε α) (trace : List (Event Q Ans)) (a : α) : Prop :=
  Returns m.run trace (.ok a)

section

variable {m : Method Q Ans ε α} {f : α → Method Q Ans ε β} {trace : List (Event Q Ans)} {a : α}

theorem succeeds_pure {b : α} :
    Succeeds (pure b : Method Q Ans ε α) trace a ↔ trace = [] ∧ b = a := by
  have hdone : Succeeds (pure b : Method Q Ans ε α) trace a ↔
      trace = [] ∧ (.ok b : Except ε α) = .ok a := returns_done
  rw [hdone, Except.ok.injEq]

/-- An error is not a success. -/
theorem not_succeeds_throw {e : ε} : ¬ Succeeds (throw e : Method Q Ans ε α) trace a := by
  intro h
  cases h

/-- **A success of two parts is a success of each, one after the other.** -/
theorem succeeds_bind {b : β} : Succeeds (m >>= f) trace b ↔
    ∃ first a rest, Succeeds m first a ∧ Succeeds (f a) rest b ∧ trace = first ++ rest := by
  refine (returns_then (m := m.run) (b := Except.ok b)).trans ?_
  constructor
  · rintro ⟨first, result, rest, hfirst, hrest, rfl⟩
    cases result with
    | ok a => exact ⟨first, a, rest, hfirst, hrest, rfl⟩
    | error e => cases hrest
  · rintro ⟨first, a, rest, hfirst, hrest, rfl⟩
    exact ⟨first, .ok a, rest, hfirst, hrest, rfl⟩

theorem succeeds_ask {q : Q} {answer : Ans q} :
    Succeeds (ask q : Method Q Ans ε (Ans q)) trace answer ↔ trace = [⟨q, answer⟩] := by
  constructor
  · rintro (_ | ⟨answer, ⟨⟩⟩)
    rfl
  · rintro rfl
    exact .ask answer (.done _)

theorem succeeds_unwrap {value : Option α} :
    Succeeds (unwrap value : Method Q Ans ε α) trace a ↔ trace = [] ∧ value = some a := by
  cases value with
  | none =>
    constructor
    · intro h
      cases h
    · rintro ⟨_, ⟨⟩⟩
  | some b =>
    rw [Option.some.injEq]
    exact succeeds_pure

/-- A method that goes on with a value goes on where there is one. -/
theorem succeeds_unwrap_bind {value : Option α} {b : β} :
    Succeeds (unwrap value >>= f) trace b ↔ ∃ a, value = some a ∧ Succeeds (f a) trace b := by
  rw [succeeds_bind]
  constructor
  · rintro ⟨_, a, rest, hfirst, hrest, rfl⟩
    obtain ⟨rfl, hvalue⟩ := succeeds_unwrap.mp hfirst
    exact ⟨a, hvalue, hrest⟩
  · rintro ⟨a, hvalue, hrest⟩
    exact ⟨[], a, trace, succeeds_unwrap.mpr ⟨rfl, hvalue⟩, hrest, rfl⟩

/-- A method that asks first goes on with the answer. -/
theorem succeeds_ask_bind {q : Q} {f : Ans q → Method Q Ans ε β} {b : β} :
    Succeeds (ask q >>= f) trace b ↔
      ∃ answer rest, trace = ⟨q, answer⟩ :: rest ∧ Succeeds (f answer) rest b := by
  rw [succeeds_bind]
  constructor
  · rintro ⟨_, answer, rest, hfirst, hrest, rfl⟩
    obtain rfl := succeeds_ask.mp hfirst
    exact ⟨answer, rest, rfl, hrest⟩
  · rintro ⟨answer, rest, rfl, hrest⟩
    exact ⟨[⟨q, answer⟩], answer, rest, succeeds_ask.mpr rfl, hrest, rfl⟩

end

/-! ## What a part asks -/

/-- A method that succeeds without a question. -/
def Silent (m : Method Q Ans ε α) : Prop := ∀ trace a, Succeeds m trace a → trace = []

/-- A method that succeeds after one question. -/
def Asks (q : Q) (m : Method Q Ans ε α) : Prop :=
  ∀ trace a, Succeeds m trace a → ∃ answer, trace = [⟨q, answer⟩]

section

variable {q : Q} {m : Method Q Ans ε α} {f : α → Method Q Ans ε β}

theorem Succeeds.nil {trace : List (Event Q Ans)} {a : α} (h : Succeeds m trace a)
    (hm : Silent m) : trace = [] :=
  hm trace a h

theorem Succeeds.asked {trace : List (Event Q Ans)} {a : α} (h : Succeeds m trace a)
    (hm : Asks q m) : ∃ answer, trace = [⟨q, answer⟩] :=
  hm trace a h

theorem silent_pure (a : α) : Silent (pure a : Method Q Ans ε α) :=
  fun _ _ h => (succeeds_pure.mp h).1

theorem silent_throw (e : ε) : Silent (throw e : Method Q Ans ε α) :=
  fun _ _ h => absurd h not_succeeds_throw

theorem silent_unwrap (value : Option α) : Silent (unwrap value : Method Q Ans ε α) :=
  fun _ _ h => (succeeds_unwrap.mp h).1

theorem Silent.bind (hm : Silent m) (hf : ∀ a, Silent (f a)) : Silent (m >>= f) := by
  intro trace b h
  obtain ⟨first, a, rest, hfirst, hrest, rfl⟩ := succeeds_bind.mp h
  rw [hm first a hfirst, hf a rest b hrest]
  rfl

theorem asks_bind {f : Ans q → Method Q Ans ε β} (hf : ∀ answer, Silent (f answer)) :
    Asks q (ask q >>= f) := by
  intro trace b h
  obtain ⟨answer, rest, rfl, hrest⟩ := succeeds_ask_bind.mp h
  rw [hf answer rest b hrest]
  exact ⟨answer, rfl⟩

/-- What follows a part without questions has all the questions. -/
theorem Silent.succeeds_bind (hm : Silent m) {trace : List (Event Q Ans)} {b : β}
    (h : Succeeds (m >>= f) trace b) : ∃ a, Succeeds m [] a ∧ Succeeds (f a) trace b := by
  obtain ⟨first, a, rest, hfirst, hrest, rfl⟩ := Scripts.succeeds_bind.mp h
  obtain rfl := hm first a hfirst
  exact ⟨a, hfirst, hrest⟩

/-- What follows a part with one question has the others. -/
theorem Asks.succeeds_bind (hm : Asks q m) {trace : List (Event Q Ans)} {b : β}
    (h : Succeeds (m >>= f) trace b) :
    ∃ answer a rest, trace = ⟨q, answer⟩ :: rest ∧ Succeeds (f a) rest b := by
  obtain ⟨first, a, rest, hfirst, hrest, rfl⟩ := Scripts.succeeds_bind.mp h
  obtain ⟨answer, rfl⟩ := hm first a hfirst
  exact ⟨answer, a, rest, rfl, hrest⟩

end

end Scripts
