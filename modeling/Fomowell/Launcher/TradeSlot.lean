import Fomowell.Launcher.Writes

/-!
# The slot of the latest trade

`set_buy_or_sell` shows its trade in the first ad slot, with the time of the swap, and refuses a swap
older than the one that is shown. The check stands before three awaits and the write after them, so it
is a check of the slot as it was: a run that waits is overtaken by another one, and then puts its older
trade into the slot.

A choice is `Overtaken` where it ends such a run. `slot_advances_iff`: the time in the slot never goes
back in exactly the schedules without one. `not_slot_advances` is two overlapping trades.
-/

namespace Fomowell.Launcher

open Std Canister Runs Token

/-- The time of the trade in the slot. -/
def State.swapTimestamp (st : State) : Option Nat := st.context.lastBuySellOp.swapTimestamp

/-- The time in the slot does not go back. -/
def SlotAdvances (st st' : State) : Prop :=
  ∀ t, st.swapTimestamp = some t → ∃ t', st'.swapTimestamp = some t' ∧ t ≤ t'

/-- A choice that ends `set_buy_or_sell` for a swap older than the one in the slot by then. -/
def Overtaken (env : Env) (s : System) (choice : Choice) : Prop :=
  ∃ a run type q reply,
    s.starts choice = some (a, run, .resumed (.ledger type (.totalSupply q)) reply) ∧
    (setBuyOrSellSupply env a.time q reply s.state).isSome ∧
    ∃ t, s.state.swapTimestamp = some t ∧ q.swapRecord.timestamp < t

/-- Between any two states of a schedule, the time in the slot does not go back. -/
def SlotNeverGoesBack (env : Env) (s : System) (choices : List Choice) : Prop :=
  ∀ earlier between later : List Choice, choices = earlier ++ between ++ later →
    SlotAdvances (earlier.foldl (program env).step s).state
      ((earlier ++ between).foldl (program env).step s).state

theorem SlotAdvances.refl (st : State) : SlotAdvances st st := fun t h => ⟨t, h, Nat.le_refl t⟩

theorem SlotAdvances.trans {st st' st'' : State} (h : SlotAdvances st st')
    (h' : SlotAdvances st' st'') : SlotAdvances st st'' := by
  intro t ht
  obtain ⟨t', ht', hle⟩ := h t ht
  obtain ⟨t'', ht'', hle'⟩ := h' t' ht'
  exact ⟨t'', ht'', hle.trans hle'⟩

/-- The slot is the same. -/
theorem SlotAdvances.of_eq {st st' : State} (h : st'.swapTimestamp = st.swapTimestamp) :
    SlotAdvances st st' := by
  intro t ht
  exact ⟨t, h.trans ht, Nat.le_refl t⟩

/-! ## One step -/

section

variable {env : Env} {a : Ambient} {st st' : State} {next : Next Frame Answer}

theorem progressNext_slot {order : HashOrder} {time : Nat} {addrConfig : AddrConfig}
    {list : List FomoProject} {map : ExtTreeMap Nat (Nat × Nat) compare} {maxMarketCap maxIdx : Nat}
    (h : progressNext env order time addrConfig list map maxMarketCap maxIdx st =
      some (st', next)) : st'.swapTimestamp = st.swapTimestamp := by
  obtain ⟨rfl, _⟩ | ⟨_, h⟩ := progressNext_cases h
  · rfl
  · unfold State.swapTimestamp
    rw [finishProgress_context h]

/-- What `set_buy_or_sell` puts into the slot. -/
theorem setBuyOrSellSupply_slot {time : Nat} {q : Quote} {supply : CallResult Nat}
    (h : setBuyOrSellSupply env time q supply st = some (st', next)) :
    st'.swapTimestamp = some q.swapRecord.timestamp := by
  obtain ⟨_, _, v, _, hwrite, _⟩ := setBuyOrSellSupply_ends h
  unfold State.swapTimestamp
  rw [insertProject_context hwrite]
  rfl

/-- **Every other segment leaves the slot alone.** -/
theorem Writes.slot {cause : Cause Message Frame Rep} (h : Writes env a st cause st' next) :
    st'.swapTimestamp = st.swapTimestamp ∨
      ∃ type q reply, cause = .resumed (.ledger type (.totalSupply q)) reply ∧
        setBuyOrSellSupply env a.time q reply st = some (st', next) := by
  cases h with
  | accounts accounting =>
    refine .inl ?_
    unfold State.swapTimestamp
    rw [accounting.writes.context_eq]
  | replied ends =>
    obtain ⟨v, _, ends⟩ := Option.bind_eq_some_iff.mp ends
    refine .inl ?_
    unfold State.swapTimestamp
    rw [insertProject_context ends]
  | started ends => exact .inl (progressNext_slot ends)
  | measured ends =>
    obtain ⟨_, _, _, ends⟩ := updateProgressItem_cases ends
    exact .inl (progressNext_slot ends)
  | traded ends => exact .inr ⟨_, _, _, rfl, ends⟩
  | installed ends =>
    obtain ⟨written, _, hwrite, rewards, _⟩ := createFomoInstalled_ends ends
    refine .inl ?_
    unfold State.swapTimestamp
    rw [rewards.writes.context_eq]
    show written.context.lastBuySellOp.swapTimestamp = st.context.lastBuySellOp.swapTimestamp
    rw [insertProject_context hwrite]

end

/-- **The time in the slot goes back exactly where a choice is overtaken.** -/
theorem step_slotAdvances_iff (env : Env) (s : System) (choice : Choice) :
    SlotAdvances s.state ((program env).step s choice).state ↔ ¬ Overtaken env s choice := by
  constructor
  · rintro advances ⟨a, run, type, q, reply, starts, ends, t, ht, hlt⟩
    obtain ⟨⟨st', next⟩, ends⟩ := Option.isSome_iff_exists.mp ends
    rw [step_resumed_state (P := program env) starts ends] at advances
    obtain ⟨t', ht', hle⟩ := advances t ht
    have hslot := (setBuyOrSellSupply_slot ends).symm.trans ht'
    rw [Option.some.injEq] at hslot
    omega
  · intro current
    refine step_state (R := SlotAdvances) .refl fun a run cause st' next starts _ hsegment => ?_
    obtain same | ⟨type, q, reply, rfl, ends⟩ := (segment_writes hsegment).slot
    · exact .of_eq same
    · intro t ht
      refine ⟨_, setBuyOrSellSupply_slot ends, Nat.not_lt.mp fun hlt => current ?_⟩
      exact ⟨a, run, type, q, reply, starts, Option.isSome_iff_exists.mpr ⟨_, ends⟩, t, ht, hlt⟩

/-- **The slot never goes back in time** in exactly the schedules in which no choice is overtaken. -/
theorem slot_advances_iff (env : Env) (s : System) (choices : List Choice) :
    SlotNeverGoesBack env s choices ↔
      Along (program env).step (fun s choice => ¬ Overtaken env s choice) s choices := by
  exact between_iff_along (I := fun _ => True) (R := fun s s' : System => SlotAdvances s.state s'.state)
    (fun s => .refl s.state) (fun _ _ _ h h' => h.trans h')
    (fun s choice _ => step_slotAdvances_iff env s choice) (fun _ _ _ => trivial) trivial choices

/-- A reply of the transaction canister for a later swap. -/
def laterReply : (frame : Frame) → Rep frame
  | .querySwapStatus _ => .ok [⟨5, .Succeeded⟩]
  | frame => sampleReply frame

/-- Two trades of one project: the first waits while the second, of a later swap, begins and ends. -/
def overtakenSchedule : List Choice :=
  sampleSchedule ++
    [sampleMessage (.setBuyOrSell sampleUser ⟨1, 0, "buy", 0⟩), sampleAnswer 15, sampleAnswer 15,
      sampleAnswer 15,
      sampleMessage (.setBuyOrSell sampleUser ⟨1, 0, "sell", 1⟩),
      .resume sampleAmbient 19 laterReply, sampleAnswer 19, sampleAnswer 19, sampleAnswer 19]

/-- **A slot that goes back in time**, from 5 to 1. -/
theorem not_slot_advances :
    ¬ ∀ env caller time addrConfig icpAddr choices,
      SlotNeverGoesBack env (Sys.start (init env caller time addrConfig icpAddr)) choices := by
  intro all
  have law : SlotNeverGoesBack sampleEnv sampleStart (overtakenSchedule ++ [sampleAnswer 15]) :=
    all _ _ _ _ _ _
  have advances := law overtakenSchedule [sampleAnswer 15] [] (List.append_nil _).symm
  have before : (overtakenSchedule.foldl (program sampleEnv).step sampleStart).state.swapTimestamp =
      some 5 := by
    decide +kernel
  have after : ((overtakenSchedule ++ [sampleAnswer 15]).foldl (program sampleEnv).step
      sampleStart).state.swapTimestamp = some 1 := by
    decide +kernel
  obtain ⟨t', ht', hle⟩ := advances 5 before
  rw [after, Option.some.injEq] at ht'
  omega

end Fomowell.Launcher
