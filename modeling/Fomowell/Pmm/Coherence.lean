import Fomowell.Lib.Runs
import Fomowell.Pmm.Sale

/-!
# Coherence of the market state over runs

A state is coherent when its reserves stand on the side of their targets that its `RState` names
(`PMMState.Coherent`). The differences that a sale takes are then in range. A run is a list of
operations of the router (`Op`): a sale moves the reserves by the amounts paid and answered, and an
operation that traps leaves the state as it was (`PMMState.next`).

Every operation but one keeps a coherent state coherent. The exception is a quote sale in `BelowOne`
that pays exactly the excess of base while the missing quote is less: it answers `ONE` although the
quote reserve has passed its target (`PMMState.ReturnsOffTarget`). `coherent_run_iff` says that this
is the only exception, over whole runs.
-/

namespace Fomowell.Pmm

open Checked Runs

/-- The reserves stand on the side of the targets that `r` names. -/
def PMMState.Coherent (s : PMMState) : Prop :=
  match s.r with
  | .ONE => s.b = s.b0 ∧ s.q = s.q0
  | .BelowOne => s.b0 ≤ s.b ∧ s.q ≤ s.q0
  | .AboveOne => s.b ≤ s.b0 ∧ s.q0 ≤ s.q

instance (s : PMMState) : Decidable s.Coherent := by
  unfold PMMState.Coherent
  exact match s.r with
    | .ONE => inferInstance
    | .BelowOne => inferInstance
    | .AboveOne => inferInstance

/-! ## Operations of the router -/

/-- An operation of the router on a pool. -/
inductive Op
  | sellBaseToken (pay : Nat)
  | sellQuoteToken (pay : Nat)
  | adjustedTarget
  deriving DecidableEq

/-- The state after a base sale that was answered. -/
def PMMState.afterBaseSale (s : PMMState) (pay : Nat) (answer : Nat × RState) : PMMState :=
  { s with b := s.b + pay, q := s.q - answer.1, r := answer.2 }

/-- The state after a quote sale that was answered. -/
def PMMState.afterQuoteSale (s : PMMState) (pay : Nat) (answer : Nat × RState) : PMMState :=
  { s with q := s.q + pay, b := s.b - answer.1, r := answer.2 }

/-- One operation: the amount paid out and the state after it. -/
def PMMState.step (s : PMMState) : Op → Option (Nat × PMMState)
  | .sellBaseToken pay => (sellBaseToken s pay).map fun a => (a.1, s.afterBaseSale pay a)
  | .sellQuoteToken pay => (sellQuoteToken s pay).map fun a => (a.1, s.afterQuoteSale pay a)
  | .adjustedTarget => (Pmm.adjustedTarget s).map fun s' => (0, s')

/-- The reserve that an operation pays from. -/
def PMMState.reserveFor (s : PMMState) : Op → Nat
  | .sellBaseToken _ => s.q
  | .sellQuoteToken _ => s.b
  | .adjustedTarget => 0

/-- The state after an operation; a trap leaves it as it was. -/
def PMMState.next (s : PMMState) (op : Op) : PMMState :=
  ((s.step op).map Prod.snd).getD s

/-- Where the operation returns, it pays at most the reserve it is paid from and leaves a coherent
state. -/
def PMMState.StepSound (s : PMMState) (op : Op) : Prop :=
  ∀ out s', s.step op = some (out, s') → out ≤ s.reserveFor op ∧ s'.Coherent

/-- The operation is a quote sale that pays the excess of base, and more than the missing quote. -/
def PMMState.ReturnsOffTarget (s : PMMState) : Op → Prop
  | .sellQuoteToken pay => s.r = .BelowOne ∧ pay = s.b - s.b0 ∧ s.q0 - s.q < pay
  | _ => False

instance (s : PMMState) (op : Op) : Decidable (s.ReturnsOffTarget op) := by
  unfold PMMState.ReturnsOffTarget
  exact match op with
    | .sellQuoteToken _ => inferInstance
    | .sellBaseToken _ => inferInstance
    | .adjustedTarget => inferInstance

/-! ## What one sale answers -/

/-- **What a sale answers**, by the side the pool stands on, read as a quote sale. Long of base, it is one
of three cases: still long, back at the targets, or past them. -/
theorem saleAt_spec {scale : Nat → Option Nat} {i : Nat} {s : PMMState} {returning pay out : Nat}
    {r : RState} (h : saleAt scale i s returning pay = some (out, r)) :
    match s.r with
    | .ONE => out ≤ s.b0 ∧ r = .AboveOne
    | .AboveOne => out ≤ s.b ∧ r = .AboveOne
    | .BelowOne => s.q ≤ s.q0 ∧ s.b0 ≤ s.b ∧
        (s.q + pay < s.q0 ∧ s.b0 + out ≤ s.b ∧ r = .BelowOne ∨
          s.q0 ≤ s.q + pay ∧ pay = returning ∧ s.b0 + out = s.b ∧ r = .ONE ∨
          s.q0 ≤ s.q + pay ∧ pay ≠ returning ∧ s.b ≤ s.b0 + out ∧ out ≤ s.b ∧ r = .AboveOne) := by
  unfold saleAt at h
  cases hr : s.r with
  | ONE =>
    simp only [hr] at h
    obtain ⟨_, _, h⟩ := Option.bind_eq_some_iff.mp h
    obtain ⟨_, hout, h⟩ := Option.bind_eq_some_iff.mp h
    cases h
    exact ⟨solveQuadraticFunctionForTrade_le hout, rfl⟩
  | AboveOne =>
    simp only [hr] at h
    obtain ⟨_, _, h⟩ := Option.bind_eq_some_iff.mp h
    obtain ⟨_, hout, h⟩ := Option.bind_eq_some_iff.mp h
    cases h
    exact ⟨solveQuadraticFunctionForTrade_le hout, rfl⟩
  | BelowOne =>
    simp only [hr] at h
    obtain ⟨toPay, hpay, h⟩ := Option.bind_eq_some_iff.mp h
    obtain ⟨toReceive, hreceive, h⟩ := Option.bind_eq_some_iff.mp h
    rw [sub_eq_some] at hpay hreceive
    refine ⟨by omega, by omega, ?_⟩
    split at h
    · -- still long of base: the integral, capped by what leads back to the target
      obtain ⟨_, _, h⟩ := Option.bind_eq_some_iff.mp h
      obtain ⟨_, _, h⟩ := Option.bind_eq_some_iff.mp h
      obtain ⟨_, _, h⟩ := Option.bind_eq_some_iff.mp h
      obtain ⟨_, _, h⟩ := Option.bind_eq_some_iff.mp h
      obtain ⟨_, _, h⟩ := Option.bind_eq_some_iff.mp h
      cases h
      refine .inl ⟨by omega, ?_, rfl⟩
      split <;> omega
    split at h
    next hback =>
      cases h
      exact .inr (.inl ⟨by omega, hback, by omega, rfl⟩)
    next hpast =>
      -- at or past the target: all that leads back to it, and a trade from there
      obtain ⟨_, _, h⟩ := Option.bind_eq_some_iff.mp h
      obtain ⟨_, _, h⟩ := Option.bind_eq_some_iff.mp h
      obtain ⟨_, _, h⟩ := Option.bind_eq_some_iff.mp h
      obtain ⟨traded, htraded, h⟩ := Option.bind_eq_some_iff.mp h
      cases h
      have hle := solveQuadraticFunctionForTrade_le htraded
      exact .inr (.inr ⟨by omega, hpast, by omega, by omega, rfl⟩)

/-- **What a base sale answers**: `saleAt` of the mirrored pool, with the missing base as the way back. -/
theorem sellBaseToken_spec {s : PMMState} {pay out : Nat} {r : RState}
    (h : sellBaseToken s pay = some (out, r)) :
    match s.r with
    | .ONE => out ≤ s.q0 ∧ r = .BelowOne
    | .BelowOne => out ≤ s.q ∧ r = .BelowOne
    | .AboveOne => s.b ≤ s.b0 ∧ s.q0 ≤ s.q ∧
        (s.b + pay < s.b0 ∧ s.q0 + out ≤ s.q ∧ r = .AboveOne ∨
          s.b + pay = s.b0 ∧ s.q0 + out = s.q ∧ r = .ONE ∨
          s.b0 < s.b + pay ∧ s.q ≤ s.q0 + out ∧ out ≤ s.q ∧ r = .BelowOne) := by
  rw [sellBaseToken_eq_saleAt, map_mirrorAnswer_eq_some] at h
  have spec := saleAt_spec h
  cases hr : s.r with
  | ONE | BelowOne =>
    simp only [PMMState.mirror, hr, RState.mirror] at spec
    exact ⟨spec.1, RState.mirror_injective spec.2⟩
  | AboveOne =>
    simp only [PMMState.mirror, hr] at spec
    obtain ⟨hb, hq, ⟨_, _, hside⟩ | ⟨_, _, _, hside⟩ | ⟨_, _, _, _, hside⟩⟩ := spec
    · exact ⟨hb, hq, .inl ⟨by omega, by omega, RState.mirror_injective hside⟩⟩
    · exact ⟨hb, hq, .inr (.inl ⟨by omega, by omega, RState.mirror_injective hside⟩)⟩
    · exact ⟨hb, hq, .inr (.inr ⟨by omega, by omega, by omega, RState.mirror_injective hside⟩)⟩

/-- **What a quote sale answers**: `saleAt`, with the excess of base as the way back, whatever quote is
missing; a sale of exactly the missing quote is otherwise in the last case. -/
theorem sellQuoteToken_spec {s : PMMState} {pay out : Nat} {r : RState}
    (h : sellQuoteToken s pay = some (out, r)) :
    match s.r with
    | .ONE => out ≤ s.b0 ∧ r = .AboveOne
    | .AboveOne => out ≤ s.b ∧ r = .AboveOne
    | .BelowOne => s.q ≤ s.q0 ∧ s.b0 ≤ s.b ∧
        (s.q + pay < s.q0 ∧ s.b0 + out ≤ s.b ∧ r = .BelowOne ∨
          s.q0 ≤ s.q + pay ∧ s.b0 + pay = s.b ∧ s.b0 + out = s.b ∧ r = .ONE ∨
          s.q0 ≤ s.q + pay ∧ s.b ≤ s.b0 + out ∧ out ≤ s.b ∧ r = .AboveOne) := by
  have spec := saleAt_spec (saleAt_of_sellQuoteToken h)
  cases hr : s.r with
  | ONE | AboveOne =>
    simp only [hr] at spec
    exact spec
  | BelowOne =>
    simp only [hr] at spec
    obtain ⟨hq, hb, ⟨_, _, rfl⟩ | ⟨_, hback, _, rfl⟩ | ⟨_, _, _, _, rfl⟩⟩ := spec
    · exact ⟨hq, hb, .inl ⟨by omega, by omega, rfl⟩⟩
    · exact ⟨hq, hb, .inr (.inl ⟨by omega, by omega, by omega, rfl⟩)⟩
    · exact ⟨hq, hb, .inr (.inr ⟨by omega, by omega, by omega, rfl⟩)⟩

/-- A quote sale that returns off target does return, at `ONE`, all of the excess of base. -/
theorem sellQuoteToken_of_returnsOffTarget {s : PMMState} {pay : Nat} (hs : s.Coherent)
    (h : s.ReturnsOffTarget (.sellQuoteToken pay)) :
    sellQuoteToken s pay = some (s.b - s.b0, .ONE) := by
  obtain ⟨hr, hpay, hlt⟩ := h
  simp only [PMMState.Coherent, hr] at hs
  unfold sellQuoteToken
  simp only [hr, sub_of_le hs.1, sub_of_le hs.2, Option.bind_eq_bind, Option.bind_some,
    if_neg (Nat.not_lt.mpr (Nat.le_of_lt hlt)), if_pos hpay]
  rfl

/-- A re-solved target keeps a coherent state coherent. -/
theorem adjustedTarget_coherent {s s' : PMMState} (h : adjustedTarget s = some s')
    (hs : s.Coherent) : s'.Coherent := by
  unfold adjustedTarget at h
  cases hr : s.r with
  | ONE =>
    simp only [hr, Option.some.injEq] at h
    exact h ▸ hs
  | BelowOne =>
    simp only [hr] at h
    obtain ⟨_, _, h⟩ := Option.bind_eq_some_iff.mp h
    obtain ⟨_, _, h⟩ := Option.bind_eq_some_iff.mp h
    obtain ⟨q0, hq0, h⟩ := Option.bind_eq_some_iff.mp h
    cases h
    simp only [PMMState.Coherent, hr] at hs ⊢
    exact ⟨hs.1, le_of_solveQuadraticFunctionForTarget hq0⟩
  | AboveOne =>
    simp only [hr] at h
    obtain ⟨_, _, h⟩ := Option.bind_eq_some_iff.mp h
    obtain ⟨_, _, h⟩ := Option.bind_eq_some_iff.mp h
    obtain ⟨_, _, h⟩ := Option.bind_eq_some_iff.mp h
    obtain ⟨b0, hb0, h⟩ := Option.bind_eq_some_iff.mp h
    cases h
    simp only [PMMState.Coherent, hr] at hs ⊢
    exact ⟨le_of_solveQuadraticFunctionForTarget hb0, hs.2⟩

/-! ## One step -/

/-- A base sale from a coherent state is sound. -/
theorem baseSale_sound {s : PMMState} {pay out : Nat} {r : RState}
    (h : sellBaseToken s pay = some (out, r)) (hs : s.Coherent) :
    out ≤ s.q ∧ (s.afterBaseSale pay (out, r)).Coherent := by
  have spec := sellBaseToken_spec h
  cases hr : s.r with
  | ONE =>
    simp only [PMMState.Coherent, hr] at hs spec
    obtain ⟨hout, rfl⟩ := spec
    simp only [PMMState.Coherent, PMMState.afterBaseSale]
    omega
  | BelowOne =>
    simp only [PMMState.Coherent, hr] at hs spec
    obtain ⟨hout, rfl⟩ := spec
    simp only [PMMState.Coherent, PMMState.afterBaseSale]
    omega
  | AboveOne =>
    simp only [hr] at spec
    obtain ⟨hb, hq, ⟨_, _, rfl⟩ | ⟨_, _, rfl⟩ | ⟨_, _, _, rfl⟩⟩ := spec <;>
      simp only [PMMState.Coherent, PMMState.afterBaseSale] <;> omega

/-- A quote sale from a coherent state is sound exactly where it does not return off target. -/
theorem quoteSale_sound_iff {s : PMMState} {pay out : Nat} {r : RState}
    (h : sellQuoteToken s pay = some (out, r)) (hs : s.Coherent) :
    (out ≤ s.b ∧ (s.afterQuoteSale pay (out, r)).Coherent) ↔
      ¬ s.ReturnsOffTarget (.sellQuoteToken pay) := by
  have spec := sellQuoteToken_spec h
  cases hr : s.r with
  | ONE =>
    simp only [PMMState.Coherent, hr] at hs spec
    obtain ⟨hout, rfl⟩ := spec
    simp only [PMMState.Coherent, PMMState.afterQuoteSale, PMMState.ReturnsOffTarget, hr,
      reduceCtorEq, false_and, not_false_eq_true, iff_true]
    omega
  | AboveOne =>
    simp only [PMMState.Coherent, hr] at hs spec
    obtain ⟨hout, rfl⟩ := spec
    simp only [PMMState.Coherent, PMMState.afterQuoteSale, PMMState.ReturnsOffTarget, hr,
      reduceCtorEq, false_and, not_false_eq_true, iff_true]
    omega
  | BelowOne =>
    by_cases hoff : s.ReturnsOffTarget (.sellQuoteToken pay)
    · -- the answer is `ONE`, but the quote reserve is past its target
      refine iff_of_false ?_ (not_not_intro hoff)
      rw [sellQuoteToken_of_returnsOffTarget hs hoff] at h
      cases h
      obtain ⟨_, _, hlt⟩ := hoff
      simp only [PMMState.Coherent, PMMState.afterQuoteSale, hr] at hs ⊢
      omega
    · refine iff_of_true ?_ hoff
      simp only [hr] at spec
      simp only [PMMState.ReturnsOffTarget, hr, true_and] at hoff
      obtain ⟨hq, hb, ⟨_, _, rfl⟩ | ⟨_, _, _, rfl⟩ | ⟨_, _, _, rfl⟩⟩ := spec <;>
        simp only [PMMState.Coherent, PMMState.afterQuoteSale] <;> omega

/-- **One step from a coherent state is sound exactly where it does not return off target.** -/
theorem stepSound_iff {s : PMMState} (hs : s.Coherent) (op : Op) :
    s.StepSound op ↔ ¬ s.ReturnsOffTarget op := by
  cases op with
  | sellBaseToken pay =>
    refine iff_of_true (fun out s' h => ?_) id
    obtain ⟨⟨y, r⟩, hsale, h⟩ := Option.map_eq_some_iff.mp h
    cases h
    exact baseSale_sound hsale hs
  | sellQuoteToken pay =>
    constructor
    · intro sound hoff
      have hsale := sellQuoteToken_of_returnsOffTarget hs hoff
      exact (quoteSale_sound_iff hsale hs).mp (sound _ _ (by rw [PMMState.step, hsale]; rfl)) hoff
    · intro hoff out s' h
      obtain ⟨⟨y, r⟩, hsale, h⟩ := Option.map_eq_some_iff.mp h
      cases h
      exact (quoteSale_sound_iff hsale hs).mpr hoff
  | adjustedTarget =>
    refine iff_of_true (fun out s' h => ?_) id
    obtain ⟨t, ht, h⟩ := Option.map_eq_some_iff.mp h
    cases h
    exact ⟨Nat.le_refl 0, adjustedTarget_coherent ht hs⟩

/-- A step that does not return off target keeps a coherent state coherent, trap or not. -/
theorem next_coherent {s : PMMState} (hs : s.Coherent) {op : Op} (h : ¬ s.ReturnsOffTarget op) :
    (s.next op).Coherent := by
  unfold PMMState.next
  cases hstep : s.step op with
  | none => exact hs
  | some a => exact ((stepSound_iff hs op).mpr h a.1 a.2 hstep).2

/-! ## Whole runs -/

/-- **Coherence over runs.** From a coherent state, every step of a run that returns pays at most the
reserve it is paid from and leaves a coherent state, exactly where no step of the run is a quote
sale that returns off target. -/
theorem coherent_run_iff {s : PMMState} (hs : s.Coherent) (ops : List Op) :
    Along PMMState.next PMMState.StepSound s ops ↔
      Along PMMState.next (fun s op => ¬ s.ReturnsOffTarget op) s ops :=
  along_congr_of_invariant (I := PMMState.Coherent) (fun _ op h => stepSound_iff h op)
    (fun _ _ h hop => next_coherent h hop) hs ops

/-- The law is met by a run that crosses the targets both ways. -/
theorem coherent_run_longOfBase :
    Along PMMState.next PMMState.StepSound longOfBase
      [.sellQuoteToken 5, .sellBaseToken 3, .adjustedTarget] :=
  (coherent_run_iff (s := longOfBase) (by decide) _).mpr
    ⟨(by decide : ¬ longOfBase.ReturnsOffTarget (.sellQuoteToken 5)), id, id, trivial⟩

/-- **A run that loses coherence.** Paying ten quote tokens into `longOfBase` answers its ten excess
base tokens and `ONE`, with fifteen quote tokens against a target of ten. -/
theorem not_coherent_run :
    ¬ ∀ s : PMMState, s.Coherent → s.k ≤ nat18 → ∀ ops : List Op,
      Along PMMState.next PMMState.StepSound s ops := by
  intro all
  obtain ⟨sound, -⟩ := all longOfBase (by decide) (by decide) [.sellQuoteToken 10]
  obtain ⟨-, coherent⟩ := sound 10 (longOfBase.afterQuoteSale 10 (10, .ONE)) rfl
  exact absurd coherent (by decide)

end Fomowell.Pmm
