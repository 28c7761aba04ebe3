import Fomowell.Pmm.Rounding

/-!
# The solver of trades as a function

`_solve_quadratic_function_for_trade` returns for every amount, pays out at most the reserve, and no
less for more. The three cases of `k` return for different reasons: a constant price divides by a
constant, a `k` of one by the square of the target, and the quadratic case by `2(1 - k)`, after a root
that is never below the coefficient it is lessened by.
-/

namespace Fomowell.Pmm

variable {v0 v1 delta delta' i k : Nat}

/-- **The solver returns** for every amount. -/
theorem solveQuadraticFunctionForTrade_returns (hv0 : 0 < v0) (hv1 : 0 < v1) (hk : k ≤ nat18)
    (delta i : Nat) : ∃ out, solveQuadraticFunctionForTrade v0 v1 delta i k = some out := by
  by_cases hdelta : delta = 0
  · rw [hdelta]
    obtain ⟨out, h, _⟩ := roundsDown_of_nothing (i := i) (k := k) hv0 hv1
    exact ⟨out, h⟩
  by_cases hzero : k = 0
  · rw [hzero]
    obtain ⟨out, h, _⟩ := @roundsDown_of_zero v0 v1 delta i hv0
    exact ⟨out, h⟩
  by_cases hone : k = nat18
  · rw [hone]
    obtain ⟨out, h, _⟩ := roundsDown_of_one (i := i) hv0 hv1 hdelta
    exact ⟨out, h⟩
  obtain ⟨v2, hv2⟩ : ∃ v2, tradeV2 v0 v1 delta i k = some v2 :=
    tradeV2_returns hv1 (Nat.lt_of_le_of_ne hk hone)
  exact ⟨_, solveQuadraticFunctionForTrade_of_tradeV2 hv0 hdelta hzero hone hv2⟩

/-- **Trades are answered, bounded and monotone**, for every two amounts. -/
theorem trade_monotone (hv0 : 0 < v0) (hv1 : 0 < v1) (hk : k ≤ nat18) (hdelta : delta ≤ delta') :
    ∃ out out', solveQuadraticFunctionForTrade v0 v1 delta i k = some out ∧
      solveQuadraticFunctionForTrade v0 v1 delta' i k = some out' ∧
      out ≤ v1 ∧ out' ≤ v1 ∧ out ≤ out' := by
  obtain ⟨out, h⟩ := solveQuadraticFunctionForTrade_returns hv0 hv1 hk delta i
  obtain ⟨out', h'⟩ := solveQuadraticFunctionForTrade_returns hv0 hv1 hk delta' i
  refine ⟨out, out', h, h', ?_, ?_, ?_⟩
  · exact solveQuadraticFunctionForTrade_le h
  · exact solveQuadraticFunctionForTrade_le h'
  · exact solveQuadraticFunctionForTrade_mono hdelta h h'

/-- One and two units, for a pool at parity. -/
theorem trade_monotone_parity :
    ∃ out out', solveQuadraticFunctionForTrade 10 10 1 nat18 500000000000000000 = some out ∧
      solveQuadraticFunctionForTrade 10 10 2 nat18 500000000000000000 = some out' ∧
      out ≤ 10 ∧ out' ≤ 10 ∧ out ≤ out' :=
  trade_monotone (by decide) (by decide) (by decide) (by decide)

end Fomowell.Pmm
