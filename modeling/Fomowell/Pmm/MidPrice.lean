import Fomowell.Pmm.Market
import Mathlib.Tactic.Ring

/-!
# The mid price in its two versions

Both versions of the mid price scale the reference price by a slope, a function of the scarcer reserve
and its target (`slope`), which is at least one where the target is at least the reserve
(`nat18_le_slope`). Short of base, both multiply: the price is above the reference and the versions
agree. Long of base, the plain version divides by the slope and the version with decimals multiplies.

So the price is on its side of the reference, and the versions agree, where the slope is one: short of
base, without curvature, or where the reserve is so close to its target that the slope does not show
it (`PMMState.Flat`). Elsewhere they may still round to the same price, but only where the exact
results are less than one apart (`PMMState.Close`), which at a reference price of at least the square
of one they never are (`midPrice_sound_iff`).
-/

namespace Fomowell.Pmm

open Checked

/-- The slope of the price: the fixed-point one, with its share `k` scaled by the square of the
target over the reserve. -/
def slope (k target reserve : Nat) : Nat :=
  (nat18 - k) + mulFloor k (target * target / reserve * nat18 / reserve)

/-- The price is on its side of the reference price, and the two versions agree. -/
def PMMState.MidPriceSound (s : PMMState) (d : UInt8) : Prop :=
  (s.r = .BelowOne → s.q ≤ s.q0 →
      ∃ price, getMidPrice s d = some price ∧ price * nat18 ≤ 10 ^ d.toNat * s.i) ∧
    (s.r = .AboveOne → s.b ≤ s.b0 →
      ∃ price, getMidPrice s d = some price ∧ 10 ^ d.toNat * s.i / nat18 ≤ price) ∧
    getMidPrice s (s.baseDecimal + d) = getMidPriceV1 s d

/-- Long of base, there is no curvature, or the quote reserve is short of its target by so little that
the slope does not show it. -/
def PMMState.Flat (s : PMMState) : Prop :=
  s.r = .BelowOne →
    s.k = 0 ∨ s.q ≤ s.q0 ∧ s.k * ((s.q0 * s.q0 / s.q - s.q) * nat18 / s.q) < nat18

/-- The reference price, in the unit of the version with decimals. -/
def PMMState.reference (s : PMMState) (d : UInt8) : Nat :=
  10 ^ (s.baseDecimal.toNat + d.toNat) * s.i

/-- Long of base, the reference price multiplied by the slope and divided by it are less than one
apart. -/
def PMMState.Close (s : PMMState) (d : UInt8) : Prop :=
  s.r = .BelowOne →
    s.reference d * slope s.k s.q0 s.q * slope s.k s.q0 s.q <
        nat36 * s.reference d + nat36 * slope s.k s.q0 s.q ∧
      nat36 * s.reference d <
        s.reference d * slope s.k s.q0 s.q * slope s.k s.q0 s.q + nat36 * slope s.k s.q0 s.q

/-! ## The prices in closed form -/

/-- A slope is at least one where the target is at least the reserve. -/
theorem nat18_le_slope {k target reserve : Nat} (hk : k ≤ nat18) (hreserve : 0 < reserve)
    (h : reserve ≤ target) : nat18 ≤ slope k target reserve := by
  have hquotient : reserve ≤ target * target / reserve :=
    (Nat.le_div_iff_mul_le hreserve).mpr (Nat.mul_le_mul h h)
  have hratio : nat18 ≤ target * target / reserve * nat18 / reserve := by
    rw [Nat.le_div_iff_mul_le hreserve, Nat.mul_comm nat18]
    exact Nat.mul_le_mul_right nat18 hquotient
  have hfloor : k ≤ mulFloor k (target * target / reserve * nat18 / reserve) := le_mulFloor hratio
  unfold slope
  omega

/-- When the slope is one. -/
theorem slope_eq_nat18_iff {k target reserve : Nat} (hk : k ≤ nat18) (hreserve : 0 < reserve) :
    slope k target reserve = nat18 ↔
      k = 0 ∨ reserve ≤ target ∧
        k * ((target * target / reserve - reserve) * nat18 / reserve) < nat18 := by
  obtain rfl | hpos := Nat.eq_zero_or_pos k
  · exact iff_of_true (by simp only [slope, mulFloor, Nat.zero_mul, Nat.zero_div]; rfl) (.inl rfl)
  have hone : slope k target reserve = nat18 ↔
      k * nat18 ≤ k * (target * target / reserve * nat18 / reserve) ∧
        k * (target * target / reserve * nat18 / reserve) < (k + 1) * nat18 := by
    rw [← Nat.le_div_iff_mul_le nat18_pos, ← Nat.div_lt_iff_lt_mul nat18_pos]
    unfold slope mulFloor
    omega
  have hreach : k * nat18 ≤ k * (target * target / reserve * nat18 / reserve) ↔ reserve ≤ target := by
    rw [Nat.mul_le_mul_left_iff hpos, Nat.le_div_iff_mul_le hreserve, Nat.mul_comm nat18,
      Nat.mul_le_mul_right_iff nat18_pos, Nat.le_div_iff_mul_le hreserve, Nat.mul_self_le_mul_self_iff]
  rw [hone, hreach, or_iff_right (Nat.pos_iff_ne_zero.mp hpos)]
  refine and_congr_right fun hle => ?_
  obtain ⟨excess, hexcess⟩ := Nat.exists_eq_add_of_le
    ((Nat.le_div_iff_mul_le hreserve).mpr (Nat.mul_le_mul hle hle))
  rw [hexcess, Nat.add_sub_cancel_left, Nat.add_mul, Nat.mul_comm reserve nat18, Nat.add_comm,
    Nat.add_mul_div_right _ _ hreserve, Nat.mul_add, Nat.succ_mul]
  omega

/-- A power of ten with at most 38 digits fits in 128 bits. -/
theorem pow_mod_of_le {n : Nat} (h : n ≤ 38) : 10 ^ n % 2 ^ 128 = 10 ^ n :=
  Nat.mod_eq_of_lt (Nat.lt_of_le_of_lt (Nat.pow_le_pow_right (by decide) h) (by decide))

/-- At a share of at most one and a positive reserve the slope is defined. -/
theorem midPriceR_eq {k target reserve : Nat} (hk : k ≤ nat18) (hreserve : 0 < reserve) :
    midPriceR k target reserve = some (slope k target reserve) := by
  have hquotient : divFloor (target * target / reserve) reserve =
      some (target * target / reserve * nat18 / reserve) := div_of_pos hreserve
  simp only [midPriceR, Option.bind_eq_bind, bind_of_returns (div_of_pos hreserve),
    bind_of_returns hquotient, bind_of_returns (sub_of_le hk), Option.pure_def, slope]

/-- A fixed-point quotient without its fixed-point one is the plain quotient. -/
theorem divFloor_unscale (target d : Nat) :
    ((divFloor target d).bind fun price => some (price / nat18)) = div target d := by
  rcases Nat.eq_zero_or_pos d with rfl | hd
  · rw [divFloor, div_zero, div_zero, Option.bind_none]
  · rw [divFloor, div_of_pos hd, div_of_pos hd, Option.bind_some, Nat.div_div_eq_div_mul,
      Nat.mul_div_mul_right _ _ nat18_pos]

/-- The sum of two numbers of decimals, within the range of the powers of ten. -/
theorem toNat_add_of_le {x y : UInt8} (h : x.toNat + y.toNat ≤ 38) :
    (x + y).toNat = x.toNat + y.toNat := by
  rw [UInt8.toNat_add]
  omega

section

variable {s : PMMState} {d : UInt8}

/-- Long of base, the version with decimals multiplies by the slope. -/
theorem getMidPrice_belowOne (hk : s.k ≤ nat18) (hq : 0 < s.q) (hd : d.toNat ≤ 38)
    (hr : s.r = .BelowOne) :
    getMidPrice s d = some (10 ^ d.toNat * s.i * slope s.k s.q0 s.q / nat36) := by
  simp only [getMidPrice, hr, Nat.pos_iff_ne_zero.mp hq, if_false, pow_mod_of_le hd,
    bind_of_returns (midPriceR_eq hk hq), mulFloor36, Option.bind_eq_bind, Option.pure_def]

/-- Elsewhere it multiplies by the slope of the base reserve. -/
theorem getMidPrice_of_ne (hk : s.k ≤ nat18) (hb : 0 < s.b) (hd : d.toNat ≤ 38)
    (hr : s.r ≠ .BelowOne) :
    getMidPrice s d = some (10 ^ d.toNat * s.i * slope s.k s.b0 s.b / nat36) := by
  cases h : s.r with
  | BelowOne => exact absurd h hr
  | ONE | AboveOne =>
    simp only [getMidPrice, h, Nat.pos_iff_ne_zero.mp hb, if_false, pow_mod_of_le hd,
      bind_of_returns (midPriceR_eq hk hb), mulFloor36, Option.bind_eq_bind, Option.pure_def]

/-- Long of base, the plain version divides by the slope, which must not be zero. -/
theorem getMidPriceV1_belowOne (hk : s.k ≤ nat18) (hq : 0 < s.q)
    (hd : s.baseDecimal.toNat + d.toNat ≤ 38) (hr : s.r = .BelowOne) :
    getMidPriceV1 s d =
      div (10 ^ (s.baseDecimal.toNat + d.toNat) * s.i) (slope s.k s.q0 s.q) := by
  simp only [getMidPriceV1, hr, Nat.pos_iff_ne_zero.mp hq, if_false, toNat_add_of_le hd,
    pow_mod_of_le hd, bind_of_returns (midPriceR_eq hk hq), Option.bind_eq_bind, Option.pure_def,
    divFloor_unscale]

/-- Elsewhere it multiplies. -/
theorem getMidPriceV1_of_ne (hk : s.k ≤ nat18) (hb : 0 < s.b)
    (hd : s.baseDecimal.toNat + d.toNat ≤ 38) (hr : s.r ≠ .BelowOne) :
    getMidPriceV1 s d =
      some (10 ^ (s.baseDecimal.toNat + d.toNat) * s.i * slope s.k s.b0 s.b / nat36) := by
  cases h : s.r with
  | BelowOne => exact absurd h hr
  | ONE | AboveOne =>
    simp only [getMidPriceV1, h, Nat.pos_iff_ne_zero.mp hb, if_false, toNat_add_of_le hd,
      pow_mod_of_le hd, bind_of_returns (midPriceR_eq hk hb), mulFloor, Nat.div_div_eq_div_mul,
      ← nat36_eq, Option.bind_eq_bind, Option.pure_def]

/-! ## The side of the reference price -/

/-- A price multiplied by a slope of at least one is at least the reference price. -/
theorem div_le_mul_slope_div {one x r : Nat} (hone : 0 < one) (hr : one ≤ r) :
    x / one ≤ x * r / (one * one) := by
  rw [Nat.le_div_iff_mul_le (Nat.mul_pos hone hone), ← Nat.mul_assoc]
  exact Nat.mul_le_mul (Nat.div_mul_le_self x one) hr

/-- Where multiplying and dividing by a slope of at least one agree at a finer unit, the multiplied
price is at most the reference price. -/
theorem mul_slope_div_le {one x unit r : Nat} (hone : 0 < one) (hunit : 0 < unit) (hr : one ≤ r)
    (h : unit * x * r / (one * one) = unit * x / r) : x * r / (one * one) * one ≤ x := by
  have hfine : x * r / (one * one) * unit ≤ unit * x / r := by
    rw [← h, Nat.le_div_iff_mul_le (Nat.mul_pos hone hone)]
    calc x * r / (one * one) * unit * (one * one)
        = unit * (x * r / (one * one) * (one * one)) := by ring
      _ ≤ unit * (x * r) := Nat.mul_le_mul_left _ (Nat.div_mul_le_self _ _)
      _ = unit * x * r := by ring
  refine Nat.le_of_mul_le_mul_left ?_ hunit
  calc unit * (x * r / (one * one) * one)
      = x * r / (one * one) * unit * one := by ring
    _ ≤ unit * x / r * r := Nat.mul_le_mul hfine hr
    _ ≤ unit * x := Nat.div_mul_le_self _ _

/-- Where multiplying and dividing by a slope agree, the exact results are less than one apart. -/
theorem close_of_div_eq {c x r : Nat} (hc : 0 < c) (hr : 0 < r) (h : x * r / c = x / r) :
    x * r * r < c * x + c * r ∧ c * x < x * r * r + c * r := by
  have hle : x / r * r ≤ x := Nat.div_mul_le_self x r
  have hlt : x < r * (x / r + 1) := Nat.lt_mul_div_succ x hr
  have hle' : x / r * c ≤ x * r := h ▸ Nat.div_mul_le_self _ _
  have hlt' : x * r < c * (x / r + 1) := h ▸ Nat.lt_mul_div_succ _ hc
  generalize x / r = m at *
  constructor
  · calc x * r * r < c * (m + 1) * r := Nat.mul_lt_mul_of_pos_right hlt' hr
      _ = c * (m * r) + c * r := by ring
      _ ≤ c * x + c * r := Nat.add_le_add_right (Nat.mul_le_mul_left c hle) _
  · calc c * x < c * (r * (m + 1)) := Nat.mul_lt_mul_of_pos_left hlt hc
      _ = m * c * r + c * r := by ring
      _ ≤ x * r * r + c * r := Nat.add_le_add_right (Nat.mul_le_mul_right r hle') _

/-- Where the reference price is not below the square of one, they are that close at a slope of one
only. -/
theorem eq_one_of_close {one x r : Nat} (hx : one * one ≤ x)
    (close : x * r * r < one * one * x + one * one * r ∧ one * one * x < x * r * r + one * one * r) :
    r = one := by
  have hlarge : one * one * r ≤ x * r := Nat.mul_le_mul_right r hx
  obtain hless | hsame | hmore := Nat.lt_trichotomy r one
  · -- the divided price is above the multiplied one
    have hsquare : x * r * r + x * r ≤ one * one * x :=
      calc x * r * r + x * r = x * (r * (r + 1)) := by ring
        _ ≤ x * (one * one) := Nat.mul_le_mul_left x (Nat.mul_le_mul (Nat.le_of_lt hless) hless)
        _ = one * one * x := Nat.mul_comm _ _
    omega
  · exact hsame
  · have hsquare : one * one * x + x * r ≤ x * r * r :=
      calc one * one * x + x * r = x * (one * one + r) := by ring
        _ ≤ x * (r * one + r) := Nat.mul_le_mul_left x (Nat.add_le_add_right
          (Nat.mul_le_mul_right one (Nat.le_of_lt hmore)) r)
        _ = x * (r * (one + 1)) := by ring
        _ ≤ x * (r * r) := Nat.mul_le_mul_left x (Nat.mul_le_mul_left r hmore)
        _ = x * r * r := (Nat.mul_assoc x r r).symm
    omega

/-- The two versions agree where, long of base, the slope is one. -/
theorem getMidPrice_eq_of_flat (hk : s.k ≤ nat18) (hq : 0 < s.q)
    (hd : s.baseDecimal.toNat + d.toNat ≤ 38) (hr : s.r = .BelowOne)
    (flat : slope s.k s.q0 s.q = nat18) :
    getMidPrice s (s.baseDecimal + d) = getMidPriceV1 s d := by
  have hsum := toNat_add_of_le hd
  rw [getMidPrice_belowOne hk hq (hsum ▸ hd) hr, getMidPriceV1_belowOne hk hq hd hr, hsum, flat,
    div_of_pos nat18_pos, nat36_eq, Nat.mul_div_mul_right _ _ nat18_pos]

/-- Where they agree, the multiplied price and the divided one are less than one apart. -/
theorem close_of_getMidPrice_eq (hk : s.k ≤ nat18) (hq : 0 < s.q)
    (hd : s.baseDecimal.toNat + d.toNat ≤ 38)
    (hagree : getMidPrice s (s.baseDecimal + d) = getMidPriceV1 s d) : s.Close d := by
  intro hr
  have hsum := toNat_add_of_le hd
  rw [getMidPrice_belowOne hk hq (hsum ▸ hd) hr, getMidPriceV1_belowOne hk hq hd hr, hsum] at hagree
  obtain ⟨hslope, hagree⟩ := div_eq_some.mp hagree.symm
  exact close_of_div_eq nat36_pos (Nat.pos_of_ne_zero hslope) hagree.symm

/-- A state that is close at a large reference price is flat. -/
theorem PMMState.Close.flat (hk : s.k ≤ nat18) (hq : 0 < s.q) (hx : nat36 ≤ s.reference d)
    (close : s.Close d) : s.Flat := by
  intro hr
  rw [← slope_eq_nat18_iff hk hq]
  have close := close hr
  rw [nat36_eq] at hx close
  exact eq_one_of_close hx close

/-- Elsewhere the two versions agree. -/
theorem getMidPrice_eq_of_ne (hk : s.k ≤ nat18) (hb : 0 < s.b)
    (hd : s.baseDecimal.toNat + d.toNat ≤ 38) (hr : s.r ≠ .BelowOne) :
    getMidPrice s (s.baseDecimal + d) = getMidPriceV1 s d := by
  have hsum := toNat_add_of_le hd
  rw [getMidPrice_of_ne hk hb (hsum ▸ hd) hr, getMidPriceV1_of_ne hk hb hd hr, hsum]

/-- The mid price is on its side where the two versions agree. -/
theorem midPriceSound_of_agree (hk : s.k ≤ nat18) (hb : 0 < s.b) (hq : 0 < s.q)
    (hd : s.baseDecimal.toNat + d.toNat ≤ 38)
    (hagree : getMidPrice s (s.baseDecimal + d) = getMidPriceV1 s d) : s.MidPriceSound d := by
  have hd' : d.toNat ≤ 38 := by omega
  refine ⟨fun hr hle => ?_, fun hr hle => ?_, hagree⟩
  · -- long of base: the finer price of the two versions bounds this one
    have hsum := toNat_add_of_le hd
    have hslope := nat18_le_slope hk hq hle
    rw [getMidPrice_belowOne hk hq (hsum ▸ hd) hr, getMidPriceV1_belowOne hk hq hd hr, hsum,
      div_of_pos (Nat.lt_of_lt_of_le nat18_pos hslope), Option.some.injEq, Nat.pow_add,
      Nat.mul_assoc (10 ^ s.baseDecimal.toNat), nat36_eq] at hagree
    refine ⟨_, getMidPrice_belowOne hk hq hd' hr, ?_⟩
    rw [nat36_eq]
    exact mul_slope_div_le nat18_pos (Nat.pow_pos (by decide)) hslope hagree
  · -- short of base: the slope is at least one
    refine ⟨_, getMidPrice_of_ne hk hb hd' (by rw [hr]; decide), ?_⟩
    rw [nat36_eq]
    exact div_le_mul_slope_div nat18_pos (nat18_le_slope hk hb hle)

/-- **The mid price is on its side of the reference price and its two versions agree** in every flat
state; in no state where the price multiplied by the slope and the one divided by it are one apart or
more; and so in flat states only, once the reference price is at least the square of one. -/
theorem midPrice_sound_iff (hk : s.k ≤ nat18) (hb : 0 < s.b) (hq : 0 < s.q)
    (hd : s.baseDecimal.toNat + d.toNat ≤ 38) :
    (s.Flat → s.MidPriceSound d) ∧ (s.MidPriceSound d → s.Close d) ∧
      (nat36 ≤ s.reference d → (s.MidPriceSound d ↔ s.Flat)) := by
  have sound : s.Flat → s.MidPriceSound d := by
    intro flat
    refine midPriceSound_of_agree hk hb hq hd ?_
    by_cases hr : s.r = .BelowOne
    · exact getMidPrice_eq_of_flat hk hq hd hr ((slope_eq_nat18_iff hk hq).mpr (flat hr))
    · exact getMidPrice_eq_of_ne hk hb hd hr
  have close : s.MidPriceSound d → s.Close d := fun h => close_of_getMidPrice_eq hk hq hd h.2.2
  exact ⟨sound, close, fun hx => ⟨fun h => (close h).flat hk hq hx, sound⟩⟩

end

/-- The pool `longOfBase` at a reference price of one, priced by the reserves alone. -/
def steepPool : PMMState :=
  { longOfBase with
    i := 1000000000000000000
    k := 1000000000000000000 }

/-- At no curvature the slope is one, and the law is met. -/
theorem midPrice_sound_flat : { steepPool with k := 0 }.MidPriceSound 8 :=
  (midPrice_sound_iff (by decide) (by decide) (by decide) (by decide)).1 fun _ => .inl rfl

/-- **A mid price on the wrong side.** The slope of `steepPool` is four: its price is four times the
reference price instead of a quarter of it. -/
theorem not_midPrice_sound :
    ¬ ∀ (s : PMMState) (d : UInt8), s.k ≤ nat18 → 0 < s.b → 0 < s.q →
      s.baseDecimal.toNat + d.toNat ≤ 38 → s.MidPriceSound d := by
  intro all
  obtain ⟨below, -, -⟩ := all steepPool 8 (by decide) (by decide) (by decide) (by decide)
  obtain ⟨price, hprice, hle⟩ := below rfl (by decide)
  have hprice' : getMidPrice steepPool 8 = some 400000000 := by decide
  rw [hprice'] at hprice
  cases hprice
  exact absurd hle (by decide)

end Fomowell.Pmm
