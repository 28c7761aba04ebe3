import Fomowell.Candid
import Fomowell.Text

/-!
# Printed numbers that are parsed again

A candid number is printed with an underscore between groups of three digits, and `str::parse` takes no
underscore. So a number goes through its text only below a thousand (`parseWord_displayNat`), and a
negative one never (`parseWord_displayInt`).
-/

namespace Fomowell

/-- `str::parse` to an unsigned word: digits, after a sign `+` or none. -/
def parseWord (bits : Nat) (s : String) : Option Nat :=
  let digits := if s.toList.head? = some '+' then s.toList.tail else s.toList
  if digits.isEmpty then none else (parseDigits 0 digits).filter (· < 2 ^ bits)

/-- `str::parse` to a `u8`. -/
def parseU8 (s : String) : Option Nat := parseWord 8 s

example : parseU64 = parseWord 64 := rfl

/-- `Display` for a candid `Int`. -/
def displayInt : Int → String
  | .ofNat n => displayNat n
  | .negSucc n => "-" ++ displayNat (n + 1)

/-! ## Parsing -/

/-- Digits spell their number. -/
theorem parseDigits_of_digits {cs : List Char} (h : ∀ c ∈ cs, c.isDigit = true) (n : Nat) :
    parseDigits n cs = some (Nat.ofDigitChars 10 cs n) := by
  induction cs generalizing n with
  | nil => simp only [parseDigits, Nat.ofDigitChars_nil]
  | cons c cs ih =>
    rw [parseDigits, if_pos (h c List.mem_cons_self), ih fun d hd => h d (List.mem_cons_of_mem c hd),
      Nat.ofDigitChars_cons, Nat.mul_comm]

/-- A character that is no digit spells nothing. -/
theorem parseDigits_of_not_digit {cs : List Char} {c : Char} (hc : c ∈ cs) (hdigit : ¬ c.isDigit = true)
    (n : Nat) : parseDigits n cs = none := by
  induction cs generalizing n with
  | nil => cases hc
  | cons d cs ih =>
    rw [parseDigits]
    split
    next hd =>
      obtain rfl | hmem := List.mem_cons.mp hc
      · exact absurd hd hdigit
      · exact ih hmem _
    next => rfl

theorem parseWord_of_digits {s : String} (hdigits : ∀ c ∈ s.toList, c.isDigit = true)
    (hne : s.toList ≠ []) (bits : Nat) :
    parseWord bits s = (some (Nat.ofDigitChars 10 s.toList 0)).filter (· < 2 ^ bits) := by
  have hsign : ¬ s.toList.head? = some '+' := fun h =>
    absurd (hdigits '+' (List.mem_of_head? h)) (by decide)
  unfold parseWord
  dsimp only
  rw [if_neg hsign, if_neg (by rwa [List.isEmpty_iff]), parseDigits_of_digits hdigits]

theorem parseWord_of_not_digit {s : String} {c : Char} (hc : c ∈ s.toList)
    (hdigit : ¬ c.isDigit = true) (hsign : c ≠ '+') (bits : Nat) : parseWord bits s = none := by
  have hmem : c ∈ if s.toList.head? = some '+' then s.toList.tail else s.toList := by
    split
    next hhead =>
      obtain ⟨cs, hcs⟩ := List.head?_eq_some_iff.mp hhead
      rw [hcs] at hc ⊢
      exact (List.mem_cons.mp hc).resolve_left hsign
    next => exact hc
  unfold parseWord
  dsimp only
  rw [parseDigits_of_not_digit hmem hdigit, Option.filter_none, ite_self]

/-! ## Printing -/

theorem toList_displayNat (n : Nat) :
    (displayNat n).toList = (groupDigits (Nat.toDigits 10 n).reverse).reverse :=
  String.toList_ofList

/-- Up to three digits are one group. -/
theorem groupDigits_of_length_le {cs : List Char} (h : cs.length ≤ 3) : groupDigits cs = cs := by
  match cs, h with
  | [], _ | [_], _ | [_, _], _ | [_, _, _], _ => rfl
  | _ :: _ :: _ :: _ :: _, h =>
    simp only [List.length_cons] at h
    omega

/-- More have an underscore. -/
theorem underscore_mem_groupDigits {cs : List Char} (h : ¬ cs.length ≤ 3) : '_' ∈ groupDigits cs := by
  match cs, h with
  | [], h | [_], h | [_, _], h | [_, _, _], h => exact absurd (by simp) h
  | a :: b :: c :: d :: rest, _ =>
    rw [groupDigits]
    simp only [List.mem_cons, true_or, or_true]

/-- **A printed number is parsed below a thousand**, where it is a word. -/
theorem parseWord_displayNat (bits n : Nat) :
    parseWord bits (displayNat n) = if n < 1000 ∧ n < 2 ^ bits then some n else none := by
  have hlength : (Nat.toDigits 10 n).reverse.length ≤ 3 ↔ n < 1000 := by
    rw [List.length_reverse]
    exact Nat.length_toDigits_le_iff (by decide) (by decide)
  by_cases hlt : n < 1000
  · have htext : (displayNat n).toList = Nat.toDigits 10 n := by
      rw [toList_displayNat, groupDigits_of_length_le (hlength.mpr hlt), List.reverse_reverse]
    have hdigits : ∀ c ∈ (displayNat n).toList, c.isDigit = true := by
      rw [htext]
      exact fun c hc => Nat.isDigit_of_mem_toDigits (by decide) (by decide) hc
    rw [parseWord_of_digits hdigits (htext ▸ Nat.toDigits_ne_nil), htext, Nat.ofDigitChars_ten_toDigits,
      Option.filter_some]
    simp only [hlt, true_and, decide_eq_true_eq]
  · have hunderscore : '_' ∈ (displayNat n).toList := by
      rw [toList_displayNat, List.mem_reverse]
      exact underscore_mem_groupDigits (mt hlength.mp hlt)
    rw [parseWord_of_not_digit hunderscore (by decide) (by decide), if_neg (fun h => hlt h.1)]

/-- **And an integer besides only if it is not negative.** -/
theorem parseWord_displayInt (bits : Nat) (v : Int) :
    parseWord bits (displayInt v) =
      if 0 ≤ v ∧ v.toNat < 1000 ∧ v.toNat < 2 ^ bits then some v.toNat else none := by
  cases v with
  | ofNat n =>
    have hpos : 0 ≤ Int.ofNat n := Int.natCast_nonneg n
    rw [displayInt, parseWord_displayNat]
    have hnat : (Int.ofNat n).toNat = n := rfl
    simp only [hpos, true_and, hnat]
  | negSucc n =>
    have hminus : '-' ∈ (displayInt (.negSucc n)).toList := by
      rw [displayInt, String.toList_append]
      exact List.mem_append_left _ (by decide)
    have hneg : ¬ 0 ≤ Int.negSucc n := Int.not_le.mpr (Int.negSucc_lt_zero n)
    rw [parseWord_of_not_digit hminus (by decide) (by decide), if_neg (fun h => hneg h.1)]

/-- A number that Rust prints is parsed wherever it is a word. -/
theorem parseWord_toString (bits n : Nat) :
    parseWord bits (toString n) = if n < 2 ^ bits then some n else none := by
  have htext : (toString n).toList = Nat.toDigits 10 n := String.toList_ofList
  have hdigits : ∀ c ∈ (toString n).toList, c.isDigit = true := by
    rw [htext]
    exact fun c hc => Nat.isDigit_of_mem_toDigits (by decide) (by decide) hc
  rw [parseWord_of_digits hdigits (htext ▸ Nat.toDigits_ne_nil), htext, Nat.ofDigitChars_ten_toDigits,
    Option.filter_some]
  simp only [decide_eq_true_eq]

end Fomowell
