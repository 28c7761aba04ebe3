import Mathlib.Algebra.Ring.Nat
import Mathlib.Data.List.Basic

/-!
# Strings

The string operations of the canisters: the length of a trimmed string, the prefix of a number of
bytes, which traps where it would cut a character in two, and the number that a string spells.
-/

namespace Fomowell

/-- The characters with the Unicode property `White_Space`. -/
def isWhitespace (c : Char) : Bool :=
  let n := c.toNat
  (0x9 ≤ n && n ≤ 0xD) || n == 0x20 || n == 0x85 || n == 0xA0 || n == 0x1680 ||
    (0x2000 ≤ n && n ≤ 0x200A) || n == 0x2028 || n == 0x2029 || n == 0x202F || n == 0x205F ||
    n == 0x3000

/-- `str::trim`. -/
def trim (s : String) : String :=
  String.ofList ((s.toList.dropWhile isWhitespace).reverse.dropWhile isWhitespace).reverse

/-- The characters in the first `n` bytes, if they end between two characters. -/
def takeBytes : List Char → Nat → Option (List Char)
  | _, 0 => some []
  | [], _ + 1 => none
  | c :: rest, n + 1 =>
    if c.utf8Size ≤ n + 1 then (takeBytes rest (n + 1 - c.utf8Size)).map (c :: ·) else none

/-- `&s[..n]`, which traps outside the string and inside a character. -/
def sliceTo (s : String) (n : Nat) : Option String := (takeBytes s.toList n).map String.ofList

/-- `substring` with a range that starts at zero. -/
def substring (s : String) (stop : Nat) : Option String := sliceTo s (min stop s.utf8ByteSize)

example : sliceTo "añb" 3 = some "añ" ∧ sliceTo "añb" 2 = none := by decide

/-! ## Prefixes of a number of bytes -/

/-- The number of bytes of some characters. -/
def byteLen (cs : List Char) : Nat := (cs.map Char.utf8Size).sum

theorem byteLen_cons (c : Char) (cs : List Char) : byteLen (c :: cs) = c.utf8Size + byteLen cs := by
  unfold byteLen
  rw [List.map_cons, List.sum_cons]

theorem utf8ByteSize_eq (s : String) : s.utf8ByteSize = byteLen s.toList := by
  have hlist : ∀ cs : List Char, (String.ofList cs).utf8ByteSize = byteLen cs := by
    intro cs
    induction cs with
    | nil => rfl
    | cons c cs ih =>
      have hsplit : String.ofList (c :: cs) = String.singleton c ++ String.ofList cs := by
        rw [String.singleton_eq_ofList, ← String.ofList_append]
        rfl
      rw [hsplit, String.utf8ByteSize_append, String.utf8ByteSize_singleton, ih, byteLen_cons]
  rw [← hlist, String.ofList_toList]

theorem byteLen_replicate (n : Nat) (c : Char) : byteLen (List.replicate n c) = n * c.utf8Size := by
  unfold byteLen
  rw [List.map_replicate, List.sum_replicate_nat]

/-- There are texts of every length. -/
theorem exists_utf8ByteSize (n : Nat) : ∃ s : String, s.utf8ByteSize = n := by
  refine ⟨String.ofList (List.replicate n 'a'), ?_⟩
  rw [utf8ByteSize_eq, String.toList_ofList, byteLen_replicate]
  exact Nat.mul_one n

/-- As many bytes as a prefix has are the prefix. -/
theorem takeBytes_append (p rest : List Char) : takeBytes (p ++ rest) (byteLen p) = some p := by
  induction p with
  | nil => cases rest <;> rfl
  | cons c p ih =>
    have hpos := c.utf8Size_pos
    obtain ⟨n, hn⟩ : ∃ n, byteLen (c :: p) = n + 1 := by
      rw [byteLen_cons]
      exact ⟨c.utf8Size - 1 + byteLen p, by omega⟩
    rw [hn, List.cons_append, takeBytes, ← hn, byteLen_cons, if_pos (Nat.le_add_right _ _),
      Nat.add_sub_cancel_left, ih]
    rfl

/-- What is taken is a prefix of so many bytes. -/
theorem takeBytes_sound {cs p : List Char} {n : Nat} (h : takeBytes cs n = some p) :
    p <+: cs ∧ byteLen p = n := by
  induction cs generalizing n p with
  | nil =>
    cases n with
    | zero =>
      cases h
      exact ⟨List.nil_prefix, rfl⟩
    | succ n => cases h
  | cons c cs ih =>
    cases n with
    | zero =>
      cases h
      exact ⟨List.nil_prefix, rfl⟩
    | succ n =>
      rw [takeBytes] at h
      split at h
      next hfits =>
        obtain ⟨q, hq, rfl⟩ := Option.map_eq_some_iff.mp h
        obtain ⟨hstart, hlen⟩ := ih hq
        refine ⟨(List.prefix_cons_inj c).mpr hstart, ?_⟩
        rw [byteLen_cons, hlen]
        omega
      next => cases h

/-- The first `n` bytes are the prefix that has `n` bytes, where there is one. -/
theorem takeBytes_eq_some {cs p : List Char} {n : Nat} :
    takeBytes cs n = some p ↔ p <+: cs ∧ byteLen p = n := by
  constructor
  · exact takeBytes_sound
  · rintro ⟨⟨rest, rfl⟩, rfl⟩
    exact takeBytes_append p rest

/-- A slice is the prefix of its length. -/
theorem sliceTo_eq_some {s r : String} {n : Nat} :
    sliceTo s n = some r ↔ r.toList <+: s.toList ∧ r.utf8ByteSize = n := by
  unfold sliceTo
  rw [Option.map_eq_some_iff, utf8ByteSize_eq]
  constructor
  · rintro ⟨p, hp, rfl⟩
    rw [String.toList_ofList]
    exact takeBytes_eq_some.mp hp
  · intro h
    exact ⟨r.toList, takeBytes_eq_some.mpr h, String.ofList_toList⟩

/-- The number that some digits spell, after those that were read. -/
def parseDigits : Nat → List Char → Option Nat
  | n, [] => some n
  | n, c :: rest =>
    if c.isDigit then parseDigits (n * 10 + (c.toNat - '0'.toNat)) rest else none

/-- `str::parse` to a `u64`: digits, after a sign `+` or none. -/
def parseU64 (s : String) : Option Nat :=
  let digits := if s.toList.head? = some '+' then s.toList.tail else s.toList
  if digits.isEmpty then none else (parseDigits 0 digits).filter (· < 2 ^ 64)

example : parseU64 "12" = some 12 ∧ parseU64 "+" = none ∧ parseU64 "18446744073709551616" = none := by
  decide

end Fomowell
