import Mathlib.Data.List.Basic
import Mathlib.Data.UInt
import Mathlib.Tactic.Linarith

/-!
# Hexadecimal digits

Bytes are written with two digits each, the higher one first, and read back from digits of either case
(`read_write`). A number printed without leading zeros and padded to the digits of its bytes is its
bytes written so (`padded_eq_write`).
-/

namespace Hex

/-- The digits of a byte. -/
def pair (b : UInt8) : List Char := [Nat.digitChar (b.toNat / 16), Nat.digitChar (b.toNat % 16)]

def write (bytes : List UInt8) : List Char := bytes.flatMap pair

/-- The value of a digit. -/
def value (c : Char) : Option Nat :=
  if '0' ≤ c ∧ c ≤ '9' then some (c.toNat - 48)
  else if 'a' ≤ c ∧ c ≤ 'f' then some (c.toNat - 87)
  else if 'A' ≤ c ∧ c ≤ 'F' then some (c.toNat - 55)
  else none

def isDigit (c : Char) : Bool := (value c).isSome

/-- The bytes of some digits, two by two. -/
def read : List Char → Option (List UInt8)
  | [] => some []
  | [_] => none
  | c :: d :: cs => do
    let high ← value c
    let low ← value d
    let bytes ← read cs
    return UInt8.ofNat (16 * high + low) :: bytes

theorem value_digitChar {n : Nat} (h : n < 16) : value (Nat.digitChar n) = some n := by
  have all : ∀ n : Fin 16, value (Nat.digitChar n) = some n.val := by decide
  exact all ⟨n, h⟩

@[simp] theorem length_write (bytes : List UInt8) : (write bytes).length = 2 * bytes.length := by
  induction bytes with
  | nil => rfl
  | cons b bytes ih =>
    unfold write at ih ⊢
    rw [List.flatMap_cons, List.length_append, ih, List.length_cons]
    show 2 + _ = _
    omega

@[simp] theorem write_append (bytes bytes' : List UInt8) :
    write (bytes ++ bytes') = write bytes ++ write bytes' :=
  List.flatMap_append

theorem isDigit_of_mem_write {bytes : List UInt8} {c : Char} (h : c ∈ write bytes) : isDigit c := by
  obtain ⟨b, _, hc⟩ := List.mem_flatMap.mp h
  have hb : b.toNat < 256 := b.toNat_lt
  unfold pair at hc
  rw [List.mem_cons, List.mem_singleton] at hc
  unfold isDigit
  rcases hc with rfl | rfl
  · rw [value_digitChar (by omega)]
    rfl
  · rw [value_digitChar (by omega)]
    rfl

/-- **What is written is read back.** -/
theorem read_write (bytes : List UInt8) : read (write bytes) = some bytes := by
  induction bytes with
  | nil => rfl
  | cons b bytes ih =>
    have hb : b.toNat < 256 := b.toNat_lt
    have hbyte : UInt8.ofNat (16 * (b.toNat / 16) + b.toNat % 16) = b := by
      rw [Nat.div_add_mod, UInt8.ofNat_toNat]
    show read (Nat.digitChar (b.toNat / 16) :: Nat.digitChar (b.toNat % 16) :: write bytes) = _
    rw [read, value_digitChar (by omega), value_digitChar (by omega), ih]
    show some (_ :: bytes) = _
    rw [hbyte]

/-- The last `k` digits of a number. -/
def digits : Nat → Nat → List Char
  | 0, _ => []
  | k + 1, n => digits k (n / 16) ++ [Nat.digitChar (n % 16)]

theorem length_digits (k n : Nat) : (digits k n).length = k := by
  induction k generalizing n with
  | zero => rfl
  | succ k ih =>
    unfold digits
    rw [List.length_append, ih, List.length_singleton]

theorem digits_zero (k : Nat) : digits k 0 = List.replicate k '0' := by
  induction k with
  | zero => rfl
  | succ k ih =>
    unfold digits
    rw [Nat.zero_div, ih, List.replicate_succ']
    rfl

/-- A number that is padded is its last digits. -/
theorem leftpad_toDigits {k n : Nat} (h : n < 16 ^ k) (hk : 0 < k) :
    List.leftpad k '0' (Nat.toDigits 16 n) = digits k n := by
  induction k generalizing n with
  | zero => cases hk
  | succ k ih =>
    unfold digits
    rcases Nat.lt_or_ge n 16 with hn | hn
    · have hzero : n / 16 = 0 := Nat.div_eq_of_lt hn
      rw [Nat.toDigits_of_lt_base hn, hzero, digits_zero, Nat.mod_eq_of_lt hn]
      rfl
    · have hrest : n / 16 < 16 ^ k := by
        rw [Nat.pow_succ] at h
        omega
      have hpos : 0 < k := by
        rcases Nat.eq_zero_or_pos k with rfl | hpos
        · omega
        · exact hpos
      rw [Nat.toDigits_of_base_le (by omega) hn, ← ih hrest hpos]
      unfold List.leftpad
      rw [List.length_append, List.length_singleton, Nat.add_sub_add_right, List.append_assoc]

/-- The last `k` bytes of a number, the highest first. -/
def bigEndian : Nat → Nat → List UInt8
  | 0, _ => []
  | k + 1, n => bigEndian k (n / 256) ++ [UInt8.ofNat n]

@[simp] theorem length_bigEndian (k n : Nat) : (bigEndian k n).length = k := by
  induction k generalizing n with
  | zero => rfl
  | succ k ih =>
    unfold bigEndian
    rw [List.length_append, ih, List.length_singleton]

theorem bigEndian_inj {k n n' : Nat} (hn : n < 256 ^ k) (hn' : n' < 256 ^ k)
    (h : bigEndian k n = bigEndian k n') : n = n' := by
  induction k generalizing n n' with
  | zero =>
    rw [Nat.pow_zero] at hn hn'
    omega
  | succ k ih =>
    unfold bigEndian at h
    obtain ⟨hrest, hlast⟩ := List.append_inj' h rfl
    rw [Nat.pow_succ] at hn hn'
    have hquotient := ih (by omega) (by omega) hrest
    have hremainder : n % 256 = n' % 256 := by
      have := congrArg UInt8.toNat (List.singleton_inj.mp hlast)
      simpa using this
    omega

theorem digits_eq_write (k n : Nat) : digits (2 * k) n = write (bigEndian k n) := by
  induction k generalizing n with
  | zero => rfl
  | succ k ih =>
    have hhigh : n / 16 % 16 = n % 256 / 16 := by omega
    have hlow : n % 16 = n % 256 % 16 := by omega
    have hbyte : (UInt8.ofNat n).toNat = n % 256 := UInt8.toNat_ofNat'
    have hpair : write [UInt8.ofNat n] = [Nat.digitChar (n / 16 % 16), Nat.digitChar (n % 16)] := by
      unfold write pair
      rw [List.flatMap_singleton, hbyte, hhigh, hlow]
    rw [bigEndian, write_append, ← ih, hpair]
    show digits (2 * k) (n / 16 / 16) ++ _ ++ _ = _
    rw [Nat.div_div_eq_div_mul, List.append_assoc]
    rfl

/-- **A padded number** is its bytes. -/
theorem padded_eq_write {k n : Nat} (h : n < 256 ^ k) (hk : 0 < k) :
    List.leftpad (2 * k) '0' (Nat.toDigits 16 n) = write (bigEndian k n) := by
  have hpow : (16 : Nat) ^ (2 * k) = 256 ^ k := by rw [Nat.pow_mul]
  rw [leftpad_toDigits (by rwa [hpow]) (by omega), digits_eq_write]

end Hex
