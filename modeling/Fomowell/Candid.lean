import Fomowell.Lib.Wire
import Std.Data.ExtTreeMap
import Mathlib.Data.UInt

/-!
# Principals, replies and printed numbers

The types that the canisters of the repository share. A `Principal` is a string of at
most 29 bytes, ordered by its bytes so that it can key a table. `displayNat` prints an unbounded
number the way error texts show it, with an underscore between groups of three digits.
-/

namespace Fomowell

/-- The identity of a canister or of a user. -/
structure Principal where
  bytes : List UInt8
  length_le : bytes.length ≤ 29
  deriving DecidableEq

namespace Principal

theorem bytes_injective : Function.Injective Principal.bytes := by
  rintro ⟨_, _⟩ ⟨_, _⟩ rfl
  rfl

instance : Ord Principal := ⟨compareOn Principal.bytes⟩

instance : Std.TransOrd Principal := inferInstanceAs (Std.TransCmp (compareOn Principal.bytes))

instance : Std.LawfulEqOrd Principal where
  eq_of_compare h := bytes_injective (Std.LawfulEqOrd.eq_of_compare (α := List UInt8) h)

/-- `Principal::management_canister`, the empty string of bytes. -/
def managementCanister : Principal := ⟨[], by decide⟩

/-- `Principal::anonymous`, the caller of a message that nobody signed. -/
def anonymous : Principal := ⟨[4], by decide⟩

/-- A principal of one byte. -/
def ofByte (b : UInt8) : Principal := ⟨[b], Nat.le_add_left 1 28⟩

/-- How a principal is written. -/
def codec : Wire.Codec Principal where
  type := .principal
  serialize p := Wire.Codec.principal.serialize p.bytes

/-- A principal is written with a mark and the number of its bytes. -/
theorem length_codec (p : Principal) : (codec.serialize p).length = 2 + p.bytes.length := by
  have hlen := p.length_le
  have hcount : (Wire.leb128 p.bytes.length).length = 1 :=
    Wire.length_leb128 (.inl rfl) (by omega)
  unfold codec
  dsimp only
  rw [Wire.Codec.length_principal]
  unfold Wire.blobSize
  omega

end Principal

/-- A map keyed by principals. -/
abbrev PrincipalMap (V : Type) : Type := Std.ExtTreeMap Principal V compare

/-- The fields of `HttpResponse` that the canisters read. -/
structure HttpResponse where
  status : Nat
  body : List UInt8
  deriving DecidableEq

/-- The digits of a number from the last to the first, with an underscore after every third. -/
def groupDigits : List Char → List Char
  | a :: b :: c :: d :: rest => a :: b :: c :: '_' :: groupDigits (d :: rest)
  | digits => digits

/-- `Display` for a candid `Nat`. -/
def displayNat (n : Nat) : String :=
  String.ofList (groupDigits (Nat.toDigits 10 n).reverse).reverse

example : displayNat 1234567 = "1_234_567" := by decide

end Fomowell
