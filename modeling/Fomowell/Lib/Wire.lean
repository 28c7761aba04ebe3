import Mathlib.Algebra.Ring.Nat
import Mathlib.Data.List.Sort

/-!
# The candid wire format

A message begins with `DIDL` and a table of the types that are not primitive, each before its parts and
none twice, and goes on with the type of the value and the value. A codec gives the type and writes the
values; the codecs of records, options and vectors are built from those of their parts. The fields of a
record are in the order of the hashes of their names.
-/

namespace Wire

/-! ## Numbers and names -/

/-- The digits of a number in base 128, the low ones first, all but the last marked in their high bit.
The last is below `last`. -/
def digits (last : Nat) : Nat → Nat → List UInt8
  | 0, n => [UInt8.ofNat n]
  | fuel + 1, n =>
    if n < last then [UInt8.ofNat n]
    else UInt8.ofNat (n % 128 + 128) :: digits last fuel (n / 128)

/-- An unsigned number. -/
def leb128 (n : Nat) : List UInt8 := digits 128 n n

/-- A number that is not negative, in the signed form: the last digit leaves the sign bit clear. -/
def sleb128 (n : Nat) : List UInt8 := digits 64 n n

/-- The bytes of a string. -/
def utf8 (s : String) : List UInt8 := s.toUTF8.data.toList

/-- The hash of a field's name. -/
def idlHash (name : String) : Nat :=
  (utf8 name).foldl (fun hash byte => (hash * 223 + byte.toNat) % 2 ^ 32) 0

/-! ## Types -/

mutual

/-- A type. -/
inductive Ty
  | nat
  | nat64
  | text
  | principal
  | opt (content : Ty)
  | vec (content : Ty)
  | record (fields : Fields)
  deriving DecidableEq

/-- The fields of a record, by their hashes. -/
inductive Fields
  | nil
  | cons (id : Nat) (type : Ty) (rest : Fields)
  deriving DecidableEq

end

namespace Fields

def length : Fields → Nat
  | nil => 0
  | cons _ _ rest => rest.length + 1

end Fields

/-! ## The header -/

mutual

/-- A table with a type and its parts added. -/
def Ty.addTo : Ty → List Ty → List Ty
  | .opt content, table =>
    if .opt content ∈ table then table else content.addTo (table ++ [.opt content])
  | .vec content, table =>
    if .vec content ∈ table then table else content.addTo (table ++ [.vec content])
  | .record fields, table =>
    if .record fields ∈ table then table else fields.addTo (table ++ [.record fields])
  | _, table => table

/-- A table with the types of some fields added. -/
def Fields.addTo : Fields → List Ty → List Ty
  | .nil, table => table
  | .cons _ type rest, table => rest.addTo (type.addTo table)

end

/-- How a type is referred to: a primitive type by its code, another by its place in the table. -/
def Ty.ref (table : List Ty) : Ty → List UInt8
  | .nat => [0x7d]
  | .nat64 => [0x78]
  | .text => [0x71]
  | .principal => [0x68]
  | type => sleb128 (table.idxOf type)

/-- The fields of a record in its entry. -/
def Fields.entry (table : List Ty) : Fields → List UInt8
  | .nil => []
  | .cons id type rest => leb128 id ++ type.ref table ++ rest.entry table

/-- The entry of a type in the table. -/
def Ty.entry (table : List Ty) : Ty → List UInt8
  | .opt content => 0x6e :: content.ref table
  | .vec content => 0x6d :: content.ref table
  | .record fields => 0x6c :: leb128 fields.length ++ fields.entry table
  | type => type.ref table

/-- What precedes a value of a type. -/
def header (type : Ty) : List UInt8 :=
  let table := type.addTo []
  utf8 "DIDL" ++ leb128 table.length ++ table.flatMap (Ty.entry table) ++ leb128 1 ++
    type.ref table

/-! ## Codecs -/

/-- A type, and how its values are written. -/
structure Codec (α : Type) where
  type : Ty
  serialize : α → List UInt8

/-- A field of a record, and how it is written. -/
structure Field (α : Type) where
  id : Nat
  type : Ty
  serialize : α → List UInt8

/-- The field of a name, read by `get`. -/
def Field.named {α β : Type} (name : String) (codec : Codec β) (get : α → β) : Field α where
  id := idlHash name
  type := codec.type
  serialize a := codec.serialize (get a)

/-- The field of a number, read by `get`. -/
def Field.numbered {α β : Type} (id : Nat) (codec : Codec β) (get : α → β) : Field α where
  id
  type := codec.type
  serialize a := codec.serialize (get a)

namespace Codec

def nat : Codec Nat where
  type := .nat
  serialize := leb128

/-- Eight bytes, the low ones first. -/
def nat64 : Codec Nat where
  type := .nat64
  serialize n := (List.range 8).map fun i => UInt8.ofNat (n / 256 ^ i)

def text : Codec String where
  type := .text
  serialize s := leb128 (utf8 s).length ++ utf8 s

/-- The bytes of a principal, marked as not opaque. -/
def principal : Codec (List UInt8) where
  type := .principal
  serialize bytes := 1 :: leb128 bytes.length ++ bytes

section

variable {α : Type}

def opt (codec : Codec α) : Codec (Option α) where
  type := .opt codec.type
  serialize
    | none => [0]
    | some a => 1 :: codec.serialize a

def vec (codec : Codec α) : Codec (List α) where
  type := .vec codec.type
  serialize as := leb128 as.length ++ as.flatMap codec.serialize

/-- The fields in the order in which they are written. -/
def sorted (fields : List (Field α)) : List (Field α) :=
  fields.insertionSort fun f g => f.id ≤ g.id

def record (fields : List (Field α)) : Codec α where
  type := .record ((sorted fields).foldr (fun f rest => .cons f.id f.type rest) .nil)
  serialize a := (sorted fields).flatMap fun f => f.serialize a

/-- A whole message with one value. -/
def encode (codec : Codec α) (a : α) : List UInt8 := header codec.type ++ codec.serialize a

end

end Codec

/-! ## Lengths -/

/-- The length of some bytes with their number before them. -/
def blobSize (n : Nat) : Nat := (leb128 n).length + n

/-- A blob is at least as long as what it holds. -/
theorem le_blobSize (n : Nat) : n ≤ blobSize n := by
  unfold blobSize
  exact Nat.le_add_left n _

/-- One digit more than the highest power of the base that the number reaches. -/
theorem length_digits {fuel k n : Nat} (hlow : k = 0 ∨ 128 ^ k ≤ n) (hhigh : n < 128 ^ (k + 1))
    (hfuel : n ≤ fuel) : (digits 128 fuel n).length = k + 1 := by
  induction k generalizing fuel n with
  | zero =>
    cases fuel with
    | zero => rfl
    | succ fuel =>
      have hlast : n < 128 := hhigh
      rw [digits, if_pos hlast]
      rfl
  | succ k ih =>
    have hpos : 0 < 128 ^ k := Nat.pow_pos (by decide)
    rw [Nat.pow_succ] at hlow hhigh
    cases fuel with
    | zero => omega
    | succ fuel =>
      rw [digits, if_neg (by omega), List.length_cons]
      have hdiv : (digits 128 fuel (n / 128)).length = k + 1 := by
        apply ih
        · exact .inr ((Nat.le_div_iff_mul_le (by decide)).mpr (by omega))
        · exact Nat.div_lt_of_lt_mul (by omega)
        · omega
      rw [hdiv]

/-- A number takes as many bytes as it has digits in base 128. -/
theorem length_leb128 {k n : Nat} (hlow : k = 0 ∨ 128 ^ k ≤ n) (hhigh : n < 128 ^ (k + 1)) :
    (leb128 n).length = k + 1 :=
  length_digits hlow hhigh (Nat.le_refl n)

/-- The bytes of a text are those that its size counts. -/
theorem length_utf8 (s : String) : (utf8 s).length = s.utf8ByteSize := by
  unfold utf8
  rw [Array.length_toList]
  rfl

namespace Codec

variable {α : Type}

/-- A small natural number is one byte. -/
theorem length_nat_zero : (nat.serialize 0).length = 1 := rfl

/-- Eight bytes, whatever the number. -/
theorem length_nat64 (n : Nat) : (nat64.serialize n).length = 8 := by
  unfold nat64
  dsimp only
  rw [List.length_map, List.length_range]

/-- A text is a blob of its bytes. -/
theorem length_text (s : String) : (text.serialize s).length = blobSize s.utf8ByteSize := by
  unfold text blobSize
  dsimp only
  rw [List.length_append, length_utf8]

/-- A principal is a tag and a blob. -/
theorem length_principal (bytes : List UInt8) :
    (principal.serialize bytes).length = 1 + blobSize bytes.length := by
  unfold principal blobSize
  dsimp only
  rw [List.length_append, List.length_cons]
  omega

theorem length_opt_none (codec : Codec α) : ((opt codec).serialize none).length = 1 := rfl

theorem length_opt_some (codec : Codec α) (a : α) :
    ((opt codec).serialize (some a)).length = (codec.serialize a).length + 1 := rfl

theorem length_vec_nil (codec : Codec α) : ((vec codec).serialize []).length = 1 := rfl

/-- A record is as long as its fields together. -/
theorem length_record (fields : List (Field α)) (a : α) :
    ((record fields).serialize a).length =
      (fields.map fun f => (f.serialize a).length).sum := by
  unfold record
  dsimp only
  rw [List.length_flatMap]
  exact ((List.perm_insertionSort _ fields).map _).sum_nat

/-- The message is its header, with the table of types, and the value. -/
theorem length_encode (codec : Codec α) (a : α) :
    (codec.encode a).length = (header codec.type).length + (codec.serialize a).length :=
  List.length_append

-- `DIDL`, one type in the table (an option of a text), the type of the value, and the value
example : (opt text).encode (some "a") =
    [68, 73, 68, 76, 1, 0x6e, 0x71, 1, 0, 1, 1, 97] := by decide +kernel

end Codec

end Wire
