import Fomowell.Candid
import Fomowell.Lib.Hex
import Mathlib.Data.List.Induction

/-!
# Account identifiers (`fomowell-frontend/artemis-web3-adapter/src/libs/identifier-utils.js`)

The identifier of an account is a SHA-224 digest and the CRC-32 of it, in hexadecimal digits. The
digest is taken by a library that keeps its bytes in words of 32 bits, four bytes a word and the first
byte highest, so the bytes are packed before and unpacked after. The shifts of the packing run below
zero: only their last five bits count, and these start again with each word.

`crc32` and `sha224` are parameters. The library hashes the bytes that the words given to it have.
-/

namespace Fomowell.Frontend

/-- A word of a `WordArray`, and what the operators on bits make of a number. -/
abbrev Word : Type := BitVec 32

/-- A `WordArray` of the library. -/
structure WordArray where
  words : List Word
  sigBytes : Nat

/-- What `SHA224.finalize` gives. -/
structure Digest extends WordArray where
  words_length : words.length = 7
  sigBytes_eq : sigBytes = 28

/-- The byte at a place of some words. -/
def byteAt (words : List Word) (i : Nat) : UInt8 :=
  .ofBitVec ((words.getD (i / 4) 0 >>> (24 - i % 4 * 8)).setWidth 8)

/-- The bytes that the library reads of a `WordArray`. -/
def WordArray.bytes (wordArray : WordArray) : List UInt8 :=
  (List.range wordArray.sigBytes).map (byteAt wordArray.words)

/-- `byte << shift`. -/
def shl (byte : UInt8) (shift : Int) : Word := byte.toBitVec.setWidth 32 <<< (shift % 32).toNat

/-- `wordArray[i] |= word`, for a word that is there or the next one. -/
def orAt (wordArray : List Word) (i : Nat) (word : Word) : List Word :=
  if i < wordArray.length then wordArray.modify i (· ||| word) else wordArray ++ [word]

/-- `byteArrayToWordArray`. -/
def byteArrayToWordArray (byteArray : List UInt8) : WordArray where
  words := byteArray.zipIdx.foldl
    (fun wordArray byte => orAt wordArray (byte.2 / 4) (shl byte.1 (24 - 8 * byte.2))) []
  sigBytes := byteArray.length

example : (byteArrayToWordArray [1, 2, 3, 4, 5]).words = [0x01020304, 0x05000000] := by decide

/-- `wordToByteArray`. -/
def wordToByteArray (word : Word) (length : Nat) : List UInt8 :=
  (if length > 0 then [.ofBitVec ((word >>> 24).setWidth 8)] else []) ++
    (if length > 1 then [.ofBitVec ((word >>> 16).setWidth 8)] else []) ++
    (if length > 2 then [.ofBitVec ((word >>> 8).setWidth 8)] else []) ++
    (if length > 3 then [.ofBitVec (word.setWidth 8)] else [])

/-- `wordArrayToByteArray`, of a `WordArray` that has its length. -/
def wordArrayToByteArray (words : List Word) : Nat → List UInt8
  | 0 => []
  | length + 1 =>
    wordToByteArray (words.headD 0) (min 4 (length + 1)) ++
      wordArrayToByteArray words.tail (length + 1 - min 4 (length + 1))
termination_by length => length

/-- `generateChecksum`. -/
def generateChecksum (crc32 : List UInt8 → Word) (hash : List UInt8) : List Char :=
  List.leftpad 8 '0' (Nat.toDigits 16 (crc32 hash).toNat)

/-- `ACCOUNT_DOMAIN_SEPERATOR`. -/
def accountDomainSeparator : List UInt8 := "\x0Aaccount-id".toUTF8.toList

/-- `subBuffer`: the subaccount is written at the start of 32 bytes, and what does not fit is thrown.
-/
def subBuffer (subAccount : Int) : Option (List UInt8) :=
  let zeros := List.replicate 32 0
  if subAccount ≠ 0 then
    if 0 ≤ subAccount ∧ subAccount < 2 ^ 32 then
      some (Hex.bigEndian 4 subAccount.toNat ++ zeros.drop 4)
    else none
  else some zeros

/-- `getAccountIdentifier`; nothing stands for `false`. -/
def getAccountIdentifier (fromText : String → Option Principal) (crc32 : List UInt8 → Word)
    (sha224 : List UInt8 → Digest) (principalId : String) (subAccount : Int) : Option String := do
  let principal ← fromText principalId
  let subBuffer ← subBuffer subAccount
  let hash := sha224 (accountDomainSeparator ++ (byteArrayToWordArray principal.bytes).bytes ++
    (byteArrayToWordArray subBuffer).bytes)
  let byteArray := wordArrayToByteArray hash.words hash.sigBytes
  return String.ofList (generateChecksum crc32 byteArray ++ Hex.write hash.bytes)

/-- `isValidAccountId`. -/
def isValidAccountId (str : String) : Bool := str.toList.length = 64 ∧ str.toList.all Hex.isDigit

/-! ## Words of bytes -/

theorem getD_snoc {α : Type} (l : List α) (a default : α) (i : Nat) :
    (l ++ [a]).getD i default = if i = l.length then a else l.getD i default := by
  simp only [List.getD_eq_getElem?_getD]
  rcases Nat.lt_trichotomy i l.length with hlt | rfl | hgt
  · rw [List.getElem?_append_left hlt, if_neg (Nat.ne_of_lt hlt)]
  · simp
  · rw [if_neg (Nat.ne_of_gt hgt), List.getElem?_eq_none, List.getElem?_eq_none]
    · exact Nat.le_of_lt hgt
    · rw [List.length_append, List.length_singleton]
      exact hgt

theorem getD_length {α : Type} (l : List α) (default : α) : l.getD l.length default = default := by
  rw [List.getD_eq_getElem?_getD, List.getElem?_eq_none (Nat.le_refl _)]
  rfl

theorem getD_orAt {words : List Word} {k : Nat} (hk : k ≤ words.length) (word : Word) (i : Nat) :
    (orAt words k word).getD i 0 = if i = k then words.getD i 0 ||| word else words.getD i 0 := by
  unfold orAt
  split
  next hlt =>
    simp only [List.getD_eq_getElem?_getD]
    rw [List.getElem?_modify]
    by_cases hi : i = k
    · rw [if_pos hi, hi, List.getElem?_eq_getElem hlt]
      simp
    · rw [if_neg hi]
      simp [Ne.symm hi]
  next hlt =>
    obtain rfl : k = words.length := Nat.le_antisymm hk (Nat.le_of_not_lt hlt)
    rw [getD_snoc]
    split
    next hi =>
      rw [hi, getD_length]
      exact BitVec.zero_or.symm
    next => rfl

/-- What is left of a byte `b` at the place `r` of a word, when it was shifted to the place `m`. -/
theorem shifted_byte {b m r : Nat} (hb : b < 256) (hm : m < 4) (hr : r < 4) :
    (b <<< (24 - m * 8) % 2 ^ 32) >>> (24 - r * 8) % 2 ^ 8 = if r = m then b else 0 := by
  rw [Nat.shiftLeft_eq, Nat.shiftRight_eq_div_pow]
  have hm' : m = 0 ∨ m = 1 ∨ m = 2 ∨ m = 3 := by omega
  have hr' : r = 0 ∨ r = 1 ∨ r = 2 ∨ r = 3 := by omega
  rcases hm' with rfl | rfl | rfl | rfl <;> rcases hr' with rfl | rfl | rfl | rfl <;> simp <;> omega

/-- A byte that is shifted is at one place of its word, and nothing is at the others. -/
theorem byte_shl (byte : UInt8) (n : Nat) {r : Nat} (hr : r < 4) :
    UInt8.ofBitVec ((shl byte (24 - 8 * n) >>> (24 - r * 8)).setWidth 8) =
      if r = n % 4 then byte else 0 := by
  have hshift : ((24 - 8 * (n : Int)) % 32).toNat = 24 - n % 4 * 8 := by omega
  have hbyte : byte.toNat < 256 := byte.toNat_lt
  have hvalue := shifted_byte hbyte (Nat.mod_lt n (by omega)) hr
  apply UInt8.toNat_inj.mp
  unfold shl
  rw [hshift, UInt8.toNat_ofBitVec, BitVec.toNat_setWidth, BitVec.toNat_ushiftRight, BitVec.toNat_shiftLeft,
    BitVec.toNat_setWidth, Nat.mod_eq_of_lt (a := byte.toBitVec.toNat) (by omega)]
  rw [apply_ite UInt8.toNat]
  exact hvalue

theorem words_snoc (byteArray : List UInt8) (byte : UInt8) :
    (byteArrayToWordArray (byteArray ++ [byte])).words =
      orAt (byteArrayToWordArray byteArray).words (byteArray.length / 4)
        (shl byte (24 - 8 * byteArray.length)) := by
  unfold byteArrayToWordArray
  rw [List.zipIdx_append, List.foldl_append]
  simp

/-- **Packing** puts each byte in its place, and leaves nothing after them. -/
theorem byteAt_words (byteArray : List UInt8) :
    (byteArrayToWordArray byteArray).words.length = (byteArray.length + 3) / 4 ∧
      ∀ i, byteAt (byteArrayToWordArray byteArray).words i = byteArray.getD i 0 := by
  induction byteArray using List.reverseRecOn with
  | nil =>
    refine ⟨rfl, fun i => ?_⟩
    unfold byteAt byteArrayToWordArray
    simp
  | append_singleton byteArray byte ih =>
    obtain ⟨hlength, hbytes⟩ := ih
    have hnext : byteArray.length / 4 ≤ (byteArrayToWordArray byteArray).words.length := by omega
    rw [words_snoc]
    constructor
    · unfold orAt
      rw [List.length_append, List.length_singleton]
      split
      · rw [List.length_modify]
        omega
      · rw [List.length_append, List.length_singleton]
        omega
    · intro i
      have hold := hbytes i
      unfold byteAt at hold ⊢
      rw [getD_orAt hnext, getD_snoc]
      by_cases hword : i / 4 = byteArray.length / 4
      · rw [if_pos hword, BitVec.ushiftRight_or_distrib, BitVec.setWidth_or, UInt8.ofBitVec_or, hold,
          byte_shl byte _ (Nat.mod_lt i (by omega))]
        by_cases hi : i = byteArray.length
        · rw [if_pos (by rw [hi]), if_pos hi, hi, getD_length]
          exact UInt8.zero_or
        · rw [if_neg (by omega), if_neg hi]
          exact UInt8.or_zero
      · rw [if_neg hword, if_neg (by rintro rfl; exact hword rfl), hold]

/-- **The library reads the bytes that were packed.** -/
theorem bytes_byteArrayToWordArray (byteArray : List UInt8) :
    (byteArrayToWordArray byteArray).bytes = byteArray := by
  unfold WordArray.bytes
  apply List.ext_getElem
  · rw [List.length_map, List.length_range]
    rfl
  · intro i _ hi
    rw [List.getElem_map, List.getElem_range, (byteAt_words byteArray).2, List.getD_eq_getElem?_getD,
      List.getElem?_eq_getElem hi]
    rfl

/-- The first bytes of a word. -/
theorem wordToByteArray_eq (words : List Word) {length : Nat} (hlength : length ≤ 4) :
    wordToByteArray (words.headD 0) length = (List.range length).map (byteAt words) := by
  have hhead : words.headD 0 = words.getD 0 0 := by cases words <;> rfl
  have hcases : length = 0 ∨ length = 1 ∨ length = 2 ∨ length = 3 ∨ length = 4 := by omega
  rw [hhead]
  rcases hcases with rfl | rfl | rfl | rfl | rfl <;>
    simp [wordToByteArray, byteAt, List.range_succ]

theorem byteAt_tail (words : List Word) (i : Nat) : byteAt words.tail i = byteAt words (4 + i) := by
  have hword : (4 + i) / 4 = i / 4 + 1 := by omega
  have hplace : (4 + i) % 4 = i % 4 := by omega
  unfold byteAt
  rw [hword, hplace]
  cases words <;> rfl

/-- **Unpacking** gives the bytes that the library reads. -/
theorem wordArrayToByteArray_eq (words : List Word) (length : Nat) :
    wordArrayToByteArray words length = (List.range length).map (byteAt words) := by
  induction words, length using wordArrayToByteArray.induct with
  | case1 words =>
    rw [wordArrayToByteArray]
    rfl
  | case2 words length ih =>
    rw [wordArrayToByteArray, ih, wordToByteArray_eq words (Nat.min_le_left 4 _)]
    rcases Nat.lt_or_ge length 3 with hlt | hge
    · have hmin : min 4 (length + 1) = length + 1 := by omega
      rw [hmin, Nat.sub_self]
      simp
    · have hmin : min 4 (length + 1) = 4 := by omega
      have hsum : length + 1 = 4 + (length + 1 - 4) := by omega
      have hrest : (List.range (length + 1 - 4)).map (byteAt words.tail) =
          ((List.range (length + 1 - 4)).map (4 + ·)).map (byteAt words) := by
        rw [List.map_map]
        exact List.map_congr_left fun i _ => byteAt_tail words i
      rw [hmin, hrest, ← List.map_append, ← List.range_add, ← hsum]

/-! ## Identifiers -/

/-- The bytes that are hashed for an account. -/
def hashedBytes (principal : Principal) (subAccount : Nat) : List UInt8 :=
  accountDomainSeparator ++ principal.bytes ++ (Hex.bigEndian 4 subAccount ++ List.replicate 28 0)

/-- **No two accounts are hashed from the same bytes.** -/
theorem hashedBytes_inj {principal principal' : Principal} {subAccount subAccount' : Nat}
    (hsub : subAccount < 2 ^ 32) (hsub' : subAccount' < 2 ^ 32)
    (h : hashedBytes principal subAccount = hashedBytes principal' subAccount') :
    principal = principal' ∧ subAccount = subAccount' := by
  unfold hashedBytes at h
  obtain ⟨hprincipal, hrest⟩ := List.append_inj' h (by simp)
  refine ⟨Principal.bytes_injective (List.append_cancel_left hprincipal), ?_⟩
  exact Hex.bigEndian_inj hsub hsub' (List.append_cancel_right hrest)

section

variable (fromText : String → Option Principal) (crc32 : List UInt8 → Word)
  (sha224 : List UInt8 → Digest)

/-- The bytes of an identifier: the checksum, and the digest. -/
def identifierBytes (principal : Principal) (subAccount : Nat) : List UInt8 :=
  let hash := (sha224 (hashedBytes principal subAccount)).bytes
  Hex.bigEndian 4 (crc32 hash).toNat ++ hash

theorem length_digest (digest : Digest) : digest.bytes.length = 28 := by
  unfold WordArray.bytes
  rw [List.length_map, List.length_range, digest.sigBytes_eq]

theorem subBuffer_eq (subAccount : Int) :
    subBuffer subAccount = if 0 ≤ subAccount ∧ subAccount < 2 ^ 32 then
      some (Hex.bigEndian 4 subAccount.toNat ++ List.replicate 28 0) else none := by
  unfold subBuffer
  by_cases hzero : subAccount = 0
  · rw [hzero]
    decide
  · rw [if_pos hzero]
    rfl

/-- What is answered for an account: its bytes in digits. -/
theorem getAccountIdentifier_eq (principalId : String) (subAccount : Int) :
    getAccountIdentifier fromText crc32 sha224 principalId subAccount =
      (fromText principalId).bind fun principal =>
        if 0 ≤ subAccount ∧ subAccount < 2 ^ 32 then
          some (String.ofList (Hex.write (identifierBytes crc32 sha224 principal subAccount.toNat)))
        else none := by
  unfold getAccountIdentifier
  cases fromText principalId with
  | none => rfl
  | some principal =>
    show (subBuffer subAccount).bind _ = if _ then _ else _
    rw [subBuffer_eq]
    split
    next =>
      dsimp only [Option.bind_some, bind, pure]
      rw [bytes_byteArrayToWordArray, bytes_byteArrayToWordArray, wordArrayToByteArray_eq]
      show some (String.ofList (generateChecksum crc32 (sha224 (hashedBytes _ _)).bytes ++ _)) = _
      unfold generateChecksum identifierBytes
      rw [Hex.padded_eq_write (k := 4) (crc32 _).isLt (by omega), ← Hex.write_append]
      rfl
    next => rfl

theorem of_getAccountIdentifier {principalId id : String} {subAccount : Int}
    (h : getAccountIdentifier fromText crc32 sha224 principalId subAccount = some id) :
    ∃ principal, fromText principalId = some principal ∧ (0 ≤ subAccount ∧ subAccount < 2 ^ 32) ∧
      id = String.ofList (Hex.write (identifierBytes crc32 sha224 principal subAccount.toNat)) := by
  rw [getAccountIdentifier_eq] at h
  obtain ⟨principal, hprincipal, hid⟩ := Option.bind_eq_some_iff.mp h
  split at hid
  next hfits => exact ⟨principal, hprincipal, hfits, (Option.some.inj hid).symm⟩
  next => cases hid

/-- What an identifier is of its account. -/
structure Identifies (principal : Principal) (subAccount : Nat) (id : String) : Prop where
  valid : isValidAccountId id = true
  reads : Hex.read id.toList = some (identifierBytes crc32 sha224 principal subAccount)

theorem identifies_write (principal : Principal) (subAccount : Nat) :
    Identifies crc32 sha224 principal subAccount
      (String.ofList (Hex.write (identifierBytes crc32 sha224 principal subAccount))) := by
  constructor
  · have hlength : (identifierBytes crc32 sha224 principal subAccount).length = 32 := by
      unfold identifierBytes
      rw [List.length_append, Hex.length_bigEndian, length_digest]
    unfold isValidAccountId
    rw [String.toList_ofList, Hex.length_write, hlength]
    simpa using fun c hc => Hex.isDigit_of_mem_write hc
  · rw [String.toList_ofList]
    exact Hex.read_write _

/-- The bytes that are hashed for two accounts differ, and have one digest. -/
def Collide (principal principal' : Principal) (subAccount subAccount' : Nat) : Prop :=
  hashedBytes principal subAccount ≠ hashedBytes principal' subAccount' ∧
    (sha224 (hashedBytes principal subAccount)).bytes =
      (sha224 (hashedBytes principal' subAccount')).bytes

/-- Two accounts with the same bytes in their identifiers are one, or collide. -/
theorem collide_of_identifierBytes {principal principal' : Principal} {subAccount subAccount' : Nat}
    (hsub : subAccount < 2 ^ 32) (hsub' : subAccount' < 2 ^ 32)
    (h : identifierBytes crc32 sha224 principal subAccount =
      identifierBytes crc32 sha224 principal' subAccount') :
    (principal = principal' ∧ subAccount = subAccount') ∨
      Collide sha224 principal principal' subAccount subAccount' := by
  by_cases hbytes : hashedBytes principal subAccount = hashedBytes principal' subAccount'
  · exact .inl (hashedBytes_inj hsub hsub' hbytes)
  · -- both end with their digest, of one length
    have hlength := (length_digest (sha224 (hashedBytes principal subAccount))).trans
      (length_digest (sha224 (hashedBytes principal' subAccount'))).symm
    exact .inr ⟨hbytes, (List.append_inj' h hlength).2⟩

/-- **Account identifiers are sound**: an account has one exactly if its principal is read and its
subaccount fits in 32 bits; it is valid and reads back as the checksum and the digest of the account's
bytes; and two accounts have the same only where what is hashed for the one and for the other collide. -/
theorem accountIdentifiers_sound :
    (∀ principalId subAccount,
      match getAccountIdentifier fromText crc32 sha224 principalId subAccount with
      | some id => ∃ principal, fromText principalId = some principal ∧ 0 ≤ subAccount ∧
          subAccount < 2 ^ 32 ∧ Identifies crc32 sha224 principal subAccount.toNat id
      | none => fromText principalId = none ∨ ¬(0 ≤ subAccount ∧ subAccount < 2 ^ 32)) ∧
    ∀ principalId principalId' subAccount subAccount' id,
      getAccountIdentifier fromText crc32 sha224 principalId subAccount = some id →
      getAccountIdentifier fromText crc32 sha224 principalId' subAccount' = some id →
        ∃ principal principal', fromText principalId = some principal ∧
          fromText principalId' = some principal' ∧
          ((principal = principal' ∧ subAccount = subAccount') ∨
            Collide sha224 principal principal' subAccount.toNat subAccount'.toNat) := by
  constructor
  · intro principalId subAccount
    cases hid : getAccountIdentifier fromText crc32 sha224 principalId subAccount with
    | some id =>
      obtain ⟨principal, hprincipal, hfits, rfl⟩ := of_getAccountIdentifier _ _ _ hid
      exact ⟨principal, hprincipal, hfits.1, hfits.2, identifies_write crc32 sha224 _ _⟩
    | none =>
      rw [getAccountIdentifier_eq] at hid
      by_contra hnot
      rw [not_or, not_not] at hnot
      obtain ⟨principal, hprincipal⟩ := Option.ne_none_iff_exists'.mp hnot.1
      rw [hprincipal, Option.bind_some, if_pos hnot.2] at hid
      cases hid
  · intro principalId principalId' subAccount subAccount' id hid hid'
    obtain ⟨principal, hprincipal, hfits, rfl⟩ := of_getAccountIdentifier _ _ _ hid
    obtain ⟨principal', hprincipal', hfits', hsame⟩ := of_getAccountIdentifier _ _ _ hid'
    have hread := congrArg Hex.read (String.ofList_injective hsame)
    rw [Hex.read_write, Hex.read_write] at hread
    refine ⟨principal, principal', hprincipal, hprincipal', ?_⟩
    obtain ⟨hsame, hsub⟩ | collide :=
      collide_of_identifierBytes crc32 sha224 (by omega) (by omega) (Option.some.inj hread)
    · exact .inl ⟨hsame, by omega⟩
    · exact .inr collide

end

end Fomowell.Frontend
