import Fomowell.Numerals
import Fomowell.Token.IToken

/-!
# The description of a token (`fomowell-icpex-lib/src/interface/itoken.rs`)

`getTokenInfo` asks a ledger for its metadata. A DIP20 answers a record; an ICRC-1 ledger answers a list of
keys and values, in any order and with any repetition, and the loop over it overwrites a field with each
entry it knows. So a field ends up as its last entry says (`foldl_readEntry`). Numbers of the kind `Int`,
and decimals of either kind, go through their text and an 8-bit parse: for decimals that is enough, and
for a fee it is not (`tokenInfo_described_iff`).
-/

namespace Fomowell.Token

/-! ## The function -/

/-- `MetadataICRC1`. -/
inductive MetadataICRC1
  | Nat (v : Nat)
  | Int (v : Int)
  | Text (v : String)
  | Blob (v : List UInt8)
  deriving DecidableEq

/-- An entry of an ICRC-1 ledger's metadata. -/
abbrev MetadataEntry : Type := String × MetadataICRC1

/-- `Metadata`, of a DIP20. -/
structure Metadata where
  logo : String
  name : String
  symbol : String
  decimals : UInt8
  totalSupply : Nat
  owner : Principal
  fee : Nat

/-- What a ledger answers to the calls of `getTokenInfo`. -/
structure TokenReplies where
  getMetadata : CallResult Metadata
  icrc1TotalSupply : CallResult Nat
  icrc1Metadata : CallResult (List MetadataEntry)

/-- The DIP20 branch of `getTokenInfo`. -/
def tokenInfoDip20 (cid : Principal) (m : Metadata) : TokenInfo where
  address := cid
  tokenType := "DIP20"
  symbol := m.symbol
  name := m.name
  decimals := m.decimals.toNat
  owner := m.owner
  logo := m.logo
  flatFee := true
  burnRate := 0
  feeRate := m.fee
  flatBurnFee := true
  totalSupply := m.totalSupply
  mintOn := false
  platformTokenType := "UNKNOWN"

/-- What the ICRC-1 branch of `getTokenInfo` starts with. -/
def tokenInfoIcrc1 (cid : Principal) (totalSupply : Nat) : TokenInfo where
  address := cid
  tokenType := "ICRC-1"
  symbol := ""
  name := ""
  decimals := 0
  owner := Principal.managementCanister
  logo := ""
  flatFee := true
  burnRate := 0
  feeRate := 0
  flatBurnFee := true
  totalSupply
  mintOn := false
  platformTokenType := "UNKNOWN"

/-- The body of the loop over the metadata. -/
def TokenInfo.readEntry (token : TokenInfo) (entry : MetadataEntry) : TokenInfo :=
  let (name, v2) := entry
  match v2 with
  | .Int v =>
    let vu := (parseU8 (displayInt v)).getD 0
    if name = "icrc1:fee" then { token with feeRate := vu }
    else if name = "icrc1:decimals" then { token with decimals := vu }
    else token
  | .Nat v =>
    if name = "icrc1:fee" then { token with feeRate := v }
    else if name = "icrc1:decimals" then
      match parseU8 (displayNat v) with
      | some intVal => { token with decimals := intVal }
      | none => token
    else token
  | .Blob _ => token
  | .Text v =>
    if name = "icrc1:symbol" then { token with symbol := v }
    else if name = "icrc1:name" then { token with name := v }
    else if name = "icrc1:logo" then { token with logo := v }
    else token

/-- `getTokenInfo`. Any other type of token traps. -/
def getTokenInfo (cid : Principal) (tokenType : String) (ledger : TokenReplies) : Option TokenInfo :=
  match TokenType.ofString tokenType with
  | .DIP20 => do
    let m ← ledger.getMetadata.toOption
    return tokenInfoDip20 cid m
  | .ICRC1 => do
    let totalSupply ← ledger.icrc1TotalSupply.toOption
    let m ← ledger.icrc1Metadata.toOption
    return m.foldl TokenInfo.readEntry (tokenInfoIcrc1 cid totalSupply)
  | _ => none

/-! ## What the metadata says -/

/-- The last value that an entry of a list has. -/
def latest {α β : Type} (value? : α → Option β) (l : List α) : Option β := (l.filterMap value?).getLast?

/-- The number of an entry under a key, of either kind. -/
def numberOf (key : String) : MetadataEntry → Option MetadataICRC1
  | (name, .Nat v) => if name = key then some (.Nat v) else none
  | (name, .Int v) => if name = key then some (.Int v) else none
  | _ => none

/-- The text of an entry under a key. -/
def textOf (key : String) : MetadataEntry → Option String
  | (name, .Text v) => if name = key then some v else none
  | _ => none

/-- The value of a number that is not negative. -/
def numberValue : MetadataICRC1 → Nat
  | .Nat v => v
  | .Int v => v.toNat
  | _ => 0

/-- The description that the metadata gives of a token. -/
def described (cid : Principal) (totalSupply : Nat) (m : List MetadataEntry) : TokenInfo :=
  { tokenInfoIcrc1 cid totalSupply with
    feeRate := ((latest (numberOf "icrc1:fee") m).map numberValue).getD 0
    decimals := ((latest (numberOf "icrc1:decimals") m).map numberValue).getD 0
    symbol := (latest (textOf "icrc1:symbol") m).getD ""
    name := (latest (textOf "icrc1:name") m).getD ""
    logo := (latest (textOf "icrc1:logo") m).getD "" }

/-- A number that is not negative. -/
def NonNeg : MetadataICRC1 → Prop
  | .Int v => 0 ≤ v
  | _ => True

/-- No fee is negative, and decimals are bytes. -/
structure InRange (m : List MetadataEntry) : Prop where
  fee : ∀ entry ∈ m, ∀ number, numberOf "icrc1:fee" entry = some number → NonNeg number
  decimals : ∀ entry ∈ m, ∀ number, numberOf "icrc1:decimals" entry = some number →
    NonNeg number ∧ numberValue number ≤ 255

/-- The last fee, where it is of the kind `Int`, is a byte. -/
def IntFeeFits (m : List MetadataEntry) : Prop :=
  ∀ v, latest (numberOf "icrc1:fee") m = some (.Int v) → v ≤ 255

/-! ## The loop -/

/-- The last of a longer list, or what is kept without one. -/
theorem latest_cons_getD {α β : Type} (value? : α → Option β) (a : α) (l : List α) (b : β) :
    (latest value? (a :: l)).getD b = (latest value? l).getD ((value? a).getD b) := by
  unfold latest
  rw [List.filterMap_cons]
  cases value? a with
  | none => rfl
  | some c =>
    rw [List.getLast?_cons]
    rfl

/-- What a number is read as, for a fee. -/
def feeValue : MetadataICRC1 → Nat
  | .Nat v => v
  | .Int v => (parseU8 (displayInt v)).getD 0
  | _ => 0

/-- What a number is read as, for decimals. -/
def decimalsValue : MetadataICRC1 → Option Nat
  | .Nat v => parseU8 (displayNat v)
  | .Int v => some ((parseU8 (displayInt v)).getD 0)
  | _ => some 0

/-- The fee that an entry writes. -/
def feeRead (entry : MetadataEntry) : Option Nat := (numberOf "icrc1:fee" entry).map feeValue

/-- The decimals that an entry writes. -/
def decimalsRead (entry : MetadataEntry) : Option Nat :=
  (numberOf "icrc1:decimals" entry).bind decimalsValue

/-- **One entry** writes the fields that it is about. -/
theorem readEntry_eq (token : TokenInfo) (entry : MetadataEntry) :
    token.readEntry entry =
      { token with
        feeRate := (feeRead entry).getD token.feeRate
        decimals := (decimalsRead entry).getD token.decimals
        symbol := (textOf "icrc1:symbol" entry).getD token.symbol
        name := (textOf "icrc1:name" entry).getD token.name
        logo := (textOf "icrc1:logo" entry).getD token.logo } := by
  obtain ⟨name, v2⟩ := entry
  unfold TokenInfo.readEntry feeRead decimalsRead
  cases v2 with
  | Nat v =>
    by_cases hfee : name = "icrc1:fee"
    · subst hfee
      rfl
    by_cases hdecimals : name = "icrc1:decimals"
    · subst hdecimals
      have hread : (numberOf "icrc1:decimals" ("icrc1:decimals", .Nat v)).bind decimalsValue =
          parseU8 (displayNat v) := rfl
      rw [hread]
      cases hparse : parseU8 (displayNat v) with
      | none => simp only [hparse]; rfl
      | some intVal => simp only [hparse]; rfl
    · simp only [numberOf, textOf, if_neg hfee, if_neg hdecimals]
      rfl
  | Int v =>
    by_cases hfee : name = "icrc1:fee"
    · subst hfee
      rfl
    by_cases hdecimals : name = "icrc1:decimals"
    · subst hdecimals
      rfl
    · simp only [numberOf, textOf, if_neg hfee, if_neg hdecimals]
      rfl
  | Text v =>
    by_cases hsymbol : name = "icrc1:symbol"
    · subst hsymbol
      rfl
    by_cases hname : name = "icrc1:name"
    · subst hname
      rfl
    by_cases hlogo : name = "icrc1:logo"
    · subst hlogo
      rfl
    · simp only [numberOf, textOf, if_neg hsymbol, if_neg hname, if_neg hlogo]
      rfl
  | Blob v => rfl

/-- **The loop** leaves in each field what its last entry writes. -/
theorem foldl_readEntry (m : List MetadataEntry) (token : TokenInfo) :
    m.foldl TokenInfo.readEntry token =
      { token with
        feeRate := (latest feeRead m).getD token.feeRate
        decimals := (latest decimalsRead m).getD token.decimals
        symbol := (latest (textOf "icrc1:symbol") m).getD token.symbol
        name := (latest (textOf "icrc1:name") m).getD token.name
        logo := (latest (textOf "icrc1:logo") m).getD token.logo } := by
  induction m generalizing token with
  | nil => rfl
  | cons entry m ih =>
    rw [List.foldl_cons, ih, readEntry_eq]
    simp only [latest_cons_getD]

/-! ## What is read and what is said -/

/-- The last value of a list is a value of one of its entries. -/
theorem mem_of_latest {α β : Type} {value? : α → Option β} {l : List α} {b : β}
    (h : latest value? l = some b) : ∃ a ∈ l, value? a = some b :=
  List.mem_filterMap.mp (List.mem_of_getLast? h)

/-- The last value, read in a way that agrees on every entry. -/
theorem latest_eq_map {α β γ : Type} {value? : α → Option β} {read? : α → Option γ} {read : β → γ}
    {l : List α} (h : ∀ a ∈ l, read? a = (value? a).map read) :
    latest read? l = (latest value? l).map read := by
  unfold latest
  rw [List.filterMap_congr h, ← List.map_filterMap, List.getLast?_map]

theorem parseU8_displayNat {n : Nat} (h : n ≤ 255) : parseU8 (displayNat n) = some n := by
  unfold parseU8
  rw [parseWord_displayNat, if_pos (by omega)]

/-- An integer that is not negative is read, where it is a byte, and as zero, where it is not. -/
theorem parseU8_displayInt {v : Int} (h : 0 ≤ v) :
    (parseU8 (displayInt v)).getD 0 = if v ≤ 255 then v.toNat else 0 := by
  unfold parseU8
  rw [parseWord_displayInt]
  by_cases hbyte : v ≤ 255
  · rw [if_pos (by omega), if_pos hbyte, Option.getD_some]
  · rw [if_neg (by omega), if_neg hbyte, Option.getD_none]

/-- Decimals that are bytes are read as they are. -/
theorem decimalsValue_eq {number : MetadataICRC1} (nonneg : NonNeg number)
    (byte : numberValue number ≤ 255) : decimalsValue number = some (numberValue number) := by
  cases number with
  | Nat v => exact parseU8_displayNat byte
  | Int v =>
    have hle : v ≤ 255 := Int.toNat_le.mp byte
    unfold decimalsValue
    dsimp only
    rw [parseU8_displayInt nonneg, if_pos hle]
    rfl
  | Text v => rfl
  | Blob v => rfl

theorem latest_decimalsRead {m : List MetadataEntry} (inRange : InRange m) :
    latest decimalsRead m = (latest (numberOf "icrc1:decimals") m).map numberValue := by
  refine latest_eq_map fun entry hentry => ?_
  unfold decimalsRead
  cases hnumber : numberOf "icrc1:decimals" entry with
  | none => rfl
  | some number =>
    obtain ⟨nonneg, byte⟩ := inRange.decimals entry hentry number hnumber
    exact decimalsValue_eq nonneg byte

/-- A fee is read as it is, unless it is an `Int` and no byte. -/
theorem feeValue_eq_iff {number : MetadataICRC1} (nonneg : NonNeg number) :
    feeValue number = numberValue number ↔ ∀ v, number = .Int v → v ≤ 255 := by
  cases number with
  | Int v =>
    unfold feeValue numberValue
    dsimp only
    rw [parseU8_displayInt nonneg]
    constructor
    · rintro hfee w ⟨⟩
      by_contra hlarge
      rw [if_neg hlarge] at hfee
      omega
    · intro hbyte
      rw [if_pos (hbyte v rfl)]
  | Nat v => exact iff_of_true rfl fun _ h => nomatch h
  | Text v => exact iff_of_true rfl fun _ h => nomatch h
  | Blob v => exact iff_of_true rfl fun _ h => nomatch h

/-- **When the metadata of an ICRC-1 token is read faithfully**: where the last fee is not an `Int` above
255. -/
theorem tokenInfo_described_iff (cid : Principal) (getMetadata : CallResult Metadata)
    (totalSupply : Nat) {m : List MetadataEntry} (inRange : InRange m) :
    getTokenInfo cid "ICRC-1" ⟨getMetadata, .ok totalSupply, .ok m⟩ =
        some (described cid totalSupply m) ↔ IntFeeFits m := by
  have hread : getTokenInfo cid "ICRC-1" ⟨getMetadata, .ok totalSupply, .ok m⟩ =
      some { described cid totalSupply m with
        feeRate := ((latest (numberOf "icrc1:fee") m).map feeValue).getD 0 } := by
    have hfee : latest feeRead m = (latest (numberOf "icrc1:fee") m).map feeValue :=
      latest_eq_map fun _ _ => rfl
    have hloop : getTokenInfo cid "ICRC-1" ⟨getMetadata, .ok totalSupply, .ok m⟩ =
        some (m.foldl TokenInfo.readEntry (tokenInfoIcrc1 cid totalSupply)) := rfl
    rw [hloop, foldl_readEntry, latest_decimalsRead inRange, hfee]
    rfl
  have hfields : getTokenInfo cid "ICRC-1" ⟨getMetadata, .ok totalSupply, .ok m⟩ =
        some (described cid totalSupply m) ↔
      ((latest (numberOf "icrc1:fee") m).map feeValue).getD 0 =
        ((latest (numberOf "icrc1:fee") m).map numberValue).getD 0 := by
    rw [hread, Option.some.injEq]
    constructor
    · exact fun h => congrArg TokenInfo.feeRate h
    · intro h
      rw [h]
      rfl
  rw [hfields]
  unfold IntFeeFits
  cases hlast : latest (numberOf "icrc1:fee") m with
  | none => exact iff_of_true rfl fun _ h => nomatch h
  | some number =>
    obtain ⟨entry, hentry, hnumber⟩ := mem_of_latest hlast
    simp only [Option.map_some, Option.getD_some, Option.some.injEq]
    exact feeValue_eq_iff (inRange.fee entry hentry number hnumber)

/-- A ledger's metadata: the fee is repeated, and the second one counts. -/
def sampleMetadata : List MetadataEntry :=
  [("icrc1:fee", .Int 7), ("icrc1:symbol", .Text "ICP"), ("icrc1:fee", .Nat 10000),
    ("icrc1:decimals", .Int 8), ("icrc1:logo", .Blob [])]

/-- The metadata is read as it says. -/
theorem tokenInfo_described_sample :
    getTokenInfo (.ofByte 1) "ICRC-1" ⟨.error (.NoError, ""), .ok 21, .ok sampleMetadata⟩ =
        some { tokenInfoIcrc1 (.ofByte 1) 21 with feeRate := 10000, decimals := 8, symbol := "ICP" } ∧
      (getTokenInfo (.ofByte 1) "ICRC-1" ⟨.error (.NoError, ""), .ok 21, .ok sampleMetadata⟩ =
        some (described (.ofByte 1) 21 sampleMetadata) ↔ IntFeeFits sampleMetadata) := by
  refine ⟨by decide, tokenInfo_described_iff _ _ _ ⟨?_, ?_⟩⟩
  · simp [sampleMetadata, numberOf, NonNeg]
  · simp [sampleMetadata, numberOf, NonNeg, numberValue]

/-- **A fee that is lost**: an `Int` of a thousand is read as zero. -/
theorem not_tokenInfo_described :
    ¬ ∀ cid getMetadata totalSupply m, InRange m →
      getTokenInfo cid "ICRC-1" ⟨getMetadata, .ok totalSupply, .ok m⟩ =
        some (described cid totalSupply m) := by
  intro all
  have inRange : InRange [("icrc1:fee", .Int 1000)] := by
    refine ⟨?_, ?_⟩
    · simp [numberOf, NonNeg]
    · simp [numberOf]
  have hread := all (.ofByte 1) (.error (.NoError, "")) 21 _ inRange
  revert hread
  decide

end Fomowell.Token
