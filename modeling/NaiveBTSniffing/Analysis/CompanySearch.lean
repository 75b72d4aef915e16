import Mathlib.Data.Int.Bitwise
import NaiveBTSniffing.Analysis.RegexSearch
import NaiveBTSniffing.Library.Tokens

/-!
Contract: the search for a company agrees with the sections of the report that it looks at.

The search starts from the companies whose names match and looks for their numbers: in the
version exchanges, in the manufacturer-specific data, where the bytes of a number may be
swapped, in the lists of advertised UUID16s and in the OUIs. The report starts from the numbers
of the device and looks for their names. Owns that both come to the same companies in these
sections, where the columns and the files hold numbers of 16 bits.

Does not own the sections that the search never looks at, which print companies too: the
solicited UUID16s, and the vendors of the device IDs. Nor does it own what the lookup by OUI
returns (`Analysis.OuiSearch`).
-/

namespace NaiveBTSniffing.Analysis.Search

open NaiveBTSniffing.Library
open NaiveBTSniffing.Library.Text

/-! ## What the report prints -/

/-- `BT_CID_to_company_name`, with `none` for "No Match". -/
def btCidToCompanyName (files : CompanyFiles) : Int → Option Text
  | .ofNat deviceBtCid => (btCidToNames files).lookup deviceBtCid
  | .negSucc _ => none

/-- `flipped_endian`. -/
def flippedEndian (deviceBtCid : Int) : Int :=
  Int.lor (Int.land deviceBtCid 0xff <<< 8) (deviceBtCid >>> 8)

/-- The numbers of a row of `print_manufacturer_data`. -/
def manufacturerCids (data : MfSpecific) : List Int :=
  [data.deviceBtCid, flippedEndian data.deviceBtCid]

/-- The numbers that `print_uuid16s` looks up for a list, each as `int(uuid16, 16)`. -/
def uuid16Numbers (strUuid16s : Text) : List Int :=
  (strUuid16s.splitOn ',').filterMap fun token => parseInt 16 (strip token)

section Report

variable (files : CompanyFiles) (collation : Collation) (database : Database) (bdaddr : Text)

/-- The company numbers that `print_manufacturer_data`, `print_BLE_2thprint` and
`print_BTC_2thprint` print with a name. -/
def printedCids : List Int :=
  (ClassicRow.about collation (stripLower bdaddr) database.eirMfSpecific).flatMap
      manufacturerCids ++
    (LeRow.about collation (stripLower bdaddr) database.leMfSpecific).flatMap
      (fun row => manufacturerCids row.columns) ++
    (ble2thResults collation database bdaddr).version.map (fun row => (row.deviceBtCid : Int)) ++
    (btc2thResults collation database bdaddr).version.map fun row => (row.deviceBtCid : Int)

/-- The numbers that `print_uuid16s` looks up, the advertised ones. -/
def printedUuid16s : List Int :=
  ((ClassicRow.about collation bdaddr database.eirUuid16s).map UuidList.strUuids ++
    (LeRow.about collation bdaddr database.leUuid16s).map fun row => row.columns.strUuids).flatMap
    fun strUuid16s => (strUuid16s.map uuid16Numbers).getD []

/-- As manufacturer data, in a version exchange or among the advertised UUID16s, the report prints
a number that the files of assigned numbers give to a company with a wanted name. -/
def ReportsSearchedCompany (wanted : Text → Bool) : Prop :=
  (∃ deviceBtCid ∈ printedCids collation database bdaddr,
      (btCidToCompanyName files deviceBtCid).any wanted = true) ∨
    ∃ uuid16 : Nat, (uuid16 : Int) ∈ printedUuid16s collation database bdaddr ∧
      ((btMemberUuid16sToNames files).lookup uuid16).any wanted = true

end Report

/-- A number of 16 bits. -/
def IsUint16 (number : Int) : Prop := ∃ value < 2 ^ 16, number = (value : Nat)

/-- A list of UUID16s as `tshark` prints it. -/
def ListsUuid16s : Option Text → Prop
  | some text => ∀ token ∈ text.splitOn ',', ∃ uuid16 < 2 ^ 16, token = hexField 4 uuid16
  | none => False

/-- The assigned numbers have 16 bits. -/
structure CompanyFiles.Assigned (files : CompanyFiles) : Prop where
  companyIdentifiers : ∀ entry ∈ files.companyIdentifiers, entry.1 < 2 ^ 16
  memberUuids : ∀ entry ∈ files.memberUuids, entry.1 < 2 ^ 16

/-- The columns about the address hold what the importers write. -/
structure StoresCompanies (collation : Collation) (database : Database) (bdaddr : Text) :
    Prop where
  eirMfSpecific : ∀ data ∈ ClassicRow.about collation bdaddr database.eirMfSpecific,
    IsUint16 data.deviceBtCid
  leMfSpecific : ∀ row ∈ LeRow.about collation bdaddr database.leMfSpecific,
    IsUint16 row.columns.deviceBtCid
  eirUuid16s : ∀ list ∈ ClassicRow.about collation bdaddr database.eirUuid16s,
    ListsUuid16s list.strUuids
  leUuid16s : ∀ row ∈ LeRow.about collation bdaddr database.leUuid16s,
    ListsUuid16s row.columns.strUuids

/-! ## Swapped bytes -/

theorem byteSwappedKey_eq (key : Nat) :
    byteSwappedKey key = key % 256 * 256 + key / 256 % 256 := by
  have low : key &&& 0xff = key % 256 := Nat.and_two_pow_sub_one_eq_mod key 8
  have high : (key &&& 0xff00) >>> 8 = key / 256 % 256 := by
    rw [Nat.shiftRight_and_distrib, Nat.shiftRight_eq_div_pow]
    exact Nat.and_two_pow_sub_one_eq_mod _ 8
  rw [byteSwappedKey, low, high, ← Nat.shiftLeft_add_eq_or_of_lt (by omega),
    Nat.shiftLeft_eq]

theorem flippedEndian_eq {value : Nat} (small : value < 2 ^ 16) :
    flippedEndian value = byteSwappedKey value := by
  have high : (value &&& 0xff00) >>> 8 = value >>> 8 := by
    rw [Nat.shiftRight_and_distrib]
    have kept := Nat.and_two_pow_sub_one_eq_mod (value >>> 8) 8
    rw [Nat.mod_eq_of_lt (by rw [Nat.shiftRight_eq_div_pow]; omega)] at kept
    exact kept
  rw [byteSwappedKey, high]
  rfl

/-- The flipped number is the number of the company exactly if the stored one is it with its
bytes swapped. -/
theorem flippedEndian_eq_iff {value key : Nat} (small : value < 2 ^ 16) (assigned : key < 2 ^ 16) :
    flippedEndian value = key ↔ (value : Int) = byteSwappedKey key := by
  have ofValue : value / 256 % 256 = value / 256 := Nat.mod_eq_of_lt (by omega)
  have ofKey : key / 256 % 256 = key / 256 := Nat.mod_eq_of_lt (by omega)
  rw [flippedEndian_eq small, Int.natCast_inj, Int.natCast_inj, byteSwappedKey_eq,
    byteSwappedKey_eq, ofValue, ofKey]
  constructor
  · rintro rfl
    omega
  · rintro rfl
    omega

/-! ## Companies with a wanted name -/

variable {wanted : Text → Bool} {files : CompanyFiles}

theorem mem_matchedKeys (names : Dict Nat Text) (key : Nat) :
    key ∈ matchedKeys wanted names ↔ (names.lookup key).any wanted = true := by
  simp only [matchedKeys, List.mem_map, List.mem_filter, Option.any_eq_true]
  constructor
  · rintro ⟨⟨found, name⟩, ⟨member, wants⟩, rfl⟩
    exact ⟨name, AList.mem_lookup_iff.mpr member, wants⟩
  · intro ⟨name, found, wants⟩
    exact ⟨⟨key, name⟩, ⟨AList.mem_lookup_iff.mp found, wants⟩, rfl⟩

/-- A number with a name is one of the file. -/
theorem exists_of_numberedNames {entries : List (Nat × Text)} {key : Nat}
    (named : ((numberedNames entries).lookup key).any wanted = true) :
    ∃ entry ∈ entries, entry.1 = key := by
  obtain ⟨name, found, _⟩ := (Option.any_eq_true _ _).mp named
  have known : key ∈ numberedNames entries := (Dict.mem_iff_lookup _ _).mpr ⟨name, found⟩
  have listed := (Dict.mem_foldl_setItem Prod.fst Prod.snd entries ∅ key).mp known
  exact listed.resolve_right (AList.notMem_empty key)

/-- A number of the device has a wanted name if and only if the search starts from it. -/
theorem any_companyName_iff (deviceBtCid : Int) :
    (btCidToCompanyName files deviceBtCid).any wanted = true ↔
      ∃ key ∈ matchedKeys wanted (btCidToNames files), deviceBtCid = (key : Nat) := by
  cases deviceBtCid with
  | ofNat number =>
      rw [btCidToCompanyName, ← mem_matchedKeys]
      simp
  | negSucc number =>
      simp [btCidToCompanyName]

/-- The search for the numbers of the companies, as they are and swapped, finds what the report
prints for a row. -/
theorem any_manufacturerCids_iff (assigned : files.Assigned) {data : MfSpecific}
    (small : IsUint16 data.deviceBtCid) :
    (∃ cid ∈ manufacturerCids data, (btCidToCompanyName files cid).any wanted = true) ↔
      ∃ key ∈ matchedKeys wanted (btCidToNames files),
        data.deviceBtCid = (key : Nat) ∨ data.deviceBtCid = (byteSwappedKey key : Nat) := by
  obtain ⟨value, fits, stored⟩ := small
  simp only [manufacturerCids, List.mem_cons, List.not_mem_nil, or_false, exists_eq_or_imp,
    exists_eq_left, any_companyName_iff, ← exists_or, ← and_or_left]
  apply exists_congr
  intro key
  apply and_congr_right
  intro matched
  obtain ⟨entry, listed, rfl⟩ := exists_of_numberedNames ((mem_matchedKeys _ key).mp matched)
  rw [stored, flippedEndian_eq_iff fits (assigned.companyIdentifiers entry listed)]

theorem exists_manufacturerCids_iff {Row : Type} {rows : List Row} (data : Row → MfSpecific)
    (assigned : files.Assigned) (small : ∀ row ∈ rows, IsUint16 (data row).deviceBtCid) :
    (∃ cid, (∃ row ∈ rows, cid ∈ manufacturerCids (data row)) ∧
        (btCidToCompanyName files cid).any wanted = true) ↔
      ∃ row ∈ rows, ∃ key ∈ matchedKeys wanted (btCidToNames files),
        (data row).deviceBtCid = (key : Nat) ∨
          (data row).deviceBtCid = (byteSwappedKey key : Nat) := by
  constructor
  · intro ⟨cid, ⟨row, member, printed⟩, named⟩
    exact ⟨row, member,
      (any_manufacturerCids_iff assigned (small row member)).mp ⟨cid, printed, named⟩⟩
  · intro ⟨row, member, found⟩
    obtain ⟨cid, printed, named⟩ :=
      (any_manufacturerCids_iff assigned (small row member)).mpr found
    exact ⟨cid, ⟨row, member, printed⟩, named⟩

/-! ## UUID16s -/

theorem hexField_plain (width value : Nat) :
    ∀ char ∈ hexField width value, char ∈ plainLetters := by
  have digitsFirst : plainLetters = "0123456789abcdef".toList ++ "ABCDEFx-".toList := by decide
  intro char member
  simp only [hexField, List.mem_cons] at member
  rcases member with rfl | rfl | digit
  · decide
  · decide
  · rw [digitsFirst]
    exact List.mem_append_left _ (isHexText_hexPadded width value char digit)

theorem map_toLower_hexField (width value : Nat) :
    (hexField width value).map Char.toLower = hexField width value := by
  rw [hexField, List.map_cons, List.map_cons, map_toLower_hexText (isHexText_hexPadded _ _)]
  rfl

theorem parseInt_strip_hexField (width value : Nat) :
    parseInt 16 (strip (hexField width value)) = some (value : Int) := by
  have word : IsWord plainLetters := by decide
  rw [strip_eq_self fun char member => word.noSpace char (hexField_plain width value char member)]
  exact parseInt_hexPadded width value

theorem hexField_infix_iff {first second : Nat} (firstSmall : first < 2 ^ 16)
    (secondSmall : second < 2 ^ 16) :
    hexField 4 first <:+: hexField 4 second ↔ second = first := by
  have length {value : Nat} (small : value < 2 ^ 16) : (hexField 4 value).length = 6 := by
    rw [hexField, List.length_cons, List.length_cons, length_hexPadded (by decide) (by omega)]
  rw [infix_iff_eq (by rw [length firstSmall, length secondSmall])]
  constructor
  · intro same
    have numbers := congrArg (fun text => parseInt 16 (strip text)) same
    rw [parseInt_strip_hexField, parseInt_strip_hexField, Option.some_inj,
      Int.natCast_inj] at numbers
    exact numbers
  · rintro rfl
    rfl

/-- A list matches if and only if the report looks the number up for one of its tokens. -/
theorem uuid16_holds_iff {regexp : Regexp} {key : Nat} (assigned : key < 2 ^ 16)
    {strUuid16s : Option Text} (lists : ListsUuid16s strUuid16s) :
    regexp.holdsIn (hexField 4 key) strUuid16s = true ↔
      (key : Int) ∈ (strUuid16s.map uuid16Numbers).getD [] := by
  have noComma : ',' ∉ hexField 4 key := by
    intro member
    exact absurd (hexField_plain 4 key _ member) (by decide)
  cases strUuid16s with
  | none => exact absurd lists id
  | some text =>
      rw [Regexp.holdsIn, regexp.holds_plain _ _ (hexField_plain 4 key), map_toLower_hexField,
        infix_map_iff_exists_token noComma (by decide), Option.map_some, Option.getD_some,
        uuid16Numbers, List.mem_filterMap]
      apply exists_congr
      intro token
      apply and_congr_right
      intro member
      obtain ⟨uuid16, small, rfl⟩ := lists token member
      rw [map_toLower_hexField, parseInt_strip_hexField, hexField_infix_iff assigned small,
        Option.some_inj, Int.natCast_inj]

/-! ## The search and the report -/

variable {collation : Collation} {database : Database} {bdaddr : Text}

/-- The lookups of the company numbers, row by row. -/
theorem finds_btCidResults_iff (keys : List Nat) :
    (∃ result ∈ keys.flatMap (btCidResults database), Finds collation bdaddr result) ↔
      (∃ data ∈ ClassicRow.about collation bdaddr database.eirMfSpecific, ∃ key ∈ keys,
          data.deviceBtCid = (key : Nat) ∨ data.deviceBtCid = (byteSwappedKey key : Nat)) ∨
        (∃ row ∈ LeRow.about collation bdaddr database.leMfSpecific, ∃ key ∈ keys,
          row.columns.deviceBtCid = (key : Nat) ∨
            row.columns.deviceBtCid = (byteSwappedKey key : Nat)) ∨
        (∃ version ∈ TypedRow.about collation bdaddr database.ble2thLlVersionInd,
          version.deviceBtCid ∈ keys) ∨
        ∃ version ∈ ClassicRow.about collation bdaddr database.btc2thLmpVersionRes,
          version.deviceBtCid ∈ keys := by
  simp only [List.mem_flatMap, btCidResults, List.mem_cons, List.not_mem_nil, or_false]
  constructor
  · rintro ⟨result, ⟨key, member, rfl | rfl | rfl | rfl | rfl | rfl⟩, found⟩
    · obtain ⟨version, row, same⟩ := finds_classicRows.mp found
      exact .inr (.inr (.inr ⟨version, row, of_decide_eq_true same ▸ member⟩))
    · obtain ⟨version, row, same⟩ := finds_typedRows.mp found
      exact .inr (.inr (.inl ⟨version, row, of_decide_eq_true same ▸ member⟩))
    · obtain ⟨row, inside, same⟩ := finds_leRows.mp found
      exact .inr (.inl ⟨row, inside, key, member, .inl (of_decide_eq_true same)⟩)
    · obtain ⟨row, inside, same⟩ := finds_leRows.mp found
      exact .inr (.inl ⟨row, inside, key, member, .inr (of_decide_eq_true same)⟩)
    · obtain ⟨data, row, same⟩ := finds_classicRows.mp found
      exact .inl ⟨data, row, key, member, .inl (of_decide_eq_true same)⟩
    · obtain ⟨data, row, same⟩ := finds_classicRows.mp found
      exact .inl ⟨data, row, key, member, .inr (of_decide_eq_true same)⟩
  · rintro (⟨data, row, key, member, same | same⟩ | ⟨row, inside, key, member, same | same⟩ |
      ⟨version, row, member⟩ | ⟨version, row, member⟩)
    · exact ⟨_, ⟨key, member, .inr (.inr (.inr (.inr (.inl rfl))))⟩,
        finds_classicRows.mpr ⟨data, row, decide_eq_true same⟩⟩
    · exact ⟨_, ⟨key, member, .inr (.inr (.inr (.inr (.inr rfl))))⟩,
        finds_classicRows.mpr ⟨data, row, decide_eq_true same⟩⟩
    · exact ⟨_, ⟨key, member, .inr (.inr (.inl rfl))⟩,
        finds_leRows.mpr ⟨row, inside, decide_eq_true same⟩⟩
    · exact ⟨_, ⟨key, member, .inr (.inr (.inr (.inl rfl)))⟩,
        finds_leRows.mpr ⟨row, inside, decide_eq_true same⟩⟩
    · exact ⟨_, ⟨_, member, .inr (.inl rfl)⟩,
        finds_typedRows.mpr ⟨version, row, decide_eq_true rfl⟩⟩
    · exact ⟨_, ⟨_, member, .inl rfl⟩,
        finds_classicRows.mpr ⟨version, row, decide_eq_true rfl⟩⟩

/-- The lookups of the UUID16s, row by row. -/
theorem finds_uuid16Results_iff (regexp : Regexp) (keys : List Nat) :
    (∃ result ∈ keys.flatMap (uuid16Results regexp database), Finds collation bdaddr result) ↔
      ∃ key ∈ keys,
        (∃ list ∈ ClassicRow.about collation bdaddr database.eirUuid16s,
          regexp.holdsIn (hexField 4 key) list.strUuids = true) ∨
        ∃ row ∈ LeRow.about collation bdaddr database.leUuid16s,
          regexp.holdsIn (hexField 4 key) row.columns.strUuids = true := by
  simp only [List.mem_flatMap, uuid16Results, List.mem_cons, List.not_mem_nil, or_false]
  constructor
  · rintro ⟨result, ⟨key, member, rfl | rfl⟩, found⟩
    · exact ⟨key, member, .inl (finds_classicRows.mp found)⟩
    · exact ⟨key, member, .inr (finds_leRows.mp found)⟩
  · rintro ⟨key, member, found | found⟩
    · exact ⟨_, ⟨key, member, .inl rfl⟩, finds_classicRows.mpr found⟩
    · exact ⟨_, ⟨key, member, .inr rfl⟩, finds_leRows.mpr found⟩

/-- The lookups of the OUIs. -/
theorem finds_ouiSearch_iff (regexp : Regexp) (companyregex : Text) :
    (∃ result ∈ (bdaddrPrefixes regexp database companyregex).map (database.ouiSearch collation),
        Finds collation bdaddr result) ↔
      ∃ row ∈ database.ieeeBdaddrToCompany, regexp.holds companyregex row.companyName = true ∧
        database.Returns collation row.deviceBdaddr bdaddr := by
  have isKey (start : Text) : start ∈ bdaddrPrefixes regexp database companyregex ↔
      ∃ row ∈ database.ieeeBdaddrToCompany, regexp.holds companyregex row.companyName = true ∧
        row.deviceBdaddr = start := by
    rw [bdaddrPrefixes, ← AList.mem_keys,
      Dict.mem_foldl_setItem IeeeCompany.deviceBdaddr IeeeCompany.companyName]
    simp [and_assoc]
  simp only [List.mem_map, isKey]
  constructor
  · rintro ⟨_, ⟨_, ⟨row, member, holds, rfl⟩, rfl⟩, found⟩
    exact ⟨row, member, holds, found⟩
  · exact fun ⟨row, member, holds, found⟩ =>
      ⟨_, ⟨_, ⟨row, member, holds, rfl⟩, rfl⟩, found⟩

/-- The report prints a name for a company number if and only if one of the lookups by number
finds the address. -/
theorem exists_printedCids_iff (same : collation.same bdaddr (stripLower bdaddr) = true)
    (assigned : files.Assigned) (stored : StoresCompanies collation database bdaddr) :
    (∃ cid ∈ printedCids collation database bdaddr,
        (btCidToCompanyName files cid).any wanted = true) ↔
      ∃ result ∈ (matchedKeys wanted (btCidToNames files)).flatMap (btCidResults database),
        Finds collation bdaddr result := by
  have versionNamed (number : Nat) : (btCidToCompanyName files (number : Int)).any wanted = true ↔
      number ∈ matchedKeys wanted (btCidToNames files) := (mem_matchedKeys _ number).symm
  rw [finds_btCidResults_iff, printedCids, ble2thResults, btc2thResults]
  dsimp only
  rw [← ClassicRow.about_congr same, ← LeRow.about_congr same, ← TypedRow.about_congr same,
    ← ClassicRow.about_congr same]
  simp only [List.mem_append, List.mem_flatMap, List.mem_map, or_and_right, exists_or, or_assoc,
    exists_exists_and_eq_and, versionNamed]
  rw [exists_manufacturerCids_iff (fun data => data) assigned stored.eirMfSpecific,
    exists_manufacturerCids_iff LeRow.columns assigned stored.leMfSpecific]

/-- The report looks up a UUID16 of a company if and only if one of the lookups by UUID16 finds
the address. -/
theorem exists_printedUuid16s_iff (regexp : Regexp) (assigned : files.Assigned)
    (stored : StoresCompanies collation database bdaddr) :
    (∃ uuid16 : Nat, (uuid16 : Int) ∈ printedUuid16s collation database bdaddr ∧
        ((btMemberUuid16sToNames files).lookup uuid16).any wanted = true) ↔
      ∃ result ∈ (matchedKeys wanted (btMemberUuid16sToNames files)).flatMap
          (uuid16Results regexp database), Finds collation bdaddr result := by
  rw [finds_uuid16Results_iff]
  apply exists_congr
  intro uuid16
  rw [mem_matchedKeys, and_comm]
  apply and_congr_right
  intro named
  obtain ⟨entry, listed, rfl⟩ := exists_of_numberedNames named
  have small := assigned.memberUuids entry listed
  simp only [printedUuid16s, List.mem_flatMap, List.mem_append, List.mem_map, or_and_right,
    exists_or, exists_exists_and_eq_and]
  apply or_congr
  · apply exists_congr
    exact fun list => and_congr_right fun member =>
      (uuid16_holds_iff small (stored.eirUuid16s list member)).symm
  · apply exists_congr
    exact fun row => and_congr_right fun member =>
      (uuid16_holds_iff small (stored.leUuid16s row member)).symm

/-- The search finds an address exactly if a searched section of its report shows a number of a
company that matches, or the OUI of such a company finds it. -/
theorem finds_companyregex_iff (regexp : Regexp) (search : Text → Text → Bool)
    (companyregex : Text) (same : collation.same bdaddr (stripLower bdaddr) = true)
    (assigned : files.Assigned) (stored : StoresCompanies collation database bdaddr) :
    Finds collation bdaddr
        (getBdaddrsByCompanyRegex regexp database search collation files companyregex).val ↔
      ReportsSearchedCompany files collation database bdaddr (search companyregex) ∨
        ∃ row ∈ database.ieeeBdaddrToCompany, regexp.holds companyregex row.companyName = true ∧
          database.Returns collation row.deviceBdaddr bdaddr := by
  rw [getBdaddrsByCompanyRegex, finds_hashKeys, ReportsSearchedCompany,
    exists_printedCids_iff same assigned stored,
    exists_printedUuid16s_iff regexp assigned stored, ← finds_ouiSearch_iff]
  simp only [List.mem_append, or_and_right, exists_or]

/-- With a company as the search, `main` lists exactly the addresses for which a searched section
of the report shows a number of a company that matches, and those that the OUI of such a company
finds. -/
theorem listed_iff_reportsSearchedCompany (regexp : Regexp) (search : Text → Text → Bool)
    (collation : Collation) (files : CompanyFiles) (database : Database)
    (companyregex bdaddr : Text) (given : companyregex ≠ [])
    (same : collation.same bdaddr (stripLower bdaddr) = true) (assigned : files.Assigned)
    (stored : StoresCompanies collation database bdaddr) :
    Finds collation bdaddr (mainBdaddrs { Options.none with companyregex }
        (searches regexp database search collation files)) ↔
      ReportsSearchedCompany files collation database bdaddr (search companyregex) ∨
        ∃ row ∈ database.ieeeBdaddrToCompany, regexp.holds companyregex row.companyName = true ∧
          database.Returns collation row.deviceBdaddr bdaddr := by
  rw [mainBdaddrs_companyregex _ given, searches]
  exact finds_companyregex_iff regexp search companyregex same assigned stored

/-- A device that puts the two bytes of its company number the other way round. -/
def swappedApple : Database :=
  { Database.empty with
    leMfSpecific := [⟨"4a:00:00:00:00:01".toList, 1, 0, ⟨0x4c00, "1005".toList⟩⟩] }

def appleFiles : CompanyFiles := ⟨[(0x4c, "Apple, Inc.".toList)], []⟩

theorem listed_iff_reportsSearchedCompany_swapped :
    Finds .ignoringCase "4a:00:00:00:00:01".toList
      (mainBdaddrs { Options.none with companyregex := "Apple".toList }
        (searches .plain swappedApple (fun pattern name => decide (pattern <:+: name))
          .ignoringCase appleFiles)) :=
  (listed_iff_reportsSearchedCompany _ _ _ _ _ _ _ (by decide) (by decide)
    { companyIdentifiers := by simp [appleFiles]
      memberUuids := by simp [appleFiles] }
    { eirMfSpecific := by simp [swappedApple, Database.empty, ClassicRow.about]
      leMfSpecific := by
        intro row member
        rw [List.mem_singleton.mp (List.mem_of_mem_filter member)]
        exact ⟨0x4c00, by decide, rfl⟩
      eirUuid16s := by simp [swappedApple, Database.empty, ClassicRow.about]
      leUuid16s := by simp [swappedApple, Database.empty, LeRow.about] }).mpr
    (.inl (.inl ⟨0x4c, by decide, by decide⟩))

end NaiveBTSniffing.Analysis.Search
