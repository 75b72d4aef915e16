import Mathlib.Data.List.Infix
import NaiveBTSniffing.Analysis.Fingerprint
import NaiveBTSniffing.Analysis.OuiSearch
import NaiveBTSniffing.Analysis.Search
import NaiveBTSniffing.Analysis.UuidNames

/-!
Contract: the searches of `TellMeEverything.py` by a regular expression.

Each search sends queries to some tables and returns the keys of one dictionary of
addresses. How the server and Python match an expression are parameters; an expression
stands between quotes in the text of a query, so it is taken to have none, and to be one
that both accept.

Owns the queries of each search and what `main` is given by them. Does not own what an
answer has to do with the report on an address (`Analysis.UuidSearch`).
-/

namespace NaiveBTSniffing.Analysis.Search

open NaiveBTSniffing.Library
open NaiveBTSniffing.Library.Text

/-! ## Expressions -/

/-- Letters without a meaning of their own in an expression. -/
def plainLetters : Text := "0123456789abcdefABCDEFx-".toList

/-- `text REGEXP pattern`. A pattern of plain letters is looked for without regard to
case. -/
structure Regexp where
  holds : Text → Text → Bool
  holds_plain : ∀ pattern text, (∀ char ∈ pattern, char ∈ plainLetters) →
    (holds pattern text = true ↔ pattern.map Char.toLower <:+: text.map Char.toLower)

/-- Every pattern is plain. -/
def Regexp.plain : Regexp where
  holds pattern text := decide (pattern.map Char.toLower <:+: text.map Char.toLower)
  holds_plain _ _ _ := decide_eq_true_iff

/-- A column that may be NULL. -/
def Regexp.holdsIn (regexp : Regexp) (pattern : Text) : Option Text → Bool
  | some text => regexp.holds pattern text
  | none => false

/-- `SELECT device_bdaddr FROM … WHERE …`, for a condition on the columns of a row. -/
def selectBdaddrs {Row Columns : Type} (deviceBdaddr : Row → Text) (columns : Row → Columns)
    (wanted : Columns → Bool) (rows : List Row) : List Text :=
  (rows.filter fun row => wanted (columns row)).map deviceBdaddr

/-! ## Names of companies -/

/-- The entries of `company_identifiers.yaml` and of `member_uuids.yaml`. -/
structure CompanyFiles where
  companyIdentifiers : List (Nat × Text)
  memberUuids : List (Nat × Text)

/-- The loops of `create_bt_CID_to_names` and `create_bt_member_UUID16s_to_names`. -/
def numberedNames (entries : List (Nat × Text)) : Dict Nat Text :=
  entries.foldl (fun names entry => names.setItem entry.1 entry.2) ∅

def btCidToNames (files : CompanyFiles) : Dict Nat Text := numberedNames files.companyIdentifiers

def btMemberUuid16sToNames (files : CompanyFiles) : Dict Nat Text :=
  numberedNames files.memberUuids

/-- The keys of `device_bt_cids_to_names`, `device_uuid16s_to_names`. -/
def matchedKeys (search : Text → Bool) (names : Dict Nat Text) : List Nat :=
  (names.entries.filter fun entry => search entry.2).map Sigma.fst

/-- `byte_swapped_key`. -/
def byteSwappedKey (key : Nat) : Nat := (key &&& 0xff) <<< 8 ||| (key &&& 0xff00) >>> 8

/-! ## The searches -/

section Searches

variable (regexp : Regexp) (database : Database)

/-- `get_bdaddrs_by_msd_regex`. -/
def getBdaddrsByMsdRegex (msdregex : Text) : HashKeys :=
  let wanted (data : MfSpecific) : Bool := regexp.holds msdregex data.mfSpecificData
  hashKeys
    [selectBdaddrs ClassicRow.deviceBdaddr ClassicRow.columns wanted database.eirMfSpecific,
      selectBdaddrs LeRow.deviceBdaddr LeRow.columns wanted database.leMfSpecific]

/-- The two queries of the GATT tables. -/
def gattUuid128Results (uuid128regex : Text) : List (List Text) :=
  [selectBdaddrs TypedRow.deviceBdaddr TypedRow.columns
      (fun service => regexp.holds uuid128regex service.uuid128) database.gattServices,
    selectBdaddrs TypedRow.deviceBdaddr TypedRow.columns
      (fun chars => regexp.holds uuid128regex chars.charUuid128) database.gattCharacteristics]

/-- `f"{uuid128[:8]}-{uuid128[8:12]}-{uuid128[12:16]}-{uuid128[16:20]}-{uuid128[20:32]}"` -/
def dashing (uuid128 : Text) : Text := dashed (uuid128.take 32)

/-- `get_bdaddrs_by_uuid128_regex`; the option `try_with_dashes` is on. -/
def getBdaddrsByUuid128Regex (uuid128regex : Text) : HashKeys :=
  let wanted (list : UuidList) : Bool := regexp.holdsIn uuid128regex list.strUuids
  hashKeys
    ([selectBdaddrs ClassicRow.deviceBdaddr ClassicRow.columns wanted database.eirUuid128s,
      selectBdaddrs LeRow.deviceBdaddr LeRow.columns wanted database.leUuid128s,
      selectBdaddrs LeRow.deviceBdaddr LeRow.columns (regexp.holdsIn uuid128regex)
        database.leUuid128ServiceSolicit] ++
      gattUuid128Results regexp database uuid128regex ++
      if uuid128regex.length = 32 then gattUuid128Results regexp database (dashing uuid128regex)
      else [])

/-- The lookups of a company number; the option `try_byte_swapped_bt_cid` is on. -/
def btCidResults (key : Nat) : List (List Text) :=
  let isKey (data : MfSpecific) : Bool := decide (data.deviceBtCid = key)
  let isSwapped (data : MfSpecific) : Bool := decide (data.deviceBtCid = byteSwappedKey key)
  [selectBdaddrs ClassicRow.deviceBdaddr ClassicRow.columns
      (fun version => decide (version.deviceBtCid = key)) database.btc2thLmpVersionRes,
    selectBdaddrs TypedRow.deviceBdaddr TypedRow.columns
      (fun version => decide (version.deviceBtCid = key)) database.ble2thLlVersionInd,
    selectBdaddrs LeRow.deviceBdaddr LeRow.columns isKey database.leMfSpecific,
    selectBdaddrs LeRow.deviceBdaddr LeRow.columns isSwapped database.leMfSpecific,
    selectBdaddrs ClassicRow.deviceBdaddr ClassicRow.columns isKey database.eirMfSpecific,
    selectBdaddrs ClassicRow.deviceBdaddr ClassicRow.columns isSwapped database.eirMfSpecific]

/-- The lookups of a UUID16. -/
def uuid16Results (key : Nat) : List (List Text) :=
  let wanted (list : UuidList) : Bool := regexp.holdsIn (hexField 4 key) list.strUuids
  [selectBdaddrs ClassicRow.deviceBdaddr ClassicRow.columns wanted database.eirUuid16s,
    selectBdaddrs LeRow.deviceBdaddr LeRow.columns wanted database.leUuid16s]

/-- The keys of `bdaddr_prefixes`. -/
def bdaddrPrefixes (companyregex : Text) : List Text :=
  let found := database.ieeeBdaddrToCompany.filter fun row =>
    regexp.holds companyregex row.companyName
  (found.foldl (fun prefixes row => Dict.setItem prefixes row.deviceBdaddr row.companyName)
    (∅ : Dict Text Text)).keys

/-- `get_bdaddrs_by_company_regex`, with all its lookups on; `search` is `re.search`. -/
def getBdaddrsByCompanyRegex (search : Text → Text → Bool) (collation : Collation)
    (files : CompanyFiles) (companyregex : Text) : HashKeys :=
  hashKeys
    ((matchedKeys (search companyregex) (btCidToNames files)).flatMap (btCidResults database) ++
      (matchedKeys (search companyregex) (btMemberUuid16sToNames files)).flatMap
        (uuid16Results regexp database) ++
      (bdaddrPrefixes regexp database companyregex).map (database.ouiSearch collation))

/-- The searches of `main`. -/
def searches (search : Text → Text → Bool) (collation : Collation) (files : CompanyFiles) :
    Searches where
  getBdaddrsByBdaddrRegex bdaddrregex :=
    hashKeys [getBdaddrsByBdaddrRegex collation database bdaddrregex]
  getBdaddrsByNameRegex nameregex :=
    getBdaddrsByNameRegex
      (selectBdaddrs ClassicRow.deviceBdaddr ClassicRow.columns (regexp.holds nameregex)
        database.eirName)
      (selectBdaddrs ClassicRow.deviceBdaddr ClassicRow.columns (regexp.holds nameregex)
        database.rspName)
      (selectBdaddrs LeRow.deviceBdaddr LeRow.columns (regexp.holds nameregex) database.leName)
  getBdaddrsByCompanyRegex := getBdaddrsByCompanyRegex regexp database search collation files
  getBdaddrsByMsdRegex := getBdaddrsByMsdRegex regexp database
  getBdaddrsByUuid128Regex := getBdaddrsByUuid128Regex regexp database

end Searches

/-- No search option. -/
def Options.none : Options where
  bdaddr := .none
  bdaddrregex := []
  nameregex := []
  companyregex := []
  msdregex := []
  uuid128regex := []
  notcompanyregex := []
  notnameregex := []

/-! ## What the searches find -/

variable {collation : Collation} {bdaddr : Text}

/-- The address is in a list, up to how the server compares texts. -/
def Finds (collation : Collation) (bdaddr : Text) (bdaddrs : List Text) : Prop :=
  ∃ found ∈ bdaddrs, collation.same bdaddr found = true

instance (bdaddrs : List Text) : Decidable (Finds collation bdaddr bdaddrs) :=
  inferInstanceAs (Decidable (∃ found ∈ bdaddrs, collation.same bdaddr found = true))

theorem finds_hashKeys {results : List (List Text)} :
    Finds collation bdaddr (hashKeys results).val ↔
      ∃ result ∈ results, Finds collation bdaddr result := by
  simp only [Finds, mem_hashKeys]
  constructor
  · exact fun ⟨found, ⟨result, member, inside⟩, same⟩ => ⟨result, member, found, inside, same⟩
  · exact fun ⟨result, member, found, inside, same⟩ => ⟨found, ⟨result, member, inside⟩, same⟩

variable {Columns : Type} {wanted : Columns → Bool}

/-- A query finds the addresses about which a row is wanted. -/
theorem finds_selectBdaddrs {Row : Type} {deviceBdaddr : Row → Text} {columns : Row → Columns}
    {rows : List Row} :
    Finds collation bdaddr (selectBdaddrs deviceBdaddr columns wanted rows) ↔
      ∃ shown ∈ (rows.filter fun row => collation.same bdaddr (deviceBdaddr row)).map columns,
        wanted shown = true := by
  simp only [Finds, selectBdaddrs, List.mem_map, List.mem_filter]
  constructor
  · rintro ⟨_, ⟨row, ⟨member, holds⟩, rfl⟩, same⟩
    exact ⟨_, ⟨row, ⟨member, same⟩, rfl⟩, holds⟩
  · rintro ⟨_, ⟨row, ⟨member, same⟩, rfl⟩, holds⟩
    exact ⟨_, ⟨row, ⟨member, holds⟩, rfl⟩, same⟩

theorem finds_classicRows {rows : List (ClassicRow Columns)} :
    Finds collation bdaddr
        (selectBdaddrs ClassicRow.deviceBdaddr ClassicRow.columns wanted rows) ↔
      ∃ columns ∈ ClassicRow.about collation bdaddr rows, wanted columns = true :=
  finds_selectBdaddrs

theorem finds_leRows {rows : List (LeRow Columns)} :
    Finds collation bdaddr (selectBdaddrs LeRow.deviceBdaddr LeRow.columns wanted rows) ↔
      ∃ row ∈ LeRow.about collation bdaddr rows, wanted row.columns = true := by
  rw [finds_selectBdaddrs]
  simp only [List.mem_map, exists_exists_and_eq_and, LeRow.about]

theorem finds_typedRows {rows : List (TypedRow Columns)} :
    Finds collation bdaddr (selectBdaddrs TypedRow.deviceBdaddr TypedRow.columns wanted rows) ↔
      ∃ columns ∈ TypedRow.about collation bdaddr rows, wanted columns = true :=
  finds_selectBdaddrs

/-- With one search only, `main` lists its results. -/
theorem mainBdaddrs_uuid128regex (searches : Searches) {uuid128regex : Text}
    (given : uuid128regex ≠ []) :
    mainBdaddrs { Options.none with uuid128regex } searches =
      (searches.getBdaddrsByUuid128Regex uuid128regex).val := by
  simp [mainBdaddrs, excludeNames, excludeCompanies, exclude, collected, extend, Options.none,
    given]

theorem mainBdaddrs_companyregex (searches : Searches) {companyregex : Text}
    (given : companyregex ≠ []) :
    mainBdaddrs { Options.none with companyregex } searches =
      (searches.getBdaddrsByCompanyRegex companyregex).val := by
  simp [mainBdaddrs, excludeNames, excludeCompanies, exclude, collected, extend, Options.none,
    given]

end NaiveBTSniffing.Analysis.Search
