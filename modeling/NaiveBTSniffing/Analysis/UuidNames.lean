import Mathlib.Tactic.IntervalCases
import NaiveBTSniffing.Analysis.CompanyName
import NaiveBTSniffing.Library.Dict
import NaiveBTSniffing.Library.Hex
import NaiveBTSniffing.Library.Trim

/-!
Contract: the names that `TellMeEverything.py` prints for 128-bit UUIDs.

Owns the three functions that name a UUID, the keys that the loaders of the CSV
file and of the YAML files put into their dictionaries, and the UUIDs for which
all spellings get the same name. The functions call `uuid128.strip().lower()` and
drop its result, so that they see the spelling.

Does not own the files, whose entries are parameters.
-/

namespace NaiveBTSniffing.Analysis

open NaiveBTSniffing.Library
open NaiveBTSniffing.Library.Text

/-! ## Dictionaries -/

/-- The entries of the files: rows of `custom_uuid128s.csv`, pairs of `uuid` and
`name` of the YAML files. -/
structure NameFiles where
  customUuid128s : List (List Text)
  memberUuids : List (Nat × Text)
  serviceUuids : List (Int × Text)
  characteristicUuids : List (Int × Text)

/-- The body of the loop of `create_custom_uuid128_CSV_data`. -/
def addCustomRow (hash : Dict Text Text) : List Text → Dict Text Text
  | first :: second :: _ => hash.setItem (stripLowered first) (strip second)
  | _ => hash

/-- `custom_uuid128_hash`, from `create_custom_uuid128_CSV_data`. -/
def customUuid128Hash (files : NameFiles) : Dict Text Text :=
  files.customUuid128s.foldl addCustomRow ∅

/-- `f"0000{value:04x}00001000800000805f9b34fb".lower()` -/
def memberUuid128 (value : Nat) : Text :=
  ("0000".toList ++ hexPadded 4 value ++ "00001000800000805f9b34fb".toList).map Char.toLower

/-- `bt_member_UUID16_as_UUID128_to_names`, from `create_bt_member_UUID16s_to_names`. -/
def btMemberUuid16AsUuid128ToNames (files : NameFiles) : Dict Text Text :=
  files.memberUuids.foldl (fun names entry => names.setItem (memberUuid128 entry.1) entry.2) ∅

/-- The loop of `create_gatt_services_uuid16_names` and
`create_gatt_characteristic_uuid16_names`. -/
def createUuid16Names (entries : List (Int × Text)) : Dict Int Text :=
  entries.foldl (fun names entry => names.setItem entry.1 entry.2) ∅

def gattServicesUuid16Names (files : NameFiles) : Dict Int Text :=
  createUuid16Names files.serviceUuids

def gattCharacteristicUuid16Names (files : NameFiles) : Dict Int Text :=
  createUuid16Names files.characteristicUuids

/-! ## Names -/

def unknownUuid128 : Text := "Unknown UUID128".toList

/-- `uuid128.replace('-','')` -/
def noDash (uuid128 : Text) : Text := uuid128.filter fun char => char != '-'

def getCustomUuid128String (files : NameFiles) (uuid128 : Text) : Text :=
  match (customUuid128Hash files).lookup (noDash uuid128) with
  | some name => "Custom UUID128: ".toList ++ name
  | none =>
      match (btMemberUuid16AsUuid128ToNames files).lookup (noDash uuid128) with
      | some name => "Company UUID128: ".toList ++ name
      | none => unknownUuid128

/-- `[a-f0-9]` -/
def isPatternDigit (char : Char) : Bool :=
  ('a' ≤ char && char ≤ 'f') || ('0' ≤ char && char ≤ '9')

/-- The end of the pattern, `-0000-1000-8000-00805f9b34fb`. -/
def patternEnd : Text := "-0000-1000-8000-00805f9b34fb".toList

/-- `re.match` with the pattern of the standard UUIDs, which may be followed by
anything, and the part `[4:8]` of what it matched. -/
def matchStandard (uuid128 : Text) : Option Text :=
  if uuid128.take 4 = "0000".toList ∧ ((uuid128.drop 4).take 4).all isPatternDigit ∧
      (uuid128.drop 8).take 28 = patternEnd then
    some ((uuid128.drop 4).take 4)
  else none

/-- `get_uuid16_gatt_services_string`, `get_uuid16_gatt_characteristic_string`. -/
def getUuid16String (names : Dict Int Text) (uuid16 : Text) : Except Fault Text :=
  match parseInt 16 (strip uuid16) with
  | some value => .ok ((names.lookup value).getD "Unknown".toList)
  | none => .error .valueError

def notInDatabase : Text :=
  ("This is a standardized UUID128, but it is not in our database. " ++
    "Check for an update to characteristic_uuids.yaml").toList

/-- The body that `match_GATT_services` and `match_GATT_characteristic` share. -/
def matchGatt (files : NameFiles) (names : Dict Int Text) (uuid128 : Text) : Except Fault Text :=
  match matchStandard uuid128 with
  | some uuid16 =>
      (getUuid16String names uuid16).map fun name =>
        if name ≠ "Unknown".toList then name
        else
          let custom := getCustomUuid128String files (noDash uuid128)
          if custom = unknownUuid128 then notInDatabase else custom
  | none => .ok (getCustomUuid128String files (noDash uuid128))

def matchGattServices (files : NameFiles) : Text → Except Fault Text :=
  matchGatt files (gattServicesUuid16Names files)

def matchGattCharacteristic (files : NameFiles) : Text → Except Fault Text :=
  matchGatt files (gattCharacteristicUuid16Names files)

/-! ## Spellings -/

/-- A UUID, as its 32 digits in lower case. -/
structure UuidDigits where
  digits : Text
  hex : IsHexText digits
  length_eq : digits.length = 32

/-- The digits in groups of 8, 4, 4, 4 and 12. -/
def dashed (letters : Text) : Text :=
  letters.take 8 ++ '-' :: ((letters.drop 8).take 4 ++ '-' :: ((letters.drop 12).take 4 ++
    '-' :: ((letters.drop 16).take 4 ++ '-' :: letters.drop 20)))

/-- A spelling of a UUID: letters of either case, with or without the dashes, and
white space around them. -/
structure Spelling (uuid : UuidDigits) where
  before : Text
  blankBefore : ∀ char ∈ before, isSpace char = true
  letters : Text
  sameLetters : letters.map Char.toLower = uuid.digits
  dashes : Bool
  after : Text
  blankAfter : ∀ char ∈ after, isSpace char = true

def Spelling.text {uuid : UuidDigits} (spelling : Spelling uuid) : Text :=
  spelling.before ++ (if spelling.dashes then dashed spelling.letters else spelling.letters) ++
    spelling.after

/-- Each function has one name for all spellings of the UUID. -/
structure NamedAlike (files : NameFiles) (uuid : UuidDigits) : Prop where
  custom : ∀ first second : Spelling uuid,
    getCustomUuid128String files first.text = getCustomUuid128String files second.text
  services : ∀ first second : Spelling uuid,
    matchGattServices files first.text = matchGattServices files second.text
  characteristic : ∀ first second : Spelling uuid,
    matchGattCharacteristic files first.text = matchGattCharacteristic files second.text

/-- The 32 digits of a standard UUID. -/
def standardDigits (uuid16 : Text) : Text :=
  "0000".toList ++ uuid16 ++ "00001000800000805f9b34fb".toList

/-- No dictionary has a name for the UUID, or only the text for an unknown one. -/
structure Unlisted (files : NameFiles) (uuid : UuidDigits) : Prop where
  custom : uuid.digits ∉ customUuid128Hash files
  member : uuid.digits ∉ btMemberUuid16AsUuid128ToNames files
  standard : ∀ uuid16, uuid.digits = standardDigits uuid16 →
    (gattServicesUuid16Names files).lookup (hexValue 0 uuid16 : Int) = some unknownUuid128 ∧
      (gattCharacteristicUuid16Names files).lookup (hexValue 0 uuid16 : Int) =
        some unknownUuid128

/-! ## Keys -/

/-- The keys of a dictionary are stripped and in lower case. -/
def NormalKeys (names : Dict Text Text) : Prop := ∀ key ∈ names, stripLowered key = key

theorem NormalKeys.setItem {names : Dict Text Text} (normal : NormalKeys names) {key : Text}
    (normalKey : stripLowered key = key) (name : Text) : NormalKeys (names.setItem key name) := by
  intro query member
  rw [Dict.mem_setItem] at member
  cases member with
  | inl same =>
      rw [same]
      exact normalKey
  | inr old => exact normal query old

theorem normalKeys_empty : NormalKeys ∅ := by
  intro key member
  exact absurd member (AList.notMem_empty key)

theorem normalKeys_customUuid128Hash (files : NameFiles) :
    NormalKeys (customUuid128Hash files) := by
  have loaded (rows : List (List Text)) (hash : Dict Text Text) (normal : NormalKeys hash) :
      NormalKeys (rows.foldl addCustomRow hash) := by
    induction rows generalizing hash with
    | nil => exact normal
    | cons row rows inductionHypothesis =>
        rw [List.foldl_cons]
        apply inductionHypothesis
        unfold addCustomRow
        split
        · exact normal.setItem (stripLowered_stripLowered _) _
        · exact normal
  exact loaded _ _ normalKeys_empty

theorem toLower_of_mem {char : Char} (member : char ∈ "0123456789abcdef".toList) :
    char.toLower = char := by
  have digits : "0123456789abcdef".toList.all (fun char => char.toLower == char) = true := by
    decide
  simpa using List.all_eq_true.mp digits char member

theorem map_toLower_hexText {text : Text} (hex : IsHexText text) :
    text.map Char.toLower = text := by
  have kept : text.map Char.toLower = text.map id :=
    List.map_congr_left fun char member => toLower_of_mem (hex char member)
  rw [kept, List.map_id]

theorem stripLowered_hexText {text : Text} (hex : IsHexText text) : stripLowered text = text := by
  have noSpace : ∀ char ∈ text, isSpace char = false := fun char member =>
    isSpace_of_mem (List.mem_cons_of_mem _ (hex char member))
  rw [stripLowered, strip_eq_self noSpace, map_toLower_hexText hex]

theorem isHexText_standardDigits {uuid16 : Text} (hex : IsHexText uuid16) :
    IsHexText (standardDigits uuid16) := by
  intro char member
  rw [standardDigits, List.mem_append, List.mem_append] at member
  have constants : ∀ char ∈ "0000".toList ++ "00001000800000805f9b34fb".toList,
      char ∈ "0123456789abcdef".toList := by simp
  rcases member with (front | inside) | back
  · exact constants char (List.mem_append_left _ front)
  · exact hex char inside
  · exact constants char (List.mem_append_right _ back)

theorem normalKeys_btMemberUuid16AsUuid128ToNames (files : NameFiles) :
    NormalKeys (btMemberUuid16AsUuid128ToNames files) := by
  have key (value : Nat) : stripLowered (memberUuid128 value) = memberUuid128 value := by
    have hex := isHexText_standardDigits (isHexText_hexPadded 4 value)
    show stripLowered ((standardDigits (hexPadded 4 value)).map Char.toLower) = _
    rw [map_toLower_hexText hex, stripLowered_hexText hex, memberUuid128]
    exact (map_toLower_hexText hex).symm
  intro query member
  rw [btMemberUuid16AsUuid128ToNames,
    Dict.mem_foldl_setItem (fun entry => memberUuid128 entry.1) Prod.snd] at member
  rcases member with ⟨entry, _, same⟩ | absent
  · rw [← same]
    exact key entry.1
  · exact normalKeys_empty query absent

/-! ## Spellings without dashes -/

theorem noDash_append (first rest : Text) : noDash (first ++ rest) = noDash first ++ noDash rest :=
  List.filter_append _ _

theorem noDash_dash_cons (rest : Text) : noDash ('-' :: rest) = noDash rest := rfl

theorem noDash_eq_self {text : Text} (noDashes : '-' ∉ text) : noDash text = text := by
  apply List.filter_eq_self.mpr
  intro char member
  rw [bne_iff_ne]
  intro dash
  exact noDashes (dash ▸ member)

theorem noDash_of_blank {text : Text} (blank : ∀ char ∈ text, isSpace char = true) :
    noDash text = text := by
  apply noDash_eq_self
  intro member
  have space := blank '-' member
  revert space
  decide

/-- A part of a text and what follows it. -/
theorem take_drop_append_drop (text : Text) (first second : Nat) :
    (text.drop first).take second ++ text.drop (first + second) = text.drop first := by
  rw [← List.drop_drop, List.take_append_drop]

theorem noDash_dashed {letters : Text} (noDashes : '-' ∉ letters) :
    noDash (dashed letters) = letters := by
  have front (first : Nat) : noDash (letters.take first) = letters.take first :=
    noDash_eq_self fun member => noDashes (List.mem_of_mem_take member)
  have middle (first second : Nat) :
      noDash ((letters.drop first).take second) = (letters.drop first).take second :=
    noDash_eq_self fun member => noDashes (List.mem_of_mem_drop (List.mem_of_mem_take member))
  have back (first : Nat) : noDash (letters.drop first) = letters.drop first :=
    noDash_eq_self fun member => noDashes (List.mem_of_mem_drop member)
  rw [dashed, noDash_append, noDash_dash_cons, noDash_append, noDash_dash_cons, noDash_append,
    noDash_dash_cons, noDash_append, noDash_dash_cons, front, middle, middle, middle, back,
    take_drop_append_drop letters 16 4, take_drop_append_drop letters 12 4,
    take_drop_append_drop letters 8 4, List.take_append_drop]

namespace Spelling

variable {uuid : UuidDigits} (spelling : Spelling uuid)

theorem length_letters : spelling.letters.length = 32 := by
  have length := congrArg List.length spelling.sameLetters
  rw [List.length_map, uuid.length_eq] at length
  exact length

theorem dash_not_mem_letters : '-' ∉ spelling.letters := by
  intro member
  have lowered := List.mem_map_of_mem (f := Char.toLower) member
  rw [spelling.sameLetters] at lowered
  have digit := uuid.hex _ lowered
  revert digit
  decide

theorem noDash_text :
    noDash spelling.text = spelling.before ++ spelling.letters ++ spelling.after := by
  rw [text, noDash_append, noDash_append, noDash_of_blank spelling.blankBefore,
    noDash_of_blank spelling.blankAfter]
  split
  · rw [noDash_dashed spelling.dash_not_mem_letters]
  · rw [noDash_eq_self spelling.dash_not_mem_letters]

end Spelling

theorem UuidDigits.isWord (uuid : UuidDigits) : IsWord uuid.digits where
  nonempty := by
    intro empty
    have length := uuid.length_eq
    rw [empty] at length
    cases length
  noSpace char member := isSpace_of_mem (List.mem_cons_of_mem _ (uuid.hex char member))

/-- The only key that a spelling without its dashes can be is the digits. -/
theorem Spelling.noDash_eq_of_mem {uuid : UuidDigits} (spelling : Spelling uuid)
    {names : Dict Text Text} (normal : NormalKeys names) (member : noDash spelling.text ∈ names) :
    noDash spelling.text = uuid.digits := by
  have key := normal _ member
  rw [spelling.noDash_text] at key ⊢
  rw [← key]
  exact stripLowered_padded spelling.blankBefore spelling.blankAfter uuid.isWord
    spelling.sameLetters

/-! ## Unlisted UUIDs -/

theorem getCustomUuid128String_noDash (files : NameFiles) (uuid128 : Text) :
    getCustomUuid128String files (noDash uuid128) = getCustomUuid128String files uuid128 := by
  have again : noDash (noDash uuid128) = noDash uuid128 :=
    noDash_eq_self fun member => by simp [noDash] at member
  unfold getCustomUuid128String
  rw [again]

theorem getCustomUuid128String_eq_unknown {files : NameFiles} {uuid128 : Text}
    (custom : noDash uuid128 ∉ customUuid128Hash files)
    (member : noDash uuid128 ∉ btMemberUuid16AsUuid128ToNames files) :
    getCustomUuid128String files uuid128 = unknownUuid128 := by
  rw [getCustomUuid128String, AList.lookup_eq_none.mpr custom, AList.lookup_eq_none.mpr member]

theorem Spelling.getCustom_eq_unknown {files : NameFiles} {uuid : UuidDigits}
    (custom : uuid.digits ∉ customUuid128Hash files)
    (member : uuid.digits ∉ btMemberUuid16AsUuid128ToNames files) (spelling : Spelling uuid) :
    getCustomUuid128String files spelling.text = unknownUuid128 := by
  apply getCustomUuid128String_eq_unknown
  · intro listed
    rw [spelling.noDash_eq_of_mem (normalKeys_customUuid128Hash files) listed] at listed
    exact custom listed
  · intro listed
    rw [spelling.noDash_eq_of_mem (normalKeys_btMemberUuid16AsUuid128ToNames files) listed]
      at listed
    exact member listed

theorem mem_of_isPatternDigit {char : Char} (digit : isPatternDigit char = true) :
    char ∈ "0123456789abcdef".toList := by
  have ordered : 'a' ≤ char ∧ char ≤ 'f' ∨ '0' ≤ char ∧ char ≤ '9' := by
    simpa [isPatternDigit] using digit
  have bounds : 97 ≤ char.toNat ∧ char.toNat ≤ 102 ∨ 48 ≤ char.toNat ∧ char.toNat ≤ 57 := ordered
  rw [← Char.ofNat_toNat char]
  generalize char.toNat = code at bounds
  cases bounds with
  | inl letter =>
      obtain ⟨least, most⟩ := letter
      interval_cases code <;> decide
  | inr decimal =>
      obtain ⟨least, most⟩ := decimal
      interval_cases code <;> decide

theorem isPatternDigit_of_mem {char : Char} (member : char ∈ "0123456789abcdef".toList) :
    isPatternDigit char = true := by
  have digits : "0123456789abcdef".toList.all isPatternDigit = true := by decide
  exact List.all_eq_true.mp digits char member

/-- What the pattern matches. -/
theorem matchStandard_eq_some {uuid128 uuid16 : Text}
    (matched : matchStandard uuid128 = some uuid16) :
    IsHexText uuid16 ∧ uuid16.length = 4 ∧
      ∃ rest, uuid128 = "0000".toList ++ uuid16 ++ patternEnd ++ rest := by
  unfold matchStandard at matched
  split at matched
  · next parts =>
      rw [Option.some.injEq] at matched
      subst matched
      have front := parts.1
      have back := parts.2.2
      have long : 36 ≤ uuid128.length := by
        have length := congrArg List.length back
        rw [List.length_take, List.length_drop] at length
        have size : patternEnd.length = 28 := rfl
        omega
      have first : uuid128.take 4 ++ uuid128.drop 4 = uuid128 := List.take_append_drop 4 uuid128
      have second := take_drop_append_drop uuid128 4 4
      have third := take_drop_append_drop uuid128 8 28
      refine ⟨?_, ?_, uuid128.drop 36, ?_⟩
      · intro char member
        exact mem_of_isPatternDigit (List.all_eq_true.mp parts.2.1 char member)
      · rw [List.length_take, List.length_drop]
        omega
      · rw [← front, ← back, List.append_assoc, third, List.append_assoc, second, first]
  · cases matched

/-- A spelling that the pattern matches is one of a standard UUID. -/
theorem Spelling.digits_eq_of_match {uuid : UuidDigits} (spelling : Spelling uuid) {uuid16 : Text}
    (matched : matchStandard spelling.text = some uuid16) :
    uuid.digits = standardDigits uuid16 := by
  obtain ⟨hex, length, rest, text⟩ := matchStandard_eq_some matched
  have uuid16Kept : noDash uuid16 = uuid16 := by
    apply noDash_eq_self
    intro member
    have digit := hex _ member
    revert digit
    decide
  have parts : spelling.before ++ (spelling.letters ++ spelling.after) =
      standardDigits uuid16 ++ noDash rest := by
    rw [← List.append_assoc, ← spelling.noDash_text, text, noDash_append, noDash_append,
      noDash_append, uuid16Kept]
    rfl
  have noBefore : spelling.before = [] := by
    cases blank : spelling.before with
    | nil => rfl
    | cons char more =>
        rw [blank] at parts
        have zero : char = '0' := (List.cons.inj parts).1
        have space := spelling.blankBefore char (by rw [blank]; exact List.mem_cons_self)
        rw [zero] at space
        exact absurd space (by decide)
  rw [noBefore, List.nil_append] at parts
  have sameLength : spelling.letters.length = (standardDigits uuid16).length := by
    rw [spelling.length_letters, standardDigits, List.length_append, List.length_append, length]
    rfl
  have letters := (List.append_inj parts sameLength).1
  rw [← spelling.sameLetters, letters, map_toLower_hexText (isHexText_standardDigits hex)]

theorem getUuid16String_eq (names : Dict Int Text) {uuid16 : Text} (hex : IsHexText uuid16)
    (nonempty : uuid16 ≠ []) :
    getUuid16String names uuid16 =
      .ok ((names.lookup (hexValue 0 uuid16 : Int)).getD "Unknown".toList) := by
  have noSpace : ∀ char ∈ uuid16, isSpace char = false := fun char member =>
    isSpace_of_mem (List.mem_cons_of_mem _ (hex char member))
  rw [getUuid16String, strip_eq_self noSpace, parseInt_hexText hex nonempty]

/-- The functions have a text for everything. -/
theorem matchGatt_returns (files : NameFiles) (names : Dict Int Text) (uuid128 : Text) :
    ∃ name, matchGatt files names uuid128 = .ok name := by
  unfold matchGatt
  cases matched : matchStandard uuid128 with
  | none => exact ⟨_, rfl⟩
  | some uuid16 =>
      obtain ⟨hex, length, -⟩ := matchStandard_eq_some matched
      have nonempty : uuid16 ≠ [] := by
        intro empty
        rw [empty] at length
        cases length
      simp only
      rw [getUuid16String_eq names hex nonempty]
      exact ⟨_, rfl⟩

theorem unknown_ne : unknownUuid128 ≠ "Unknown".toList ∧ notInDatabase ≠ unknownUuid128 := by
  decide

/-- Without an entry every spelling is unknown, also to the GATT functions. -/
theorem Spelling.matchGatt_eq_unknown {files : NameFiles} {uuid : UuidDigits}
    (names : Dict Int Text) (custom : uuid.digits ∉ customUuid128Hash files)
    (member : uuid.digits ∉ btMemberUuid16AsUuid128ToNames files)
    (standard : ∀ uuid16, uuid.digits = standardDigits uuid16 →
      names.lookup (hexValue 0 uuid16 : Int) = some unknownUuid128)
    (spelling : Spelling uuid) : matchGatt files names spelling.text = .ok unknownUuid128 := by
  unfold matchGatt
  cases matched : matchStandard spelling.text with
  | none =>
      simp only
      rw [getCustomUuid128String_noDash, spelling.getCustom_eq_unknown custom member]
  | some uuid16 =>
      obtain ⟨hex, length, -⟩ := matchStandard_eq_some matched
      have nonempty : uuid16 ≠ [] := by
        intro empty
        rw [empty] at length
        cases length
      simp only
      rw [getUuid16String_eq names hex nonempty,
        standard uuid16 (spelling.digits_eq_of_match matched), Option.getD_some, Except.map,
        if_pos unknown_ne.1]

/-! ## Listed UUIDs -/

namespace UuidDigits

variable (uuid : UuidDigits)

/-- The digits as they are. -/
def plain : Spelling uuid where
  before := []
  blankBefore := by simp
  letters := uuid.digits
  sameLetters := map_toLower_hexText uuid.hex
  dashes := false
  after := []
  blankAfter := by simp

/-- A blank before the digits. -/
def padded : Spelling uuid :=
  { uuid.plain with
    before := [' ']
    blankBefore := by
      intro char member
      rw [List.mem_singleton.mp member]
      decide }

/-- The digits with dashes. -/
def withDashes : Spelling uuid := { uuid.plain with dashes := true }

theorem plain_text : uuid.plain.text = uuid.digits := List.append_nil _

theorem withDashes_text : uuid.withDashes.text = dashed uuid.digits := List.append_nil _

theorem noDash_digits : noDash uuid.digits = uuid.digits := by
  apply noDash_eq_self
  intro member
  have digit := uuid.hex _ member
  revert digit
  decide

/-- The digits after a blank are no key. -/
theorem getCustom_padded (files : NameFiles) :
    getCustomUuid128String files uuid.padded.text = unknownUuid128 := by
  have notKey {names : Dict Text Text} (normal : NormalKeys names) :
      noDash uuid.padded.text ∉ names := by
    intro member
    have same := uuid.padded.noDash_eq_of_mem normal member
    have length := congrArg List.length same
    rw [uuid.padded.noDash_text] at length
    have letters := uuid.padded.length_letters
    rw [List.length_append, List.length_append, uuid.length_eq, letters] at length
    change 1 + 32 + 0 = 32 at length
    omega
  exact getCustomUuid128String_eq_unknown (notKey (normalKeys_customUuid128Hash files))
    (notKey (normalKeys_btMemberUuid16AsUuid128ToNames files))

theorem not_mem_of_getCustom {files : NameFiles}
    (unknown : getCustomUuid128String files uuid.digits = unknownUuid128) :
    uuid.digits ∉ customUuid128Hash files ∧
      uuid.digits ∉ btMemberUuid16AsUuid128ToNames files := by
  rw [getCustomUuid128String, uuid.noDash_digits] at unknown
  have notUnknown (initial : Char) (more name : Text) (other : initial ≠ 'U') :
      (initial :: more) ++ name ≠ unknownUuid128 := by
    intro same
    exact other (List.cons.inj same).1
  cases custom : (customUuid128Hash files).lookup uuid.digits with
  | some name =>
      rw [custom] at unknown
      exact absurd unknown (notUnknown 'C' _ _ (by decide))
  | none =>
      rw [custom] at unknown
      cases member : (btMemberUuid16AsUuid128ToNames files).lookup uuid.digits with
      | some name =>
          rw [member] at unknown
          exact absurd unknown (notUnknown 'C' _ _ (by decide))
      | none => exact ⟨AList.lookup_eq_none.mp custom, AList.lookup_eq_none.mp member⟩

end UuidDigits

theorem exists_four_of_standard {uuid : UuidDigits} {uuid16 : Text}
    (standard : uuid.digits = standardDigits uuid16) :
    IsHexText uuid16 ∧ ∃ first second third fourth, uuid16 = [first, second, third, fourth] := by
  constructor
  · intro char member
    apply uuid.hex
    rw [standard, standardDigits]
    exact List.mem_append_left _ (List.mem_append_right _ member)
  · have length := uuid.length_eq
    rw [standard, standardDigits, List.length_append, List.length_append] at length
    change 4 + uuid16.length + 24 = 32 at length
    exact List.length_eq_four.mp (by omega)

theorem matchStandard_dashed {uuid : UuidDigits} {uuid16 : Text}
    (standard : uuid.digits = standardDigits uuid16) :
    matchStandard uuid.withDashes.text = some uuid16 ∧ matchStandard uuid.plain.text = none := by
  obtain ⟨hex, first, second, third, fourth, four⟩ := exists_four_of_standard standard
  rw [uuid.withDashes_text, uuid.plain_text, standard]
  subst four
  constructor
  · have digits : [first, second, third, fourth].all isPatternDigit = true := by
      apply List.all_eq_true.mpr
      intro char member
      exact isPatternDigit_of_mem (hex char member)
    unfold matchStandard
    rw [if_pos]
    · rfl
    · exact ⟨rfl, digits, rfl⟩
  · unfold matchStandard
    rw [if_neg]
    intro parts
    have tail : "00001000800000805f9b34fb".toList = patternEnd := parts.2.2
    revert tail
    decide

/-- Where a standard UUID is unknown with and without its dashes, the table of the
function names it so. -/
theorem lookup_of_matchGatt {files : NameFiles} {uuid : UuidDigits} {names : Dict Int Text}
    {uuid16 : Text} (standard : uuid.digits = standardDigits uuid16)
    (unknown : matchGatt files names uuid.withDashes.text = .ok unknownUuid128)
    (custom : getCustomUuid128String files (noDash uuid.withDashes.text) = unknownUuid128) :
    names.lookup (hexValue 0 uuid16 : Int) = some unknownUuid128 := by
  obtain ⟨hex, first, second, third, fourth, four⟩ := exists_four_of_standard standard
  have nonempty : uuid16 ≠ [] := by
    rw [four]
    exact List.cons_ne_nil _ _
  rw [matchGatt, (matchStandard_dashed standard).1] at unknown
  simp only at unknown
  rw [getUuid16String_eq names hex nonempty, Except.map, Except.ok.injEq, custom,
    if_pos rfl] at unknown
  cases found : names.lookup (hexValue 0 uuid16 : Int) with
  | none =>
      rw [found, Option.getD_none, if_neg (not_not.mpr rfl)] at unknown
      exact absurd unknown unknown_ne.2
  | some name =>
      rw [found, Option.getD_some] at unknown
      split at unknown
      · rw [unknown]
      · exact absurd unknown unknown_ne.2

/-- All spellings of a UUID get the same names exactly when it has no entry. -/
theorem namedAlike_iff_unlisted (files : NameFiles) (uuid : UuidDigits) :
    NamedAlike files uuid ↔ Unlisted files uuid := by
  constructor
  · intro alike
    have unknown : getCustomUuid128String files uuid.digits = unknownUuid128 := by
      rw [← uuid.plain_text, alike.custom uuid.plain uuid.padded, uuid.getCustom_padded]
    obtain ⟨custom, member⟩ := uuid.not_mem_of_getCustom unknown
    have dashesUnknown : getCustomUuid128String files (noDash uuid.withDashes.text) =
        unknownUuid128 := by
      rw [getCustomUuid128String_noDash, uuid.withDashes.getCustom_eq_unknown custom member]
    have plainUnknown (names : Dict Int Text) {uuid16 : Text}
        (standard : uuid.digits = standardDigits uuid16) :
        matchGatt files names uuid.plain.text = .ok unknownUuid128 := by
      rw [matchGatt, (matchStandard_dashed standard).2]
      simp only
      rw [getCustomUuid128String_noDash, uuid.plain.getCustom_eq_unknown custom member]
    constructor
    · exact custom
    · exact member
    · intro uuid16 standard
      constructor
      · apply lookup_of_matchGatt standard _ dashesUnknown
        exact (alike.services uuid.withDashes uuid.plain).trans (plainUnknown _ standard)
      · apply lookup_of_matchGatt standard _ dashesUnknown
        exact (alike.characteristic uuid.withDashes uuid.plain).trans (plainUnknown _ standard)
  · intro unlisted
    constructor
    · intro first second
      rw [first.getCustom_eq_unknown unlisted.custom unlisted.member,
        second.getCustom_eq_unknown unlisted.custom unlisted.member]
    · intro first second
      have named := fun (spelling : Spelling uuid) =>
        spelling.matchGatt_eq_unknown (gattServicesUuid16Names files) unlisted.custom
          unlisted.member fun uuid16 standard => (unlisted.standard uuid16 standard).1
      exact (named first).trans (named second).symm
    · intro first second
      have named := fun (spelling : Spelling uuid) =>
        spelling.matchGatt_eq_unknown (gattCharacteristicUuid16Names files) unlisted.custom
          unlisted.member fun uuid16 standard => (unlisted.standard uuid16 standard).2
      exact (named first).trans (named second).symm

/-! ## A custom UUID -/

/-- One row, for the Apple Notification Center Service. -/
def notificationFiles : NameFiles where
  customUuid128s := [["7905F431B5CE4E99A40F4B1E122D00D0".toList, "ANCS".toList]]
  memberUuids := []
  serviceUuids := []
  characteristicUuids := []

def notificationUuid : UuidDigits where
  digits := "7905f431b5ce4e99a40f4b1e122d00d0".toList
  hex := by simp [IsHexText]
  length_eq := by decide

/-- The spelling of the CSV file itself. -/
def notificationInCapitals : Spelling notificationUuid where
  before := []
  blankBefore := by simp
  letters := "7905F431B5CE4E99A40F4B1E122D00D0".toList
  sameLetters := by decide
  dashes := false
  after := []
  blankAfter := by simp

theorem not_namedAlike_notificationUuid :
    ¬ ∀ (files : NameFiles) (uuid : UuidDigits), NamedAlike files uuid := by
  intro always
  have same := (always notificationFiles notificationUuid).custom notificationUuid.plain
    notificationInCapitals
  revert same
  decide

end NaiveBTSniffing.Analysis
