import NaiveBTSniffing.Analysis.ImportedTable
import NaiveBTSniffing.Analysis.RegexSearch
import NaiveBTSniffing.Library.Tokens

/-!
Contract: the search for a 128-bit UUID agrees with the report.

The search looks for the digits in the lists that a device advertises and, with and without
dashes, in its services and characteristics. The report splits the lists and puts the dashes
in. Owns that both see the same UUIDs, where the columns hold what the importers write.

Does not own how the columns are filled.
-/

namespace NaiveBTSniffing.Analysis.Search

open NaiveBTSniffing.Gatttool
open NaiveBTSniffing.Library
open NaiveBTSniffing.Library.Text

/-! ## What the report prints -/

/-- "UUID128 {…} ({…})" -/
structure Uuid128Line where
  uuid128 : Text
  name : Text
deriving DecidableEq, Repr

/-- The loop over the tokens of `str_UUID128s.split(',')`. -/
def uuid128Lines (files : NameFiles) (strUuid128s : Text) : List Uuid128Line :=
  (strUuid128s.splitOn ',').map fun token =>
    let uuid128 := stripLowered token
    { uuid128 := dashing uuid128, name := getCustomUuid128String files uuid128 }

section Report

variable (files : NameFiles) (collation : Collation) (database : Database) (bdaddr : Text)

/-- What `print_uuid128s` and `print_service_solicit_uuid128s` print for the lists that are
there. -/
def advertisedUuid128s : List Uuid128Line :=
  (((ClassicRow.about collation bdaddr database.eirUuid128s).map UuidList.strUuids) ++
    ((LeRow.about collation bdaddr database.leUuid128s).map fun row => row.columns.strUuids) ++
    ((LeRow.about collation bdaddr database.leUuid128ServiceSolicit).map LeRow.columns)).flatMap
    fun strUuid128s => (strUuid128s.map (uuid128Lines files)).getD []

/-- The UUIDs of the services and characteristics in the raw section of `print_GATT_info`. -/
def gattUuid128s : List Text :=
  let results := gattResults collation database bdaddr
  if results.services ≠ [] then
    results.services.map GattService.uuid128 ++
      results.characteristics.map GattCharacteristic.charUuid128
  else []

/-- The report on the address shows the UUID. -/
def ReportsUuid128 (uuid : UuidDigits) : Prop :=
  (∃ line ∈ advertisedUuid128s files collation database bdaddr, line.uuid128 = dashed uuid.digits) ∨
    ∃ uuid128 ∈ gattUuid128s collation database bdaddr,
      uuid128.map Char.toLower = dashed uuid.digits

end Report

/-- A list of texts that are no longer than a UUID without dashes. -/
def ListsUuids : Option Text → Prop
  | some text => ∀ token ∈ text.splitOn ',', token.length ≤ 32
  | none => False

/-- A UUID with its dashes. -/
def IsDashed (text : Text) : Prop :=
  ∃ letters : Text, letters.length = 32 ∧ '-' ∉ letters ∧ text = dashed letters

/-- The lists about the address are such as `tshark` gives, without dashes. -/
structure StoresLists (collation : Collation) (database : Database) (bdaddr : Text) : Prop where
  eir : ∀ row ∈ ClassicRow.about collation bdaddr database.eirUuid128s, ListsUuids row.strUuids
  le : ∀ row ∈ LeRow.about collation bdaddr database.leUuid128s, ListsUuids row.columns.strUuids
  solicit : ∀ row ∈ LeRow.about collation bdaddr database.leUuid128ServiceSolicit,
    ListsUuids row.columns

/-- The columns hold what the importers write; the UUIDs of `gatttool` have dashes, and a
device with a characteristic has a service. -/
structure StoresUuid128s (collation : Collation) (database : Database) (bdaddr : Text) : Prop
    extends StoresLists collation database bdaddr where
  services : ∀ row ∈ (gattResults collation database bdaddr).services, IsDashed row.uuid128
  characteristics : ∀ row ∈ (gattResults collation database bdaddr).characteristics,
    IsDashed row.charUuid128
  served : (gattResults collation database bdaddr).characteristics ≠ [] →
    (gattResults collation database bdaddr).services ≠ []

/-! ## Dashes -/

theorem length_dashed (letters : Text) : (dashed letters).length = letters.length + 4 := by
  simp only [dashed, List.length_append, List.length_cons, List.length_take, List.length_drop]
  omega

theorem map_dashed (letters : Text) :
    (dashed letters).map Char.toLower = dashed (letters.map Char.toLower) := by
  simp only [dashed, List.map_append, List.map_cons, List.map_take, List.map_drop]
  rfl

theorem noDash_of_dashed (letters : Text) : noDash (dashed letters) = noDash letters := by
  simp only [dashed, noDash_append, noDash_dash_cons]
  rw [← noDash_append ((letters.drop 16).take 4), take_drop_append_drop letters 16 4,
    ← noDash_append ((letters.drop 12).take 4), take_drop_append_drop letters 12 4,
    ← noDash_append ((letters.drop 8).take 4), take_drop_append_drop letters 8 4,
    ← noDash_append, List.take_append_drop]

/-- The dashes can be taken out again. -/
theorem eq_of_dashed {first second : Text} (same : dashed first = dashed second)
    (plain : '-' ∉ second) : first = second := by
  have lengths := congrArg List.length same
  rw [length_dashed, length_dashed] at lengths
  have kept : noDash first = second := by
    rw [← noDash_of_dashed, same, noDash_dashed plain]
  have whole : (noDash first).length = first.length := by
    rw [kept]
    omega
  rw [← kept]
  exact (List.filter_sublist.eq_of_length whole).symm

/-- No stretch without a dash in a UUID with dashes is longer than the last group. -/
theorem length_le_of_infix_dashed {pattern letters : Text} (inside : pattern <:+: dashed letters)
    (plain : '-' ∉ pattern) (whole : letters.length = 32) : pattern.length ≤ 12 := by
  simp only [dashed, infix_append_separator plain] at inside
  rcases inside with within | within | within | within | within
  all_goals
    have short := within.length_le
    simp only [List.length_take, List.length_drop] at short
    omega

/-! ## Lists of UUIDs -/

variable {uuid : UuidDigits} {uuid128regex : Text}

theorem toLower_mem_plain {char : Char} (digit : char.toLower ∈ "0123456789abcdef".toList) :
    char ∈ plainLetters := by
  have digits : "0123456789abcdef".toList.all (fun char =>
      decide (char.toNat < 103) && plainLetters.contains char) = true := by decide
  have found := List.all_eq_true.mp digits _ digit
  rw [Bool.and_eq_true, decide_eq_true_iff, List.contains_iff_mem] at found
  rcases toLower_cases char with ⟨least, most, moved⟩ | ⟨_, kept⟩
  · have capitals : ∀ place < 6, Char.ofNat (65 + place) ∈ plainLetters := by decide
    have capital := capitals (char.toNat - 65) (by omega)
    rw [Nat.add_sub_cancel' least, Char.ofNat_toNat] at capital
    exact capital
  · rw [kept] at found
    exact found.2

theorem dash_not_mem_digits (uuid : UuidDigits) : '-' ∉ uuid.digits := by
  intro member
  exact absurd (uuid.hex _ member) (by decide)

theorem comma_not_mem_digits (uuid : UuidDigits) : ',' ∉ uuid.digits := by
  intro member
  exact absurd (uuid.hex _ member) (by decide)

theorem stripLowered_infix (token : Text) : stripLowered token <:+: token.map Char.toLower := by
  have front := List.dropWhile_suffix (l := token) isSpace
  have back := List.rdropWhile_prefix isSpace (token.dropWhile isSpace)
  exact (back.isInfix.trans front.isInfix).map Char.toLower

/-- A token holds the digits if and only if it is printed as the UUID. -/
theorem token_holds_iff {token : Text} (short : token.length ≤ 32) :
    uuid.digits <:+: token.map Char.toLower ↔
      dashing (stripLowered token) = dashed uuid.digits := by
  have inside := stripLowered_infix token
  have most := inside.length_le
  rw [List.length_map] at most
  have trimmed : (stripLowered token).take 32 = stripLowered token :=
    List.take_of_length_le (by omega)
  rw [dashing, trimmed]
  constructor
  · intro held
    have whole : token.map Char.toLower = uuid.digits := by
      apply (infix_iff_eq _).mp held
      rw [List.length_map, uuid.length_eq]
      exact short
    rw [stripLowered, ← strip_map isSpace_toLower, whole, strip_word uuid.isWord]
  · intro printed
    rw [← eq_of_dashed printed (dash_not_mem_digits uuid)]
    exact inside

/-! ## Texts that match -/

variable {regexp : Regexp} {files : NameFiles}

theorem plain_of_spelled (spelled : uuid128regex.map Char.toLower = uuid.digits) :
    ∀ char ∈ uuid128regex, char ∈ plainLetters := by
  intro char member
  apply toLower_mem_plain
  apply uuid.hex
  rw [← spelled]
  exact List.mem_map_of_mem member

theorem plain_dashed {letters : Text} (plain : ∀ char ∈ letters, char ∈ plainLetters) :
    ∀ char ∈ dashed letters, char ∈ plainLetters := by
  intro char member
  have dash : '-' ∈ plainLetters := by decide
  simp only [dashed, List.mem_append, List.mem_cons] at member
  rcases member with front | rfl | front | rfl | front | rfl | front | rfl | front
  all_goals first
    | exact dash
    | exact plain char (List.mem_of_mem_take front)
    | exact plain char (List.mem_of_mem_drop (List.mem_of_mem_take front))
    | exact plain char (List.mem_of_mem_drop front)

/-- A list matches if and only if the report prints the UUID for one of its tokens. -/
theorem list_holds_iff (spelled : uuid128regex.map Char.toLower = uuid.digits)
    {strUuid128s : Option Text} (lists : ListsUuids strUuid128s) :
    regexp.holdsIn uuid128regex strUuid128s = true ↔
      ∃ line ∈ (strUuid128s.map (uuid128Lines files)).getD [],
        line.uuid128 = dashed uuid.digits := by
  cases strUuid128s with
  | none => exact absurd lists id
  | some text =>
      rw [Regexp.holdsIn, regexp.holds_plain _ _ (plain_of_spelled spelled), spelled,
        infix_map_iff_exists_token (comma_not_mem_digits uuid) (by decide)]
      rw [Option.map_some, Option.getD_some, uuid128Lines]
      simp only [List.mem_map, exists_exists_and_eq_and]
      apply exists_congr
      intro token
      apply and_congr_right
      exact fun member => token_holds_iff (lists token member)

/-- A UUID with dashes matches through the dashes that the search puts in. -/
theorem dashed_holds_iff (spelled : uuid128regex.map Char.toLower = uuid.digits) {text : Text}
    (isDashed : IsDashed text) :
    regexp.holds uuid128regex text = true ∨ regexp.holds (dashing uuid128regex) text = true ↔
      text.map Char.toLower = dashed uuid.digits := by
  obtain ⟨letters, whole, noDashes, rfl⟩ := isDashed
  have size : uuid128regex.length = 32 := by
    rw [← uuid.length_eq, ← spelled, List.length_map]
  have given : dashing uuid128regex = dashed uuid128regex := by
    rw [dashing, List.take_of_length_le (by omega)]
  have without : regexp.holds uuid128regex (dashed letters) ≠ true := by
    rw [Ne, regexp.holds_plain _ _ (plain_of_spelled spelled), spelled, map_dashed]
    intro inside
    have short := length_le_of_infix_dashed inside (dash_not_mem_digits uuid)
      (by rw [List.length_map, whole])
    rw [uuid.length_eq] at short
    omega
  rw [or_iff_right without, given,
    regexp.holds_plain _ _ (plain_dashed (plain_of_spelled spelled)), map_dashed, spelled]
  apply infix_iff_eq
  rw [List.length_map, length_dashed, length_dashed, whole, uuid.length_eq]

/-! ## The search and the report -/

variable {collation : Collation} {database : Database} {bdaddr : Text}

theorem finds_uuid128_iff (spelled : uuid128regex.map Char.toLower = uuid.digits) :
    Finds collation bdaddr (getBdaddrsByUuid128Regex regexp database uuid128regex).val ↔
      (∃ row ∈ ClassicRow.about collation bdaddr database.eirUuid128s,
          regexp.holdsIn uuid128regex row.strUuids = true) ∨
        (∃ row ∈ LeRow.about collation bdaddr database.leUuid128s,
          regexp.holdsIn uuid128regex row.columns.strUuids = true) ∨
        (∃ row ∈ LeRow.about collation bdaddr database.leUuid128ServiceSolicit,
          regexp.holdsIn uuid128regex row.columns = true) ∨
        (∃ row ∈ (gattResults collation database bdaddr).services,
          regexp.holds uuid128regex row.uuid128 = true ∨
            regexp.holds (dashing uuid128regex) row.uuid128 = true) ∨
        ∃ row ∈ (gattResults collation database bdaddr).characteristics,
          regexp.holds uuid128regex row.charUuid128 = true ∨
            regexp.holds (dashing uuid128regex) row.charUuid128 = true := by
  have size : uuid128regex.length = 32 := by
    rw [← uuid.length_eq, ← spelled, List.length_map]
  rw [getBdaddrsByUuid128Regex, finds_hashKeys, if_pos size]
  simp only [gattUuid128Results, List.mem_append, List.mem_cons, List.not_mem_nil, or_false,
    or_assoc, exists_eq_or_imp, exists_eq_left, finds_classicRows, finds_leRows, finds_typedRows,
    and_or_left, exists_or, gattResults]
  -- The two tables are asked without dashes first, then with them.
  exact or_congr_right (or_congr_right (or_congr_right (or_congr_right or_left_comm)))

/-- The report prints a UUID as advertised if and only if one of the three lists matches. -/
theorem exists_advertised_iff (regexp : Regexp) (files : NameFiles)
    (spelled : uuid128regex.map Char.toLower = uuid.digits)
    (lists : StoresLists collation database bdaddr) :
    (∃ line ∈ advertisedUuid128s files collation database bdaddr,
        line.uuid128 = dashed uuid.digits) ↔
      (∃ row ∈ ClassicRow.about collation bdaddr database.eirUuid128s,
          regexp.holdsIn uuid128regex row.strUuids = true) ∨
        (∃ row ∈ LeRow.about collation bdaddr database.leUuid128s,
          regexp.holdsIn uuid128regex row.columns.strUuids = true) ∨
        ∃ row ∈ LeRow.about collation bdaddr database.leUuid128ServiceSolicit,
          regexp.holdsIn uuid128regex row.columns = true := by
  have eachList : (∃ line ∈ advertisedUuid128s files collation database bdaddr,
      line.uuid128 = dashed uuid.digits) ↔
        ∃ strUuid128s ∈ (ClassicRow.about collation bdaddr database.eirUuid128s).map
            UuidList.strUuids ++
          ((LeRow.about collation bdaddr database.leUuid128s).map fun row =>
            row.columns.strUuids) ++
          (LeRow.about collation bdaddr database.leUuid128ServiceSolicit).map LeRow.columns,
        ∃ line ∈ (strUuid128s.map (uuid128Lines files)).getD [],
          line.uuid128 = dashed uuid.digits := by
    simp only [advertisedUuid128s, List.mem_flatMap]
    constructor
    · exact fun ⟨line, ⟨list, member, inside⟩, shown⟩ => ⟨list, member, line, inside, shown⟩
    · exact fun ⟨list, member, line, inside, shown⟩ => ⟨line, ⟨list, member, inside⟩, shown⟩
  rw [eachList]
  simp only [List.mem_append, List.mem_map, or_and_right, exists_or, exists_exists_and_eq_and,
    or_assoc]
  apply or_congr
  · apply exists_congr
    exact fun row => and_congr_right fun member =>
      (list_holds_iff spelled (lists.eir row member)).symm
  apply or_congr
  · apply exists_congr
    exact fun row => and_congr_right fun member =>
      (list_holds_iff spelled (lists.le row member)).symm
  · apply exists_congr
    exact fun row => and_congr_right fun member =>
      (list_holds_iff spelled (lists.solicit row member)).symm

/-- The raw section shows the UUID of each stored service and characteristic. -/
theorem exists_gattUuid128s_iff (stored : StoresUuid128s collation database bdaddr) :
    (∃ uuid128 ∈ gattUuid128s collation database bdaddr,
        uuid128.map Char.toLower = dashed uuid.digits) ↔
      (∃ row ∈ (gattResults collation database bdaddr).services,
          row.uuid128.map Char.toLower = dashed uuid.digits) ∨
        ∃ row ∈ (gattResults collation database bdaddr).characteristics,
          row.charUuid128.map Char.toLower = dashed uuid.digits := by
  unfold gattUuid128s
  dsimp only
  split_ifs with some
  · simp only [List.mem_append, List.mem_map, or_and_right, exists_or, exists_exists_and_eq_and]
  · have none := not_not.mp some
    have noChars := not_not.mp (mt stored.served some)
    rw [none, noChars]
    simp

theorem ne_nil_of_spelled (spelled : uuid128regex.map Char.toLower = uuid.digits) :
    uuid128regex ≠ [] := by
  rintro rfl
  have length := congrArg List.length spelled
  rw [uuid.length_eq] at length
  cases length

/-- The search finds an address exactly if its report shows the UUID. -/
theorem finds_uuid128regex_iff (regexp : Regexp) (files : NameFiles)
    (spelled : uuid128regex.map Char.toLower = uuid.digits)
    (stored : StoresUuid128s collation database bdaddr) :
    Finds collation bdaddr (getBdaddrsByUuid128Regex regexp database uuid128regex).val ↔
      ReportsUuid128 files collation database bdaddr uuid := by
  have advertised := exists_advertised_iff regexp files spelled stored.toStoresLists
  rw [finds_uuid128_iff spelled, ReportsUuid128, advertised, exists_gattUuid128s_iff stored]
  simp only [or_assoc]
  apply or_congr_right
  apply or_congr_right
  apply or_congr_right
  apply or_congr
  · apply exists_congr
    exact fun row => and_congr_right fun member =>
      dashed_holds_iff spelled (stored.services row member)
  · apply exists_congr
    exact fun row => and_congr_right fun member =>
      dashed_holds_iff spelled (stored.characteristics row member)

/-- With a UUID as the search, `main` lists exactly the addresses whose report shows it. -/
theorem listed_iff_reportsUuid128 (regexp : Regexp) (search : Text → Text → Bool)
    (collation : Collation) (companies : CompanyFiles) (files : NameFiles) (database : Database)
    (uuid : UuidDigits) (uuid128regex bdaddr : Text)
    (spelled : uuid128regex.map Char.toLower = uuid.digits)
    (stored : StoresUuid128s collation database bdaddr) :
    Finds collation bdaddr (mainBdaddrs { Options.none with uuid128regex }
        (searches regexp database search collation companies)) ↔
      ReportsUuid128 files collation database bdaddr uuid := by
  rw [mainBdaddrs_uuid128regex _ (ne_nil_of_spelled spelled), searches]
  exact finds_uuid128regex_iff regexp files spelled stored

/-- A UUID that a device advertises in capital letters, behind another one. -/
def sampleUuid : UuidDigits where
  digits := "0203030212345678abcdefabcdef0123".toList
  hex := by
    intro char member
    have digits : "0203030212345678abcdefabcdef0123".toList.all
        (fun char => "0123456789abcdef".toList.contains char) = true := by decide
    exact List.contains_iff_mem.mp (List.all_eq_true.mp digits char member)
  length_eq := by decide

def advertisedUuid : Database :=
  { Database.empty with
    leUuid128s := [⟨"4a:00:00:00:00:01".toList, 1, 0, 6,
      some "ffeeddccbbaa99887766554433221100,0203030212345678ABCDEFABCDEF0123".toList⟩] }

theorem listed_iff_reportsUuid128_advertised :
    Finds .ignoringCase "4A:00:00:00:00:01".toList
        (mainBdaddrs { Options.none with uuid128regex := sampleUuid.digits }
          (searches .plain advertisedUuid (fun _ _ => false) .ignoringCase ⟨[], []⟩)) ↔
      ReportsUuid128 ⟨[], [], [], []⟩ .ignoringCase advertisedUuid "4A:00:00:00:00:01".toList
        sampleUuid :=
  listed_iff_reportsUuid128 _ _ _ _ _ _ _ _ _ (by decide)
    { eir := by simp [advertisedUuid, Database.empty, ClassicRow.about]
      le := by
        intro row member
        rw [List.mem_singleton.mp (List.mem_of_mem_filter member)]
        unfold ListsUuids
        decide
      solicit := by simp [advertisedUuid, Database.empty, LeRow.about]
      services := by simp [gattResults, advertisedUuid, Database.empty, TypedRow.about]
      characteristics := by simp [gattResults, advertisedUuid, Database.empty, TypedRow.about]
      served := by simp [gattResults, advertisedUuid, Database.empty, TypedRow.about] }

/-! ## An imported device -/

theorem dashed_groups {first second third fourth : Text} (last : Text) (eight : first.length = 8)
    (four : second.length = 4 ∧ third.length = 4 ∧ fourth.length = 4) :
    dashed (first ++ (second ++ (third ++ (fourth ++ last)))) =
      first ++ '-' :: (second ++ '-' :: (third ++ '-' :: (fourth ++ '-' :: last))) := by
  obtain ⟨ofSecond, ofThird, ofFourth⟩ := four
  simp (disch := omega) [dashed, List.drop_append, eight, ofSecond, ofThird,
    List.drop_eq_nil_of_le]

/-- The digits of a UUID, without the dashes of its text. -/
def uuidDigits (uuid : Uuid) : UuidDigits :=
  let value := uuid.toNat
  { digits :=
      hexPadded 8 (value / 2 ^ 96) ++ (hexPadded 4 (value / 2 ^ 80 % 2 ^ 16) ++
        (hexPadded 4 (value / 2 ^ 64 % 2 ^ 16) ++ (hexPadded 4 (value / 2 ^ 48 % 2 ^ 16) ++
          (hexPadded 8 (value / 2 ^ 16 % 2 ^ 32) ++ hexPadded 4 (value % 2 ^ 16)))))
    hex := by
      intro char member
      simp only [List.mem_append] at member
      rcases member with digit | digit | digit | digit | digit | digit
      all_goals exact isHexText_hexPadded _ _ char digit
    length_eq := by
      have bound := uuid.isLt
      simp only [List.length_append]
      rw [length_hexPadded (by decide) (by omega), length_hexPadded (by decide) (by omega),
        length_hexPadded (by decide) (by omega), length_hexPadded (by decide) (by omega),
        length_hexPadded (by decide) (by omega), length_hexPadded (by decide) (by omega)] }

theorem uuidText_eq_dashed (uuid : Uuid) : uuidText uuid = dashed (uuidDigits uuid).digits := by
  have bound := uuid.isLt
  have four {value : Nat} (below : value < 2 ^ 16) : (hexPadded 4 value).length = 4 :=
    length_hexPadded (by decide) (by omega)
  rw [uuidDigits, dashed_groups _ (length_hexPadded (by decide) (by omega))
    ⟨four (by omega), four (by omega), four (by omega)⟩, uuidText]
  simp only [List.append_assoc, List.cons_append]

theorem uuidDigits_inj {first second : Uuid}
    (same : (uuidDigits first).digits = (uuidDigits second).digits) : first = second := by
  have value (uuid : Uuid) : hexValue 0 (uuidDigits uuid).digits = uuid.toNat := by
    have bound := uuid.isLt
    have part {width number : Nat} (some : 0 < width) (fits : number < 16 ^ width)
        (before : Nat) :
        hexValue before (hexPadded width number) = 16 ^ width * before + number := by
      rw [hexValue_eq_add, length_hexPadded some fits, hexValue_hexPadded]
    simp only [uuidDigits, hexValue_append]
    rw [part (by decide) (by omega), part (by decide) (by omega), part (by decide) (by omega),
      part (by decide) (by omega), part (by decide) (by omega), part (by decide) (by omega)]
    omega
  apply BitVec.eq_of_toNat_eq
  rw [← value first, same, value second]

theorem map_toLower_uuidText (uuid : Uuid) : (uuidText uuid).map Char.toLower = uuidText uuid := by
  rw [uuidText_eq_dashed, map_dashed, map_toLower_hexText (uuidDigits uuid).hex]

theorem uuidText_inj {first second : Uuid} : uuidText first = uuidText second ↔ first = second := by
  constructor
  · intro same
    rw [uuidText_eq_dashed, uuidText_eq_dashed] at same
    exact uuidDigits_inj (eq_of_dashed same (dash_not_mem_digits _))
  · exact congrArg uuidText

theorem isDashed_uuidText (uuid : Uuid) : IsDashed (uuidText uuid) :=
  ⟨_, (uuidDigits uuid).length_eq, dash_not_mem_digits _, uuidText_eq_dashed uuid⟩

/-- The importer leaves alone what none of its statements changes. -/
theorem importGatt_keeps {View : Type} (collation : Collation) (view : Database → View)
    (kept : ∀ (database : Database) row, view (database.insertGatt collation row) = view database)
    (database : Database) (rows : List Row) :
    view (database.importGatt collation rows) = view database := by
  induction rows generalizing database with
  | nil => rfl
  | cons row rows inductionHypothesis =>
      exact (inductionHypothesis (database.insertGatt collation row)).trans (kept database row)

/-- Stored UUIDs of declarations match if one of them is the UUID that is searched for. -/
theorem exists_stored_iff {Decl Stored : Type} {decls : List Decl} {stored : List Stored}
    {columns : Decl → Stored} {declared : Decl → Uuid} {shown : Stored → Text} {uuid : Uuid}
    (all : stored.Perm (decls.map columns)) (column : ∀ decl, shown (columns decl) =
      uuidText (declared decl))
    (spelled : uuid128regex.map Char.toLower = (uuidDigits uuid).digits) :
    (∃ row ∈ stored, regexp.holds uuid128regex (shown row) = true ∨
        regexp.holds (dashing uuid128regex) (shown row) = true) ↔
      ∃ decl ∈ decls, declared decl = uuid := by
  simp only [all.mem_iff, List.mem_map, exists_exists_and_eq_and, column]
  apply exists_congr
  intro decl
  apply and_congr_right
  intro _
  rw [dashed_holds_iff spelled (isDashed_uuidText _), map_toLower_uuidText, ← uuidText_eq_dashed]
  exact uuidText_inj

/-- After the import of its runs, the search finds a device exactly if the device advertises
the UUID, or its table declares it for a service or a characteristic. -/
theorem listed_iff_declares (regexp : Regexp) (search : Text → Text → Bool)
    (collation : Collation) (companies : CompanyFiles) (files : NameFiles) (server : Server)
    (random : Bool) (dst : Bdaddr) (runs : List State) (entries : List Entry)
    (table : AttributeTable) (values : UInt16 → Option (List UInt8))
    (ordered : Text → Text → Bool) (query : Text → Option Nat) (database : Database) (uuid : Uuid)
    (uuid128regex : Text) (provides : server.Provides table values)
    (logs : Logs collation server random dst runs entries)
    (fresh : database.GattFresh collation dst.text)
    (lists : StoresLists collation database dst.text)
    (spelled : uuid128regex.map Char.toLower = (uuidDigits uuid).digits) :
    Finds collation dst.text (mainBdaddrs { Options.none with uuid128regex }
        (searches regexp (database.importGatt collation
          (importLog (answering query) (dedupLog ordered entries)).rows)
          search collation companies)) ↔
      (∃ line ∈ advertisedUuid128s files collation database dst.text,
          line.uuid128 = uuidText uuid) ∨
        (∃ decl ∈ table.services, decl.uuid.toUuid128 = uuid) ∨
        ∃ decl ∈ table.characteristics, decl.uuid.toUuid128 = uuid := by
  have shown := logs.shown provides ordered query fresh
  have eir := importGatt_keeps collation Database.eirUuid128s (fun _ _ => rfl) database
    (importLog (answering query) (dedupLog ordered entries)).rows
  have le := importGatt_keeps collation Database.leUuid128s (fun _ _ => rfl) database
    (importLog (answering query) (dedupLog ordered entries)).rows
  have solicit := importGatt_keeps collation Database.leUuid128ServiceSolicit
    (fun _ _ => rfl) database (importLog (answering query) (dedupLog ordered entries)).rows
  rw [mainBdaddrs_uuid128regex _ (ne_nil_of_spelled spelled), searches, finds_uuid128_iff spelled,
    exists_stored_iff shown.services (fun _ => rfl) spelled,
    exists_stored_iff shown.characteristics (fun _ => rfl) spelled, eir, le, solicit,
    uuidText_eq_dashed, exists_advertised_iff regexp files spelled lists]
  simp only [or_assoc]

theorem listed_iff_declares_nameEntries :
    Finds .ignoringCase sampleBdaddr.text (mainBdaddrs
        { Options.none with uuid128regex := (uuidDigits (BtUuid.uuid16 0x2a00).toUuid128).digits }
        (searches .plain (otherService.importGatt .ignoringCase
          (importLog (answering fun _ => none) (dedupLog (fun _ _ => true) nameEntries)).rows)
          (fun _ _ => false) .ignoringCase ⟨[], []⟩)) ↔
      (∃ line ∈ advertisedUuid128s ⟨[], [], [], []⟩ .ignoringCase otherService sampleBdaddr.text,
          line.uuid128 = uuidText (BtUuid.uuid16 0x2a00).toUuid128) ∨
        (∃ decl ∈ nameTable.services, decl.uuid.toUuid128 = (BtUuid.uuid16 0x2a00).toUuid128) ∨
        ∃ decl ∈ nameTable.characteristics,
          decl.uuid.toUuid128 = (BtUuid.uuid16 0x2a00).toUuid128 :=
  listed_iff_declares .plain _ .ignoringCase _ _ _ false sampleBdaddr [unfinishedRun, nameRun]
    nameEntries nameTable nameValue (fun _ _ => true) (fun _ => none) otherService _ _
    provides_nameTable logs_nameEntries gattFresh_otherService
    { eir := by simp [otherService, Database.empty, ClassicRow.about]
      le := by simp [otherService, Database.empty, LeRow.about]
      solicit := by simp [otherService, Database.empty, LeRow.about] }
    (map_toLower_hexText (uuidDigits _).hex)

end NaiveBTSniffing.Analysis.Search
