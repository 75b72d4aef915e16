import NaiveBTSniffing.Analysis.Database

/-!
Contract: what `print_company_name_from_bdaddr` calls an address, and the lines
"In BT Classic Data" that the same report prints.

Owns the two unions, the verdict's lines, and the exact condition under which the
verdict follows from the rows of all tables. Does not own the other lines of the
report. The text of an address has no quote, so that a query compares with it.
-/

namespace NaiveBTSniffing.Analysis

open NaiveBTSniffing.Library

/-! ## The verdict -/

/-- An exception of Python or of the connector. -/
inductive Fault where
  | attributeError
  | fileNotFoundError
  | indexError
  | keyError
  | nameError
  | programmingError
  | valueError
deriving DecidableEq, Repr

def getBdaddrType (bdaddr : Text) (random : Int) : Except Fault Text :=
  if random = 0 then .ok "Public".toList
  else
    match bdaddr with
    | [] => .error .indexError
    | char :: _ =>
        if char = 'f' ∨ char = 'e' ∨ char = 'd' ∨ char = 'c' then .ok "Random Static".toList
        else if random = 1 ∧ (char = '7' ∨ char = '6' ∨ char = '5' ∨ char = '4') then
          .ok "Random Resolvable".toList
        else if random = 1 ∧ (char = '3' ∨ char = '2' ∨ char = '1' ∨ char = '0') then
          .ok "Random Non-Resolvable".toList
        else .ok []

/-- The union of `is_bdaddr_classic`, in the order of the source. -/
def classicSelects : List Select :=
  [⟨.eirBdaddrToDevID, none⟩, ⟨.eirBdaddrToFlags, none⟩, ⟨.eirBdaddrToMfSpecific, none⟩,
    ⟨.eirBdaddrToName, none⟩, ⟨.eirBdaddrToPsrmCod, none⟩, ⟨.eirBdaddrToTxPower, none⟩,
    ⟨.eirBdaddrToUuid128s, none⟩, ⟨.eirBdaddrToUuid16s, none⟩, ⟨.eirBdaddrToUuid32s, none⟩,
    ⟨.eirBdaddrToUuid32s, none⟩, ⟨.btc2thLmpFeaturesRes, none⟩, ⟨.btc2thLmpNameRes, none⟩,
    ⟨.btc2thLmpVersionRes, none⟩]

/-- The union of `is_bdaddr_le_and_random`, in the order of the source. -/
def randomSelects : List Select :=
  [⟨.leBdaddrToAppearance, some 1⟩, ⟨.leBdaddrToCod, some 1⟩,
    ⟨.leBdaddrToConnectInterval, some 1⟩, ⟨.leBdaddrToFlags, some 1⟩,
    ⟨.leBdaddrToMfSpecific, some 1⟩, ⟨.leBdaddrToName, some 1⟩,
    ⟨.leBdaddrToOtherLeBdaddr, some 1⟩, ⟨.leBdaddrToPublicTargetBdaddr, some 1⟩,
    ⟨.leBdaddrToTxPower, some 1⟩, ⟨.leBdaddrToUri, some 1⟩,
    ⟨.leBdaddrToUuid128ServiceSolicit, some 1⟩, ⟨.leBdaddrToUuid128s, some 1⟩,
    ⟨.leBdaddrToUuid16ServiceSolicit, some 1⟩, ⟨.leBdaddrToUuid16s, some 1⟩,
    ⟨.leBdaddrToUuid32s, some 1⟩, ⟨.ble2thLlFeatures, some 1⟩, ⟨.ble2thLlLengths, some 1⟩,
    ⟨.ble2thLlPhys, some 1⟩, ⟨.ble2thLlPingRsp, some 1⟩, ⟨.ble2thLlUnknownRsp, some 1⟩,
    ⟨.ble2thLlVersionInd, some 1⟩]

/-- A select of the union finds a row with the address. -/
def anySelect (collation : Collation) (database : Database) (selects : List Select)
    (bdaddr : Text) : Bool :=
  selects.any fun select => (database.select select).any (collation.same bdaddr)

def isBdaddrClassic (collation : Collation) (database : Database) (bdaddr : Text) : Bool :=
  anySelect collation database classicSelects bdaddr

def isBdaddrLeAndRandom (collation : Collation) (database : Database) (bdaddr : Text) : Bool :=
  anySelect collation database randomSelects bdaddr

/-- The lines of `print_company_name_from_bdaddr`. -/
inductive CompanyLine where
  /-- "Company Name by IEEE OUI: Not Applicable because this is a {…} address" -/
  | notApplicable (bdaddrType : Text)
  /-- "Company Name by IEEE OUI ({…}): {…}" -/
  | companyName (octets : Text) (name : Text)
  /-- "NOTE: Most BDADDR that begin with 00:00:00 are erroneous, not actual XEROX devices!" -/
  | erroneous
  /-- "Company Name by IEEE OUI ({…}): No Match" -/
  | noMatch (octets : Text)
  /-- "BDADDR is Bluetooth Classic" -/
  | bluetoothClassic
  /-- "BDADDR is Bluetooth Low Energy Public" -/
  | lowEnergyPublic
  | empty
deriving DecidableEq, Repr

/-- The company's lines, from the first row of the query. -/
def companyLines (collation : Collation) (database : Database) (bdaddr : Text) :
    List CompanyLine :=
  let firstThreeOctets := bdaddr.take 8
  match database.ieeeBdaddrToCompany.find? fun row =>
      collation.startsWith firstThreeOctets row.deviceBdaddr with
  | some row =>
      .companyName firstThreeOctets row.companyName ::
        if firstThreeOctets = "00:00:00".toList then [.erroneous] else []
  | none => [.noMatch firstThreeOctets]

def printCompanyNameFromBdaddr (collation : Collation) (database : Database) (bdaddr : Text) :
    Except Fault (List CompanyLine) :=
  let isClassic := isBdaddrClassic collation database bdaddr
  let random := if isClassic then false else isBdaddrLeAndRandom collation database bdaddr
  if random then
    (getBdaddrType bdaddr 1).map fun bdaddrType => [.notApplicable bdaddrType, .empty]
  else
    .ok (companyLines collation database bdaddr ++
      [if isClassic then .bluetoothClassic else .lowEnergyPublic, .empty])

/-! ## The lines about classic data -/

/-- `bdaddr.strip().lower()` for an address, whose letters are ASCII: no other letter is
lowered. -/
def stripLower (bdaddr : Text) : Text := (Text.strip bdaddr).map Char.toLower

/-- One line "In BT Classic Data (…)" for each row of the table about the address. -/
def inBtClassicData (collation : Collation) (database : Database) (bdaddr : Text)
    (table printed : Table) : List Table :=
  ((database.select ⟨table, none⟩).filter (collation.same (stripLower bdaddr))).map
    fun _ => printed

/-- The lines "In BT Classic Data" of the report, with the table that each names:
those of `print_device_names`, `print_transmit_power`, `print_manufacturer_data` and
`print_class_of_device`, the last of which names another table than it reads. -/
def classicDataLines (collation : Collation) (database : Database) (bdaddr : Text) :
    List Table :=
  inBtClassicData collation database bdaddr .eirBdaddrToName .eirBdaddrToName ++
    inBtClassicData collation database bdaddr .rspBdaddrToName .rspBdaddrToName ++
    inBtClassicData collation database bdaddr .eirBdaddrToTxPower .eirBdaddrToTxPower ++
    inBtClassicData collation database bdaddr .eirBdaddrToMfSpecific .eirBdaddrToMfSpecific ++
    inBtClassicData collation database bdaddr .eirBdaddrToPsrmCod .eirBdaddrToName

/-! ## What the verdict is about -/

/-- Some classic table has a row with the address. -/
def Database.HasClassic (collation : Collation) (database : Database) (bdaddr : Text) : Prop :=
  ∃ table, (table.family = .eir ∨ table.family = .rsp ∨ table.family = .btc2th) ∧
    database.Shows collation bdaddr table fun _ => True

/-- Some LE, BLE2th or GATT row gives the address this kind: 0 is public, 1 is random. -/
def Database.Marks (collation : Collation) (database : Database) (bdaddr : Text) (kind : Int) :
    Prop :=
  ∃ table, (table.family = .le ∨ table.family = .ble2th ∨ table.family = .gatt) ∧
    database.Shows collation bdaddr table fun shown => shown.random = some kind

/-- The address gets a line of this kind. -/
def Calls (collation : Collation) (database : Database) (bdaddr : Text)
    (wanted : CompanyLine → Prop) : Prop :=
  ∃ lines, printCompanyNameFromBdaddr collation database bdaddr = .ok lines ∧
    ∃ line ∈ lines, wanted line

def CallsClassic (collation : Collation) (database : Database) (bdaddr : Text) : Prop :=
  Calls collation database bdaddr fun line => line = .bluetoothClassic

def CallsRandom (collation : Collation) (database : Database) (bdaddr : Text) : Prop :=
  Calls collation database bdaddr fun line => ∃ bdaddrType, line = .notApplicable bdaddrType

def CallsPublic (collation : Collation) (database : Database) (bdaddr : Text) : Prop :=
  Calls collation database bdaddr fun line => line = .lowEnergyPublic

/-- The verdict follows from the rows, and agrees with the lines about classic data. -/
structure VerdictRight (collation : Collation) (database : Database) (bdaddr : Text) : Prop where
  classic : CallsClassic collation database bdaddr ↔ database.HasClassic collation bdaddr
  random : CallsRandom collation database bdaddr ↔
    ¬ database.HasClassic collation bdaddr ∧ database.Marks collation bdaddr 1
  onlyPublic : CallsPublic collation database bdaddr → database.Marks collation bdaddr 0
  agrees : classicDataLines collation database bdaddr ≠ [] →
    CallsClassic collation database bdaddr

/-! ## When the verdict is right -/

variable {collation : Collation} {database : Database} {bdaddr : Text}

theorem anySelect_iff {selects : List Select} :
    anySelect collation database selects bdaddr = true ↔
      ∃ select ∈ selects, database.Shows collation bdaddr select.table select.Keeps := by
  unfold anySelect
  rw [List.any_eq_true]
  simp only [any_select_iff]

/-- The listed classic tables are all but `RSP_bdaddr_to_name`. -/
theorem isBdaddrClassic_iff :
    isBdaddrClassic collation database bdaddr = true ↔
      ∃ table, (table.family = .eir ∨ table.family = .btc2th) ∧
        database.Shows collation bdaddr table fun _ => True := by
  unfold isBdaddrClassic
  rw [anySelect_iff]
  constructor
  · intro ⟨select, listed, shown, row, same, _⟩
    refine ⟨select.table, ?_, shown, row, same, trivial⟩
    have families : ∀ member ∈ classicSelects,
        member.table.family = .eir ∨ member.table.family = .btc2th := by decide
    exact families select listed
  · intro ⟨table, family, shown, row, same, _⟩
    have listed : ⟨table, none⟩ ∈ classicSelects := by
      revert family
      cases table <;> decide
    exact ⟨⟨table, none⟩, listed, shown, row, same, .inl rfl⟩

/-- A row marks the address random, in an LE table other than
`LE_bdaddr_to_service_data` or in a BLE2th table. -/
def Database.ListedRandom (collation : Collation) (database : Database) (bdaddr : Text) : Prop :=
  ∃ table, (table.family = .le ∨ table.family = .ble2th) ∧ table ≠ .leBdaddrToServiceData ∧
    database.Shows collation bdaddr table fun shown => shown.random = some 1

theorem isBdaddrLeAndRandom_iff :
    isBdaddrLeAndRandom collation database bdaddr = true ↔
      database.ListedRandom collation bdaddr := by
  unfold isBdaddrLeAndRandom
  rw [anySelect_iff]
  constructor
  · intro ⟨select, listed, shown, row, same, keeps⟩
    have members : ∀ member ∈ randomSelects, member.randomIs = some 1 ∧
        (member.table.family = .le ∨ member.table.family = .ble2th) ∧
          member.table ≠ .leBdaddrToServiceData := by decide
    have kind := (members select listed).1
    have family := (members select listed).2
    refine ⟨select.table, family.1, family.2, shown, row, same, ?_⟩
    rw [Select.Keeps, kind] at keeps
    exact keeps.resolve_left (by simp)
  · intro ⟨table, family, other, shown, row, same, random⟩
    have listed : ⟨table, some 1⟩ ∈ randomSelects := by
      revert family other
      cases table <;> decide
    exact ⟨⟨table, some 1⟩, listed, shown, row, same, .inr random⟩

/-- The type of a random address exists for every text but the empty one. -/
theorem getBdaddrType_cases (bdaddr : Text) (random : Int) (other : random ≠ 0) :
    (bdaddr = [] ∧ getBdaddrType bdaddr random = .error .indexError) ∨
      (bdaddr ≠ [] ∧ ∃ bdaddrType, getBdaddrType bdaddr random = .ok bdaddrType) := by
  unfold getBdaddrType
  rw [if_neg other]
  cases bdaddr with
  | nil => exact .inl ⟨rfl, rfl⟩
  | cons char rest =>
      apply Or.inr
      refine ⟨by simp, ?_⟩
      dsimp only
      split_ifs <;> exact ⟨_, rfl⟩

private theorem companyLines_noVerdict {line : CompanyLine}
    (member : line ∈ companyLines collation database bdaddr) :
    line ≠ .bluetoothClassic ∧ line ≠ .lowEnergyPublic ∧
      ∀ bdaddrType, line ≠ .notApplicable bdaddrType := by
  unfold companyLines at member
  dsimp only at member
  split at member
  · rcases List.mem_cons.mp member with rfl | rest
    · simp
    · split_ifs at rest
      · rw [List.mem_singleton.mp rest]
        simp
      · cases rest
  · rw [List.mem_singleton.mp member]
    simp

/-- What the function prints, by the answers of the two unions. -/
theorem printCompanyName_cases (collation : Collation) (database : Database) (bdaddr : Text) :
    (isBdaddrClassic collation database bdaddr = true ∧
      printCompanyNameFromBdaddr collation database bdaddr =
        .ok (companyLines collation database bdaddr ++ [.bluetoothClassic, .empty])) ∨
    (isBdaddrClassic collation database bdaddr = false ∧
      isBdaddrLeAndRandom collation database bdaddr = false ∧
      printCompanyNameFromBdaddr collation database bdaddr =
        .ok (companyLines collation database bdaddr ++ [.lowEnergyPublic, .empty])) ∨
    (isBdaddrClassic collation database bdaddr = false ∧
      isBdaddrLeAndRandom collation database bdaddr = true ∧
      printCompanyNameFromBdaddr collation database bdaddr =
        (getBdaddrType bdaddr 1).map fun bdaddrType => [.notApplicable bdaddrType, .empty]) := by
  unfold printCompanyNameFromBdaddr
  cases isBdaddrClassic collation database bdaddr with
  | true => exact .inl ⟨rfl, rfl⟩
  | false =>
      apply Or.inr
      cases isBdaddrLeAndRandom collation database bdaddr with
      | false => exact .inl ⟨rfl, rfl, rfl⟩
      | true => exact .inr ⟨rfl, rfl, rfl⟩

section Calls

variable {wanted : CompanyLine → Prop}

/-- The lines in front of the verdict say nothing about it. -/
private theorem calls_append {last : CompanyLine}
    (printed : printCompanyNameFromBdaddr collation database bdaddr =
      .ok (companyLines collation database bdaddr ++ [last, .empty]))
    (verdict : ∀ line, wanted line → line = .bluetoothClassic ∨ line = .lowEnergyPublic ∨
      ∃ bdaddrType, line = .notApplicable bdaddrType) :
    Calls collation database bdaddr wanted ↔ wanted last := by
  constructor
  · intro ⟨lines, answer, line, member, wants⟩
    rw [printed] at answer
    cases answer
    have apart : line ∉ companyLines collation database bdaddr := by
      intro inside
      obtain ⟨noClassic, noPublic, noRandom⟩ := companyLines_noVerdict inside
      rcases verdict line wants with classic | lePublic | ⟨bdaddrType, random⟩
      · exact noClassic classic
      · exact noPublic lePublic
      · exact noRandom bdaddrType random
    have atEnd := (List.mem_append.mp member).resolve_left apart
    rcases List.mem_cons.mp atEnd with rfl | empty
    · exact wants
    · rw [List.mem_singleton.mp empty] at wants
      have impossible := verdict _ wants
      simp at impossible
  · intro wants
    exact ⟨_, printed, last, by simp, wants⟩

/-- The only line about a random address is the first. -/
private theorem calls_random
    (printed : printCompanyNameFromBdaddr collation database bdaddr =
      (getBdaddrType bdaddr 1).map fun bdaddrType => [.notApplicable bdaddrType, .empty])
    (noEmpty : ¬ wanted .empty) :
    Calls collation database bdaddr wanted ↔
      ∃ bdaddrType, getBdaddrType bdaddr 1 = .ok bdaddrType ∧
        wanted (.notApplicable bdaddrType) := by
  unfold Calls
  rw [printed]
  cases getBdaddrType bdaddr 1 with
  | error fault => simp [Except.map]
  | ok bdaddrType => simp [Except.map, noEmpty]

end Calls

theorem callsClassic_iff :
    CallsClassic collation database bdaddr ↔ isBdaddrClassic collation database bdaddr = true := by
  unfold CallsClassic
  rcases printCompanyName_cases collation database bdaddr with
    ⟨classic, printed⟩ | ⟨noClassic, _, printed⟩ | ⟨noClassic, _, printed⟩
  · rw [calls_append printed (fun line wants => .inl wants), classic]
    simp
  · rw [calls_append printed (fun line wants => .inl wants), noClassic]
    simp
  · rw [calls_random printed (by simp), noClassic]
    simp

theorem callsRandom_iff :
    CallsRandom collation database bdaddr ↔
      isBdaddrClassic collation database bdaddr = false ∧
        isBdaddrLeAndRandom collation database bdaddr = true ∧ bdaddr ≠ [] := by
  unfold CallsRandom
  rcases printCompanyName_cases collation database bdaddr with
    ⟨classic, printed⟩ | ⟨noClassic, noRandom, printed⟩ | ⟨noClassic, random, printed⟩
  · rw [calls_append printed (fun line wants => .inr (.inr wants)), classic]
    simp
  · rw [calls_append printed (fun line wants => .inr (.inr wants)), noRandom]
    simp
  · rw [calls_random printed (by simp), noClassic, random]
    rcases getBdaddrType_cases bdaddr 1 (by decide) with ⟨rfl, raised⟩ | ⟨some, _, answer⟩
    · simp [raised]
    · simp [answer, some]

theorem callsPublic_iff :
    CallsPublic collation database bdaddr ↔
      isBdaddrClassic collation database bdaddr = false ∧
        isBdaddrLeAndRandom collation database bdaddr = false := by
  unfold CallsPublic
  rcases printCompanyName_cases collation database bdaddr with
    ⟨classic, printed⟩ | ⟨noClassic, noRandom, printed⟩ | ⟨noClassic, random, printed⟩
  · rw [calls_append printed (fun line wants => .inr (.inl wants)), classic]
    simp
  · rw [calls_append printed (fun line wants => .inr (.inl wants)), noClassic, noRandom]
    simp
  · rw [calls_random printed (by simp), random]
    simp

/-- A row of a table that the report reads for its lines about classic data has the
address, stripped and lowered. -/
def Database.ShownClassic (collation : Collation) (database : Database) (bdaddr : Text) : Prop :=
  ∃ table ∈ [Table.eirBdaddrToName, .rspBdaddrToName, .eirBdaddrToTxPower,
      .eirBdaddrToMfSpecific, .eirBdaddrToPsrmCod],
    database.Shows collation (stripLower bdaddr) table fun _ => True

private theorem inBtClassicData_ne_nil_iff {table printed : Table} :
    inBtClassicData collation database bdaddr table printed ≠ [] ↔
      database.Shows collation (stripLower bdaddr) table fun _ => True := by
  have all : (Select.mk table none).Keeps = fun _ => True := by
    funext shown
    simp [Select.Keeps]
  rw [← all, ← any_select_iff collation database (stripLower bdaddr) ⟨table, none⟩]
  simp [inBtClassicData, List.filter_eq_nil_iff]

theorem classicDataLines_ne_nil_iff :
    classicDataLines collation database bdaddr ≠ [] ↔
      database.ShownClassic collation bdaddr := by
  unfold classicDataLines Database.ShownClassic
  simp only [ne_eq, List.append_eq_nil_iff, not_and_or]
  simp only [← ne_eq, inBtClassicData_ne_nil_iff]
  simp [or_assoc]

/-- The rows decide the verdict as the two unions do: an answer to a name request
does not stand alone, a random mark stands in a listed table, some row shows the
kind of an address that is not classic, and an address that is classic only when
stripped and lowered is not asked for. -/
structure Decided (collation : Collation) (database : Database) (bdaddr : Text) : Prop where
  answered : (database.Shows collation bdaddr .rspBdaddrToName fun _ => True) →
    ∃ table, (table.family = .eir ∨ table.family = .btc2th) ∧
      database.Shows collation bdaddr table fun _ => True
  marked : ¬ database.HasClassic collation bdaddr → database.Marks collation bdaddr 1 →
    database.ListedRandom collation bdaddr ∧ bdaddr ≠ []
  known : ¬ database.HasClassic collation bdaddr → ¬ database.Marks collation bdaddr 1 →
    database.Marks collation bdaddr 0
  given : database.ShownClassic collation bdaddr → database.HasClassic collation bdaddr

theorem hasClassic_of_isBdaddrClassic
    (classic : isBdaddrClassic collation database bdaddr = true) :
    database.HasClassic collation bdaddr := by
  obtain ⟨table, family, shows⟩ := isBdaddrClassic_iff.mp classic
  exact ⟨table, family.imp_right .inr, shows⟩

theorem marks_of_listedRandom (listed : database.ListedRandom collation bdaddr) :
    database.Marks collation bdaddr 1 := by
  obtain ⟨table, family, _, shows⟩ := listed
  exact ⟨table, family.imp_right .inl, shows⟩

private theorem decided_of_verdictRight (right : VerdictRight collation database bdaddr) :
    Decided collation database bdaddr where
  answered := by
    intro shows
    have classic := right.classic.mpr ⟨.rspBdaddrToName, .inr (.inl rfl), shows⟩
    exact isBdaddrClassic_iff.mp (callsClassic_iff.mp classic)
  marked := by
    intro noClassic marks
    obtain ⟨_, random, some⟩ := callsRandom_iff.mp (right.random.mpr ⟨noClassic, marks⟩)
    exact ⟨isBdaddrLeAndRandom_iff.mp random, some⟩
  known := by
    intro noClassic noMark
    apply right.onlyPublic
    apply callsPublic_iff.mpr
    constructor
    · exact Bool.eq_false_iff.mpr fun classic =>
        noClassic (hasClassic_of_isBdaddrClassic classic)
    · exact Bool.eq_false_iff.mpr fun random =>
        noMark (marks_of_listedRandom (isBdaddrLeAndRandom_iff.mp random))
  given := fun shown =>
    right.classic.mp (right.agrees (classicDataLines_ne_nil_iff.mpr shown))

private theorem isBdaddrClassic_iff_hasClassic (decided : Decided collation database bdaddr) :
    isBdaddrClassic collation database bdaddr = true ↔ database.HasClassic collation bdaddr := by
  constructor
  · exact hasClassic_of_isBdaddrClassic
  · intro ⟨table, family, shows⟩
    apply isBdaddrClassic_iff.mpr
    rcases family with eir | rsp | btc2th
    · exact ⟨table, .inl eir, shows⟩
    · have only : table = .rspBdaddrToName := by
        revert rsp
        cases table <;> decide
      exact decided.answered (only ▸ shows)
    · exact ⟨table, .inr btc2th, shows⟩

private theorem verdictRight_of_decided (decided : Decided collation database bdaddr) :
    VerdictRight collation database bdaddr := by
  have classic := isBdaddrClassic_iff_hasClassic decided
  have noClassic : isBdaddrClassic collation database bdaddr = false ↔
      ¬ database.HasClassic collation bdaddr := by
    rw [← classic, Bool.not_eq_true]
  constructor
  case classic => rw [callsClassic_iff, classic]
  case random =>
    rw [callsRandom_iff, noClassic, isBdaddrLeAndRandom_iff]
    constructor
    · exact fun ⟨absent, listed, _⟩ => ⟨absent, marks_of_listedRandom listed⟩
    · exact fun ⟨absent, marks⟩ => ⟨absent, decided.marked absent marks⟩
  case onlyPublic =>
    intro calls
    obtain ⟨absent, notListed⟩ := callsPublic_iff.mp calls
    rw [noClassic] at absent
    apply decided.known absent
    intro marks
    have listed := isBdaddrLeAndRandom_iff.mpr (decided.marked absent marks).1
    rw [notListed] at listed
    cases listed
  case agrees =>
    intro lines
    rw [callsClassic_iff, classic]
    exact decided.given (classicDataLines_ne_nil_iff.mp lines)

/-- The verdict is right exactly where the rows decide it as the unions do. -/
theorem verdictRight_iff_decided (collation : Collation) (database : Database)
    (bdaddr : Text) :
    VerdictRight collation database bdaddr ↔ Decided collation database bdaddr :=
  ⟨decided_of_verdictRight, verdictRight_of_decided⟩

private def asked : Text := "00:1a:7d:da:71:13".toList

/-- Only the answer of a classic device to a name request is known. -/
private def namedOnly : Database :=
  { Database.empty with rspName := [⟨asked, "Car".toList⟩] }

/-- A device whose name the report shows "In BT Classic Data" is called Bluetooth Low
Energy Public. -/
theorem not_verdictRight : ¬ ∀ (collation : Collation) (database : Database) (bdaddr : Text),
    VerdictRight collation database bdaddr := by
  intro right
  have shown : classicDataLines .ignoringCase namedOnly asked ≠ [] := by decide
  have classic := (right .ignoringCase namedOnly asked).agrees shown
  have other : isBdaddrClassic .ignoringCase namedOnly asked = false := by decide
  rw [callsClassic_iff, other] at classic
  cases classic

end NaiveBTSniffing.Analysis
