import NaiveBTSniffing.Analysis.CompanySearch
import NaiveBTSniffing.Analysis.UuidSearch

/-!
Contract: what `main` lists for its reports, told by what the reports show.

Each positive search asks for something that a section of the report on an address shows, and
each negative one for something that the section must not show. Owns that the searches of a call
together choose the addresses whose reports are asked for, where the database has one spelling of
the address.

The sections are those that a search looks at. Names are also printed with the LMP name responses
and companies with solicited UUID16s and device IDs, which no search looks at. That a report runs
to its end is not owned here (`Analysis.Report`).

Does not own what a single search has to do with the report (`Analysis.CompanySearch`,
`Analysis.UuidSearch`) nor how often an address is reported (`Analysis.Search`).
-/

namespace NaiveBTSniffing.Analysis.Search

open NaiveBTSniffing.Library

/-! ## What a call asks for -/

section Asked

variable (regexp : Regexp) (search : Text → Text → Bool) (collation : Collation)
  (companies : CompanyFiles) (files : NameFiles) (database : Database) (bdaddr : Text)

/-- The names that `print_device_names` prints. -/
def printedNames : List Text :=
  ClassicRow.about collation (stripLower bdaddr) database.eirName ++
    ClassicRow.about collation (stripLower bdaddr) database.rspName ++
    (LeRow.about collation (stripLower bdaddr) database.leName).map LeRow.columns

/-- What `print_manufacturer_data` prints as "Raw Data". -/
def printedRawData : List Text :=
  (ClassicRow.about collation (stripLower bdaddr) database.eirMfSpecific).map
      MfSpecific.mfSpecificData ++
    (LeRow.about collation (stripLower bdaddr) database.leMfSpecific).map fun row =>
      row.columns.mfSpecificData

/-- A name that `print_device_names` prints matches. -/
def ReportsSearchedName (nameregex : Text) : Prop :=
  ∃ name ∈ printedNames collation database bdaddr, regexp.holds nameregex name = true

/-- Printed raw data matches. -/
def ReportsRawData (msdregex : Text) : Prop :=
  ∃ data ∈ printedRawData collation database bdaddr, regexp.holds msdregex data = true

/-- A searched section shows a company that matches, or the OUI of one finds the address. -/
def HasCompany (companyregex : Text) : Prop :=
  ReportsSearchedCompany companies collation database bdaddr (search companyregex) ∨
    ∃ row ∈ database.ieeeBdaddrToCompany, regexp.holds companyregex row.companyName = true ∧
      database.Returns collation row.deviceBdaddr bdaddr

/-- A positive option asks for the address; the UUID is the one that `--UUID128regex` spells. -/
def Asked (options : Options) (uuid : UuidDigits) : Prop :=
  options.bdaddr = some bdaddr ∨
    (options.bdaddrregex ≠ [] ∧ database.Returns collation options.bdaddrregex bdaddr) ∨
    (options.nameregex ≠ [] ∧
      ReportsSearchedName regexp collation database bdaddr options.nameregex) ∨
    (options.companyregex ≠ [] ∧
      HasCompany regexp search collation companies database bdaddr options.companyregex) ∨
    (options.msdregex ≠ [] ∧
      ReportsRawData regexp collation database bdaddr options.msdregex) ∨
    (options.uuid128regex ≠ [] ∧ ReportsUuid128 files collation database bdaddr uuid)

/-- A negative option excludes the address. -/
def Excluded (options : Options) : Prop :=
  (options.notcompanyregex ≠ [] ∧
      HasCompany regexp search collation companies database bdaddr options.notcompanyregex) ∨
    (options.notnameregex ≠ [] ∧
      ReportsSearchedName regexp collation database bdaddr options.notnameregex)

/-- Each row about the address has it in this spelling. -/
def SpelledOnce : Prop :=
  ∀ table, ∀ shown ∈ database.shown table,
    collation.same bdaddr shown.deviceBdaddr = true → shown.deviceBdaddr = bdaddr

end Asked

/-! ## One spelling -/

variable {collation : Collation} {database : Database} {bdaddr : Text}

/-- The list has no other spelling of the address. -/
def Once (collation : Collation) (bdaddr : Text) (bdaddrs : List Text) : Prop :=
  ∀ found ∈ bdaddrs, collation.same bdaddr found = true → found = bdaddr

theorem Once.mem_iff {bdaddrs : List Text} (once : Once collation bdaddr bdaddrs) :
    bdaddr ∈ bdaddrs ↔ Finds collation bdaddr bdaddrs := by
  constructor
  · exact fun member => ⟨bdaddr, member, collation.same_refl bdaddr⟩
  · intro ⟨found, member, same⟩
    rw [once found member same] at member
    exact member

theorem once_hashKeys {results : List (List Text)}
    (each : ∀ result ∈ results, Once collation bdaddr result) :
    Once collation bdaddr (hashKeys results).val := by
  intro found member
  obtain ⟨result, listed, inside⟩ := (mem_hashKeys results found).mp member
  exact each result listed found inside

/-- A query of a table finds no other spelling. -/
theorem SpelledOnce.selects (spelled : SpelledOnce collation database bdaddr) (table : Table)
    {Row Columns : Type} {shown : Row → Shown} {deviceBdaddr : Row → Text}
    {columns : Row → Columns} {wanted : Columns → Bool} {rows : List Row}
    (stores : database.shown table = rows.map shown)
    (names : ∀ row, (shown row).deviceBdaddr = deviceBdaddr row) :
    Once collation bdaddr (selectBdaddrs deviceBdaddr columns wanted rows) := by
  intro found member same
  obtain ⟨row, kept, rfl⟩ := List.mem_map.mp member
  rw [← names] at same ⊢
  apply spelled table _ _ same
  rw [stores]
  exact List.mem_map_of_mem (List.mem_of_mem_filter kept)

theorem mem_of_mem_distinct {texts : List Text} {text : Text}
    (member : text ∈ collation.distinct texts) : text ∈ texts := by
  induction texts with
  | nil => exact member
  | cons first rest inductionHypothesis =>
      rw [Collation.distinct, List.mem_cons] at member
      rcases member with rfl | later
      · exact List.mem_cons_self
      · exact List.mem_cons_of_mem _ (inductionHypothesis (List.mem_of_mem_filter later))

theorem SpelledOnce.ouiSearch (spelled : SpelledOnce collation database bdaddr) (start : Text) :
    Once collation bdaddr (database.ouiSearch collation start) := by
  intro found member
  obtain ⟨select, _, inside⟩ :=
    List.mem_flatMap.mp (List.mem_of_mem_filter (mem_of_mem_distinct member))
  obtain ⟨shown, kept, rfl⟩ := List.mem_map.mp inside
  exact spelled select.table shown (List.mem_of_mem_filter kept)

section Spelled

variable (regexp : Regexp) (search : Text → Text → Bool) (companies : CompanyFiles)

theorem SpelledOnce.nameSearch (spelled : SpelledOnce collation database bdaddr)
    (nameregex : Text) :
    Once collation bdaddr
      ((searches regexp database search collation companies).getBdaddrsByNameRegex
        nameregex).val := by
  apply once_hashKeys
  simp only [List.forall_mem_cons, List.not_mem_nil, false_implies, implies_true, and_true]
  exact ⟨spelled.selects .eirBdaddrToName rfl fun _ => rfl,
    spelled.selects .rspBdaddrToName rfl fun _ => rfl,
    spelled.selects .leBdaddrToName rfl fun _ => rfl⟩

theorem SpelledOnce.msdSearch (spelled : SpelledOnce collation database bdaddr)
    (msdregex : Text) :
    Once collation bdaddr (getBdaddrsByMsdRegex regexp database msdregex).val := by
  apply once_hashKeys
  simp only [List.forall_mem_cons, List.not_mem_nil, false_implies, implies_true, and_true]
  exact ⟨spelled.selects .eirBdaddrToMfSpecific rfl fun _ => rfl,
    spelled.selects .leBdaddrToMfSpecific rfl fun _ => rfl⟩

theorem SpelledOnce.companySearch (spelled : SpelledOnce collation database bdaddr)
    (companyregex : Text) :
    Once collation bdaddr
      (getBdaddrsByCompanyRegex regexp database search collation companies companyregex).val := by
  apply once_hashKeys
  intro result member
  simp only [List.mem_append, List.mem_flatMap, List.mem_map, btCidResults, uuid16Results,
    List.mem_cons, List.not_mem_nil, or_false] at member
  rcases member with (⟨key, _, rfl | rfl | rfl | rfl | rfl | rfl⟩ | ⟨key, _, rfl | rfl⟩) |
    ⟨start, _, rfl⟩
  · exact spelled.selects .btc2thLmpVersionRes rfl fun _ => rfl
  · exact spelled.selects .ble2thLlVersionInd rfl fun _ => rfl
  · exact spelled.selects .leBdaddrToMfSpecific rfl fun _ => rfl
  · exact spelled.selects .leBdaddrToMfSpecific rfl fun _ => rfl
  · exact spelled.selects .eirBdaddrToMfSpecific rfl fun _ => rfl
  · exact spelled.selects .eirBdaddrToMfSpecific rfl fun _ => rfl
  · exact spelled.selects .eirBdaddrToUuid16s rfl fun _ => rfl
  · exact spelled.selects .leBdaddrToUuid16s rfl fun _ => rfl
  · exact spelled.ouiSearch start

theorem SpelledOnce.gattSearch (spelled : SpelledOnce collation database bdaddr)
    (uuid128regex : Text) :
    ∀ result ∈ gattUuid128Results regexp database uuid128regex,
      Once collation bdaddr result := by
  simp only [gattUuid128Results, List.forall_mem_cons, List.not_mem_nil, false_implies,
    implies_true, and_true]
  exact ⟨spelled.selects .gattServices rfl fun _ => rfl,
    spelled.selects .gattCharacteristics rfl fun _ => rfl⟩

theorem SpelledOnce.uuid128Search (spelled : SpelledOnce collation database bdaddr)
    (uuid128regex : Text) :
    Once collation bdaddr (getBdaddrsByUuid128Regex regexp database uuid128regex).val := by
  apply once_hashKeys
  simp only [List.forall_mem_append, List.forall_mem_cons, List.not_mem_nil, false_implies,
    implies_true, and_true]
  refine ⟨⟨⟨spelled.selects .eirBdaddrToUuid128s rfl fun _ => rfl,
    spelled.selects .leBdaddrToUuid128s rfl fun _ => rfl,
    spelled.selects .leBdaddrToUuid128ServiceSolicit rfl fun _ => rfl⟩,
    spelled.gattSearch regexp uuid128regex⟩, ?_⟩
  split
  · exact spelled.gattSearch regexp (dashing uuid128regex)
  · simp

end Spelled

/-! ## The searches by name and by data -/

theorem finds_nameregex_iff (regexp : Regexp) (search : Text → Text → Bool)
    (companies : CompanyFiles) (nameregex : Text)
    (same : collation.same bdaddr (stripLower bdaddr) = true) :
    Finds collation bdaddr
        ((searches regexp database search collation companies).getBdaddrsByNameRegex
          nameregex).val ↔
      ReportsSearchedName regexp collation database bdaddr nameregex := by
  rw [searches]
  dsimp only
  rw [getBdaddrsByNameRegex, finds_hashKeys, ReportsSearchedName, printedNames,
    ← ClassicRow.about_congr same, ← ClassicRow.about_congr same, ← LeRow.about_congr same]
  simp only [List.mem_cons, List.not_mem_nil, or_false, exists_eq_left, finds_classicRows,
    finds_leRows, List.mem_append, List.mem_map, or_and_right, exists_or,
    exists_exists_and_eq_and, or_assoc]

theorem finds_msdregex_iff (regexp : Regexp) (msdregex : Text)
    (same : collation.same bdaddr (stripLower bdaddr) = true) :
    Finds collation bdaddr (getBdaddrsByMsdRegex regexp database msdregex).val ↔
      ReportsRawData regexp collation database bdaddr msdregex := by
  rw [getBdaddrsByMsdRegex, finds_hashKeys, ReportsRawData, printedRawData,
    ← ClassicRow.about_congr same, ← LeRow.about_congr same]
  simp only [List.mem_cons, List.not_mem_nil, or_false, exists_eq_left, finds_classicRows,
    finds_leRows, List.mem_append, List.mem_map, or_and_right, exists_or,
    exists_exists_and_eq_and]

/-! ## All searches of a call -/

theorem mem_found_iff {regex : Text} {search : Text → HashKeys} {shown : Prop}
    (decides : regex ≠ [] → (bdaddr ∈ (search regex).val ↔ shown)) :
    bdaddr ∈ found regex search ↔ regex ≠ [] ∧ shown := by
  unfold found
  split
  · next given => rw [decides given, and_iff_right given]
  · next absent => simp [absent]

/-- `main` lists an address exactly if a positive option asks for what the searched sections of
the report on it show and no negative option does. -/
theorem mem_mainBdaddrs_iff_asked (regexp : Regexp) (search : Text → Text → Bool)
    (collation : Collation) (companies : CompanyFiles) (files : NameFiles) (database : Database)
    (bdaddr : Text) (options : Options) (uuid : UuidDigits)
    (digits : options.uuid128regex ≠ [] →
      options.uuid128regex.map Char.toLower = uuid.digits)
    (same : collation.same bdaddr (stripLower bdaddr) = true)
    (spelled : SpelledOnce collation database bdaddr) (assigned : companies.Assigned)
    (numbers : StoresCompanies collation database bdaddr)
    (uuids : StoresUuid128s collation database bdaddr) :
    bdaddr ∈ mainBdaddrs options (searches regexp database search collation companies) ↔
      Asked regexp search collation companies files database bdaddr options uuid ∧
        ¬ Excluded regexp search collation companies database bdaddr options := by
  have byCompany (companyregex : Text) :=
    (spelled.companySearch regexp search companies companyregex).mem_iff.trans
      (finds_companyregex_iff regexp search companyregex same assigned numbers)
  have byName (nameregex : Text) :=
    (spelled.nameSearch regexp search companies nameregex).mem_iff.trans
      (finds_nameregex_iff regexp search companies nameregex same)
  have byOui : bdaddr ∈ (hashKeys [getBdaddrsByBdaddrRegex collation database
      options.bdaddrregex]).val ↔ database.Returns collation options.bdaddrregex bdaddr := by
    rw [mem_hashKeys]
    simp only [List.mem_singleton, exists_eq_left]
    exact (spelled.ouiSearch options.bdaddrregex).mem_iff
  have byData := (spelled.msdSearch regexp options.msdregex).mem_iff.trans
    (finds_msdregex_iff regexp options.msdregex same)
  have byUuid (given : options.uuid128regex ≠ []) :=
    (spelled.uuid128Search regexp options.uuid128regex).mem_iff.trans
      (finds_uuid128regex_iff regexp files (digits given) uuids)
  have excluded : Removed options (searches regexp database search collation companies) bdaddr ↔
      Excluded regexp search collation companies database bdaddr options :=
    or_congr (mem_found_iff fun _ => byCompany options.notcompanyregex)
      (mem_found_iff fun _ => byName options.notnameregex)
  rw [mainBdaddrs_eq, List.mem_filter, decide_eq_true_iff, excluded]
  apply and_congr_left
  intro _
  simp only [sources, List.mem_flatten, List.mem_cons, List.not_mem_nil, or_false,
    exists_eq_or_imp, exists_eq_left, Option.mem_toList]
  exact or_congr Iff.rfl
    (or_congr (mem_found_iff fun _ => byOui)
      (or_congr (mem_found_iff fun _ => byName options.nameregex)
        (or_congr (mem_found_iff fun _ => byCompany options.companyregex)
          (or_congr (mem_found_iff fun _ => byData) (mem_found_iff byUuid)))))

/-- Two devices of the same name; the second one has a company number. -/
def twoNamed : Database :=
  { Database.empty with
    leName := [⟨"4a:00:00:00:00:01".toList, 1, 0, "cafe".toList⟩,
      ⟨"4a:00:00:00:00:02".toList, 1, 0, "cafe".toList⟩]
    leMfSpecific := [⟨"4a:00:00:00:00:02".toList, 1, 0, ⟨0x4c, "1005".toList⟩⟩] }

/-- `--nameregex cafe --NOTcompanyregex Apple`. -/
def namedNotApple : Options :=
  { Options.none with nameregex := "cafe".toList, notcompanyregex := "Apple".toList }

theorem mem_mainBdaddrs_iff_asked_twoNamed :
    Asked .plain (fun pattern name => decide (pattern <:+: name)) .ignoringCase appleFiles
        ⟨[], [], [], []⟩ twoNamed "4a:00:00:00:00:01".toList namedNotApple sampleUuid ∧
      ¬ Excluded .plain (fun pattern name => decide (pattern <:+: name)) .ignoringCase appleFiles
        twoNamed "4a:00:00:00:00:01".toList namedNotApple :=
  (mem_mainBdaddrs_iff_asked _ _ _ _ _ _ _ _ _ (by simp [namedNotApple, Options.none]) (by decide)
    (by
      intro table shown member same
      cases table
      case leBdaddrToName =>
        rcases List.mem_cons.mp member with rfl | later
        · rfl
        · rw [List.mem_singleton.mp later] at same
          exact absurd same (by decide)
      case leBdaddrToMfSpecific =>
        rw [List.mem_singleton.mp member] at same
        exact absurd same (by decide)
      all_goals exact absurd member List.not_mem_nil)
    { companyIdentifiers := by simp [appleFiles]
      memberUuids := by simp [appleFiles] }
    { eirMfSpecific := by simp [twoNamed, Database.empty, ClassicRow.about]
      leMfSpecific := by
        intro row member
        rw [List.mem_singleton.mp (List.mem_of_mem_filter member)]
        exact ⟨0x4c, by decide, rfl⟩
      eirUuid16s := by simp [twoNamed, Database.empty, ClassicRow.about]
      leUuid16s := by simp [twoNamed, Database.empty, LeRow.about] }
    { eir := by simp [twoNamed, Database.empty, ClassicRow.about]
      le := by simp [twoNamed, Database.empty, LeRow.about]
      solicit := by simp [twoNamed, Database.empty, LeRow.about]
      services := by simp [gattResults, twoNamed, Database.empty, TypedRow.about]
      characteristics := by simp [gattResults, twoNamed, Database.empty, TypedRow.about]
      served := by simp [gattResults, twoNamed, Database.empty, TypedRow.about] }).mp (by decide)

end NaiveBTSniffing.Analysis.Search
