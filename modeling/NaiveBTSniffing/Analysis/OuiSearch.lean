import NaiveBTSniffing.Analysis.Database

/-!
Contract: the search for an address prefix over all tables, as
`get_bdaddrs_by_company_regex` and `get_bdaddrs_by_bdaddr_regex` send it.

Both queries are the same union of selects. Owns the list of selects, the
addresses that the query returns, and the exact condition under which these are
the addresses with the prefix that some row shows not to be random. Does not own
the lookups by company number and by UUID of the first function.
-/

namespace NaiveBTSniffing.Analysis

open NaiveBTSniffing.Library

/-! ## The query -/

/-- The union, in the order of the source. -/
def ouiSelects : List Select :=
  [⟨.leBdaddrToAppearance, some 0⟩, ⟨.leBdaddrToCod, some 0⟩,
    ⟨.leBdaddrToConnectInterval, some 0⟩, ⟨.leBdaddrToFlags, some 0⟩,
    ⟨.leBdaddrToMfSpecific, some 0⟩, ⟨.leBdaddrToName, some 0⟩,
    ⟨.leBdaddrToOtherLeBdaddr, some 0⟩, ⟨.leBdaddrToPublicTargetBdaddr, some 0⟩,
    ⟨.leBdaddrToTxPower, some 0⟩, ⟨.leBdaddrToUri, some 0⟩,
    ⟨.leBdaddrToUuid128ServiceSolicit, some 0⟩, ⟨.leBdaddrToUuid128s, some 0⟩,
    ⟨.leBdaddrToUuid16ServiceSolicit, some 0⟩, ⟨.leBdaddrToUuid16s, some 0⟩,
    ⟨.eirBdaddrToDevID, none⟩, ⟨.eirBdaddrToFlags, none⟩, ⟨.eirBdaddrToMfSpecific, none⟩,
    ⟨.eirBdaddrToName, none⟩, ⟨.eirBdaddrToPsrmCod, none⟩, ⟨.eirBdaddrToTxPower, none⟩,
    ⟨.eirBdaddrToUuid128s, none⟩, ⟨.eirBdaddrToUuid16s, none⟩, ⟨.eirBdaddrToUuid32s, none⟩,
    ⟨.ble2thLlFeatures, none⟩, ⟨.ble2thLlLengths, none⟩, ⟨.ble2thLlPhys, none⟩,
    ⟨.ble2thLlPingRsp, none⟩, ⟨.ble2thLlUnknownRsp, none⟩, ⟨.ble2thLlVersionInd, none⟩,
    ⟨.btc2thLmpFeaturesRes, none⟩, ⟨.btc2thLmpNameRes, none⟩, ⟨.btc2thLmpVersionRes, none⟩,
    ⟨.gattServices, none⟩]

/-- `oui_search_query`, `bdaddr_query`: the different addresses of the union that
start with the prefix. -/
def Database.ouiSearch (collation : Collation) (database : Database) (start : Text) : List Text :=
  collation.distinct ((ouiSelects.flatMap database.select).filter (collation.startsWith start))

/-- `get_bdaddrs_by_bdaddr_regex`; the dictionary of its results adds nothing to
`DISTINCT`. -/
def getBdaddrsByBdaddrRegex (collation : Collation) (database : Database) (regex : Text) :
    List Text :=
  database.ouiSearch collation regex

/-! ## What the query is for -/

variable {collation : Collation} {database : Database} {start bdaddr : Text}

/-- The row shows an address that is not random. -/
def Shown.NonRandom (shown : Shown) : Prop := shown.random = none ∨ shown.random = some 0

/-- Some table shows the address not to be random. -/
def Database.ShowsNonRandom (collation : Collation) (database : Database) (bdaddr : Text) : Prop :=
  ∃ table, database.Shows collation bdaddr table Shown.NonRandom

/-- The search returns the address. -/
def Database.Returns (collation : Collation) (database : Database) (start bdaddr : Text) : Prop :=
  ∃ found ∈ database.ouiSearch collation start, collation.same bdaddr found = true

/-- The tables that the union leaves out. -/
def unsearched : List Table :=
  [.leBdaddrToServiceData, .leBdaddrToUuid32s, .rspBdaddrToName, .gattDescriptors,
    .gattCharacteristics, .gattCharacteristicsValues]

/-- The tables that the union takes without looking at the kind of the address. -/
def unfiltered : List Table :=
  [.ble2thLlFeatures, .ble2thLlLengths, .ble2thLlPhys, .ble2thLlPingRsp, .ble2thLlUnknownRsp,
    .ble2thLlVersionInd, .gattServices]

/-- What the union keeps of a table. -/
theorem kept_iff {table : Table} {shown : Shown} (row : shown ∈ database.shown table) :
    (∃ select ∈ ouiSelects, select.table = table ∧ select.Keeps shown) ↔
      table ∉ unsearched ∧ (shown.NonRandom ∨ table ∈ unfiltered) := by
  have classic := random_eq_none_iff row
  cases table <;>
    simp_all [ouiSelects, unsearched, unfiltered, Select.Keeps, Shown.NonRandom, Table.family]

/-- The addresses that the search returns. -/
theorem returns_iff :
    database.Returns collation start bdaddr ↔
      collation.startsWith start bdaddr = true ∧ ∃ table, table ∉ unsearched ∧
        database.Shows collation bdaddr table
          fun shown => shown.NonRandom ∨ table ∈ unfiltered := by
  rw [Database.Returns, Database.ouiSearch, collation.exists_distinct_iff]
  constructor
  · intro ⟨found, member, same⟩
    obtain ⟨selected, starts⟩ := List.mem_filter.mp member
    obtain ⟨select, listed, inside⟩ := List.mem_flatMap.mp selected
    obtain ⟨shown, kept, rfl⟩ := List.mem_map.mp inside
    obtain ⟨row, keeps⟩ := List.mem_filter.mp kept
    obtain ⟨searched, shows⟩ := (kept_iff row).mp ⟨select, listed, rfl, of_decide_eq_true keeps⟩
    exact ⟨collation.startsWith_same (collation.same_symm same) starts,
      select.table, searched, shown, row, same, shows⟩
  · intro ⟨starts, table, searched, shown, row, same, shows⟩
    obtain ⟨select, listed, rfl, keeps⟩ := (kept_iff row).mpr ⟨searched, shows⟩
    refine ⟨shown.deviceBdaddr, List.mem_filter.mpr ⟨?_, ?_⟩, same⟩
    · apply List.mem_flatMap.mpr
      refine ⟨select, listed, List.mem_map.mpr ⟨shown, ?_, rfl⟩⟩
      exact List.mem_filter.mpr ⟨row, decide_eq_true keeps⟩
    · exact collation.startsWith_same same starts

/-! ## When the query does what it is for -/

/-- No address with the prefix is shown not to be random by unsearched tables
alone. -/
def Database.NoneOnlyUnsearched (collation : Collation) (database : Database) (start : Text) :
    Prop :=
  ∀ bdaddr, collation.startsWith start bdaddr = true →
    (∃ table ∈ unsearched, database.Shows collation bdaddr table Shown.NonRandom) →
    ∃ table, table ∉ unsearched ∧ database.Shows collation bdaddr table
      fun shown => shown.NonRandom ∨ table ∈ unfiltered

/-- No address with the prefix that a row of an unfiltered table marks as random is
without a row that shows it not to be random. -/
def Database.NoneOnlyRandom (collation : Collation) (database : Database) (start : Text) : Prop :=
  ∀ bdaddr, collation.startsWith start bdaddr = true →
    (∃ table ∈ unfiltered, database.Shows collation bdaddr table fun shown => ¬ shown.NonRandom) →
    database.ShowsNonRandom collation bdaddr

/-- The search returns exactly the addresses with the prefix that some table
shows not to be random, if and only if no such address is known from unsearched
tables alone and no address known only as random is in an unfiltered one. -/
theorem ouiSearch_exact_iff (collation : Collation) (database : Database) (start : Text) :
    (∀ bdaddr, database.Returns collation start bdaddr ↔
      collation.startsWith start bdaddr = true ∧ database.ShowsNonRandom collation bdaddr) ↔
    database.NoneOnlyUnsearched collation start ∧ database.NoneOnlyRandom collation start := by
  constructor
  · intro exactly
    constructor
    · intro bdaddr starts ⟨table, _, shows⟩
      exact (returns_iff.mp ((exactly bdaddr).mpr ⟨starts, table, shows⟩)).2
    · intro bdaddr starts ⟨table, listed, shown, row, same, _⟩
      have searched : table ∉ unsearched := by
        have apart : ∀ other ∈ unfiltered, other ∉ unsearched := by decide
        exact apart table listed
      have returned := returns_iff.mpr ⟨starts, table, searched, shown, row, same, .inr listed⟩
      exact ((exactly bdaddr).mp returned).2
  · intro ⟨noneMissed, noneForeign⟩ bdaddr
    rw [returns_iff]
    constructor
    · intro ⟨starts, table, searched, shown, row, same, shows⟩
      refine ⟨starts, ?_⟩
      by_cases nonRandom : shown.NonRandom
      · exact ⟨table, shown, row, same, nonRandom⟩
      · exact noneForeign bdaddr starts
          ⟨table, shows.resolve_left nonRandom, shown, row, same, nonRandom⟩
    · intro ⟨starts, table, shown, row, same, nonRandom⟩
      refine ⟨starts, ?_⟩
      by_cases listed : table ∈ unsearched
      · exact noneMissed bdaddr starts ⟨table, listed, shown, row, same, nonRandom⟩
      · exact ⟨table, listed, shown, row, same, .inl nonRandom⟩

private def resolvable : Text := "4a:00:00:00:00:01".toList

/-- A device with a random address that was asked for its version. -/
private def randomVersion : Database :=
  { Database.empty with ble2thLlVersionInd := [⟨1, resolvable, ⟨9, 76, 1⟩⟩] }

/-- The search returns an address that is known only as random. -/
theorem not_ouiSearch_exact : ¬ ∀ (collation : Collation) (database : Database)
    (start bdaddr : Text), database.Returns collation start bdaddr ↔
      collation.startsWith start bdaddr = true ∧ database.ShowsNonRandom collation bdaddr := by
  intro exactly
  have returned : randomVersion.Returns .ignoringCase "4a:00:00".toList resolvable :=
    ⟨resolvable, by decide, by decide⟩
  obtain ⟨table, shown, row, _, nonRandom⟩ :=
    ((exactly .ignoringCase randomVersion "4a:00:00".toList resolvable).mp returned).2
  cases table <;> simp [Database.shown, randomVersion, Database.empty, TypedRow.shown] at row
  subst row
  exact absurd nonRandom (by simp [Shown.NonRandom])

end NaiveBTSniffing.Analysis
