import Mathlib.Data.List.Dedup
import Mathlib.Data.Nat.Bitwise
import NaiveBTSniffing.Analysis.GattInfo
import NaiveBTSniffing.Analysis.GattInsert
import NaiveBTSniffing.Analysis.ImportRecords
import NaiveBTSniffing.Gatttool.CompleteLog

/-!
Contract: from the table that a device declares to what `TellMeEverything.py` prints.

The logs of the runs of `gatttool` are sorted, freed of repeated lines, imported and
inserted. None of these steps keeps the order, and the lines of other devices stand
between those of the device, so everything is said of sets of lines: the columns that are
found for the device are those of its table (`ShownAsDeclared`).

Does not own the runs themselves (`Gatttool.CompleteLog`).
-/

namespace NaiveBTSniffing.Analysis

open NaiveBTSniffing.Library
open NaiveBTSniffing.Gatttool

/-! ## The log that is imported -/

/-- `uniq`: a line that repeats the one before is dropped. -/
def uniq : List Text → List Text
  | [] => []
  | [line] => [line]
  | first :: second :: rest =>
      if first = second then uniq (second :: rest) else first :: uniq (second :: rest)

/-- `cat GATTprint*.log | sort | uniq`; the order of lines is that of the locale. -/
def sortUniq (ordered : Text → Text → Bool) (lines : List Text) : List Text :=
  uniq (lines.mergeSort ordered)

/-- `GATTprint_dedup.log`. -/
def dedupLog (ordered : Text → Text → Bool) (entries : List Entry) : Text :=
  (sortUniq ordered (entries.map Entry.text)).flatten

theorem mem_uniq (lines : List Text) (line : Text) : line ∈ uniq lines ↔ line ∈ lines := by
  fun_induction uniq lines with
  | case1 => rfl
  | case2 => rfl
  | case3 second rest inductionHypothesis =>
      rw [inductionHypothesis]
      simp
  | case4 first second rest different inductionHypothesis =>
      rw [List.mem_cons, inductionHypothesis, List.mem_cons (a := line) (b := first)]

theorem mem_sortUniq (ordered : Text → Text → Bool) (lines : List Text) (line : Text) :
    line ∈ sortUniq ordered lines ↔ line ∈ lines := by
  rw [sortUniq, mem_uniq, List.mem_mergeSort]

/-- The log is one of entries, with the same lines. -/
theorem exists_logOf_eq_dedupLog (ordered : Text → Text → Bool) (entries : List Entry) :
    ∃ kept : List Entry, logOf kept = dedupLog ordered entries ∧ (∀ entry ∈ kept, entry ∈ entries) ∧
      ∀ entry ∈ entries, ∃ other ∈ kept, other.text = entry.text := by
  have lines : ∀ lines : List Text, (∀ line ∈ lines, line ∈ entries.map Entry.text) →
      ∃ kept : List Entry, kept.map Entry.text = lines ∧ ∀ entry ∈ kept, entry ∈ entries := by
    intro lines
    induction lines with
    | nil => exact fun _ => ⟨[], rfl, by simp⟩
    | cons line lines inductionHypothesis =>
        intro all
        obtain ⟨kept, texts, inside⟩ :=
          inductionHypothesis fun other member => all other (List.mem_cons_of_mem line member)
        obtain ⟨entry, member, text⟩ := List.mem_map.mp (all line List.mem_cons_self)
        refine ⟨entry :: kept, by rw [List.map_cons, text, texts], ?_⟩
        intro other isKept
        rcases List.mem_cons.mp isKept with rfl | later
        · exact member
        · exact inside other later
  obtain ⟨kept, texts, inside⟩ := lines (sortUniq ordered (entries.map Entry.text))
    fun line member => (mem_sortUniq ordered _ line).mp member
  refine ⟨kept, ?_, inside, fun entry member => ?_⟩
  · rw [logOf, List.flatMap_def, texts, dedupLog]
  · have line : entry.text ∈ kept.map Entry.text := by
      rw [texts, mem_sortUniq]
      exact List.mem_map.mpr ⟨entry, member, rfl⟩
    obtain ⟨other, isKept, text⟩ := List.mem_map.mp line
    exact ⟨other, isKept, text⟩

/-- What a line means is in its text. -/
theorem meaning_of_text (query : Text → Option Nat) {first second : Entry}
    (same : first.text = second.text) :
    (entryMeaning query).about first = (entryMeaning query).about second ∧
      (entryMeaning query).content first = (entryMeaning query).content second := by
  have fields : first.fields = second.fields := by
    apply Option.some.inj
    rw [← rowOf_text, ← rowOf_text, same]
  have noted : (entryMeaning query).note .initial first =
      (entryMeaning query).note .initial second := by
    have one := importLine_fields query .initial first
    rw [fields, importLine_fields] at one
    exact (congrArg Prod.fst one).symm
  have rows := congrArg Importer.rows noted
  have rowsOf : ∀ entry : Entry, ((entryMeaning query).note .initial entry).rows =
      (entry.subject.map fun about =>
        ({ deviceBdaddrType := Entry.givenType query entry
           deviceBdaddr := about.1
           content := contentOf about.2 } : Row)).toList := by
    intro entry
    cases subject : entry.subject with
    | none => simp [Meaning.note, entryMeaning, subject, Importer.initial]
    | some about => simp [Meaning.note, entryMeaning, subject, Importer.initial, cachedType]
  rw [rowsOf, rowsOf] at rows
  cases subject : first.subject with
  | none =>
      cases other : second.subject with
      | none => simp [entryMeaning, subject, other]
      | some about => simp [subject, other] at rows
  | some about =>
      cases other : second.subject with
      | none => simp [subject, other] at rows
      | some others =>
          simp only [subject, other, Option.map_some, Option.toList_some, List.cons.injEq,
            Row.mk.injEq, and_true] at rows
          simp [entryMeaning, subject, other, rows]

/-! ## What the log tells about a device -/

/-- The lines about the address, in whatever way the server spells it, are these records of
the device. -/
structure Tells (collation : Collation) (entries : List Entry) (random : Bool) (dst : Bdaddr)
    (records : List Record) : Prop where
  own : ∀ entry ∈ entries, ∀ bdaddr record, entry.subject = some (bdaddr, record) →
    collation.same dst.text bdaddr = true →
      record ∈ records ∧ ∃ short, entry = .modified random dst record short
  all : ∀ record ∈ records, ∃ short, .modified random dst record short ∈ entries

/-- The row that the importer sends for a record of the device. -/
def deviceRow (random : Bool) (dst : Bdaddr) (record : Record) : Row where
  deviceBdaddrType := typeOf random
  deviceBdaddr := dst.text
  content := contentOf record

section Rows

variable {collation : Collation} {entries : List Entry} {random : Bool} {dst : Bdaddr}
  {records : List Record}

/-- The first line about the device gives it its type. -/
theorem Tells.firstGiven (query : Text → Option Nat)
    (tells : Tells collation entries random dst records) {kept : List Entry}
    (inside : ∀ entry ∈ kept, entry ∈ entries) {type : Nat}
    (first : (entryMeaning query).firstGiven kept dst.text = some type) : type = typeOf random := by
  obtain ⟨entry, found, rfl⟩ := Option.map_eq_some_iff.mp first
  have holds := List.find?_some found
  have about : entry.subject.map Prod.fst = some dst.text := of_decide_eq_true holds
  obtain ⟨⟨bdaddr, record⟩, subject, rfl⟩ := Option.map_eq_some_iff.mp about
  obtain ⟨-, short, rfl⟩ := tells.own entry (inside entry (List.mem_of_find?_eq_some found)) _ _
    subject (collation.same_refl _)
  rfl

/-- The rows about the device are those of its records, whatever the order of the lines. -/
theorem mem_rows_dedupLog (ordered : Text → Text → Bool) (query : Text → Option Nat)
    (tells : Tells collation entries random dst records) (row : Row) :
    row ∈ (importLog (answering query) (dedupLog ordered entries)).rows ∧
        collation.same dst.text row.deviceBdaddr = true ↔
      ∃ record ∈ records, row = deviceRow random dst record := by
  obtain ⟨kept, log, inside, covered⟩ := exists_logOf_eq_dedupLog ordered entries
  rw [← log, importLog_logOf, Meaning.mem_rows_noteAll]
  constructor
  · rintro ⟨⟨entry, isKept, about, content, first⟩, same⟩
    obtain ⟨⟨bdaddr, record⟩, subject, address⟩ := Option.map_eq_some_iff.mp about
    simp only at address
    rw [← address] at same first
    obtain ⟨member, short, rfl⟩ := tells.own entry (inside entry isKept) bdaddr record subject same
    obtain ⟨rfl, -⟩ := Prod.mk.inj (Option.some.inj subject)
    have type := tells.firstGiven query inside first
    have holds : contentOf record = row.content := Option.some.inj content
    refine ⟨record, member, ?_⟩
    rw [deviceRow, ← type, address, holds]
  · rintro ⟨record, member, rfl⟩
    obtain ⟨short, written⟩ := tells.all record member
    obtain ⟨other, isKept, text⟩ := covered _ written
    obtain ⟨about, content⟩ := meaning_of_text query text
    refine ⟨⟨other, isKept, about, content, ?_⟩, collation.same_refl _⟩
    have given := (entryMeaning query).firstGiven_isSome isKept about
    obtain ⟨type, first⟩ := Option.isSome_iff_exists.mp given
    have own := tells.firstGiven query inside first
    rw [own] at first
    exact first

/-- Each row of the importer is about an address. -/
theorem bdaddr_of_mem_rows (ordered : Text → Text → Bool) (query : Text → Option Nat)
    (entries : List Entry) {row : Row}
    (member : row ∈ (importLog (answering query) (dedupLog ordered entries)).rows) :
    ∃ bdaddr : Bdaddr, row.deviceBdaddr = bdaddr.text := by
  obtain ⟨kept, log, -, -⟩ := exists_logOf_eq_dedupLog ordered entries
  rw [← log, importLog_logOf, Meaning.mem_rows_noteAll] at member
  obtain ⟨entry, -, about, -, -⟩ := member
  cases entry with
  | modified random dst record short => exact ⟨dst, (Option.some.inj about).symm⟩
  | old dst record short => exact ⟨dst, (Option.some.inj about).symm⟩
  | launcher report bdaddr now => cases about

end Rows

/-! ## The columns of a declaration -/

theorem charColumn_eq_self {width : Nat} {text : Text} (fits : text.length ≤ width)
    (noBlank : ' ' ∉ text) : charColumn width text = text := by
  rw [charColumn, List.take_of_length_le fits, List.rdropWhile_eq_self_iff]
  intro some blank
  have last := List.getLast_mem some
  rw [beq_iff_eq.mp blank] at last
  exact noBlank last

theorem charColumn_bdaddr (bdaddr : Bdaddr) : charColumn 18 bdaddr.text = bdaddr.text := by
  apply charColumn_eq_self
  · rw [bdaddr.length_eq]
    omega
  · exact fun member => absurd (bdaddr.digits ' ' member) (by decide)

theorem charColumn_uuidText (uuid : Uuid) : charColumn 36 (uuidText uuid) = uuidText uuid := by
  have digits : ∀ width value, ' ' ∉ Text.hexPadded width value := fun width value member =>
    absurd (Text.isHexText_hexPadded width value ' ' member) (by decide)
  apply charColumn_eq_self
  · rw [length_uuidText]
  · simp [uuidText, digits]

theorem smallintUnsigned_handle (handle : UInt16) :
    smallintUnsigned handle.toNat = handle.toNat := by
  have bound := handle.toNat_lt
  rw [smallintUnsigned, Int.toNat_natCast]
  omega

theorem tinyintUnsigned_properties (properties : UInt8) :
    tinyintUnsigned properties.toNat = properties.toNat := by
  have bound := properties.toNat_lt
  rw [tinyintUnsigned, Int.toNat_natCast]
  omega

def serviceColumns (decl : ServiceDecl) : GattService where
  beginHandle := decl.start.toNat
  endHandle := decl.endHandle.toNat
  uuid128 := uuidText decl.uuid.toUuid128

def descriptorColumns (decl : AttributeDecl) : GattDescriptor where
  descriptorHandle := decl.handle.toNat
  uuid128 := uuidText decl.type.toUuid128

def characteristicColumns (decl : CharDecl) : GattCharacteristic where
  declarationHandle := decl.handle.toNat
  charProperties := decl.properties.toNat
  charValueHandle := decl.valueHandle.toNat
  charUuid128 := uuidText decl.uuid.toUuid128

def valueColumns (handle : UInt16) (value : List UInt8) : GattValue where
  readHandle := handle.toNat
  byteValues := value.map UInt8.toNat

/-- The values that a device gives for the handles that are read. -/
def valueRows (table : AttributeTable) (values : UInt16 → Option (List UInt8)) : List GattValue :=
  table.valueHandles.flatMap fun handle => (values handle).toList.map (valueColumns handle)

/-- A row of the device in one of the tables. -/
def deviceColumns {Columns : Type} (random : Bool) (dst : Bdaddr) (columns : Columns) :
    TypedRow Columns where
  deviceBdaddrType := typeOf random
  deviceBdaddr := dst.text
  columns

theorem gattService_contentOf (decl : ServiceDecl) :
    (contentOf decl.found.record).gattService = some (serviceColumns decl) := by
  simp only [ServiceDecl.found, Primary.record, contentOf, Content.gattService,
    smallintUnsigned_handle, charColumn_uuidText, serviceColumns]

theorem gattDescriptor_contentOf (decl : AttributeDecl) :
    (contentOf decl.found.record).gattDescriptor = some (descriptorColumns decl) := by
  simp only [AttributeDecl.found, Descriptor.record, contentOf, Content.gattDescriptor,
    smallintUnsigned_handle, charColumn_uuidText, descriptorColumns]

theorem gattCharacteristic_contentOf (decl : CharDecl) :
    (contentOf decl.found.record).gattCharacteristic = some (characteristicColumns decl) := by
  simp only [CharDecl.found, Characteristic.record, contentOf, Content.gattCharacteristic,
    smallintUnsigned_handle, tinyintUnsigned_properties, charColumn_uuidText,
    characteristicColumns]

theorem gattValue_contentOf (handle : UInt16) {value : List UInt8} (short : value.length ≤ 512) :
    (contentOf (.charValue handle value)).gattValue = some (valueColumns handle value) := by
  have whole : value.take 65535 = value := List.take_of_length_le (by omega)
  simp only [contentOf, Content.gattValue, smallintUnsigned_handle, blobColumn, whole,
    valueColumns]

/-! ## The tables of the device -/

theorem mem_lines (table : AttributeTable) (values : UInt16 → Option (List UInt8))
    (record : Record) :
    record ∈ table.lines values ↔
      (∃ decl ∈ table.services, decl.found.record = record) ∨
      (∃ decl ∈ table.characteristics, decl.found.record = record) ∨
      (∃ decl ∈ table.attributes, decl.found.record = record) ∨
      ∃ handle ∈ table.valueHandles, ∃ value, values handle = some value ∧
        .charValue handle value = record := by
  simp only [AttributeTable.lines, List.mem_append, List.mem_map, List.mem_flatMap, Option.mem_toList,
    or_assoc]

section Found

variable {collation : Collation} {entries : List Entry} {random : Bool} {dst : Bdaddr}
  {table : AttributeTable} {values : UInt16 → Option (List UInt8)}

/-- The rows about the device that reach one of the tables. -/
private theorem inserted_iff {Columns : Type} (ordered : Text → Text → Bool)
    (query : Text → Option Nat) {records : List Record}
    (tells : Tells collation entries random dst records)
    {columnsOf : Content → Option Columns} {wanted : List Columns}
    (made : ∀ own, (∃ record ∈ records, columnsOf (contentOf record) = some own) ↔ own ∈ wanted)
    (typed : TypedRow Columns) :
    typed ∈ (importLog (answering query) (dedupLog ordered entries)).rows.filterMap
          (Row.inserted columnsOf) ∧
        collation.same dst.text typed.deviceBdaddr = true ↔
      ∃ own ∈ wanted, deviceColumns random dst own = typed := by
  constructor
  · rintro ⟨member, same⟩
    obtain ⟨row, isRow, inserted⟩ := List.mem_filterMap.mp member
    obtain ⟨columns, content, rfl⟩ := Option.map_eq_some_iff.mp inserted
    obtain ⟨bdaddr, text⟩ := bdaddr_of_mem_rows ordered query entries isRow
    rw [text, charColumn_bdaddr, ← text] at same
    obtain ⟨record, inside, rfl⟩ := (mem_rows_dedupLog ordered query tells row).mp ⟨isRow, same⟩
    refine ⟨columns, (made columns).mp ⟨record, inside, content⟩, ?_⟩
    rw [deviceRow, charColumn_bdaddr]
    rfl
  · rintro ⟨columns, isWanted, rfl⟩
    obtain ⟨record, inside, content⟩ := (made columns).mpr isWanted
    obtain ⟨isRow, same⟩ := (mem_rows_dedupLog ordered query tells _).mpr ⟨record, inside, rfl⟩
    refine ⟨List.mem_filterMap.mpr ⟨_, isRow, ?_⟩, same⟩
    rw [Row.inserted, deviceRow, content, Option.map_some, charColumn_bdaddr]
    rfl

/-- A select by address finds the columns of one of the tables, if no two of them start with
the same handle. -/
private theorem about_of_handles {Columns : Type} {same : TypedRow Columns → TypedRow Columns → Bool}
    (ordered : Text → Text → Bool) (query : Text → Option Nat) {records : List Record}
    (tells : Tells collation entries random dst records) {table : List (TypedRow Columns)}
    {columnsOf : Content → Option Columns} {wanted : List Columns} (handle : Columns → Nat)
    (fresh : TypedRow.about collation dst.text table = [])
    (refl : ∀ row, same row row = true)
    (sound : ∀ first second, same first second = true → sameDevice collation first second = true)
    (keys : ∀ first second, same first second = true →
      handle first.columns = handle second.columns)
    (handles : (wanted.map handle).Nodup)
    (made : ∀ own, (∃ record ∈ records, columnsOf (contentOf record) = some own) ↔
      own ∈ wanted) :
    (TypedRow.about collation dst.text (insertAll same table
      ((importLog (answering query) (dedupLog ordered entries)).rows.filterMap
        (Row.inserted columnsOf)))).Perm wanted := by
  apply about_insertAll (deviceColumns random dst) refl sound fresh handles.of_map
  · exact fun _ => rfl
  · exact inserted_iff ordered query tells made
  · intro first isFirst second isSecond equal
    exact List.inj_on_of_nodup_map handles isFirst isSecond (keys _ _ equal)

variable (table) in
private theorem nodup_starts :
    ((table.services.map serviceColumns).map GattService.beginHandle).Nodup := by
  rw [List.map_map, List.Nodup, List.pairwise_map]
  apply List.Pairwise.imp_of_mem _ table.servicesApart
  intro earlier later member _ apart
  have rises : earlier.start.toNat ≤ earlier.endHandle.toNat :=
    (table.serviceHandles earlier member).2
  exact Nat.ne_of_lt (Nat.lt_of_le_of_lt rises apart)

variable (table) in
private theorem nodup_handles :
    ((table.attributes.map descriptorColumns).map GattDescriptor.descriptorHandle).Nodup := by
  rw [List.map_map, List.Nodup, List.pairwise_map]
  exact table.attributesApart.imp Nat.ne_of_lt

variable (table) in
private theorem nodup_declarations :
    ((table.characteristics.map characteristicColumns).map
      GattCharacteristic.declarationHandle).Nodup := by
  rw [List.map_map, List.Nodup, List.pairwise_map]
  exact table.charsApart.imp Nat.ne_of_lt

theorem services_found (ordered : Text → Text → Bool) (query : Text → Option Nat)
    {database : Database} (tells : Tells collation entries random dst (table.lines values))
    (fresh : TypedRow.about collation dst.text database.gattServices = []) :
    (TypedRow.about collation dst.text (database.importGatt collation
      (importLog (answering query) (dedupLog ordered entries)).rows).gattServices).Perm
        (table.services.map serviceColumns) := by
  rw [gattServices_importGatt]
  apply about_of_handles ordered query tells GattService.beginHandle fresh
  case refl => simp [serviceKey, sameDevice, collation.same_refl]
  case sound => simp +contextual [serviceKey]
  case keys => simp +contextual [serviceKey]
  case handles => exact nodup_starts table
  case made =>
    intro own
    constructor
    · rintro ⟨record, member, made⟩
      rcases (mem_lines table values record).mp member with ⟨decl, isDecl, rfl⟩ | ⟨_, -, rfl⟩ |
        ⟨_, -, rfl⟩ | ⟨_, -, _, -, rfl⟩
      · rw [gattService_contentOf] at made
        exact List.mem_map.mpr ⟨decl, isDecl, Option.some.inj made⟩
      · cases made
      · cases made
      · cases made
    · intro inside
      obtain ⟨decl, isDecl, rfl⟩ := List.mem_map.mp inside
      exact ⟨_, (mem_lines table values _).mpr (.inl ⟨decl, isDecl, rfl⟩),
        gattService_contentOf decl⟩

theorem descriptors_found (ordered : Text → Text → Bool) (query : Text → Option Nat)
    {database : Database} (tells : Tells collation entries random dst (table.lines values))
    (fresh : TypedRow.about collation dst.text database.gattDescriptors = []) :
    (TypedRow.about collation dst.text (database.importGatt collation
      (importLog (answering query) (dedupLog ordered entries)).rows).gattDescriptors).Perm
        (table.attributes.map descriptorColumns) := by
  rw [gattDescriptors_importGatt]
  apply about_of_handles ordered query tells GattDescriptor.descriptorHandle fresh
  case refl => simp [descriptorKey, sameDevice, collation.same_refl]
  case sound => simp +contextual [descriptorKey]
  case keys => simp +contextual [descriptorKey]
  case handles => exact nodup_handles table
  case made =>
    intro own
    constructor
    · rintro ⟨record, member, made⟩
      rcases (mem_lines table values record).mp member with ⟨_, -, rfl⟩ | ⟨_, -, rfl⟩ |
        ⟨decl, isDecl, rfl⟩ | ⟨_, -, _, -, rfl⟩
      · cases made
      · cases made
      · rw [gattDescriptor_contentOf] at made
        exact List.mem_map.mpr ⟨decl, isDecl, Option.some.inj made⟩
      · cases made
    · intro inside
      obtain ⟨decl, isDecl, rfl⟩ := List.mem_map.mp inside
      exact ⟨_, (mem_lines table values _).mpr (.inr (.inr (.inl ⟨decl, isDecl, rfl⟩))),
        gattDescriptor_contentOf decl⟩

theorem characteristics_found (ordered : Text → Text → Bool) (query : Text → Option Nat)
    {database : Database} (tells : Tells collation entries random dst (table.lines values))
    (fresh : TypedRow.about collation dst.text database.gattCharacteristics = []) :
    (TypedRow.about collation dst.text (database.importGatt collation
      (importLog (answering query) (dedupLog ordered entries)).rows).gattCharacteristics).Perm
        (table.characteristics.map characteristicColumns) := by
  rw [gattCharacteristics_importGatt]
  apply about_of_handles ordered query tells GattCharacteristic.declarationHandle fresh
  case refl => simp [characteristicKey, sameDevice, collation.same_refl]
  case sound => simp +contextual [characteristicKey]
  case keys => simp +contextual [characteristicKey]
  case handles => exact nodup_declarations table
  case made =>
    intro own
    constructor
    · rintro ⟨record, member, made⟩
      rcases (mem_lines table values record).mp member with ⟨_, -, rfl⟩ | ⟨decl, isDecl, rfl⟩ |
        ⟨_, -, rfl⟩ | ⟨_, -, _, -, rfl⟩
      · cases made
      · rw [gattCharacteristic_contentOf] at made
        exact List.mem_map.mpr ⟨decl, isDecl, Option.some.inj made⟩
      · cases made
      · cases made
    · intro inside
      obtain ⟨decl, isDecl, rfl⟩ := List.mem_map.mp inside
      exact ⟨_, (mem_lines table values _).mpr (.inr (.inl ⟨decl, isDecl, rfl⟩)),
        gattCharacteristic_contentOf decl⟩

/-- A handle may be read twice; its value is in the table once. -/
theorem values_found (ordered : Text → Text → Bool) (query : Text → Option Nat)
    {database : Database} (tells : Tells collation entries random dst (table.lines values))
    (fresh : TypedRow.about collation dst.text database.gattCharacteristicsValues = [])
    (short : ∀ handle ∈ table.valueHandles, ∀ value, values handle = some value →
      value.length ≤ 512) :
    (TypedRow.about collation dst.text (database.importGatt collation
      (importLog (answering query) (dedupLog ordered entries)).rows).gattCharacteristicsValues).Perm
        (valueRows table values).dedup := by
  have fits : ∀ own ∈ (valueRows table values).dedup, own.byteValues.take 1024 = own.byteValues := by
    intro own member
    obtain ⟨handle, isRead, inside⟩ := List.mem_flatMap.mp (List.mem_dedup.mp member)
    obtain ⟨value, given, rfl⟩ := List.mem_map.mp inside
    have bound := short handle isRead value (Option.mem_toList.mp given)
    apply List.take_of_length_le
    rw [valueColumns, List.length_map]
    omega
  rw [gattCharacteristicsValues_importGatt]
  apply about_insertAll (deviceColumns random dst)
  case refl => simp [valueKey, sameDevice, collation.same_refl]
  case sound => simp +contextual [valueKey]
  case before => exact fresh
  case nodup => exact List.nodup_dedup _
  case columns => exact fun _ => rfl
  case inserted =>
    apply inserted_iff ordered query tells
    intro own
    rw [List.mem_dedup]
    constructor
    · rintro ⟨record, member, made⟩
      rcases (mem_lines table values record).mp member with ⟨_, -, rfl⟩ | ⟨_, -, rfl⟩ |
        ⟨_, -, rfl⟩ | ⟨handle, isRead, value, given, rfl⟩
      · cases made
      · cases made
      · cases made
      · rw [gattValue_contentOf handle (short handle isRead value given)] at made
        apply List.mem_flatMap.mpr
        exact ⟨handle, isRead, List.mem_map.mpr
          ⟨value, Option.mem_toList.mpr given, Option.some.inj made⟩⟩
    · intro inside
      obtain ⟨handle, isRead, columns⟩ := List.mem_flatMap.mp inside
      obtain ⟨value, given, rfl⟩ := List.mem_map.mp columns
      have known := Option.mem_toList.mp given
      exact ⟨_, (mem_lines table values _).mpr (.inr (.inr (.inr
        ⟨handle, isRead, value, known, rfl⟩))),
        gattValue_contentOf handle (short handle isRead value known)⟩
  case keys =>
    intro first isFirst second isSecond equal
    simp only [valueKey, deviceColumns, fits first isFirst, fits second isSecond,
      Bool.and_eq_true] at equal
    cases first
    cases second
    simp only [GattValue.mk.injEq]
    exact ⟨of_decide_eq_true equal.1.2, of_decide_eq_true equal.2⟩

end Found

/-- What the queries find for an address is the table of a device. -/
structure ShownAsDeclared (results : GattResults) (table : AttributeTable)
    (values : UInt16 → Option (List UInt8)) : Prop where
  services : results.services.Perm (table.services.map serviceColumns)
  descriptors : results.descriptors.Perm (table.attributes.map descriptorColumns)
  characteristics : results.characteristics.Perm (table.characteristics.map characteristicColumns)
  values : results.characteristicsValues.Perm (valueRows table values).dedup

/-! ## Runs against the device -/

/-- The log has the lines of some runs against the device, of which one has come to the point
where nothing is left to ask, and none has lost its connection. Its other lines are about other
addresses. -/
structure Logs (collation : Collation) (server : Server) (random : Bool) (dst : Bdaddr)
    (runs : List State) (entries : List Entry) : Prop where
  reached : ∀ state ∈ runs, ∃ stray, server.LeadsTo stray state
  complete : ∃ state ∈ runs, state.queue = []
  written : ∀ state ∈ runs, ∀ record ∈ state.log,
    ∃ short, .modified random dst record short ∈ entries
  others : ∀ entry ∈ entries,
    (∃ state ∈ runs, ∃ record ∈ state.log, ∃ short, entry = .modified random dst record short) ∨
      ∀ bdaddr record, entry.subject = some (bdaddr, record) →
        collation.same dst.text bdaddr = false

/-- The address has no rows in the GATT tables yet. -/
def Database.GattFresh (collation : Collation) (database : Database) (bdaddr : Text) : Prop :=
  gattResults collation database bdaddr =
    { services := [], descriptors := [], characteristics := [], characteristicsValues := [] }

section Runs

variable {collation : Collation} {server : Server} {random : Bool} {dst : Bdaddr}
  {runs : List State} {entries : List Entry} {table : AttributeTable}
  {values : UInt16 → Option (List UInt8)}

theorem Logs.tells (logs : Logs collation server random dst runs entries)
    (provides : server.Provides table values) :
    Tells collation entries random dst (table.lines values) where
  own := by
    intro entry isEntry bdaddr record subject same
    rcases logs.others entry isEntry with ⟨state, isRun, other, member, short, rfl⟩ | foreign
    · obtain ⟨-, rfl⟩ := Prod.mk.inj (Option.some.inj subject)
      obtain ⟨stray, leads⟩ := logs.reached state isRun
      exact ⟨leads.mem_lines provides member, short, rfl⟩
    · rw [foreign bdaddr record subject] at same
      exact absurd same (by decide)
  all := by
    intro record member
    obtain ⟨state, isRun, idle⟩ := logs.complete
    obtain ⟨stray, leads⟩ := logs.reached state isRun
    exact logs.written state isRun record ((leads.perm_lines provides idle).mem_iff.mpr member)

theorem Logs.shown (logs : Logs collation server random dst runs entries)
    (provides : server.Provides table values) (ordered : Text → Text → Bool)
    (query : Text → Option Nat) {database : Database}
    (fresh : database.GattFresh collation dst.text) :
    ShownAsDeclared (gattResults collation (database.importGatt collation
      (importLog (answering query) (dedupLog ordered entries)).rows) dst.text) table values := by
  have tells := logs.tells provides
  constructor
  · exact services_found ordered query tells (congrArg GattResults.services fresh)
  · exact descriptors_found ordered query tells (congrArg GattResults.descriptors fresh)
  · exact characteristics_found ordered query tells (congrArg GattResults.characteristics fresh)
  · apply values_found ordered query tells (congrArg GattResults.characteristicsValues fresh)
    intro handle isRead value given
    have held := provides.values handle isRead
    rw [given] at held
    exact held.short

end Runs

/-! ## What is printed -/

/-- What is to be printed below a characteristic of the device. -/
def declaredValue (values : UInt16 → Option (List UInt8)) (decl : CharDecl) : ValueShown :=
  if decl.found.readable then
    match values decl.valueHandle with
    | some value => .readAs (value.map UInt8.toNat)
    | none => .notStored
  else .notReadable

/-- Both programs take the same bit of the properties. -/
theorem isCharacteristicReadable_eq (decl : CharDecl) :
    isCharacteristicReadable decl.properties.toNat = decl.found.readable := by
  have bit : decl.properties.toNat &&& 2 = (decl.properties.toNat.testBit 1).toNat * 2 :=
    Nat.and_two_pow decl.properties.toNat 1
  have masked : (decl.properties &&& 2).toNat = decl.properties.toNat &&& 2 :=
    UInt8.toNat_and decl.properties 2
  have equal : decl.properties &&& 2 = 2 ↔ decl.properties.toNat &&& 2 = 2 := by
    rw [← UInt8.toNat_inj, masked]
    rfl
  rw [isCharacteristicReadable, Characteristic.readable, decide_eq_decide]
  show _ ↔ decl.properties &&& 2 = 2
  rw [equal, bit]
  cases decl.properties.toNat.testBit 1 <;> decide

/-- At most one member of a list is counted if no two of them are. -/
private theorem countP_le_one {Member : Type} {counted : Member → Bool} {members : List Member}
    (apart : members.Pairwise fun first second => ¬ (counted first = true ∧ counted second = true)) :
    members.countP counted ≤ 1 := by
  induction apart with
  | nil => exact Nat.zero_le 1
  | @cons first rest others _ inductionHypothesis =>
      by_cases this : counted first = true
      · have none : rest.countP counted = 0 := by
          apply List.countP_eq_zero.mpr
          exact fun second member that => others second member ⟨this, that⟩
        rw [List.countP_cons_of_pos this, none]
      · rwa [List.countP_cons_of_neg this]

section Printed

variable {results : GattResults} {table : AttributeTable} {values : UInt16 → Option (List UInt8)}

/-- The value of a handle is found if there is one. -/
theorem ShownAsDeclared.mem_values (shown : ShownAsDeclared results table values)
    (row : GattValue) : row ∈ results.characteristicsValues ↔
      ∃ handle ∈ table.valueHandles, ∃ value, values handle = some value ∧
        valueColumns handle value = row := by
  rw [shown.values.mem_iff, List.mem_dedup, valueRows, List.mem_flatMap]
  simp only [List.mem_map, Option.mem_toList]

theorem ShownAsDeclared.valueShown_eq (shown : ShownAsDeclared results table values)
    {decl : CharDecl} (isDecl : decl ∈ table.characteristics) :
    valueShown results.characteristicsValues (characteristicColumns decl) =
      declaredValue values decl := by
  have readable := isCharacteristicReadable_eq decl
  unfold valueShown declaredValue
  rw [characteristicColumns, readable]
  by_cases isReadable : decl.found.readable = true
  · have isRead : decl.valueHandle ∈ table.valueHandles :=
      List.mem_map.mpr ⟨decl.found, List.mem_filter.mpr
        ⟨List.mem_map.mpr ⟨decl, isDecl, rfl⟩, isReadable⟩, rfl⟩
    rw [if_pos isReadable, if_pos isReadable]
    rcases lookup_charByteValsDict results.characteristicsValues decl.valueHandle.toNat with
      ⟨byteValues, found, stored⟩ | ⟨missing, others⟩
    · obtain ⟨handle, -, value, given, columns⟩ := (shown.mem_values _).mp stored
      obtain ⟨sameHandle, rfl⟩ := GattValue.mk.inj columns
      obtain rfl := UInt16.toNat_inj.mp sameHandle
      rw [found, given]
    · rw [missing]
      cases given : values decl.valueHandle with
      | none => rfl
      | some value =>
          have stored := (shown.mem_values (valueColumns decl.valueHandle value)).mpr
            ⟨decl.valueHandle, isRead, value, given, rfl⟩
          exact absurd rfl (others _ stored)
  · rw [if_neg isReadable, if_neg isReadable]

/-- The range of one service has the handle. -/
theorem countP_contains (table : AttributeTable) {handle : UInt16}
    (inside : ∃ service ∈ table.services, service.start ≤ handle ∧ handle ≤ service.endHandle) :
    (table.services.map serviceColumns).countP (fun service => service.contains handle.toNat) =
      1 := by
  obtain ⟨service, isService, first, last⟩ := inside
  have some : 0 < (table.services.map serviceColumns).countP
      fun service => service.contains handle.toNat := by
    apply List.countP_pos_iff.mpr
    refine ⟨_, List.mem_map.mpr ⟨service, isService, rfl⟩, ?_⟩
    exact Bool.and_eq_true_iff.mpr ⟨decide_eq_true last, decide_eq_true first⟩
  have one : (table.services.map serviceColumns).countP
      (fun service => service.contains handle.toNat) ≤ 1 := by
    apply countP_le_one
    rw [List.pairwise_map]
    apply table.servicesApart.imp
    intro earlier later apart ⟨early, late⟩
    have before : handle.toNat ≤ earlier.endHandle.toNat :=
      of_decide_eq_true (Bool.and_eq_true_iff.mp early).1
    have behind : later.start.toNat ≤ handle.toNat :=
      of_decide_eq_true (Bool.and_eq_true_iff.mp late).2
    have between : earlier.endHandle.toNat < later.start.toNat := apart
    omega
  omega

/-- One attribute has the handle. -/
theorem countP_descriptorHandle (table : AttributeTable) {handle : UInt16}
    (listed : ∃ declared ∈ table.attributes, declared.handle = handle) :
    (table.attributes.map descriptorColumns).countP
      (fun descriptor => decide (descriptor.descriptorHandle = handle.toNat)) = 1 := by
  obtain ⟨declared, isDeclared, rfl⟩ := listed
  have some : 0 < (table.attributes.map descriptorColumns).countP
      fun descriptor => decide (descriptor.descriptorHandle = declared.handle.toNat) :=
    List.countP_pos_iff.mpr
      ⟨_, List.mem_map.mpr ⟨declared, isDeclared, rfl⟩, decide_eq_true rfl⟩
  have one : (table.attributes.map descriptorColumns).countP
      (fun descriptor => decide (descriptor.descriptorHandle = declared.handle.toNat)) ≤ 1 := by
    apply countP_le_one
    rw [List.pairwise_map]
    apply table.attributesApart.imp
    intro earlier later apart ⟨early, late⟩
    have first : earlier.handle.toNat = declared.handle.toNat := of_decide_eq_true early
    have second : later.handle.toNat = declared.handle.toNat := of_decide_eq_true late
    have less : earlier.handle.toNat < later.handle.toNat := apart
    omega
  omega

end Printed

/-- The queries of the report find the table of the device, each row once, whatever the order
of the lines and however often the device was run against. -/
theorem shown_of_runs (collation : Collation) (server : Server) (random : Bool) (dst : Bdaddr)
    (runs : List State) (entries : List Entry) (table : AttributeTable)
    (values : UInt16 → Option (List UInt8)) (ordered : Text → Text → Bool)
    (query : Text → Option Nat) (database : Database)
    (provides : server.Provides table values)
    (logs : Logs collation server random dst runs entries)
    (fresh : database.GattFresh collation dst.text) :
    ShownAsDeclared (gattResults collation (database.importGatt collation
      (importLog (answering query) (dedupLog ordered entries)).rows) dst.text) table values :=
  logs.shown provides ordered query fresh

/-- A run against the device that tells its name, up to its end. -/
def nameRun : State := (nameTable.server nameValue).run zeroStray 9

theorem fits_nameRun : ∀ record ∈ nameRun.log, fits record := by decide

/-- An earlier run, which still waits for its last answers. -/
def unfinishedRun : State := (nameTable.server nameValue).run zeroStray 7

theorem fits_unfinishedRun : ∀ record ∈ unfinishedRun.log, fits record := by decide

def otherBdaddr : Bdaddr where
  text := "aa:bb:cc:dd:ee:00".toList
  length_eq := by decide
  digits := by simp

/-- The lines of both runs, each time behind the report of the launcher, and between them a
line about another device. -/
def nameEntries : List Entry :=
  let attempt : Entry :=
    .launcher .attempt sampleBdaddr { text := [], length_le := by decide, digits := by simp }
  let lines (run : State) (short : ∀ record ∈ run.log, fits record) : List Entry :=
    run.log.pmap (fun record short => .modified false sampleBdaddr record short) short
  attempt :: (lines unfinishedRun fits_unfinishedRun ++
    .modified true otherBdaddr (.charValue 3 [0x41]) (by decide) :: attempt ::
      lines nameRun fits_nameRun)

theorem logs_nameEntries : Logs .ignoringCase (nameTable.server nameValue) false sampleBdaddr
    [unfinishedRun, nameRun] nameEntries where
  reached := by
    intro state isRun
    rcases List.mem_pair.mp isRun with rfl | rfl
    · exact ⟨zeroStray, Server.leadsTo_run zeroStray _ 7⟩
    · exact ⟨zeroStray, Server.leadsTo_run zeroStray _ 9⟩
  complete := ⟨nameRun, by simp, by decide⟩
  written := by
    intro state isRun record member
    rcases List.mem_pair.mp isRun with rfl | rfl
    · refine ⟨fits_unfinishedRun record member, ?_⟩
      simp [nameEntries, List.mem_pmap, member]
    · refine ⟨fits_nameRun record member, ?_⟩
      simp [nameEntries, List.mem_pmap, member]
  others := by
    intro entry isEntry
    simp only [nameEntries, List.mem_cons, List.mem_append, List.mem_pmap] at isEntry
    rcases isEntry with rfl | ⟨record, member, rfl⟩ | rfl | rfl | ⟨record, member, rfl⟩
    · exact .inr fun _ _ subject => by cases subject
    · exact .inl ⟨unfinishedRun, by simp, record, member, fits_unfinishedRun record member, rfl⟩
    · refine .inr fun _ _ subject => ?_
      cases subject
      decide
    · exact .inr fun _ _ subject => by cases subject
    · exact .inl ⟨nameRun, by simp, record, member, fits_nameRun record member, rfl⟩

/-- A database that knows a service of another device. -/
def otherService : Database :=
  { Database.empty with
    gattServices := [⟨1, otherBdaddr.text, ⟨1, 5, uuidText (BtUuid.uuid16 0x1800).toUuid128⟩⟩] }

theorem gattFresh_otherService : otherService.GattFresh .ignoringCase sampleBdaddr.text := rfl

theorem shown_of_runs_nameEntries :
    ShownAsDeclared (gattResults .ignoringCase (otherService.importGatt .ignoringCase
      (importLog (answering fun _ => none) (dedupLog (fun _ _ => true) nameEntries)).rows)
        sampleBdaddr.text) nameTable nameValue :=
  shown_of_runs .ignoringCase _ false sampleBdaddr [unfinishedRun, nameRun] nameEntries nameTable
    nameValue (fun _ _ => true) (fun _ => none) otherService provides_nameTable logs_nameEntries
    gattFresh_otherService

/-- The report prints a characteristic of the device once, with the value that the device gave
for it, if its value is an attribute in the range of a service. -/
theorem printed_of_runs (collation : Collation) (server : Server) (random : Bool) (dst : Bdaddr)
    (runs : List State) (entries : List Entry) (table : AttributeTable)
    (values : UInt16 → Option (List UInt8)) (ordered : Text → Text → Bool)
    (query : Text → Option Nat) (database : Database)
    (provides : server.Provides table values)
    (logs : Logs collation server random dst runs entries)
    (fresh : database.GattFresh collation dst.text) (decl : CharDecl)
    (isDecl : decl ∈ table.characteristics)
    (listed : ∃ declared ∈ table.attributes, declared.handle = decl.valueHandle)
    (inside : ∃ service ∈ table.services,
      service.start ≤ decl.valueHandle ∧ decl.valueHandle ≤ service.endHandle) :
    let results := gattResults collation (database.importGatt collation
      (importLog (answering query) (dedupLog ordered entries)).rows) dst.text
    (semanticSection results).countP (GattEntry.prints (characteristicColumns decl)) = 1 ∧
      ∀ value, .characteristic (characteristicColumns decl) value ∈ semanticSection results →
        value = declaredValue values decl := by
  have shown := logs.shown provides ordered query fresh
  intro results
  constructor
  · have once : results.characteristics.count (characteristicColumns decl) = 1 := by
      rw [shown.characteristics.count_eq]
      apply List.count_eq_one_of_mem
      · exact (nodup_declarations table).of_map
      · exact List.mem_map.mpr ⟨decl, isDecl, rfl⟩
    rw [countP_semanticSection, once, shown.descriptors.countP_eq, shown.services.countP_eq]
    have attributes := countP_descriptorHandle table listed
    have services := countP_contains table inside
    rw [characteristicColumns]
    simp only [attributes, services]
  · intro value printed
    rw [mem_semanticSection printed, shown.valueShown_eq isDecl]

theorem printed_of_runs_nameEntries :
    let decl : CharDecl :=
      { handle := 2, properties := 2, valueHandle := 3, uuid := .uuid16 0x2a00 }
    let results := gattResults .ignoringCase (otherService.importGatt .ignoringCase
      (importLog (answering fun _ => none) (dedupLog (fun _ _ => true) nameEntries)).rows)
        sampleBdaddr.text
    (semanticSection results).countP (GattEntry.prints (characteristicColumns decl)) = 1 ∧
      ∀ value, .characteristic (characteristicColumns decl) value ∈ semanticSection results →
        value = declaredValue nameValue decl :=
  printed_of_runs .ignoringCase _ false sampleBdaddr [unfinishedRun, nameRun] nameEntries nameTable
    nameValue (fun _ _ => true) (fun _ => none) otherService provides_nameTable logs_nameEntries
    gattFresh_otherService _ (by decide) (by decide) (by decide)

end NaiveBTSniffing.Analysis
