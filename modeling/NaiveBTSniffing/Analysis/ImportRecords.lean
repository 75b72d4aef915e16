import NaiveBTSniffing.Analysis.TypeCache
import NaiveBTSniffing.Gatttool.Record
import NaiveBTSniffing.Launcher.State

/-!
Contract: the importer on the logs that `gatttool` and the launcher write.

An `Entry` is a line of such a log; its parts carry the alphabet they are written
in. Owns the rows that the importer stores for a log of entries
(`importEntries`), and the logs whose records all keep their type.
-/

namespace NaiveBTSniffing.Analysis

open NaiveBTSniffing.Library
open NaiveBTSniffing.Library.Text
open NaiveBTSniffing.Gatttool
open NaiveBTSniffing.Launcher (LogLine)

/-! ## Logs -/

/-- A Bluetooth device address as it is printed. -/
structure Bdaddr where
  text : Text
  length_eq : text.length = 17
  digits : ∀ char ∈ text, char ∈ "0123456789abcdefABCDEF:".toList

/-- A point in time as `datetime` prints it. -/
structure Now where
  text : Text
  length_le : text.length ≤ 26
  digits : ∀ char ∈ text, char ∈ "0123456789-:. ".toList

/-- A value has at most as many bytes as the 16 bits of `plen` count. -/
def fits : Record → Prop
  | .charValue _ value => value.length < 2 ^ 16
  | _ => True

instance : (record : Record) → Decidable (fits record)
  | .charValue _ value => inferInstanceAs (Decidable (value.length < 2 ^ 16))
  | .service .. => .isTrue trivial
  | .characteristic .. => .isTrue trivial
  | .descriptor .. => .isTrue trivial

/-- What the launcher reports about an attempt. -/
inductive Report where
  | attempt
  | success
  | failure (retCode : Int) (word : retCode.natAbs < 2 ^ 32)
  | failureTimeout

def Report.logLine (bdaddr : Text) : Report → LogLine
  | .attempt => .attempt bdaddr
  | .success => .success bdaddr
  | .failure retCode _ => .failure retCode bdaddr
  | .failureTimeout => .failureTimeout bdaddr

/-- A line of the log. -/
inductive Entry where
  /-- A record of the modified `gatttool`, for a random or a public address. -/
  | modified (random : Bool) (dst : Bdaddr) (record : Record) (short : fits record)
  /-- A record in the old format, without the type. -/
  | old (dst : Bdaddr) (record : Record) (short : fits record)
  | launcher (report : Report) (bdaddr : Bdaddr) (now : Now)

/-- The word for the type. -/
def typeWord (random : Bool) : Text :=
  if random then "random".toList else "public".toList

/-- The value that the database has for the type. -/
def typeOf (random : Bool) : Nat := if random then 1 else 0

namespace Entry

def text : Entry → Text
  | .modified random dst record _ => record.line (typeWord random) dst.text
  | .old dst record _ => Csv.quotedRow (record.kind :: dst.text :: record.details)
  | .launcher report bdaddr now => (report.logLine bdaddr.text).text .gattprint now.text ++ ['\n']

/-- The fields of the line. -/
def fields : Entry → List Text
  | .modified random dst record _ => record.kind :: typeWord random :: dst.text :: record.details
  | .old dst record _ => record.kind :: dst.text :: record.details
  | .launcher report bdaddr now => [(report.logLine bdaddr.text).text .gattprint now.text]

/-- The address that the importer looks up, and what the record holds. -/
def subject : Entry → Option (Text × Record)
  | .modified _ dst record _ => some (dst.text, record)
  | .old dst record _ => some (dst.text, record)
  | .launcher .. => none

/-- The type that the line gives an address that is not cached. -/
def givenType (query : Text → Option Nat) : Entry → Nat
  | .modified random .. => typeOf random
  | .old dst .. => (query dst.text).getD 9
  | .launcher .. => 9

/-- The line is about the address. -/
def mentions (bdaddr : Text) (entry : Entry) : Bool :=
  decide (entry.subject.map Prod.fst = some bdaddr)

end Entry

/-- The log file. -/
def logOf (entries : List Entry) : Text := entries.flatMap Entry.text

/-- What a record says, as the tables hold it. -/
def contentOf : Record → Content
  | .service start endHandle uuid => .service start.toNat endHandle.toNat (uuidText uuid)
  | .characteristic handle properties valueHandle uuid =>
      .characteristic handle.toNat properties.toNat valueHandle.toNat (uuidText uuid)
  | .descriptor handle uuid => .descriptor handle.toNat (uuidText uuid)
  | .charValue handle value => .charValue handle.toNat value

/-- A server that answers every lookup: the lines of an old-format record only ask it
about an address of hexadecimal digits and colons. -/
def answering (query : Text → Option Nat) : Query := fun bdaddr => some (query bdaddr)

/-- The type that the first line about an address gives it. -/
def firstType (query : Text → Option Nat) (entries : List Entry) (bdaddr : Text) :
    Option Nat :=
  (entries.find? fun entry => entry.mentions bdaddr).map (Entry.givenType query)

/-- For each record of the modified `gatttool` exactly the one row that it
describes is inserted, and stays. -/
def StoresRecords (query : Text → Option Nat) (entries : List Entry) : Prop :=
  ∀ before random dst record short after,
    entries = before ++ .modified random dst record short :: after →
      ∃ later,
        (importLog (answering query) (logOf (before ++ [.modified random dst record short]))).rows =
          (importLog (answering query) (logOf before)).rows ++
            [{ deviceBdaddrType := typeOf random
               deviceBdaddr := dst.text
               content := contentOf record }] ∧
        (importLog (answering query) (logOf entries)).rows =
          (importLog (answering query)
            (logOf (before ++ [.modified random dst record short]))).rows ++ later

/-- No earlier line about the address of a record gave the address another type
than the record has. -/
def TypesAgree (query : Text → Option Nat) (entries : List Entry) : Prop :=
  ∀ before random dst record short after,
    entries = before ++ .modified random dst record short :: after →
      ∀ type, firstType query before dst.text = some type → type = typeOf random

/-! ## The characters of an entry -/

/-- No character that the reader of rows or of lines treats specially. -/
def Clean (text : Text) : Prop := ∀ char ∈ text, char ∉ "\",\n\r".toList

instance (text : Text) : Decidable (Clean text) :=
  List.decidableBAll _ text

theorem Clean.append {first rest : Text} (cleanFirst : Clean first) (cleanRest : Clean rest) :
    Clean (first ++ rest) := by
  intro char member
  rcases List.mem_append.mp member with inside | inside
  · exact cleanFirst char inside
  · exact cleanRest char inside

theorem clean_of_alphabet {text alphabet : Text} (within : ∀ char ∈ text, char ∈ alphabet)
    (clean : Clean alphabet) : Clean text :=
  fun char member => clean char (within char member)

theorem clean_hexPadded (width value : Nat) : Clean (hexPadded width value) :=
  clean_of_alphabet (isHexText_hexPadded width value) (by decide)

theorem Clean.cons {char : Char} {rest : Text} (clean : char ∉ "\",\n\r".toList)
    (cleanRest : Clean rest) : Clean (char :: rest) := by
  intro other member
  rcases List.mem_cons.mp member with rfl | inside
  · exact clean
  · exact cleanRest other inside

theorem Clean.not_mem {text : Text} (clean : Clean text) {char : Char}
    (special : char ∈ "\",\n\r".toList) : char ∉ text :=
  fun member => clean char member special

theorem Clean.plain {text : Text} (clean : Clean text) : Csv.Plain text := by
  intro char member
  have ordinary := clean char member
  refine ⟨?_, ?_, ?_⟩ <;>
    · rintro rfl
      exact ordinary (by decide)

theorem Bdaddr.clean (bdaddr : Bdaddr) : Clean bdaddr.text :=
  clean_of_alphabet bdaddr.digits (by decide)

theorem clean_handleText (handle : UInt16) : Clean (handleText handle) :=
  .append (by decide) (clean_hexPadded 4 _)

theorem clean_uuidText (uuid : Uuid) : Clean (uuidText uuid) := by
  unfold uuidText
  simp only
  refine .append (.append (.append (.append (.append ?_ (.cons (by decide) ?_))
    (.cons (by decide) ?_)) (.cons (by decide) ?_)) (.cons (by decide) ?_)) ?_
  all_goals exact clean_hexPadded _ _

theorem clean_details (record : Record) : ∀ field ∈ record.details, Clean field := by
  cases record with
  | service start endHandle uuid =>
      simp only [Record.details, List.forall_mem_cons]
      exact ⟨clean_handleText start, clean_handleText endHandle, clean_uuidText uuid, by simp⟩
  | characteristic handle properties valueHandle uuid =>
      simp only [Record.details, List.forall_mem_cons]
      exact ⟨clean_handleText handle,
        .append (by decide) (clean_hexPadded 2 _),
        clean_handleText valueHandle, clean_uuidText uuid, by simp⟩
  | descriptor handle uuid =>
      simp only [Record.details, List.forall_mem_cons]
      exact ⟨clean_handleText handle, clean_uuidText uuid, by simp⟩
  | charValue handle value =>
      simp only [Record.details, List.forall_mem_cons]
      refine ⟨clean_handleText handle, fun char member => ?_, by simp⟩
      obtain ⟨byte, _, inside⟩ := List.mem_flatMap.mp member
      exact clean_hexPadded 2 byte.toNat char inside

theorem clean_kind (record : Record) : Clean record.kind := by
  cases record with
  | service => exact (by decide : Clean "GATTPRINT:SERVICE".toList)
  | characteristic => exact (by decide : Clean "GATTPRINT:CHARACTERISTIC".toList)
  | descriptor => exact (by decide : Clean "GATTPRINT:DESCRIPTORS".toList)
  | charValue => exact (by decide : Clean "GATTPRINT:CHAR_VALUE".toList)

theorem clean_typeWord (random : Bool) : Clean (typeWord random) := by
  cases random <;> decide

theorem clean_hex02 (value : Int) : Clean (Launcher.hex02 value) := by
  have digits : Clean (Nat.toDigits 16 value.natAbs) :=
    clean_of_alphabet (isHexText_toDigits _) (by decide)
  unfold Launcher.hex02
  simp only
  split
  · exact .cons (by decide) digits
  · split
    · exact .cons (by decide) digits
    · exact digits

theorem clean_report (report : Report) (bdaddr : Bdaddr) (now : Now) :
    Clean ((report.logLine bdaddr.text).text .gattprint now.text) := by
  have time : Clean (' ' :: now.text) :=
    .cons (by decide) (clean_of_alphabet now.digits (by decide))
  cases report with
  | attempt => exact .append (.append (by decide) bdaddr.clean) time
  | success =>
      exact .append (.append (.append (by decide) (by decide)) bdaddr.clean)
        time
  | failure retCode _ =>
      exact .append (.append (.append (.append (.append (by decide) (by decide))
        (clean_hex02 retCode)) (by decide)) bdaddr.clean) time
  | failureTimeout =>
      exact .append (.append (.append (by decide) (by decide)) bdaddr.clean)
        time

theorem clean_fields (entry : Entry) : ∀ field ∈ entry.fields, Clean field := by
  cases entry with
  | modified random dst record short =>
      simp only [Entry.fields, List.forall_mem_cons]
      exact ⟨clean_kind record, clean_typeWord random, dst.clean, clean_details record⟩
  | old dst record short =>
      simp only [Entry.fields, List.forall_mem_cons]
      exact ⟨clean_kind record, dst.clean, clean_details record⟩
  | launcher report bdaddr now =>
      simp only [Entry.fields, List.forall_mem_cons]
      exact ⟨clean_report report bdaddr now, by simp⟩

/-! ## Reading an entry -/

theorem rowOf_text (entry : Entry) : Csv.rowOf .fresh entry.text = some entry.fields := by
  have noQuote : ∀ field ∈ entry.fields, '"' ∉ field := fun field member =>
    (clean_fields entry field member).not_mem (by decide)
  cases entry with
  | modified random dst record short =>
      exact Csv.rowOf_quotedRow (List.cons_ne_nil _ _) noQuote
  | old dst record short =>
      exact Csv.rowOf_quotedRow (List.cons_ne_nil _ _) noQuote
  | launcher report bdaddr now =>
      refine Csv.rowOf_plain ?_ (clean_report report bdaddr now).plain
      cases report <;> exact List.append_ne_nil_of_right_ne_nil _ (List.cons_ne_nil _ _)

private theorem return_not_mem_quotedRow {fields : List Text}
    (clean : ∀ field ∈ fields, Clean field) : '\r' ∉ Csv.quotedRow fields := by
  intro member
  rcases Csv.mem_quotedRow member with special | ⟨field, isField, inside⟩
  · exact absurd special (by decide)
  · exact (clean field isField).not_mem (by decide) inside

theorem return_not_mem_text (entry : Entry) : '\r' ∉ entry.text := by
  have clean := clean_fields entry
  cases entry with
  | modified random dst record short => exact return_not_mem_quotedRow clean
  | old dst record short => exact return_not_mem_quotedRow clean
  | launcher report bdaddr now =>
      simpa [Entry.text] using (clean_report report bdaddr now).not_mem (by decide)

/-- The reader gives the fields of the entries, one line for each. -/
theorem logLines_logOf (entries : List Entry) :
    logLines (logOf entries) = entries.map Entry.fields := by
  have noReturn : '\r' ∉ logOf entries := by
    intro member
    obtain ⟨entry, _, inside⟩ := List.mem_flatMap.mp member
    exact return_not_mem_text entry inside
  have whole : ∀ piece ∈ entries.map fun entry => (entry.text, entry.fields),
      Csv.rowOf .fresh piece.1 = some piece.2 := by
    intro piece member
    obtain ⟨entry, _, rfl⟩ := List.mem_map.mp member
    exact rowOf_text entry
  have pieces := Csv.records_flatMap whole []
  rw [List.flatMap_map, List.append_nil] at pieces
  rw [logLines, translate_eq_self noReturn, logOf, pieces]
  simp [Csv.records, Csv.scan, Csv.Reader.fresh]

/-! ## The length of the fields -/

theorem length_handleText (handle : UInt16) : (handleText handle).length = 6 := by
  rw [handleText, List.length_append, length_hexPadded (by decide) handle.toNat_lt]
  rfl

theorem length_uuidText (uuid : Uuid) : (uuidText uuid).length = 36 := by
  have bound := uuid.isLt
  unfold uuidText
  simp only [List.length_append, List.length_cons]
  rw [length_hexPadded (by decide) (by omega), length_hexPadded (by decide) (by omega),
    length_hexPadded (by decide) (by omega), length_hexPadded (by decide) (by omega),
    length_hexPadded (by decide) (by omega), length_hexPadded (by decide) (by omega)]

theorem length_hexBytes (value : List UInt8) :
    (value.flatMap fun byte => hexPadded 2 byte.toNat).length = 2 * value.length := by
  induction value with
  | nil => rfl
  | cons byte rest inductionHypothesis =>
      rw [List.flatMap_cons, List.length_append, inductionHypothesis,
        length_hexPadded (by decide) byte.toNat_lt, List.length_cons]
      omega

theorem length_details {record : Record} (short : fits record) :
    ∀ field ∈ record.details, field.length ≤ fieldSizeLimit := by
  cases record with
  | service start endHandle uuid =>
      simp [Record.details, length_handleText, length_uuidText, fieldSizeLimit]
  | characteristic handle properties valueHandle uuid =>
      simp [Record.details, length_handleText, length_uuidText, fieldSizeLimit,
        length_hexPadded (by decide : 0 < 2) properties.toNat_lt]
  | descriptor handle uuid =>
      simp [Record.details, length_handleText, length_uuidText, fieldSizeLimit]
  | charValue handle value =>
      have bound : value.length < 2 ^ 16 := short
      simp only [Record.details, List.forall_mem_cons, length_handleText, length_hexBytes]
      rw [fieldSizeLimit]
      exact ⟨by omega, by omega, by simp⟩

theorem length_kind (record : Record) : record.kind.length ≤ 24 := by
  cases record with
  | service => exact (by decide : "GATTPRINT:SERVICE".toList.length ≤ 24)
  | characteristic => exact (by decide : "GATTPRINT:CHARACTERISTIC".toList.length ≤ 24)
  | descriptor => exact (by decide : "GATTPRINT:DESCRIPTORS".toList.length ≤ 24)
  | charValue => exact (by decide : "GATTPRINT:CHAR_VALUE".toList.length ≤ 24)

theorem length_typeWord (random : Bool) : (typeWord random).length = 6 := by
  cases random <;> decide

private theorem length_report_of_front {front : Text} (short : front.length ≤ 64)
    (bdaddr : Bdaddr) (now : Now) :
    (front ++ bdaddr.text ++ ' ' :: now.text).length ≤ fieldSizeLimit := by
  have time := now.length_le
  rw [List.length_append, List.length_append, List.length_cons, bdaddr.length_eq, fieldSizeLimit]
  omega

theorem length_hex02 {value : Int} (word : value.natAbs < 2 ^ 32) :
    (Launcher.hex02 value).length ≤ 9 := by
  have digits : (Nat.toDigits 16 value.natAbs).length ≤ 8 :=
    (Nat.length_toDigits_le_iff (by decide) (by decide)).mpr (by omega)
  unfold Launcher.hex02
  simp only
  split
  · rw [List.length_cons]
    omega
  · split
    · rw [List.length_cons]
      omega
    · omega

theorem length_report (report : Report) (bdaddr : Bdaddr) (now : Now) :
    ((report.logLine bdaddr.text).text .gattprint now.text).length ≤ fieldSizeLimit := by
  cases report with
  | attempt =>
      exact length_report_of_front (by decide : "GATTPRINTING ATTEMPT FOR: ".toList.length ≤ 64)
        bdaddr now
  | success =>
      exact length_report_of_front
        (by decide : ("GATTPRINTING".toList ++ " SUCCESS FOR: ".toList).length ≤ 64) bdaddr now
  | failure retCode word =>
      have code := length_hex02 word
      have front : ("GATTPRINTING".toList ++ " FAILURE 0x".toList ++ Launcher.hex02 retCode ++
          " FOR: ".toList).length ≤ 64 := by
        rw [List.length_append, List.length_append]
        have words : ("GATTPRINTING".toList ++ " FAILURE 0x".toList).length = 23 := by decide
        have ending : " FOR: ".toList.length = 6 := by decide
        omega
      exact length_report_of_front front bdaddr now
  | failureTimeout =>
      exact length_report_of_front
        (by decide : ("GATTPRINTING".toList ++ " FAILURE TIMEOUT FOR: ".toList).length ≤ 64)
        bdaddr now

theorem not_tooLong (entry : Entry) : tooLong entry.fields = false := by
  have short : ∀ field ∈ entry.fields, field.length ≤ fieldSizeLimit := by
    cases entry with
    | modified random dst record short =>
        simp only [Entry.fields, List.forall_mem_cons, length_typeWord, dst.length_eq]
        exact ⟨(length_kind record).trans (by simp [fieldSizeLimit]), by simp [fieldSizeLimit],
          by simp [fieldSizeLimit], length_details short⟩
    | old dst record short =>
        simp only [Entry.fields, List.forall_mem_cons, dst.length_eq]
        exact ⟨(length_kind record).trans (by simp [fieldSizeLimit]), by simp [fieldSizeLimit],
          length_details short⟩
    | launcher report bdaddr now =>
        simp only [Entry.fields, List.forall_mem_cons]
        exact ⟨length_report report bdaddr now, by simp⟩
  rw [tooLong, List.any_eq_false]
  intro field member
  simpa using short field member

/-! ## Importing an entry -/

theorem parseInt_handleText (handle : UInt16) :
    parseInt 16 (handleText handle) = some (handle.toNat : Int) :=
  parseInt_hexPadded 4 handle.toNat

/-- The numbers of a record are short enough to be written into the `INSERT`. -/
theorem executeInsert_record (bdaddrType : Nat) (dst : Text) (record : Record) :
    executeInsert
        { deviceBdaddrType := bdaddrType, deviceBdaddr := dst, content := contentOf record } =
      .stored
        { deviceBdaddrType := bdaddrType, deviceBdaddr := dst, content := contentOf record } := by
  apply if_pos
  have small : ∀ value : Nat, value < 2 ^ 16 → (formatInt value).isSome = true := by
    intro value fits
    exact formatInt_isSome_of_lt (fits.trans (by decide : 2 ^ 16 < 10 ^ 5)) (by decide) (by decide)
  have handle : ∀ value : UInt16, (formatInt value.toNat).isSome = true :=
    fun value => small _ value.toNat_lt
  cases record with
  | characteristic declaration properties value uuid =>
      have byte := small properties.toNat (properties.toNat_lt.trans (by decide))
      simp [contentOf, Content.handles, handle, byte]
  | _ => simp [contentOf, Content.handles, handle]

/-- The handler of a record reads back what was written. -/
theorem handled_record (record : Record) (bdaddrType : Nat) {new : Bool} {dst : Text}
    {args : List Text} (same : afterType new args = dst :: record.details) :
    ∃ handler, handlerOf record.kind = some handler ∧
      handler bdaddrType new args =
        .stored
          { deviceBdaddrType := bdaddrType
            deviceBdaddr := dst
            content := contentOf record } := by
  cases record with
  | service start endHandle uuid =>
      refine ⟨funcService, ?_, ?_⟩
      · change handlerOf "GATTPRINT:SERVICE".toList = some funcService
        rw [handlerOf, if_neg (by decide), if_neg (by decide), if_neg (by decide), if_pos rfl]
      · simp only [funcService, same, Record.details, parseInt_handleText]
        exact executeInsert_record bdaddrType dst (.service start endHandle uuid)
  | characteristic handle properties valueHandle uuid =>
      have readProperties : parseInt 16 ("0x".toList ++ hexPadded 2 properties.toNat) =
          some (properties.toNat : Int) := parseInt_hexPadded 2 properties.toNat
      refine ⟨funcCharacteristic, ?_, ?_⟩
      · change handlerOf "GATTPRINT:CHARACTERISTIC".toList = some funcCharacteristic
        rw [handlerOf, if_pos rfl]
      · simp only [funcCharacteristic, same, Record.details, parseInt_handleText,
          readProperties]
        exact executeInsert_record bdaddrType dst
          (.characteristic handle properties valueHandle uuid)
  | descriptor handle uuid =>
      refine ⟨funcDescriptors, ?_, ?_⟩
      · change handlerOf "GATTPRINT:DESCRIPTORS".toList = some funcDescriptors
        rw [handlerOf, if_neg (by decide), if_neg (by decide), if_pos rfl]
      · simp only [funcDescriptors, same, Record.details, parseInt_handleText]
        exact executeInsert_record bdaddrType dst (.descriptor handle uuid)
  | charValue handle value =>
      refine ⟨funcCharValue, ?_, ?_⟩
      · change handlerOf "GATTPRINT:CHAR_VALUE".toList = some funcCharValue
        rw [handlerOf, if_neg (by decide), if_pos rfl]
      · simp only [funcCharValue, same, Record.details, parseInt_handleText, unhexlify_hexPadded]
        exact executeInsert_record bdaddrType dst (.charValue handle value)

/-- The launcher's word `GATTPRINTING` is no kind of record. -/
theorem handlerOf_launcher {kind : Text} (start : kind.take 10 = "GATTPRINTI".toList) :
    handlerOf kind = none := by
  have other : ∀ known : Text, known.take 10 ≠ "GATTPRINTI".toList → kind ≠ known := by
    rintro known different rfl
    exact different start
  rw [handlerOf, if_neg (other _ (by decide)), if_neg (other _ (by decide)),
    if_neg (other _ (by decide)), if_neg (other _ (by decide))]

/-- A record gives its address a type and stores what it holds. -/
def entryMeaning (query : Text → Option Nat) : Meaning Entry where
  about entry := entry.subject.map Prod.fst
  given := Entry.givenType query
  content entry := entry.subject.map fun about => contentOf about.2

theorem importLine_fields (query : Text → Option Nat) (importer : Importer) (entry : Entry) :
    importLine (answering query) importer entry.fields =
      ((entryMeaning query).note importer entry, false) := by
  cases entry with
  | modified random dst record short =>
      have args : afterType true (typeWord random :: dst.text :: record.details) =
          dst.text :: record.details := rfl
      obtain ⟨handler, known, handled⟩ := handled_record record
        (cachedType importer.typeCache dst.text (typeOf random)).1 args
      have other : ¬ (typeWord random).length = 17 := by
        rw [length_typeWord]
        decide
      have type : typeOfWord (typeWord random) = typeOf random := by
        cases random <;> decide
      simp only [Entry.fields, importLine, known, lookupDeviceBdaddrType, if_neg other, type,
        handled]
      rfl
  | old dst record short =>
      have args : afterType false (dst.text :: record.details) = dst.text :: record.details := rfl
      obtain ⟨handler, known, handled⟩ := handled_record record
        (cachedType importer.typeCache dst.text ((query dst.text).getD 9)).1 args
      obtain ⟨first, more, details⟩ : ∃ first more, record.details = first :: more := by
        cases record <;> exact ⟨_, _, rfl⟩
      rw [details] at handled
      simp only [Entry.fields, importLine, known, details, lookupDeviceBdaddrType,
        if_pos dst.length_eq, Meaning.note, entryMeaning, Entry.subject, Option.map_some]
      simp only [cachedType] at handled ⊢
      cases cached : importer.typeCache.lookup dst.text with
      | some type =>
          rw [cached] at handled
          simp only [handled]
          rfl
      | none =>
          rw [cached] at handled
          simp only [answering, Option.map_some, handled]
          rfl
  | launcher report bdaddr now =>
      have unknown : handlerOf ((report.logLine bdaddr.text).text .gattprint now.text) = none := by
        refine handlerOf_launcher ?_
        cases report <;> rfl
      simp only [Entry.fields, importLine, unknown]
      rfl

/-! ## Importing a log -/

theorem importLog_logOf (query : Text → Option Nat) (entries : List Entry) :
    importLog (answering query) (logOf entries) = (entryMeaning query).noteAll entries := by
  have lines : ∀ (entries : List Entry) (importer : Importer),
      importLines (answering query) (entries.map Entry.fields) importer =
        entries.foldl (entryMeaning query).note importer := by
    intro entries
    induction entries with
    | nil => exact fun _ => rfl
    | cons entry entries inductionHypothesis =>
        intro importer
        rw [List.map_cons, importLines, not_tooLong entry, importLine_fields, List.foldl_cons]
        exact inductionHypothesis ((entryMeaning query).note importer entry)
  rw [importLog, logLines_logOf, lines]
  rfl

/-- The row that a record of the modified `gatttool` adds. -/
theorem rows_modified (query : Text → Option Nat) (before : List Entry) (random : Bool)
    (dst : Bdaddr) (record : Record) (short : fits record) :
    (importLog (answering query) (logOf (before ++ [.modified random dst record short]))).rows =
      (importLog (answering query) (logOf before)).rows ++
        [{ deviceBdaddrType := (firstType query before dst.text).getD (typeOf random)
           deviceBdaddr := dst.text
           content := contentOf record }] := by
  have own : (entryMeaning query).about (.modified random dst record short) = some dst.text := rfl
  rw [importLog_logOf, importLog_logOf, (entryMeaning query).rows_noteAll_concat own]
  rfl

/-- Every record of the modified `gatttool` is stored as it was written, if and
only if no earlier line gave its address another type. -/
theorem storesRecords_iff_typesAgree (query : Text → Option Nat) (entries : List Entry) :
    StoresRecords query entries ↔ TypesAgree query entries := by
  constructor
  · intro stores before random dst record short after split type first
    obtain ⟨_, row, _⟩ := stores before random dst record short after split
    rw [rows_modified, first] at row
    have same := List.append_cancel_left row
    exact congrArg Row.deviceBdaddrType (List.cons.inj same).1
  · intro agree before random dst record short after split
    obtain ⟨later, more⟩ := (entryMeaning query).rows_noteAll_append
      (before ++ [.modified random dst record short]) after
    refine ⟨later, ?_, ?_⟩
    · rw [rows_modified]
      cases first : firstType query before dst.text with
      | none => rfl
      | some type =>
          rw [agree before random dst record short after split type first]
          rfl
    · rw [importLog_logOf, importLog_logOf, ← more, split, List.append_assoc,
        List.singleton_append]

def sampleBdaddr : Bdaddr where
  text := "aa:bb:cc:dd:ee:ff".toList
  length_eq := by decide
  digits := by simp

/-- The same address as a public one and then as a random one. -/
def bothTypes : List Entry :=
  [.modified false sampleBdaddr (.charValue 3 []) (by decide),
    .modified true sampleBdaddr (.charValue 5 [0x41]) (by decide)]

/-- The record for the random address is stored with the type of the public one. -/
theorem not_storesRecords_bothTypes : ¬ StoresRecords (fun _ => none) bothTypes := by
  intro stores
  obtain ⟨_, row, _⟩ := stores [.modified false sampleBdaddr (.charValue 3 []) (by decide)] true
    sampleBdaddr (.charValue 5 [0x41]) (by decide) [] rfl
  rw [rows_modified] at row
  exact absurd (List.append_cancel_left row) (by decide)

end NaiveBTSniffing.Analysis
