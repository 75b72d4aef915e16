import NaiveBTSniffing.Analysis.CompanyName
import NaiveBTSniffing.Library.Csv
import NaiveBTSniffing.Library.Hex

/-!
Contract: the raw files that `print_BTC_2thprint` and `print_BLE_2thprint` write
for a device.

Owns the queries, the lines of the files, and that a file stands for the printed
columns of the rows in the order in which the server returns them. Does not own
what the two functions print on the screen.
-/

namespace NaiveBTSniffing.Analysis

open NaiveBTSniffing.Library
open NaiveBTSniffing.Library.Text

/-! ## Lines -/

/-- `0x%0<width>x`. -/
def hexField (width value : Nat) : Text := '0' :: 'x' :: hexPadded width value

structure RawFile where
  path : Text
  contents : Text
deriving DecidableEq, Repr

/-- `open(path, 'w')`; whether a path can be opened depends on the directories. -/
def openFile (opens : Text → Bool) (path : Text) : Except Fault Unit :=
  if opens path then .ok () else .error .fileNotFoundError

/-- `file.write` of each line; the fields stand between quotes. -/
def written (lines : List (List Text)) : Text := lines.flatMap Csv.quotedRow

@[simp] theorem hexField_inj {width value other : Nat} :
    hexField width value = hexField width other ↔ value = other := by
  constructor
  · intro same
    have digits : hexPadded width value = hexPadded width other :=
      (List.cons.inj (List.cons.inj same).2).2
    rw [← hexValue_hexPadded width value, digits, hexValue_hexPadded]
  · exact congrArg _

@[simp] theorem noQuote_hexField (width value : Nat) : '"' ∉ hexField width value := by
  intro member
  rcases List.mem_cons.mp member with zero | member
  · cases zero
  · rcases List.mem_cons.mp member with mark | digit
    · cases mark
    · exact absurd (isHexText_hexPadded width value _ digit) (by decide)

/-! ## The classic file -/

/-- The answers to the three queries. -/
structure Btc2thResults where
  version : List LmpVersionRes
  features : List LmpFeaturesRes
  name : List Text
deriving DecidableEq, Repr

def btc2thResults (collation : Collation) (database : Database) (bdaddr : Text) :
    Btc2thResults where
  version := ClassicRow.about collation (stripLower bdaddr) database.btc2thLmpVersionRes
  features := ClassicRow.about collation (stripLower bdaddr) database.btc2thLmpFeaturesRes
  name := ClassicRow.about collation (stripLower bdaddr) database.btc2thLmpNameRes

def lmpVersionLines (row : LmpVersionRes) : List (List Text) :=
  [["lmp_version".toList, hexField 2 row.lmpVersion],
    ["lmp_sub_version".toList, hexField 4 row.lmpSubVersion],
    ["version_BT_CID".toList, hexField 4 row.deviceBtCid]]

/-- The page is not written. -/
def lmpFeaturesLines (row : LmpFeaturesRes) : List (List Text) :=
  [["features".toList, hexField 16 row.features]]

/-- The file that `print_BTC_2thprint` writes, if it writes one. -/
def printBtc2thprint (opens : Text → Bool) (collation : Collation) (database : Database)
    (bdaddr : Text) : Except Fault (Option RawFile) :=
  let results := btc2thResults collation database bdaddr
  if results.version ≠ [] ∨ results.features ≠ [] ∨ results.name ≠ [] then do
    let path := "./BTC2thprints/".toList ++ stripLower bdaddr ++ ".btc2thprint".toList
    openFile opens path
    return some {
      path := path
      contents := written (results.version.flatMap lmpVersionLines ++
        results.features.flatMap lmpFeaturesLines) }
  else .ok none

/-! ## The LE file -/

/-- The queried columns of `BLE2th_LL_LENGTHs`. -/
structure LengthsColumns where
  opcode : Nat
  maxRxOctets : Nat
  maxRxTime : Nat
  maxTxOctets : Nat
  maxTxTime : Nat
deriving DecidableEq, Repr

def LlLengths.queried (row : LlLengths) : LengthsColumns :=
  ⟨row.opcode, row.maxRxOctets, row.maxRxTime, row.maxTxOctets, row.maxTxTime⟩

/-- The answers to the six queries. -/
structure Ble2thResults where
  version : List LlVersionInd
  features : List LlFeatures
  phys : List LlPhys
  lengths : List LengthsColumns
  ping : List Nat
  unknown : List Nat
deriving DecidableEq, Repr

def ble2thResults (collation : Collation) (database : Database) (bdaddr : Text) :
    Ble2thResults where
  version := TypedRow.about collation (stripLower bdaddr) database.ble2thLlVersionInd
  features := TypedRow.about collation (stripLower bdaddr) database.ble2thLlFeatures
  phys := TypedRow.about collation (stripLower bdaddr) database.ble2thLlPhys
  lengths := (TypedRow.about collation (stripLower bdaddr) database.ble2thLlLengths).map
    LlLengths.queried
  ping := TypedRow.about collation (stripLower bdaddr) database.ble2thLlPingRsp
  unknown := TypedRow.about collation (stripLower bdaddr) database.ble2thLlUnknownRsp

def llVersionLines (row : LlVersionInd) : List (List Text) :=
  [["ll_version".toList, hexField 2 row.llVersion],
    ["ll_sub_version".toList, hexField 4 row.llSubVersion],
    ["version_BT_CID".toList, hexField 4 row.deviceBtCid]]

def llFeaturesLines (row : LlFeatures) : List (List Text) :=
  [["ll_ctrl_opcode".toList, hexField 2 row.opcode, "features".toList,
    hexField 16 row.features]]

def llPhysLines (row : LlPhys) : List (List Text) :=
  [["tx_phys".toList, hexField 2 row.txPhys], ["rx_phys".toList, hexField 2 row.rxPhys]]

def llLengthsLines (row : LengthsColumns) : List (List Text) :=
  [["ll_ctrl_opcode".toList, hexField 2 row.opcode,
    "max_rx_octets".toList, hexField 4 row.maxRxOctets,
    "max_rx_time".toList, hexField 4 row.maxRxTime,
    "max_tx_octets".toList, hexField 4 row.maxTxOctets,
    "max_tx_time".toList, hexField 4 row.maxTxTime]]

def llUnknownLines (unknownOpcode : Nat) : List (List Text) :=
  [["unknown_ll_ctrl_opcode".toList, hexField 2 unknownOpcode]]

/-- The value of the row is not written. -/
def llPingLines (_pingRsp : Nat) : List (List Text) :=
  [["ll_ping_rsp".toList, "1".toList]]

def llCtrlPduOpcodes : List (Nat × Text) :=
  [(9, "LL_FEATURE_RSP".toList), (14, "LL_PERIPHERAL_FEATURE_REQ".toList),
    (18, "LL_PING_REQ".toList), (20, "LL_LENGTH_REQ".toList), (21, "LL_LENGTH_RSP".toList),
    (22, "LL_PHY_REQ".toList), (23, "LL_PHY_RSP".toList)]

/-- `ll_ctrl_pdu_opcodes[opcode]`. -/
def llCtrlPduOpcode (opcode : Nat) : Except Fault Text :=
  match llCtrlPduOpcodes.lookup opcode with
  | some name => .ok name
  | none => .error .keyError

/-- The file that `print_BLE_2thprint` writes, if it writes one. The names of the
opcodes are looked up for the screen, before the file is opened. -/
def printBle2thprint (opens : Text → Bool) (collation : Collation) (database : Database)
    (bdaddr : Text) : Except Fault (Option RawFile) := do
  let results := ble2thResults collation database bdaddr
  results.features.forM fun row => discard (llCtrlPduOpcode row.opcode)
  results.lengths.forM fun row => discard (llCtrlPduOpcode row.opcode)
  results.unknown.forM fun unknownOpcode => discard (llCtrlPduOpcode unknownOpcode)
  if results.version ≠ [] ∨ results.features ≠ [] ∨ results.phys ≠ [] ∨ results.lengths ≠ [] ∨
      results.ping ≠ [] ∨ results.unknown ≠ [] then
    let path := "./BLE2thprints/".toList ++ stripLower bdaddr ++ ".ble2thprint".toList
    openFile opens path
    return some {
      path := path
      contents := written (results.version.flatMap llVersionLines ++
        results.features.flatMap llFeaturesLines ++ results.phys.flatMap llPhysLines ++
        results.lengths.flatMap llLengthsLines ++ results.unknown.flatMap llUnknownLines ++
        results.ping.flatMap llPingLines) }
  else return none

/-! ## What a file stands for -/

/-- An entry of the classic file. -/
inductive BtcEntry where
  | version (row : LmpVersionRes)
  | features (value : Nat)

def BtcEntry.lines : BtcEntry → List (List Text)
  | .version row => lmpVersionLines row
  | .features value => [["features".toList, hexField 16 value]]

/-- The entries of the file, in its order. -/
def Btc2thResults.entries (results : Btc2thResults) : List BtcEntry :=
  results.version.map .version ++ results.features.map fun row => .features row.features

theorem btcLines_eq (results : Btc2thResults) :
    results.version.flatMap lmpVersionLines ++ results.features.flatMap lmpFeaturesLines =
      results.entries.flatMap BtcEntry.lines := by
  rw [Btc2thResults.entries, List.flatMap_append, List.flatMap_map, List.flatMap_map]
  rfl

/-- An entry of the LE file. -/
inductive BleEntry where
  | version (row : LlVersionInd)
  | features (row : LlFeatures)
  | phys (row : LlPhys)
  | lengths (row : LengthsColumns)
  | unknown (opcode : Nat)
  | ping

def BleEntry.lines : BleEntry → List (List Text)
  | .version row => llVersionLines row
  | .features row => llFeaturesLines row
  | .phys row => llPhysLines row
  | .lengths row => llLengthsLines row
  | .unknown opcode => llUnknownLines opcode
  | .ping => [["ll_ping_rsp".toList, "1".toList]]

def Ble2thResults.entries (results : Ble2thResults) : List BleEntry :=
  results.version.map .version ++ results.features.map .features ++
    results.phys.map .phys ++ results.lengths.map .lengths ++
    results.unknown.map .unknown ++ results.ping.map fun _ => .ping

theorem bleLines_eq (results : Ble2thResults) :
    results.version.flatMap llVersionLines ++ results.features.flatMap llFeaturesLines ++
        results.phys.flatMap llPhysLines ++ results.lengths.flatMap llLengthsLines ++
        results.unknown.flatMap llUnknownLines ++ results.ping.flatMap llPingLines =
      results.entries.flatMap BleEntry.lines := by
  rw [Ble2thResults.entries]
  simp only [List.flatMap_append, List.flatMap_map]
  rfl

/-- The name in front of an entry tells its kind. -/
private theorem btcEntry_starts {entry other : BtcEntry} {rest more : List (List Text)}
    (same : entry.lines ++ rest = other.lines ++ more) : entry = other := by
  rcases entry with ⟨_, _, _⟩ | _ <;> rcases other with ⟨_, _, _⟩ | _ <;>
    simp_all [BtcEntry.lines, lmpVersionLines]

private theorem bleEntry_starts {entry other : BleEntry} {rest more : List (List Text)}
    (same : entry.lines ++ rest = other.lines ++ more) : entry = other := by
  rcases entry with ⟨_, _, _⟩ | ⟨_, _⟩ | ⟨_, _⟩ | ⟨_, _, _, _, _⟩ | _ | _ <;>
    rcases other with ⟨_, _, _⟩ | ⟨_, _⟩ | ⟨_, _⟩ | ⟨_, _, _, _, _⟩ | _ | _ <;>
    simp_all [BleEntry.lines, llVersionLines, llFeaturesLines, llPhysLines, llLengthsLines,
      llUnknownLines]

private theorem btcEntry_quotable (entry : BtcEntry) :
    entry.lines ≠ [] ∧ ∀ fields ∈ entry.lines, Csv.Quotable fields := by
  cases entry <;> simp [BtcEntry.lines, lmpVersionLines, Csv.Quotable]

private theorem bleEntry_quotable (entry : BleEntry) :
    entry.lines ≠ [] ∧ ∀ fields ∈ entry.lines, Csv.Quotable fields := by
  cases entry <;> simp [BleEntry.lines, llVersionLines, llFeaturesLines, llPhysLines,
    llLengthsLines, llUnknownLines, Csv.Quotable]

/-- Entries are determined by the text that is written for them. -/
private theorem entries_of_written {Entry : Type} {lines : Entry → List (List Text)}
    (quotable : ∀ entry, lines entry ≠ [] ∧ ∀ fields ∈ lines entry, Csv.Quotable fields)
    (starts : ∀ {entry other : Entry} {rest more}, lines entry ++ rest = lines other ++ more →
      entry = other)
    {first second : List Entry}
    (same : written (first.flatMap lines) = written (second.flatMap lines)) : first = second := by
  have rows : ∀ entries : List Entry, ∀ fields ∈ entries.flatMap lines, Csv.Quotable fields := by
    intro entries fields member
    obtain ⟨entry, _, line⟩ := List.mem_flatMap.mp member
    exact (quotable entry).2 fields line
  apply Csv.eq_of_blocks (fun entry => (quotable entry).1) starts
  exact Csv.eq_of_quotedRows (rows first) (rows second) same

/-- The classic file's text stands for the versions and the features, in order. -/
theorem btcWritten_iff (first second : Btc2thResults) :
    written (first.version.flatMap lmpVersionLines ++ first.features.flatMap lmpFeaturesLines) =
        written (second.version.flatMap lmpVersionLines ++
          second.features.flatMap lmpFeaturesLines) ↔
      first.version = second.version ∧
        first.features.map LmpFeaturesRes.features =
          second.features.map LmpFeaturesRes.features := by
  rw [btcLines_eq, btcLines_eq]
  constructor
  · intro same
    have entries := entries_of_written btcEntry_quotable btcEntry_starts same
    constructor
    · have versions := congrArg (List.filterMap fun entry =>
        match entry with | .version row => some row | .features _ => none) entries
      simpa [Btc2thResults.entries, List.filterMap_map, Function.comp_def] using versions
    · have features := congrArg (List.filterMap fun entry =>
        match entry with | .version _ => none | .features value => some value) entries
      simpa [Btc2thResults.entries, List.filterMap_map, Function.comp_def] using features
  · intro ⟨versions, features⟩
    have entries : first.entries = second.entries := by
      have wrapped := congrArg (List.map BtcEntry.features) features
      rw [List.map_map, List.map_map] at wrapped
      rw [Btc2thResults.entries, Btc2thResults.entries, versions]
      exact congrArg _ wrapped
    rw [entries]

/-- The LE file's text stands for the queried columns of the six kinds of rows, in
order, and of a ping row only for its presence. -/
theorem bleWritten_iff (first second : Ble2thResults) :
    written (first.entries.flatMap BleEntry.lines) =
        written (second.entries.flatMap BleEntry.lines) ↔
      first.version = second.version ∧ first.features = second.features ∧
        first.phys = second.phys ∧ first.lengths = second.lengths ∧
        first.unknown = second.unknown ∧ first.ping.length = second.ping.length := by
  constructor
  · intro same
    have entries := entries_of_written bleEntry_quotable bleEntry_starts same
    have pick : ∀ {Value : Type} (choose : BleEntry → Option Value),
        first.entries.filterMap choose = second.entries.filterMap choose :=
      fun choose => by rw [entries]
    refine ⟨?version, ?features, ?phys, ?lengths, ?unknown, ?ping⟩
    case version =>
      simpa [Ble2thResults.entries, List.filterMap_map, Function.comp_def] using
        pick fun entry => match entry with | .version row => some row | _ => none
    case features =>
      simpa [Ble2thResults.entries, List.filterMap_map, Function.comp_def] using
        pick fun entry => match entry with | .features row => some row | _ => none
    case phys =>
      simpa [Ble2thResults.entries, List.filterMap_map, Function.comp_def] using
        pick fun entry => match entry with | .phys row => some row | _ => none
    case lengths =>
      simpa [Ble2thResults.entries, List.filterMap_map, Function.comp_def] using
        pick fun entry => match entry with | .lengths row => some row | _ => none
    case unknown =>
      simpa [Ble2thResults.entries, List.filterMap_map, Function.comp_def] using
        pick fun entry => match entry with | .unknown opcode => some opcode | _ => none
    case ping =>
      simpa [Ble2thResults.entries, List.filterMap_map, Function.comp_def] using
        congrArg List.length
          (pick fun entry => match entry with | .ping => some () | _ => none)
  · intro ⟨version, features, phys, lengths, unknown, ping⟩
    have pings : first.ping.map (fun _ => BleEntry.ping) =
        second.ping.map (fun _ => BleEntry.ping) := by
      rw [List.map_const', List.map_const', ping]
    rw [Ble2thResults.entries, Ble2thResults.entries, version, features, phys, lengths, unknown,
      pings]

/-! ## Files of two devices -/

/-- The text of the classic file that the function writes. -/
theorem contents_of_printBtc {opens : Text → Bool} {collation : Collation} {database : Database}
    {bdaddr : Text} {file : RawFile}
    (printed : printBtc2thprint opens collation database bdaddr = .ok (some file)) :
    file.contents =
      written ((btc2thResults collation database bdaddr).version.flatMap lmpVersionLines ++
        (btc2thResults collation database bdaddr).features.flatMap lmpFeaturesLines) := by
  unfold printBtc2thprint at printed
  dsimp only at printed
  split_ifs at printed
  · unfold openFile at printed
    split_ifs at printed
    · cases printed
      rfl
    · cases printed
  · cases printed

/-- Looking up opcodes has no effect on what follows but to end it. -/
private theorem ok_of_lookups {Row Result : Type} {opcodes : Row → Except Fault Unit}
    {next : Except Fault Result} {rows : List Row} {result : Result}
    (runs : (do rows.forM opcodes; next) = .ok result) : next = .ok result := by
  cases looked : rows.forM opcodes with
  | error fault =>
      rw [looked] at runs
      cases runs
  | ok nothing =>
      rw [looked] at runs
      exact runs

theorem contents_of_printBle {opens : Text → Bool} {collation : Collation} {database : Database}
    {bdaddr : Text} {file : RawFile}
    (printed : printBle2thprint opens collation database bdaddr = .ok (some file)) :
    file.contents =
      written ((ble2thResults collation database bdaddr).entries.flatMap BleEntry.lines) := by
  unfold printBle2thprint at printed
  have opened := ok_of_lookups (ok_of_lookups (ok_of_lookups printed))
  dsimp only at opened
  split_ifs at opened
  · unfold openFile at opened
    split_ifs at opened
    · cases opened
      exact congrArg written (bleLines_eq _)
    · cases opened
  · cases opened

/-- The two devices have the same versions and the same features in the same order. -/
def Btc2thResults.Agree (first second : Btc2thResults) : Prop :=
  first.version = second.version ∧
    first.features.map LmpFeaturesRes.features = second.features.map LmpFeaturesRes.features

instance (first second : Btc2thResults) : Decidable (first.Agree second) :=
  inferInstanceAs (Decidable (_ ∧ _))

/-- The two devices have the same rows of the five kinds in the same order, and as
many answers to a ping. -/
def Ble2thResults.Agree (first second : Ble2thResults) : Prop :=
  first.version = second.version ∧ first.features = second.features ∧
    first.phys = second.phys ∧ first.lengths = second.lengths ∧
    first.unknown = second.unknown ∧ first.ping.length = second.ping.length

instance (first second : Ble2thResults) : Decidable (first.Agree second) :=
  inferInstanceAs (Decidable (_ ∧ _))

/-- The raw files of two devices are equal exactly when the rows that the server
returns agree, in their order, in the columns that the files have. -/
theorem contents_eq_iff_agree (opens : Text → Bool) (collation : Collation)
    (first second : Database) (bdaddr other : Text) :
    (∀ file otherFile,
      printBtc2thprint opens collation first bdaddr = .ok (some file) →
      printBtc2thprint opens collation second other = .ok (some otherFile) →
      (file.contents = otherFile.contents ↔
        (btc2thResults collation first bdaddr).Agree (btc2thResults collation second other))) ∧
    (∀ file otherFile,
      printBle2thprint opens collation first bdaddr = .ok (some file) →
      printBle2thprint opens collation second other = .ok (some otherFile) →
      (file.contents = otherFile.contents ↔
        (ble2thResults collation first bdaddr).Agree
          (ble2thResults collation second other))) := by
  constructor
  · intro file otherFile printed otherPrinted
    rw [contents_of_printBtc printed, contents_of_printBtc otherPrinted]
    exact btcWritten_iff _ _
  · intro file otherFile printed otherPrinted
    rw [contents_of_printBle printed, contents_of_printBle otherPrinted]
    exact bleWritten_iff _ _

private def car : Text := "00:1a:7d:da:71:13".toList

private def lamp : Text := "00:1a:7d:da:71:14".toList

/-- Two devices with the same classic rows in different orders, and different LE versions. -/
private def twoDevices : Database :=
  { Database.empty with
    btc2thLmpVersionRes := [⟨car, ⟨9, 15, 1⟩⟩, ⟨lamp, ⟨9, 15, 1⟩⟩]
    btc2thLmpFeaturesRes := [⟨car, ⟨0, 1⟩⟩, ⟨car, ⟨1, 2⟩⟩, ⟨lamp, ⟨1, 2⟩⟩, ⟨lamp, ⟨0, 1⟩⟩]
    ble2thLlVersionInd := [⟨0, car, ⟨9, 15, 1⟩⟩, ⟨0, lamp, ⟨9, 15, 2⟩⟩] }

private def btcFile (bdaddr : Text) : RawFile where
  path := "./BTC2thprints/".toList ++ bdaddr ++ ".btc2thprint".toList
  contents := written
    ((btc2thResults .ignoringCase twoDevices bdaddr).version.flatMap lmpVersionLines ++
      (btc2thResults .ignoringCase twoDevices bdaddr).features.flatMap lmpFeaturesLines)

private def bleFile (bdaddr : Text) : RawFile where
  path := "./BLE2thprints/".toList ++ bdaddr ++ ".ble2thprint".toList
  contents := written
    ((ble2thResults .ignoringCase twoDevices bdaddr).entries.flatMap BleEntry.lines)

theorem contents_ne_twoDevices :
    (btcFile car).contents ≠ (btcFile lamp).contents ∧
      (bleFile car).contents ≠ (bleFile lamp).contents := by
  have agree := contents_eq_iff_agree (fun _ => true) .ignoringCase twoDevices twoDevices car lamp
  constructor
  · intro same
    exact absurd ((agree.1 (btcFile car) (btcFile lamp) rfl rfl).mp same) (by decide)
  · intro same
    exact absurd ((agree.2 (bleFile car) (bleFile lamp) rfl rfl).mp same) (by decide)

/-- The same rows in another order give another file. -/
theorem contents_ne_of_order : ¬ ∀ (opens : Text → Bool) (collation : Collation)
    (database : Database) (bdaddr other : Text) (file otherFile : RawFile),
    printBtc2thprint opens collation database bdaddr = .ok (some file) →
    printBtc2thprint opens collation database other = .ok (some otherFile) →
    (file.contents = otherFile.contents ↔
      (∀ row, row ∈ (btc2thResults collation database bdaddr).version ↔
        row ∈ (btc2thResults collation database other).version) ∧
      (∀ row, row ∈ (btc2thResults collation database bdaddr).features ↔
        row ∈ (btc2thResults collation database other).features)) := by
  intro sets
  have same := (sets (fun _ => true) .ignoringCase twoDevices car lamp (btcFile car)
    (btcFile lamp) rfl rfl).mpr
  have version : (btc2thResults .ignoringCase twoDevices car).version =
      (btc2thResults .ignoringCase twoDevices lamp).version := by decide
  have features : (btc2thResults .ignoringCase twoDevices car).features =
      (btc2thResults .ignoringCase twoDevices lamp).features.reverse := by decide
  have equal := same ⟨fun row => by rw [version], fun row => by rw [features, List.mem_reverse]⟩
  exact absurd ((btcWritten_iff _ _).mp equal) (by decide)

end NaiveBTSniffing.Analysis
