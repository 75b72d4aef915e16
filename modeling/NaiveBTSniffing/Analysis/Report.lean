import NaiveBTSniffing.Analysis.GattInfo
import NaiveBTSniffing.Library.Raising

/-!
Contract: whether the report of `TellMeEverything.py` completes.

Each print function is what can raise in it, in the order of the source; the lines
that it prints are left out, as are the lookups in the tables of assigned numbers and
of name patterns, which are files of the installation and answer for every value;
only the one name that decides whether a value is decoded as an Appearance is read.

Owns the exact condition on the rows of an address under which no function raises.
The functions differ in whether they strip and lower the address first.
-/

namespace NaiveBTSniffing.Analysis

open NaiveBTSniffing.Library
open NaiveBTSniffing.Library.Raising

/-- An address that is asked for: not blank, and without the quote and the backslash
that would end or change the text in a query. -/
structure AskedBdaddr where
  text : Text
  named : Text.strip text ≠ []
  plain : ∀ char ∈ text, char.toNat ≠ 0x27 ∧ char.toNat ≠ 0x5c

/-! ## The print functions -/

/-- No script creates the table `USB_CID_to_company`. -/
def usbCidToCompanyName (_deviceUsbCid : Int) : Except Fault Text := .error .programmingError

/-- The lookups of a UUID16 all start with `int(uuid16.strip(), 16)`. -/
def convertUuid16 (token : Text) : Except Fault Unit :=
  match Text.parseInt 16 (Text.strip token) with
  | some _ => .ok ()
  | none => .error .valueError

/-- The loop over the tokens of `str_UUID16s.split(',')`. -/
def convertUuid16s : Option Text → Except Fault Unit
  | some strUuid16s => (strUuid16s.splitOn ',').forM convertUuid16
  | none => .error .attributeError

/-- The loop over the tokens of `str_UUID128s.split(',')`, which only slices them. -/
def convertUuid128s : Option Text → Except Fault Unit
  | some _ => .ok ()
  | none => .error .attributeError

/-- The RSSI of an iBeacon. -/
def decodeIBeacon (data : MfSpecific) : Except Fault Unit :=
  if data.deviceBtCid = 76 ∧ data.mfSpecificData.take 4 = "0215".toList then
    match Text.parseInt 16 ((data.mfSpecificData.drop 44).take 2) with
    | some _ => .ok ()
    | none => .error .valueError
  else .ok ()

section Functions

variable (opens : Text → Bool) (files : NameFiles) (collation : Collation)
variable (database : Database) (bdaddr : Text)

def printClassicEirCidInfo : Except Fault Unit :=
  (ClassicRow.about collation bdaddr database.eirDevID).forM fun row =>
    if row.vendorIdSource = 2 then discard (usbCidToCompanyName row.vendorId) else .ok ()

/-- The lines about LE data of one table: the columns are decoded, then the kind of the
address is printed. -/
def printLeRows {Columns : Type} (rows : List (LeRow Columns))
    (decode : Columns → Except Fault Unit) : Except Fault Unit :=
  (LeRow.about collation bdaddr rows).forM fun row => do
    decode row.columns
    discard (getBdaddrType bdaddr row.bdaddrRandom)

def printDeviceNames : Except Fault Unit :=
  printLeRows collation (stripLower bdaddr) database.leName fun _ => .ok ()

def printUuid16s : Except Fault Unit := do
  (ClassicRow.about collation bdaddr database.eirUuid16s).forM fun row =>
    convertUuid16s row.strUuids
  printLeRows collation bdaddr database.leUuid16s fun row => convertUuid16s row.strUuids

def printServiceSolicitUuid16s : Except Fault Unit :=
  printLeRows collation bdaddr database.leUuid16ServiceSolicit convertUuid16s

def printUuid128s : Except Fault Unit := do
  (ClassicRow.about collation bdaddr database.eirUuid128s).forM fun row =>
    convertUuid128s row.strUuids
  printLeRows collation bdaddr database.leUuid128s fun row => convertUuid128s row.strUuids

/-- The line with the kind of the address is no f-string here. -/
def printServiceSolicitUuid128s : Except Fault Unit :=
  (LeRow.about collation bdaddr database.leUuid128ServiceSolicit).forM fun row =>
    convertUuid128s row.columns

def printTransmitPower : Except Fault Unit :=
  printLeRows collation (stripLower bdaddr) database.leTxPower fun _ => .ok ()

def printAppearance : Except Fault Unit :=
  printLeRows collation (stripLower bdaddr) database.leAppearance fun _ => .ok ()

def printManufacturerData : Except Fault Unit :=
  printLeRows collation (stripLower bdaddr) database.leMfSpecific decodeIBeacon

/-- The line for an LE row reads the unset name `random`. -/
def printClassOfDevice : Except Fault Unit :=
  (LeRow.about collation (stripLower bdaddr) database.leCod).forM fun _ => .error .nameError

/-- The body of the loop at the end of `main`. -/
def printReport : Except Fault Unit := do
  discard (printCompanyNameFromBdaddr collation database bdaddr)
  printClassicEirCidInfo collation database bdaddr
  printDeviceNames collation database bdaddr
  printUuid16s collation database bdaddr
  printServiceSolicitUuid16s collation database bdaddr
  printUuid128s collation database bdaddr
  printServiceSolicitUuid128s collation database bdaddr
  printTransmitPower collation database bdaddr
  printAppearance collation database bdaddr
  printManufacturerData collation database bdaddr
  printClassOfDevice collation database bdaddr
  discard (printGattInfo opens files collation database bdaddr)
  discard (printBle2thprint opens collation database bdaddr)
  discard (printBtc2thprint opens collation database bdaddr)

/-- The loop at the end of `main`. -/
def printReports (bdaddrs : List AskedBdaddr) : Except Fault Unit :=
  bdaddrs.forM fun bdaddr => printReport opens files collation database bdaddr.text

end Functions

/-! ## When a report completes -/

/-- A list of UUID16s that can be decoded: it is there, and each part between commas
is a hexadecimal number. -/
def ConvertibleUuid16s (strUuid16s : Option Text) : Prop :=
  ∃ text, strUuid16s = some text ∧
    ∀ token ∈ text.splitOn ',', (Text.parseInt 16 (Text.strip token)).isSome = true

/-- Manufacturer data that starts like an iBeacon has two hexadecimal digits, or one,
where its RSSI stands. -/
def WholeIBeacon (data : MfSpecific) : Prop :=
  data.deviceBtCid = 76 → data.mfSpecificData.take 4 = "0215".toList →
    (Text.parseInt 16 ((data.mfSpecificData.drop 44).take 2)).isSome = true

/-- The values that are printed as those of an Appearance are numbers that, without
their last six bits, have not more decimal digits than Python writes. -/
def ShortAppearances (files : NameFiles) (results : GattResults) : Prop :=
  ∀ row byteValues, .characteristic row (.readAs byteValues) ∈ semanticSection results →
    matchGattCharacteristic files row.charUuid128 = .ok "Appearance".toList →
      (Text.formatInt (Nat.ofDigits 256 byteValues >>> 6 : Nat)).isSome = true

/-- The rows about an address that no print function fails on. -/
structure Printable (opens : Text → Bool) (files : NameFiles) (collation : Collation)
    (database : Database) (bdaddr : Text) : Prop where
  vendors : ∀ row ∈ ClassicRow.about collation bdaddr database.eirDevID,
    row.vendorIdSource ≠ 2
  eirUuid16s : ∀ row ∈ ClassicRow.about collation bdaddr database.eirUuid16s,
    ConvertibleUuid16s row.strUuids
  leUuid16s : ∀ row ∈ LeRow.about collation bdaddr database.leUuid16s,
    ConvertibleUuid16s row.columns.strUuids
  solicitUuid16s : ∀ row ∈ LeRow.about collation bdaddr database.leUuid16ServiceSolicit,
    ConvertibleUuid16s row.columns
  eirUuid128s : ∀ row ∈ ClassicRow.about collation bdaddr database.eirUuid128s,
    row.strUuids ≠ none
  leUuid128s : ∀ row ∈ LeRow.about collation bdaddr database.leUuid128s,
    row.columns.strUuids ≠ none
  solicitUuid128s : ∀ row ∈ LeRow.about collation bdaddr database.leUuid128ServiceSolicit,
    row.columns ≠ none
  beacons : ∀ row ∈ LeRow.about collation (stripLower bdaddr) database.leMfSpecific,
    WholeIBeacon row.columns
  classOfDevice : LeRow.about collation (stripLower bdaddr) database.leCod = []
  featuresOpcodes : ∀ row ∈ (ble2thResults collation database bdaddr).features,
    row.opcode ∈ llCtrlPduOpcodes.map Prod.fst
  lengthsOpcodes : ∀ row ∈ (ble2thResults collation database bdaddr).lengths,
    row.opcode ∈ llCtrlPduOpcodes.map Prod.fst
  unknownOpcodes : ∀ opcode ∈ (ble2thResults collation database bdaddr).unknown,
    opcode ∈ llCtrlPduOpcodes.map Prod.fst
  appearances : ShortAppearances files (gattResults collation database bdaddr)
  gattFile : (gattResults collation database bdaddr).services ≠ [] →
    opens ("./GATTPrints/".toList ++ bdaddr ++ ".gattprint".toList) = true
  bleFile : ble2thResults collation database bdaddr ≠ ⟨[], [], [], [], [], []⟩ →
    opens ("./BLE2thprints/".toList ++ stripLower bdaddr ++ ".ble2thprint".toList) = true
  btcFile : btc2thResults collation database bdaddr ≠ ⟨[], [], []⟩ →
    opens ("./BTC2thprints/".toList ++ stripLower bdaddr ++ ".btc2thprint".toList) = true

/-! ## One function at a time -/

variable {opens : Text → Bool} {files : NameFiles} {collation : Collation}
variable {database : Database} {bdaddr : Text}

theorem convertUuid16s_eq_ok_iff {strUuid16s : Option Text} :
    convertUuid16s strUuid16s = .ok () ↔ ConvertibleUuid16s strUuid16s := by
  have token : ∀ text, convertUuid16 text = .ok () ↔
      (Text.parseInt 16 (Text.strip text)).isSome = true := by
    intro text
    unfold convertUuid16
    cases Text.parseInt 16 (Text.strip text) with
    | none => simp
    | some value => simp
  cases strUuid16s with
  | none => simp [convertUuid16s, ConvertibleUuid16s]
  | some text =>
      unfold convertUuid16s
      rw [forM_eq_ok_iff]
      simp only [token, ConvertibleUuid16s, Option.some.injEq, exists_eq_left']

theorem convertUuid128s_eq_ok_iff {strUuid128s : Option Text} :
    convertUuid128s strUuid128s = .ok () ↔ strUuid128s ≠ none := by
  cases strUuid128s with
  | none => simp [convertUuid128s]
  | some text => simp [convertUuid128s]

theorem decodeIBeacon_eq_ok_iff {data : MfSpecific} :
    decodeIBeacon data = .ok () ↔ WholeIBeacon data := by
  unfold decodeIBeacon WholeIBeacon
  rw [← and_imp]
  by_cases beacon : data.deviceBtCid = 76 ∧ data.mfSpecificData.take 4 = "0215".toList
  · rw [if_pos beacon]
    cases Text.parseInt 16 ((data.mfSpecificData.drop 44).take 2) with
    | none => simp [beacon]
    | some value => simp
  · rw [if_neg beacon]
    exact iff_of_true rfl fun other => absurd other beacon

theorem getBdaddrType_returns (some : bdaddr ≠ []) (random : Int) :
    ∃ bdaddrType, getBdaddrType bdaddr random = .ok bdaddrType := by
  by_cases zero : random = 0
  · exact ⟨_, if_pos zero⟩
  · rcases getBdaddrType_cases bdaddr random zero with ⟨empty, _⟩ | ⟨_, returns⟩
    · exact absurd empty some
    · exact returns

theorem printLeRows_eq_ok_iff (some : bdaddr ≠ []) {Columns : Type}
    {rows : List (LeRow Columns)} {decode : Columns → Except Fault Unit} :
    printLeRows collation bdaddr rows decode = .ok () ↔
      ∀ row ∈ LeRow.about collation bdaddr rows, decode row.columns = .ok () := by
  unfold printLeRows
  rw [forM_eq_ok_iff]
  apply forall₂_congr
  intro row _
  rw [andThen_eq_ok_iff, discard_eq_ok_iff]
  exact and_iff_left (getBdaddrType_returns some row.bdaddrRandom)

theorem printCompanyName_returns (some : bdaddr ≠ []) :
    ∃ lines, printCompanyNameFromBdaddr collation database bdaddr = .ok lines := by
  rcases printCompanyName_cases collation database bdaddr with
    ⟨_, printed⟩ | ⟨_, _, printed⟩ | ⟨_, _, printed⟩
  · exact ⟨_, printed⟩
  · exact ⟨_, printed⟩
  · obtain ⟨bdaddrType, answer⟩ := getBdaddrType_returns some 1
    rw [printed, answer]
    exact ⟨_, rfl⟩

theorem printClassicEirCidInfo_eq_ok_iff :
    printClassicEirCidInfo collation database bdaddr = .ok () ↔
      ∀ row ∈ ClassicRow.about collation bdaddr database.eirDevID, row.vendorIdSource ≠ 2 := by
  unfold printClassicEirCidInfo
  rw [forM_eq_ok_iff]
  apply forall₂_congr
  intro row _
  by_cases usb : row.vendorIdSource = 2
  · rw [if_pos usb, discard_eq_ok_iff]
    simp [usbCidToCompanyName, usb]
  · rw [if_neg usb]
    exact iff_of_true rfl usb

theorem openFile_eq_ok_iff {path : Text} : openFile opens path = .ok () ↔ opens path = true := by
  unfold openFile
  cases opens path with
  | false => simp
  | true => simp

theorem appearanceUint16ToString_eq_ok_iff {number : Nat} :
    appearanceUint16ToString number = .ok () ↔
      (Text.formatInt (number >>> 6 : Nat)).isSome = true := by
  unfold appearanceUint16ToString
  cases Text.formatInt (number >>> 6 : Nat) with
  | none => simp
  | some digits => simp

theorem decodeAppearances_eq_ok_iff {results : GattResults} :
    decodeAppearances files (semanticSection results) = .ok () ↔
      ShortAppearances files results := by
  have value : ∀ row byteValues,
      decodeAppearance files (.characteristic row (.readAs byteValues)) = .ok () ↔
        (matchGattCharacteristic files row.charUuid128 = .ok "Appearance".toList →
          (Text.formatInt (Nat.ofDigits 256 byteValues >>> 6 : Nat)).isSome = true) := by
    intro row byteValues
    obtain ⟨name, named⟩ := matchGatt_returns files (gattCharacteristicUuid16Names files)
      row.charUuid128
    have answer : matchGattCharacteristic files row.charUuid128 = .ok name := named
    rw [← appearanceUint16ToString_eq_ok_iff, decodeAppearance, answer]
    show (if name = "Appearance".toList then _ else Except.ok ()) = Except.ok () ↔ _
    rw [Except.ok.injEq]
    split_ifs with appearance
    · exact ⟨fun decoded _ => decoded, fun decoded => decoded appearance⟩
    · exact iff_of_true rfl fun other => absurd other appearance
  unfold decodeAppearances ShortAppearances
  rw [forM_eq_ok_iff]
  constructor
  · exact fun decoded row byteValues member => (value row byteValues).mp (decoded _ member)
  · intro short entry member
    match entry, member with
    | .service _, _ | .descriptor _, _ => rfl
    | .characteristic _ .notReadable, _ | .characteristic _ .notStored, _ => rfl
    | .characteristic row (.readAs byteValues), member =>
        exact (value row byteValues).mpr (short row byteValues member)

/-- Stored values of not more than 1786 bytes are short enough. -/
theorem shortAppearances_of_length {results : GattResults}
    (stored : ∀ row ∈ results.characteristicsValues,
      row.byteValues.length ≤ 1786 ∧ ∀ byte ∈ row.byteValues, byte < 256) :
    ShortAppearances files results := by
  intro row byteValues printed _
  have shown := mem_semanticSection printed
  unfold valueShown at shown
  split_ifs at shown with readable
  rcases lookup_charByteValsDict results.characteristicsValues row.charValueHandle with
    ⟨value, found, member⟩ | ⟨missing, _⟩
  · rw [found] at shown
    obtain rfl := ValueShown.readAs.inj shown
    exact formatInt_category_of_short (stored _ member).2 (stored _ member).1
  · rw [missing] at shown
    exact absurd shown (by simp)

theorem printGattInfo_returns_iff :
    (∃ info, printGattInfo opens files collation database bdaddr = .ok info) ↔
      ShortAppearances files (gattResults collation database bdaddr) ∧
        ((gattResults collation database bdaddr).services ≠ [] →
          opens ("./GATTPrints/".toList ++ bdaddr ++ ".gattprint".toList) = true) := by
  unfold printGattInfo
  simp only [andThen_eq_ok_iff, decodeAppearances_eq_ok_iff, exists_and_left]
  refine and_congr_right fun _ => ?_
  split_ifs with some
  · simp only [andThen_eq_ok_iff, openFile_eq_ok_iff]
    constructor
    · exact fun ⟨_, opened, _⟩ _ => opened
    · exact fun opened => ⟨_, opened some, rfl⟩
  · exact iff_of_true ⟨_, rfl⟩ fun other => absurd other some

theorem printBtc2thprint_returns_iff :
    (∃ file, printBtc2thprint opens collation database bdaddr = .ok file) ↔
      (btc2thResults collation database bdaddr ≠ ⟨[], [], []⟩ →
        opens ("./BTC2thprints/".toList ++ stripLower bdaddr ++ ".btc2thprint".toList) =
          true) := by
  have someRow : btc2thResults collation database bdaddr ≠ ⟨[], [], []⟩ ↔
      (btc2thResults collation database bdaddr).version ≠ [] ∨
        (btc2thResults collation database bdaddr).features ≠ [] ∨
        (btc2thResults collation database bdaddr).name ≠ [] := by
    cases btc2thResults collation database bdaddr
    simp only [ne_eq, Btc2thResults.mk.injEq]
    tauto
  rw [someRow]
  unfold printBtc2thprint
  dsimp only
  split_ifs with some
  · simp only [andThen_eq_ok_iff, openFile_eq_ok_iff]
    constructor
    · exact fun ⟨_, opened, _⟩ _ => opened
    · exact fun opened => ⟨_, opened some, rfl⟩
  · exact iff_of_true ⟨_, rfl⟩ fun other => absurd other some

theorem llCtrlPduOpcode_returns_iff {opcode : Nat} :
    discard (llCtrlPduOpcode opcode) = .ok () ↔ opcode ∈ llCtrlPduOpcodes.map Prod.fst := by
  rw [discard_eq_ok_iff]
  unfold llCtrlPduOpcode
  have found : (llCtrlPduOpcodes.lookup opcode).isSome = true ↔
      opcode ∈ llCtrlPduOpcodes.map Prod.fst := by
    rw [List.lookup_isSome_iff]
    simp
  rw [← found]
  cases llCtrlPduOpcodes.lookup opcode with
  | none => simp
  | some name => simp

theorem printBle2thprint_returns_iff :
    (∃ file, printBle2thprint opens collation database bdaddr = .ok file) ↔
      (∀ row ∈ (ble2thResults collation database bdaddr).features,
          row.opcode ∈ llCtrlPduOpcodes.map Prod.fst) ∧
        (∀ row ∈ (ble2thResults collation database bdaddr).lengths,
          row.opcode ∈ llCtrlPduOpcodes.map Prod.fst) ∧
        (∀ opcode ∈ (ble2thResults collation database bdaddr).unknown,
          opcode ∈ llCtrlPduOpcodes.map Prod.fst) ∧
        (ble2thResults collation database bdaddr ≠ ⟨[], [], [], [], [], []⟩ →
          opens ("./BLE2thprints/".toList ++ stripLower bdaddr ++ ".ble2thprint".toList) =
            true) := by
  have someRow : ble2thResults collation database bdaddr ≠ ⟨[], [], [], [], [], []⟩ ↔
      (ble2thResults collation database bdaddr).version ≠ [] ∨
        (ble2thResults collation database bdaddr).features ≠ [] ∨
        (ble2thResults collation database bdaddr).phys ≠ [] ∨
        (ble2thResults collation database bdaddr).lengths ≠ [] ∨
        (ble2thResults collation database bdaddr).ping ≠ [] ∨
        (ble2thResults collation database bdaddr).unknown ≠ [] := by
    cases ble2thResults collation database bdaddr
    simp only [ne_eq, Ble2thResults.mk.injEq]
    tauto
  rw [someRow]
  unfold printBle2thprint
  simp only [andThen_eq_ok_iff, forM_eq_ok_iff, llCtrlPduOpcode_returns_iff, exists_and_left]
  refine and_congr_right fun _ => and_congr_right fun _ => and_congr_right fun _ => ?_
  split_ifs with some
  · simp only [andThen_eq_ok_iff, openFile_eq_ok_iff]
    constructor
    · exact fun ⟨_, opened, _⟩ _ => opened
    · exact fun opened => ⟨_, opened some, rfl⟩
  · exact iff_of_true ⟨_, rfl⟩ fun other => absurd other some

/-! ## The whole report -/

theorem printReport_eq_ok_iff (named : Text.strip bdaddr ≠ []) :
    printReport opens files collation database bdaddr = .ok () ↔
      Printable opens files collation database bdaddr := by
  have some : bdaddr ≠ [] := by
    rintro rfl
    exact named rfl
  have someLower : stripLower bdaddr ≠ [] := by
    unfold stripLower
    exact fun empty => named (List.map_eq_nil_iff.mp empty)
  have noClass : (∀ row ∈ LeRow.about collation (stripLower bdaddr) database.leCod,
      Except.error Fault.nameError = Except.ok ()) ↔
        LeRow.about collation (stripLower bdaddr) database.leCod = [] := by
    rw [List.eq_nil_iff_forall_not_mem]
    simp
  unfold printReport printDeviceNames printUuid16s printServiceSolicitUuid16s printUuid128s
    printServiceSolicitUuid128s printTransmitPower printAppearance printManufacturerData
    printClassOfDevice
  simp only [andThen_eq_ok_iff, discard_eq_ok_iff, printCompanyName_returns some, true_and,
    printClassicEirCidInfo_eq_ok_iff, printLeRows_eq_ok_iff some,
    printLeRows_eq_ok_iff someLower, forM_eq_ok_iff, convertUuid16s_eq_ok_iff,
    convertUuid128s_eq_ok_iff, decodeIBeacon_eq_ok_iff, noClass, printGattInfo_returns_iff,
    printBle2thprint_returns_iff, printBtc2thprint_returns_iff, implies_true]
  constructor
  · intro ⟨vendors, ⟨eir16, le16⟩, solicit16, ⟨eir128, le128⟩, solicit128, beacons, classes,
      ⟨appearances, gatt⟩, ⟨features, lengths, unknown, ble⟩, btc⟩
    exact ⟨vendors, eir16, le16, solicit16, eir128, le128, solicit128, beacons, classes,
      features, lengths, unknown, appearances, gatt, ble, btc⟩
  · intro rows
    exact ⟨rows.vendors, ⟨rows.eirUuid16s, rows.leUuid16s⟩, rows.solicitUuid16s,
      ⟨rows.eirUuid128s, rows.leUuid128s⟩, rows.solicitUuid128s, rows.beacons,
      rows.classOfDevice, ⟨rows.appearances, rows.gattFile⟩,
      ⟨rows.featuresOpcodes, rows.lengthsOpcodes, rows.unknownOpcodes, rows.bleFile⟩,
      rows.btcFile⟩

/-- The report loop completes exactly when every address has only rows that no print
function fails on. -/
theorem printReports_complete_iff (opens : Text → Bool) (files : NameFiles)
    (collation : Collation) (database : Database) (bdaddrs : List AskedBdaddr) :
    printReports opens files collation database bdaddrs = .ok () ↔
      ∀ bdaddr ∈ bdaddrs, Printable opens files collation database bdaddr.text := by
  unfold printReports
  rw [forM_eq_ok_iff]
  apply forall₂_congr
  intro bdaddr _
  exact printReport_eq_ok_iff bdaddr.named

private def headset : AskedBdaddr where
  text := "4a:00:00:00:00:01".toList
  named := by decide
  plain := by simp

/-- An LE device that advertises its class. -/
private def classRow : Database :=
  { Database.empty with leCod := [⟨headset.text, 1, 0, 0x240404⟩] }

/-- The report of a device with an LE Class of Device row raises. -/
theorem not_printReports_complete : ¬ ∀ (opens : Text → Bool) (files : NameFiles)
    (collation : Collation) (database : Database) (bdaddrs : List AskedBdaddr),
    printReports opens files collation database bdaddrs = .ok () := by
  intro completes
  have returns := completes (fun _ => true) ⟨[], [], [], []⟩ .ignoringCase classRow [headset]
  have raises : printReports (fun _ => true) ⟨[], [], [], []⟩ .ignoringCase classRow [headset] =
      .error .nameError := rfl
  rw [raises] at returns
  cases returns

end NaiveBTSniffing.Analysis
