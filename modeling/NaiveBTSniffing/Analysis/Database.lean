import NaiveBTSniffing.Library.Text

/-!
Contract: the tables of `create_all_db_tables.sh`, as `TellMeEverything.py`
reads them.

A table is the list of its rows in the order in which the server returns them.
Columns that no query of the modelled functions reads are left out. A column
that may be NULL is an `Option`. How the server compares texts is a parameter.

Owns: the rows, the list of tables that hold `device_bdaddr`, what a row shows of
the kind of its address, and a select from one table. Does not own any query of
the script.
-/

namespace NaiveBTSniffing.Analysis

open NaiveBTSniffing.Library

/-! ## Rows -/

/-- A row of an EIR, RSP or BTC2th table. -/
structure ClassicRow (Columns : Type) where
  deviceBdaddr : Text
  columns : Columns
deriving DecidableEq, Repr

/-- A row of an LE table. -/
structure LeRow (Columns : Type) where
  deviceBdaddr : Text
  bdaddrRandom : Int
  leEvtType : Int
  columns : Columns
deriving DecidableEq, Repr

/-- A row of a BLE2th or GATT table. -/
structure TypedRow (Columns : Type) where
  deviceBdaddrType : Int
  deviceBdaddr : Text
  columns : Columns
deriving DecidableEq, Repr

/-- `EIR_bdaddr_to_DevID`. -/
structure DevID where
  vendorIdSource : Int
  vendorId : Int
  productId : Int
  productVersion : Int
deriving DecidableEq, Repr

/-- `EIR_bdaddr_to_mf_specific`, `LE_bdaddr_to_mf_specific`. -/
structure MfSpecific where
  deviceBtCid : Int
  mfSpecificData : Text
deriving DecidableEq, Repr

/-- The tables of lists of UUIDs with a list type. -/
structure UuidList where
  listType : Int
  strUuids : Option Text
deriving DecidableEq, Repr

/-- `GATT_services`. -/
structure GattService where
  beginHandle : Nat
  endHandle : Nat
  uuid128 : Text
deriving DecidableEq, Repr

/-- `GATT_descriptors`. -/
structure GattDescriptor where
  descriptorHandle : Nat
  uuid128 : Text
deriving DecidableEq, Repr

/-- `GATT_characteristics`. -/
structure GattCharacteristic where
  declarationHandle : Nat
  charProperties : Nat
  charValueHandle : Nat
  charUuid128 : Text
deriving DecidableEq, Repr

/-- `GATT_characteristics_values`. -/
structure GattValue where
  readHandle : Nat
  byteValues : List Nat
deriving DecidableEq, Repr

/-- `BLE2th_LL_VERSION_IND`. -/
structure LlVersionInd where
  llVersion : Nat
  deviceBtCid : Nat
  llSubVersion : Nat
deriving DecidableEq, Repr

/-- `BLE2th_LL_FEATUREs`. -/
structure LlFeatures where
  opcode : Nat
  features : Nat
deriving DecidableEq, Repr

/-- `BLE2th_LL_PHYs`. -/
structure LlPhys where
  txPhys : Nat
  rxPhys : Nat
deriving DecidableEq, Repr

/-- `BLE2th_LL_LENGTHs`. -/
structure LlLengths where
  opcode : Nat
  maxRxOctets : Nat
  maxRxTime : Nat
  maxTxOctets : Nat
  maxTxTime : Nat
  rawBytes : Option Text
deriving DecidableEq, Repr

/-- `BTC2th_LMP_version_res`. -/
structure LmpVersionRes where
  lmpVersion : Nat
  deviceBtCid : Nat
  lmpSubVersion : Nat
deriving DecidableEq, Repr

/-- `BTC2th_LMP_features_res`. -/
structure LmpFeaturesRes where
  page : Nat
  features : Nat
deriving DecidableEq, Repr

/-- `IEEE_bdaddr_to_company`. -/
structure IeeeCompany where
  deviceBdaddr : Text
  companyName : Text
deriving DecidableEq, Repr

/-- The database `bt`. -/
structure Database where
  eirDevID : List (ClassicRow DevID)
  eirName : List (ClassicRow Text)
  eirTxPower : List (ClassicRow Int)
  eirPsrmCod : List (ClassicRow Int)
  eirUuid16s : List (ClassicRow UuidList)
  eirUuid32s : List (ClassicRow Unit)
  eirUuid128s : List (ClassicRow UuidList)
  eirFlags : List (ClassicRow Unit)
  eirMfSpecific : List (ClassicRow MfSpecific)
  rspName : List (ClassicRow Text)
  leName : List (LeRow Text)
  leUuid16s : List (LeRow UuidList)
  leUuid32s : List (LeRow Unit)
  leUuid128s : List (LeRow UuidList)
  leServiceData : List (LeRow Unit)
  leFlags : List (LeRow Unit)
  leTxPower : List (LeRow Int)
  leMfSpecific : List (LeRow MfSpecific)
  leOtherLeBdaddr : List (LeRow Unit)
  leAppearance : List (LeRow Int)
  leConnectInterval : List (LeRow Unit)
  leUuid16ServiceSolicit : List (LeRow (Option Text))
  leUuid128ServiceSolicit : List (LeRow (Option Text))
  lePublicTargetBdaddr : List (LeRow Unit)
  leUri : List (LeRow Unit)
  leCod : List (LeRow Int)
  gattServices : List (TypedRow GattService)
  gattDescriptors : List (TypedRow GattDescriptor)
  gattCharacteristics : List (TypedRow GattCharacteristic)
  gattCharacteristicsValues : List (TypedRow GattValue)
  ble2thLlVersionInd : List (TypedRow LlVersionInd)
  ble2thLlUnknownRsp : List (TypedRow Nat)
  ble2thLlFeatures : List (TypedRow LlFeatures)
  ble2thLlPhys : List (TypedRow LlPhys)
  ble2thLlPingRsp : List (TypedRow Nat)
  ble2thLlLengths : List (TypedRow LlLengths)
  btc2thLmpVersionRes : List (ClassicRow LmpVersionRes)
  btc2thLmpFeaturesRes : List (ClassicRow LmpFeaturesRes)
  btc2thLmpNameRes : List (ClassicRow Text)
  ieeeBdaddrToCompany : List IeeeCompany

/-- No row in any table. -/
def Database.empty : Database where
  eirDevID := []
  eirName := []
  eirTxPower := []
  eirPsrmCod := []
  eirUuid16s := []
  eirUuid32s := []
  eirUuid128s := []
  eirFlags := []
  eirMfSpecific := []
  rspName := []
  leName := []
  leUuid16s := []
  leUuid32s := []
  leUuid128s := []
  leServiceData := []
  leFlags := []
  leTxPower := []
  leMfSpecific := []
  leOtherLeBdaddr := []
  leAppearance := []
  leConnectInterval := []
  leUuid16ServiceSolicit := []
  leUuid128ServiceSolicit := []
  lePublicTargetBdaddr := []
  leUri := []
  leCod := []
  gattServices := []
  gattDescriptors := []
  gattCharacteristics := []
  gattCharacteristicsValues := []
  ble2thLlVersionInd := []
  ble2thLlUnknownRsp := []
  ble2thLlFeatures := []
  ble2thLlPhys := []
  ble2thLlPingRsp := []
  ble2thLlLengths := []
  btc2thLmpVersionRes := []
  btc2thLmpFeaturesRes := []
  btc2thLmpNameRes := []
  ieeeBdaddrToCompany := []

/-! ## Tables that hold `device_bdaddr` -/

/-- The prefixes of the names of the tables. -/
inductive Family where
  | eir
  | rsp
  | le
  | gatt
  | ble2th
  | btc2th
deriving DecidableEq, Repr

inductive Table where
  | eirBdaddrToDevID
  | eirBdaddrToName
  | eirBdaddrToTxPower
  | eirBdaddrToPsrmCod
  | eirBdaddrToUuid16s
  | eirBdaddrToUuid32s
  | eirBdaddrToUuid128s
  | eirBdaddrToFlags
  | eirBdaddrToMfSpecific
  | rspBdaddrToName
  | leBdaddrToName
  | leBdaddrToUuid16s
  | leBdaddrToUuid32s
  | leBdaddrToUuid128s
  | leBdaddrToServiceData
  | leBdaddrToFlags
  | leBdaddrToTxPower
  | leBdaddrToMfSpecific
  | leBdaddrToOtherLeBdaddr
  | leBdaddrToAppearance
  | leBdaddrToConnectInterval
  | leBdaddrToUuid16ServiceSolicit
  | leBdaddrToUuid128ServiceSolicit
  | leBdaddrToPublicTargetBdaddr
  | leBdaddrToUri
  | leBdaddrToCod
  | gattServices
  | gattDescriptors
  | gattCharacteristics
  | gattCharacteristicsValues
  | ble2thLlVersionInd
  | ble2thLlUnknownRsp
  | ble2thLlFeatures
  | ble2thLlPhys
  | ble2thLlPingRsp
  | ble2thLlLengths
  | btc2thLmpVersionRes
  | btc2thLmpFeaturesRes
  | btc2thLmpNameRes
deriving DecidableEq, Repr

def Table.family : Table → Family
  | .eirBdaddrToDevID | .eirBdaddrToName | .eirBdaddrToTxPower | .eirBdaddrToPsrmCod
  | .eirBdaddrToUuid16s | .eirBdaddrToUuid32s | .eirBdaddrToUuid128s | .eirBdaddrToFlags
  | .eirBdaddrToMfSpecific => .eir
  | .rspBdaddrToName => .rsp
  | .leBdaddrToName | .leBdaddrToUuid16s | .leBdaddrToUuid32s | .leBdaddrToUuid128s
  | .leBdaddrToServiceData | .leBdaddrToFlags | .leBdaddrToTxPower | .leBdaddrToMfSpecific
  | .leBdaddrToOtherLeBdaddr | .leBdaddrToAppearance | .leBdaddrToConnectInterval
  | .leBdaddrToUuid16ServiceSolicit | .leBdaddrToUuid128ServiceSolicit
  | .leBdaddrToPublicTargetBdaddr | .leBdaddrToUri | .leBdaddrToCod => .le
  | .gattServices | .gattDescriptors | .gattCharacteristics | .gattCharacteristicsValues => .gatt
  | .ble2thLlVersionInd | .ble2thLlUnknownRsp | .ble2thLlFeatures | .ble2thLlPhys
  | .ble2thLlPingRsp | .ble2thLlLengths => .ble2th
  | .btc2thLmpVersionRes | .btc2thLmpFeaturesRes | .btc2thLmpNameRes => .btc2th

/-- What a row says about its address: `bdaddr_random` or `device_bdaddr_type`,
where the table has such a column. -/
structure Shown where
  deviceBdaddr : Text
  random : Option Int
deriving DecidableEq, Repr

variable {Columns : Type}

def ClassicRow.shown (row : ClassicRow Columns) : Shown := ⟨row.deviceBdaddr, none⟩

def LeRow.shown (row : LeRow Columns) : Shown := ⟨row.deviceBdaddr, some row.bdaddrRandom⟩

def TypedRow.shown (row : TypedRow Columns) : Shown :=
  ⟨row.deviceBdaddr, some row.deviceBdaddrType⟩

/-- The rows of a table, as far as they are about the address. -/
def Database.shown (database : Database) : Table → List Shown
  | .eirBdaddrToDevID => database.eirDevID.map ClassicRow.shown
  | .eirBdaddrToName => database.eirName.map ClassicRow.shown
  | .eirBdaddrToTxPower => database.eirTxPower.map ClassicRow.shown
  | .eirBdaddrToPsrmCod => database.eirPsrmCod.map ClassicRow.shown
  | .eirBdaddrToUuid16s => database.eirUuid16s.map ClassicRow.shown
  | .eirBdaddrToUuid32s => database.eirUuid32s.map ClassicRow.shown
  | .eirBdaddrToUuid128s => database.eirUuid128s.map ClassicRow.shown
  | .eirBdaddrToFlags => database.eirFlags.map ClassicRow.shown
  | .eirBdaddrToMfSpecific => database.eirMfSpecific.map ClassicRow.shown
  | .rspBdaddrToName => database.rspName.map ClassicRow.shown
  | .leBdaddrToName => database.leName.map LeRow.shown
  | .leBdaddrToUuid16s => database.leUuid16s.map LeRow.shown
  | .leBdaddrToUuid32s => database.leUuid32s.map LeRow.shown
  | .leBdaddrToUuid128s => database.leUuid128s.map LeRow.shown
  | .leBdaddrToServiceData => database.leServiceData.map LeRow.shown
  | .leBdaddrToFlags => database.leFlags.map LeRow.shown
  | .leBdaddrToTxPower => database.leTxPower.map LeRow.shown
  | .leBdaddrToMfSpecific => database.leMfSpecific.map LeRow.shown
  | .leBdaddrToOtherLeBdaddr => database.leOtherLeBdaddr.map LeRow.shown
  | .leBdaddrToAppearance => database.leAppearance.map LeRow.shown
  | .leBdaddrToConnectInterval => database.leConnectInterval.map LeRow.shown
  | .leBdaddrToUuid16ServiceSolicit => database.leUuid16ServiceSolicit.map LeRow.shown
  | .leBdaddrToUuid128ServiceSolicit => database.leUuid128ServiceSolicit.map LeRow.shown
  | .leBdaddrToPublicTargetBdaddr => database.lePublicTargetBdaddr.map LeRow.shown
  | .leBdaddrToUri => database.leUri.map LeRow.shown
  | .leBdaddrToCod => database.leCod.map LeRow.shown
  | .gattServices => database.gattServices.map TypedRow.shown
  | .gattDescriptors => database.gattDescriptors.map TypedRow.shown
  | .gattCharacteristics => database.gattCharacteristics.map TypedRow.shown
  | .gattCharacteristicsValues => database.gattCharacteristicsValues.map TypedRow.shown
  | .ble2thLlVersionInd => database.ble2thLlVersionInd.map TypedRow.shown
  | .ble2thLlUnknownRsp => database.ble2thLlUnknownRsp.map TypedRow.shown
  | .ble2thLlFeatures => database.ble2thLlFeatures.map TypedRow.shown
  | .ble2thLlPhys => database.ble2thLlPhys.map TypedRow.shown
  | .ble2thLlPingRsp => database.ble2thLlPingRsp.map TypedRow.shown
  | .ble2thLlLengths => database.ble2thLlLengths.map TypedRow.shown
  | .btc2thLmpVersionRes => database.btc2thLmpVersionRes.map ClassicRow.shown
  | .btc2thLmpFeaturesRes => database.btc2thLmpFeaturesRes.map ClassicRow.shown
  | .btc2thLmpNameRes => database.btc2thLmpNameRes.map ClassicRow.shown

/-- The tables without a column for the kind of the address are the classic ones. -/
theorem random_eq_none_iff {database : Database} {table : Table} {shown : Shown}
    (row : shown ∈ database.shown table) :
    shown.random = none ↔
      table.family = .eir ∨ table.family = .rsp ∨ table.family = .btc2th := by
  cases table <;> obtain ⟨_, _, rfl⟩ := List.mem_map.mp row <;>
    simp [Table.family, ClassicRow.shown, LeRow.shown, TypedRow.shown]

/-! ## Comparing texts -/

/-- How the server compares texts: an equality of its own (the collations ignore
case and trailing blanks) and the pattern `LIKE CONCAT(start, '%')`. -/
structure Collation where
  same : Text → Text → Bool
  startsWith : Text → Text → Bool
  same_refl : ∀ text, same text text = true
  same_symm : ∀ {first second}, same first second = true → same second first = true
  same_trans : ∀ {first second third}, same first second = true → same second third = true →
    same first third = true
  startsWith_same : ∀ {start first second}, same first second = true →
    startsWith start first = true → startsWith start second = true

/-- Texts are compared without regard to the case of their letters. -/
def Collation.ignoringCase : Collation where
  same := fun first second => first.map Char.toLower == second.map Char.toLower
  startsWith := fun start text => (start.map Char.toLower).isPrefixOf (text.map Char.toLower)
  same_refl := fun text => beq_self_eq_true _
  same_symm := fun same => beq_iff_eq.mpr (beq_iff_eq.mp same).symm
  same_trans := fun first second =>
    beq_iff_eq.mpr ((beq_iff_eq.mp first).trans (beq_iff_eq.mp second))
  startsWith_same := fun same starts => by rw [← beq_iff_eq.mp same]; exact starts

/-- `SELECT DISTINCT`: of texts that the server takes for equal, one is kept. -/
def Collation.distinct (collation : Collation) : List Text → List Text
  | [] => []
  | text :: rest =>
      text :: (collation.distinct rest).filter fun other => !collation.same text other

theorem Collation.exists_distinct_iff (collation : Collation) (texts : List Text) (text : Text) :
    (∃ found ∈ collation.distinct texts, collation.same text found = true) ↔
      ∃ found ∈ texts, collation.same text found = true := by
  induction texts with
  | nil => rfl
  | cons first rest inductionHypothesis =>
      simp only [distinct, List.mem_cons, exists_eq_or_imp, List.mem_filter]
      constructor
      · rintro (here | ⟨found, ⟨member, _⟩, same⟩)
        · exact .inl here
        · exact .inr (inductionHypothesis.mp ⟨found, member, same⟩)
      · rintro (here | later)
        · exact .inl here
        · obtain ⟨found, member, same⟩ := inductionHypothesis.mpr later
          by_cases covered : collation.same first found = true
          · exact .inl (collation.same_trans same (collation.same_symm covered))
          · exact .inr ⟨found, ⟨member, by simpa using covered⟩, same⟩

/-! ## Selecting rows -/

/-- A member of a union of selects over the tables: `FROM table`, with
`WHERE bdaddr_random = value` (or `device_bdaddr_type`) where there is a value. -/
structure Select where
  table : Table
  randomIs : Option Int
deriving DecidableEq, Repr

/-- The select keeps a row that shows this. -/
def Select.Keeps (select : Select) (shown : Shown) : Prop :=
  select.randomIs = none ∨ shown.random = select.randomIs

instance (select : Select) (shown : Shown) : Decidable (select.Keeps shown) :=
  inferInstanceAs (Decidable (_ ∨ _))

/-- The addresses of the rows that the select keeps. -/
def Database.select (database : Database) (select : Select) : List Text :=
  ((database.shown select.table).filter fun shown => decide (select.Keeps shown)).map
    Shown.deviceBdaddr

/-- The columns of the rows about the address. -/
def ClassicRow.about (collation : Collation) (bdaddr : Text) (rows : List (ClassicRow Columns)) :
    List Columns :=
  (rows.filter fun row => collation.same bdaddr row.deviceBdaddr).map ClassicRow.columns

def LeRow.about (collation : Collation) (bdaddr : Text) (rows : List (LeRow Columns)) :
    List (LeRow Columns) :=
  rows.filter fun row => collation.same bdaddr row.deviceBdaddr

def TypedRow.about (collation : Collation) (bdaddr : Text) (rows : List (TypedRow Columns)) :
    List Columns :=
  (rows.filter fun row => collation.same bdaddr row.deviceBdaddr).map TypedRow.columns

section Same

variable {collation : Collation} {first second : Text}

/-- Two spellings of an address are the same to each row. -/
theorem Collation.same_congr (same : collation.same first second = true) (text : Text) :
    collation.same first text = collation.same second text := by
  rw [Bool.eq_iff_iff]
  exact ⟨collation.same_trans (collation.same_symm same), collation.same_trans same⟩

theorem ClassicRow.about_congr (same : collation.same first second = true)
    (rows : List (ClassicRow Columns)) :
    ClassicRow.about collation first rows = ClassicRow.about collation second rows := by
  simp only [ClassicRow.about, collation.same_congr same]

theorem LeRow.about_congr (same : collation.same first second = true)
    (rows : List (LeRow Columns)) :
    LeRow.about collation first rows = LeRow.about collation second rows := by
  simp only [LeRow.about, collation.same_congr same]

theorem TypedRow.about_congr (same : collation.same first second = true)
    (rows : List (TypedRow Columns)) :
    TypedRow.about collation first rows = TypedRow.about collation second rows := by
  simp only [TypedRow.about, collation.same_congr same]

end Same

/-- The table has a row about the address that shows this. -/
def Database.Shows (collation : Collation) (database : Database) (bdaddr : Text) (table : Table)
    (wanted : Shown → Prop) : Prop :=
  ∃ shown ∈ database.shown table, collation.same bdaddr shown.deviceBdaddr = true ∧ wanted shown

/-- The select finds a row about the address. -/
theorem any_select_iff (collation : Collation) (database : Database) (bdaddr : Text)
    (select : Select) :
    (database.select select).any (collation.same bdaddr) = true ↔
      database.Shows collation bdaddr select.table select.Keeps := by
  rw [List.any_eq_true]
  constructor
  · intro ⟨found, inside, same⟩
    obtain ⟨shown, kept, rfl⟩ := List.mem_map.mp inside
    obtain ⟨row, keeps⟩ := List.mem_filter.mp kept
    exact ⟨shown, row, same, of_decide_eq_true keeps⟩
  · intro ⟨shown, row, same, keeps⟩
    refine ⟨shown.deviceBdaddr, List.mem_map.mpr ⟨shown, ?_, rfl⟩, same⟩
    exact List.mem_filter.mpr ⟨row, decide_eq_true keeps⟩

end NaiveBTSniffing.Analysis
