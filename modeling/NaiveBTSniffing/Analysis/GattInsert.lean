import Mathlib.Data.List.DropRight
import NaiveBTSniffing.Analysis.Database
import NaiveBTSniffing.Analysis.ParseGattprint
import NaiveBTSniffing.Library.UniqueKey

/-!
Contract: what the `INSERT IGNORE` statements of `parse_GATTPRINT_2db.py` leave in the
GATT tables of `create_all_db_tables.sh`.

Owns the conversions of the columns, the unique keys of the four tables, and the columns
that a select by address finds afterwards. Does not own which rows the importer sends
(`Analysis.ParseGattprint`).
-/

namespace NaiveBTSniffing.Analysis

open NaiveBTSniffing.Library

/-! ## Columns -/

/-- `SMALLINT UNSIGNED`: a value out of range is replaced by the nearest one. -/
def smallintUnsigned (value : Int) : Nat := min value.toNat 65535

/-- `TINYINT UNSIGNED`. -/
def tinyintUnsigned (value : Int) : Nat := min value.toNat 255

/-- `CHAR`: a longer text is cut off, and blanks at the end are not kept. -/
def charColumn (width : Nat) (text : Text) : Text := (text.take width).rdropWhile (· == ' ')

/-- `BLOB`. -/
def blobColumn (bytes : List UInt8) : List Nat := (bytes.take 65535).map UInt8.toNat

namespace Content

/-- The columns of `GATT_services`. -/
def gattService : Content → Option GattService
  | .service beginHandle endHandle uuid128 => some
      { beginHandle := smallintUnsigned beginHandle
        endHandle := smallintUnsigned endHandle
        uuid128 := charColumn 36 uuid128 }
  | _ => none

/-- The columns of `GATT_descriptors`. -/
def gattDescriptor : Content → Option GattDescriptor
  | .descriptor descriptorHandle uuid128 => some
      { descriptorHandle := smallintUnsigned descriptorHandle
        uuid128 := charColumn 36 uuid128 }
  | _ => none

/-- The columns of `GATT_characteristics`. -/
def gattCharacteristic : Content → Option GattCharacteristic
  | .characteristic declarationHandle charProperties charValueHandle charUuid128 => some
      { declarationHandle := smallintUnsigned declarationHandle
        charProperties := tinyintUnsigned charProperties
        charValueHandle := smallintUnsigned charValueHandle
        charUuid128 := charColumn 36 charUuid128 }
  | _ => none

/-- The columns of `GATT_characteristics_values`. -/
def gattValue : Content → Option GattValue
  | .charValue readHandle byteValues => some
      { readHandle := smallintUnsigned readHandle, byteValues := blobColumn byteValues }
  | _ => none

end Content

/-- The row of a table that the statement inserts, if it is about this table. -/
def Row.inserted {Columns : Type} (columnsOf : Content → Option Columns) (row : Row) :
    Option (TypedRow Columns) :=
  (columnsOf row.content).map fun columns =>
    { deviceBdaddrType := row.deviceBdaddrType
      deviceBdaddr := charColumn 18 row.deviceBdaddr
      columns }

/-! ## Keys -/

section Keys

variable (collation : Collation)

/-- The rows agree in the columns of a key that all four tables have. -/
def sameDevice {Columns : Type} (first second : TypedRow Columns) : Bool :=
  decide (first.deviceBdaddrType = second.deviceBdaddrType) &&
    collation.same first.deviceBdaddr second.deviceBdaddr

def serviceKey (first second : TypedRow GattService) : Bool :=
  sameDevice collation first second &&
    decide (first.columns.beginHandle = second.columns.beginHandle) &&
    decide (first.columns.endHandle = second.columns.endHandle) &&
    collation.same first.columns.uuid128 second.columns.uuid128

def descriptorKey (first second : TypedRow GattDescriptor) : Bool :=
  sameDevice collation first second &&
    decide (first.columns.descriptorHandle = second.columns.descriptorHandle) &&
    collation.same first.columns.uuid128 second.columns.uuid128

def characteristicKey (first second : TypedRow GattCharacteristic) : Bool :=
  sameDevice collation first second &&
    decide (first.columns.declarationHandle = second.columns.declarationHandle) &&
    decide (first.columns.charProperties = second.columns.charProperties) &&
    decide (first.columns.charValueHandle = second.columns.charValueHandle) &&
    collation.same first.columns.charUuid128 second.columns.charUuid128

/-- The key takes the first 1024 bytes of a value. -/
def valueKey (first second : TypedRow GattValue) : Bool :=
  sameDevice collation first second &&
    decide (first.columns.readHandle = second.columns.readHandle) &&
    decide (first.columns.byteValues.take 1024 = second.columns.byteValues.take 1024)

end Keys

/-! ## Statements -/

variable {collation : Collation}

/-- One statement of the importer. -/
def Database.insertGatt (collation : Collation) (database : Database) (row : Row) : Database :=
  { database with
    gattServices := insertAll (serviceKey collation) database.gattServices
      (row.inserted Content.gattService).toList
    gattDescriptors := insertAll (descriptorKey collation) database.gattDescriptors
      (row.inserted Content.gattDescriptor).toList
    gattCharacteristics := insertAll (characteristicKey collation) database.gattCharacteristics
      (row.inserted Content.gattCharacteristic).toList
    gattCharacteristicsValues := insertAll (valueKey collation) database.gattCharacteristicsValues
      (row.inserted Content.gattValue).toList }

/-- All statements of a run of the importer. -/
def Database.importGatt (collation : Collation) (database : Database) (rows : List Row) : Database :=
  rows.foldl (Database.insertGatt collation) database

/-- The statements for one of the tables, one after the other. -/
private theorem foldl_insertGatt {Columns : Type} {same : TypedRow Columns → TypedRow Columns → Bool}
    (table : Database → List (TypedRow Columns)) (columnsOf : Content → Option Columns)
    (one : ∀ database row, table (database.insertGatt collation row) =
      insertAll same (table database) (row.inserted columnsOf).toList)
    (database : Database) (rows : List Row) :
    table (database.importGatt collation rows) =
      insertAll same (table database) (rows.filterMap (Row.inserted columnsOf)) := by
  induction rows generalizing database with
  | nil => rfl
  | cons row rows inductionHypothesis =>
      have first : database.importGatt collation (row :: rows) =
          (database.insertGatt collation row).importGatt collation rows := rfl
      rw [first, inductionHypothesis, one]
      cases made : row.inserted columnsOf with
      | none =>
          rw [List.filterMap_cons_none made, Option.toList_none]
          rfl
      | some typed =>
          rw [List.filterMap_cons_some made, Option.toList_some]
          rfl

section Tables

variable (database : Database) (rows : List Row)

theorem gattServices_importGatt :
    (database.importGatt collation rows).gattServices =
      insertAll (serviceKey collation) database.gattServices
        (rows.filterMap (Row.inserted Content.gattService)) :=
  foldl_insertGatt Database.gattServices Content.gattService (fun _ _ => rfl) database rows

theorem gattDescriptors_importGatt :
    (database.importGatt collation rows).gattDescriptors =
      insertAll (descriptorKey collation) database.gattDescriptors
        (rows.filterMap (Row.inserted Content.gattDescriptor)) :=
  foldl_insertGatt Database.gattDescriptors Content.gattDescriptor (fun _ _ => rfl) database rows

theorem gattCharacteristics_importGatt :
    (database.importGatt collation rows).gattCharacteristics =
      insertAll (characteristicKey collation) database.gattCharacteristics
        (rows.filterMap (Row.inserted Content.gattCharacteristic)) :=
  foldl_insertGatt Database.gattCharacteristics Content.gattCharacteristic (fun _ _ => rfl)
    database rows

theorem gattCharacteristicsValues_importGatt :
    (database.importGatt collation rows).gattCharacteristicsValues =
      insertAll (valueKey collation) database.gattCharacteristicsValues
        (rows.filterMap (Row.inserted Content.gattValue)) :=
  foldl_insertGatt Database.gattCharacteristicsValues Content.gattValue (fun _ _ => rfl) database
    rows

end Tables

/-! ## What a select finds -/

section Select

variable {Columns : Type} {same : TypedRow Columns → TypedRow Columns → Bool}

/-- A select by address finds each of the columns that were inserted for the address once,
if there was nothing about the address before. -/
theorem about_insertAll (device : Columns → TypedRow Columns) {bdaddr : Text}
    {table rows : List (TypedRow Columns)} {wanted : List Columns}
    (refl : ∀ row, same row row = true)
    (sound : ∀ first second, same first second = true → sameDevice collation first second = true)
    (before : TypedRow.about collation bdaddr table = []) (nodup : wanted.Nodup)
    (columns : ∀ own, (device own).columns = own)
    (inserted : ∀ row, row ∈ rows ∧ collation.same bdaddr row.deviceBdaddr = true ↔
      ∃ own ∈ wanted, device own = row)
    (keys : ∀ first ∈ wanted, ∀ second ∈ wanted, same (device first) (device second) = true →
      first = second) :
    (TypedRow.about collation bdaddr (insertAll same table rows)).Perm wanted := by
  have respects : ∀ first second, same first second = true →
      collation.same bdaddr first.deviceBdaddr = collation.same bdaddr second.deviceBdaddr := by
    intro first second equal
    have texts := (Bool.and_eq_true_iff.mp (sound first second equal)).2
    apply Bool.eq_iff_iff.mpr
    exact ⟨fun here => collation.same_trans here texts,
      fun here => collation.same_trans here (collation.same_symm texts)⟩
  have nothing : table.filter (fun row => collation.same bdaddr row.deviceBdaddr) = [] :=
    List.map_eq_nil_iff.mp before
  rw [TypedRow.about, filter_insertAll respects, nothing]
  have own : ∀ wanted : List Columns, (wanted.map device).map TypedRow.columns = wanted := by
    intro wanted
    rw [List.map_map]
    exact (List.map_congr_left fun own _ => columns own).trans (List.map_id wanted)
  have injective : Function.Injective device :=
    fun first second equal => by
      rw [← columns first, equal, columns second]
  rw [← own wanted]
  apply List.Perm.map
  apply perm_insertAll refl (nodup.map injective)
  · intro row
    rw [List.mem_filter, inserted row, List.mem_map]
  · intro first isFirst second isSecond equal
    obtain ⟨one, here, rfl⟩ := List.mem_map.mp isFirst
    obtain ⟨other, there, rfl⟩ := List.mem_map.mp isSecond
    rw [keys one here other there equal]

end Select

end NaiveBTSniffing.Analysis
