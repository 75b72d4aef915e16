import NaiveBTSniffing.Library.Csv
import NaiveBTSniffing.Library.Dict
import NaiveBTSniffing.Library.Hex
import NaiveBTSniffing.Library.Lines

/-!
Contract: `parse_GATTPRINT_2db.py`, the importer of GATTprint logs.

The database is what the importer does with it: `query` gives the first row of
the query for the type of an address, and the rows that were inserted are kept
in their order. A row that is inserted stays when a later line ends the import.
The query is the text with the address pasted in, so it can be no query at all;
an insert only fails over a number that cannot be written in decimal digits.

Does not own the writers of the log (`Analysis.ImportRecords`).
-/

namespace NaiveBTSniffing.Analysis

open NaiveBTSniffing.Library
open NaiveBTSniffing.Library.Text

/-! ## Rows -/

/-- What a row of one of the four tables holds besides the device. -/
inductive Content where
  | service (beginHandle endHandle : Int) (uuid128 : Text)
  | characteristic (declarationHandle charProperties charValueHandle : Int)
      (charUuid128 : Text)
  | charValue (readHandle : Int) (byteValues : List UInt8)
  | descriptor (descriptorHandle : Int) (uuid128 : Text)
deriving DecidableEq, Repr

structure Row where
  deviceBdaddrType : Nat
  deviceBdaddr : Text
  content : Content
deriving DecidableEq, Repr

/-! ## The handlers -/

/-- How a handler ends. -/
inductive Handled where
  | stored (row : Row)
  /-- It returns without a row. -/
  | rejected
  /-- An error of a conversion or of the insert leaves it. -/
  | raised
deriving DecidableEq, Repr

/-- The numbers that a row holds besides the type of the address. -/
def Content.handles : Content → List Int
  | .service beginHandle endHandle _ => [beginHandle, endHandle]
  | .characteristic declarationHandle charProperties charValueHandle _ =>
      [declarationHandle, charProperties, charValueHandle]
  | .charValue readHandle _ => [readHandle]
  | .descriptor descriptorHandle _ => [descriptorHandle]

/-- `cursor.execute` of an `INSERT`, into which the connector writes the numbers. -/
def executeInsert (row : Row) : Handled :=
  if row.content.handles.all fun handle => (formatInt handle).isSome then .stored row
  else .raised

/-- The arguments of a line of the new format without the type. -/
def afterType (new : Bool) (args : List Text) : List Text :=
  if new then args.drop 1 else args

/-- `func_CHARACTERISTIC`. -/
def funcCharacteristic (deviceBdaddrType : Nat) (new : Bool) (args : List Text) : Handled :=
  match afterType new args with
  | [deviceBdaddr, declaration, properties, value, charUuid128] =>
      match parseInt 16 declaration, parseInt 16 properties, parseInt 16 value with
      | some declarationHandle, some charProperties, some charValueHandle =>
          executeInsert
            { deviceBdaddrType
              deviceBdaddr
              content :=
                .characteristic declarationHandle charProperties charValueHandle charUuid128 }
      | _, _, _ => .rejected
  | _ => .rejected

/-- `func_CHAR_VALUE`: no conversion is guarded. -/
def funcCharValue (deviceBdaddrType : Nat) (new : Bool) (args : List Text) : Handled :=
  match afterType new args with
  | [deviceBdaddr, read, byteValues] =>
      match parseInt 16 read, unhexlify byteValues with
      | some readHandle, some binaryString =>
          executeInsert
            { deviceBdaddrType, deviceBdaddr, content := .charValue readHandle binaryString }
      | _, _ => .raised
  | _ => .rejected

/-- `func_SERVICE`. -/
def funcService (deviceBdaddrType : Nat) (new : Bool) (args : List Text) : Handled :=
  match afterType new args with
  | [deviceBdaddr, beginText, endText, uuid128] =>
      match parseInt 16 beginText, parseInt 16 endText with
      | some beginHandle, some endHandle =>
          executeInsert
            { deviceBdaddrType, deviceBdaddr, content := .service beginHandle endHandle uuid128 }
      | _, _ => .rejected
  | _ => .rejected

/-- `func_DESCRIPTORS`: no conversion is guarded. -/
def funcDescriptors (deviceBdaddrType : Nat) (new : Bool) (args : List Text) : Handled :=
  match afterType new args with
  | [deviceBdaddr, descriptor, uuid128] =>
      match parseInt 16 descriptor with
      | some descriptorHandle =>
          executeInsert
            { deviceBdaddrType, deviceBdaddr, content := .descriptor descriptorHandle uuid128 }
      | none => .raised
  | _ => .rejected

/-! ## The type of the device -/

/-- The type in the cache, or else the given one, which is then cached. -/
def cachedType (typeCache : Dict Text Nat) (bdaddr : Text) (type : Nat) :
    Nat × Dict Text Nat :=
  match typeCache.lookup bdaddr with
  | some cached => (cached, typeCache)
  | none => (type, typeCache.setItem bdaddr type)

/-- The type that the word of a line of the new format stands for. -/
def typeOfWord (word : Text) : Nat :=
  if word = "public".toList then 0 else if word = "random".toList then 1 else 9

/-- What `sql_lookup_bdaddr_type` with an address pasted in gives: the type of the
first row, if there is a row, or `none` for an error, such as for a quote in the
address. -/
abbrev Query : Type := Text → Option (Option Nat)

/-- `lookup_device_bdaddr_type`, which an error of the query leaves: the type and
whether the line has the new format, or `none` for a line that is too short; and the
cache afterwards. -/
def lookupDeviceBdaddrType (query : Query) (typeCache : Dict Text Nat) (line : List Text) :
    Option (Option (Nat × Bool) × Dict Text Nat) :=
  match line with
  | _ :: second :: third :: _ =>
      if second.length = 17 then
        match typeCache.lookup second with
        | some cached => some (some (cached, false), typeCache)
        | none => (query second).map fun found =>
            (some (found.getD 9, false), typeCache.setItem second (found.getD 9))
      else
        let found := cachedType typeCache third (typeOfWord second)
        some (some (found.1, true), found.2)
  | _ => some (none, typeCache)

/-! ## The main loop -/

/-- The handler for the first field of a line. -/
def handlerOf (kind : Text) : Option (Nat → Bool → List Text → Handled) :=
  if kind = "GATTPRINT:CHARACTERISTIC".toList then some funcCharacteristic
  else if kind = "GATTPRINT:CHAR_VALUE".toList then some funcCharValue
  else if kind = "GATTPRINT:DESCRIPTORS".toList then some funcDescriptors
  else if kind = "GATTPRINT:SERVICE".toList then some funcService
  else none

structure Importer where
  typeCache : Dict Text Nat
  /-- The rows of the `INSERT` statements so far. -/
  rows : List Row

def Importer.initial : Importer where
  typeCache := ∅
  rows := []

/-- The body of the loop; the flag tells whether an error leaves it. -/
def importLine (query : Query) (importer : Importer) (line : List Text) :
    Importer × Bool :=
  match line with
  | [] => (importer, false)
  | kind :: args =>
      match handlerOf kind with
      | none => (importer, false)
      | some handler =>
          match lookupDeviceBdaddrType query importer.typeCache line with
          | none => (importer, true)
          | some (none, _) => (importer, false)
          | some (some (bdaddrType, new), typeCache) =>
              match handler bdaddrType new args with
              | .stored row => ({ typeCache, rows := importer.rows ++ [row] }, false)
              | .rejected => ({ importer with typeCache }, false)
              | .raised => ({ importer with typeCache }, true)

/-- `csv.field_size_limit()`. -/
def fieldSizeLimit : Nat := 131072

/-- The reader raises an error in place of a row with a longer field. -/
def tooLong (line : List Text) : Bool :=
  line.any fun field => decide (fieldSizeLimit < field.length)

/-- The loop over the lines of the reader, up to the first error. -/
def importLines (query : Query) : List (List Text) → Importer → Importer
  | [], importer => importer
  | line :: rest, importer =>
      if tooLong line then importer
      else
        let handled := importLine query importer line
        if handled.2 then handled.1 else importLines query rest handled.1

/-- The lines that the reader gives for a log. -/
def logLines (log : Text) : List (List Text) :=
  (Csv.records (translate log)).map Prod.snd

/-- The importer after a log. -/
def importLog (query : Query) (log : Text) : Importer :=
  importLines query (logLines log) .initial

example : (importLog (fun _ => some none)
    "\"GATTPRINT:CHAR_VALUE\",\"random\",\"AA:BB:CC:DD:EE:FF\",\"0x0003\",\"41ff\"\n".toList).rows =
    [{ deviceBdaddrType := 1, deviceBdaddr := "AA:BB:CC:DD:EE:FF".toList,
       content := .charValue 3 [0x41, 0xff] }] := by decide

end NaiveBTSniffing.Analysis
