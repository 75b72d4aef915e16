import NaiveBTSniffing.Library.Text

/-!
Contract: the lines that the modified `gatttool` writes to its log.

A `Record` is what one `fprintf` to the log prints; `Record.line` is the text.
Used by the model of `gatttool` and by the model of its importer.
-/

namespace NaiveBTSniffing.Gatttool

open NaiveBTSniffing.Library

/-- A 128-bit UUID. -/
abbrev Uuid : Type := BitVec 128

/-- `bt_uuid_to_string`: `%.8x-%.4x-%.4x-%.4x-%.8x%.4x`. -/
def uuidText (uuid : Uuid) : Text :=
  let value := uuid.toNat
  Text.hexPadded 8 (value / 2 ^ 96) ++ '-' :: Text.hexPadded 4 (value / 2 ^ 80 % 2 ^ 16) ++
    '-' :: Text.hexPadded 4 (value / 2 ^ 64 % 2 ^ 16) ++
    '-' :: Text.hexPadded 4 (value / 2 ^ 48 % 2 ^ 16) ++
    '-' :: Text.hexPadded 8 (value / 2 ^ 16 % 2 ^ 32) ++ Text.hexPadded 4 (value % 2 ^ 16)

/-- What the callbacks of `gatttool` write to the log. -/
inductive Record where
  | service (start endHandle : UInt16) (uuid : Uuid)
  | characteristic (handle : UInt16) (properties : UInt8) (valueHandle : UInt16) (uuid : Uuid)
  | descriptor (handle : UInt16) (uuid : Uuid)
  | charValue (handle : UInt16) (value : List UInt8)
deriving DecidableEq, Repr

/-- `0x%04x`. -/
def handleText (handle : UInt16) : Text :=
  "0x".toList ++ Text.hexPadded 4 handle.toNat

/-- A field of a line: the text between quotes. -/
def quoted (text : Text) : Text := '"' :: text ++ ['"']

/-- The word at the start of the line. -/
def Record.kind : Record → Text
  | .service .. => "GATTPRINT:SERVICE".toList
  | .characteristic .. => "GATTPRINT:CHARACTERISTIC".toList
  | .descriptor .. => "GATTPRINT:DESCRIPTORS".toList
  | .charValue .. => "GATTPRINT:CHAR_VALUE".toList

/-- What follows the address on the line. -/
def Record.details : Record → List Text
  | .service start endHandle uuid => [handleText start, handleText endHandle, uuidText uuid]
  | .characteristic handle properties valueHandle uuid =>
      [handleText handle, "0x".toList ++ Text.hexPadded 2 properties.toNat,
        handleText valueHandle, uuidText uuid]
  | .descriptor handle uuid => [handleText handle, uuidText uuid]
  | .charValue handle value =>
      [handleText handle, value.flatMap fun byte => Text.hexPadded 2 byte.toNat]

/-- The line of a record, for the device type and the address of the command
line. -/
def Record.line (dstType dst : Text) (record : Record) : Text :=
  List.intercalate [','] ((record.kind :: dstType :: dst :: record.details).map quoted) ++ ['\n']

example : (Record.charValue 3 [0x41, 0xff]).line "public".toList "AA:BB".toList =
    "\"GATTPRINT:CHAR_VALUE\",\"public\",\"AA:BB\",\"0x0003\",\"41ff\"\n".toList := by decide

end NaiveBTSniffing.Gatttool
