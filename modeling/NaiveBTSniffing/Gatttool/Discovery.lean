import NaiveBTSniffing.Gatttool.Att
import NaiveBTSniffing.Library.Conversation

/-!
Contract: the discovery procedures and the long read of `attrib/gatt.c`.

Each callback is a function of the state kept for its procedure and of the
status and unit it is called with. It sends the next request (`Next.more`) or
calls the callback of the application (`Next.ended`). Allocation does not fail.

Does not own the queue in which the requests wait (`Gatttool.Tool`).
-/

namespace NaiveBTSniffing.Gatttool

open NaiveBTSniffing.Library

/-! ## Primary services -/

/-- `struct gatt_primary`. -/
structure Primary where
  start : UInt16
  endHandle : UInt16
  uuid : Uuid
deriving DecidableEq, Repr

/-- `struct discover_primary`. -/
structure DiscoverPrimary where
  start : UInt16
  primaries : List Primary
deriving DecidableEq, Repr

/-- One entry of a Read By Group Type response. -/
def Primary.ofEntry (stray : Stray) (wide : Bool) (entry : List UInt8) : Primary where
  start := getLe16 (stray.read entry) 0
  endHandle := getLe16 (stray.read entry) 2
  uuid := getUuid128 wide (stray.read entry) 4

/-- `primary_all_cb` of `gatt.c`. -/
def primaryAllCb (stray : Stray) (dp : DiscoverPrimary) (status : UInt8) (pdu : Pdu) :
    Next DiscoverPrimary (UInt8 × List Primary) :=
  if status ≠ 0 then
    .ended (if status = ecodeAttrNotFound then 0 else status, dp.primaries)
  else match decReadByGrpResp stray pdu with
    | none => .ended (ecodeIo, dp.primaries)
    | some list =>
        if list.len = 6 ∨ list.len = 20 then
          let found := list.data.map (Primary.ofEntry stray (decide (list.len = 20)))
          let primaries := dp.primaries ++ found
          let last := (found.getLast?.map Primary.endHandle).getD 0
          if last < dp.start then .ended (ecodeUnlikely, primaries)
          else if last ≠ 0xffff then .more { start := last + 1, primaries }
          else .ended (0, primaries)
        else .ended (ecodeInvalidPdu, dp.primaries)

/-! ## Characteristics -/

/-- `struct gatt_char`. -/
structure Characteristic where
  handle : UInt16
  properties : UInt8
  valueHandle : UInt16
  uuid : Uuid
deriving DecidableEq, Repr

/-- `(chars->properties & 0x2) == 0x2`. -/
def Characteristic.readable (chars : Characteristic) : Bool :=
  decide (chars.properties &&& 0x2 = 0x2)

/-- `struct discover_char`, without a UUID to look for. -/
structure DiscoverChar where
  start : UInt16
  characteristics : List Characteristic
deriving DecidableEq, Repr

/-- One entry of a Read By Type response. -/
def Characteristic.ofEntry (stray : Stray) (wide : Bool) (entry : List UInt8) :
    Characteristic where
  handle := getLe16 (stray.read entry) 0
  properties := stray.read entry 2
  valueHandle := getLe16 (stray.read entry) 3
  uuid := getUuid128 wide (stray.read entry) 5

/-- `char_discovered_cb` of `gatt.c`, up to handle `0xffff`. -/
def charDiscoveredCb (stray : Stray) (dc : DiscoverChar) (status : UInt8) (pdu : Pdu) :
    Next DiscoverChar (UInt8 × List Characteristic) :=
  if status = ecodeAttrNotFound then
    .ended (if dc.characteristics.isEmpty then status else 0, dc.characteristics)
  else if status ≠ 0 then .ended (status, dc.characteristics)
  else match decReadByTypeResp stray pdu with
    | none => .ended (ecodeIo, dc.characteristics)
    | some list =>
        let found := list.data.map (Characteristic.ofEntry stray (decide (list.len ≠ 7)))
        let characteristics := dc.characteristics ++ found
        let last := (found.getLast?.map Characteristic.handle).getD 0
        if last < dc.start then .ended (ecodeUnlikely, characteristics)
        else if last ≠ 0 ∧ last + 1 < 0xffff then .more { start := last + 1, characteristics }
        else .ended (0, characteristics)

/-! ## Descriptors -/

/-- `struct gatt_desc`. -/
structure Descriptor where
  handle : UInt16
  uuid : Uuid
deriving DecidableEq, Repr

/-- `struct discover_desc`, without a UUID to look for. -/
structure DiscoverDesc where
  start : UInt16
  descriptors : List Descriptor
deriving DecidableEq, Repr

/-- One entry of a Find Information response. -/
def Descriptor.ofEntry (stray : Stray) (wide : Bool) (entry : List UInt8) : Descriptor where
  handle := getLe16 (stray.read entry) 0
  uuid := getUuid128 wide (stray.read entry) 2

/-- `desc_discovered_cb` of `gatt.c`, up to handle `0xffff`. -/
def descDiscoveredCb (stray : Stray) (dd : DiscoverDesc) (status : UInt8) (pdu : Pdu) :
    Next DiscoverDesc (UInt8 × List Descriptor) :=
  if status = ecodeAttrNotFound then
    .ended (if dd.descriptors.isEmpty then status else 0, dd.descriptors)
  else if status ≠ 0 then .ended (status, dd.descriptors)
  else match decFindInfoResp stray pdu with
    | none => .ended (ecodeIo, dd.descriptors)
    | some (list, format) =>
        let found := list.data.map (Descriptor.ofEntry stray (decide (format ≠ 0x01)))
        let descriptors := dd.descriptors ++ found
        let last := (found.getLast?.map Descriptor.handle).getD 0xffff
        if last < dd.start then .ended (ecodeUnlikely, descriptors)
        else if last < 0xffff then .more { start := last + 1, descriptors }
        else .ended (0, descriptors)

/-! ## Reading a characteristic -/

/-- What a read does with an answer: it asks for the rest of a long value, with
the bytes so far, or it calls `char_read_cb` with a status and a unit. -/
abbrev ReadNext : Type := Next Pdu (UInt8 × Pdu)

/-- `read_char_helper`. -/
def readCharHelper (status : UInt8) (pdu : Pdu) : ReadNext :=
  if status ≠ 0 ∨ pdu.length < mtu then .ended (status, pdu) else .more pdu

/-- `read_blob_helper`: the size of the buffer has 16 bits. -/
def readBlobHelper (buffer : Pdu) (status : UInt8) (pdu : Pdu) : ReadNext :=
  if status ≠ 0 ∨ pdu.length = 1 then .ended (0, buffer)
  else
    let size := (buffer.length + (pdu.length - 1)) % 2 ^ 16
    let grown := (buffer ++ pdu.drop 1).take size
    if pdu.length < mtu then .ended (0, grown) else .more grown

end NaiveBTSniffing.Gatttool
