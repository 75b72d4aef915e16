import NaiveBTSniffing.Gatttool.Record

/-!
Contract: the ATT protocol data units as BlueZ sends and decodes them.

Owns the requests of `gatttool`, what `src/shared/att.c` makes of a received
unit for the request that is outstanding, and the decoders of `attrib/att.c`
with their length checks. Memory that the code reads without having set it is a
parameter, `Stray`.
-/

namespace NaiveBTSniffing.Gatttool

/-- The bytes of a protocol data unit, the opcode first. -/
abbrev Pdu : Type := List UInt8

/-- What the code finds where it reads memory that it has not set. -/
structure Stray where
  /-- The byte this far from the start of a buffer, behind its end. -/
  byte : Nat → UInt8
  /-- The handle behind the unset pointer `desc`, or `none` when following it
  ends the process. -/
  descHandle : Option UInt16

/-- `ATT_DEFAULT_LE_MTU`: at most so many bytes of a unit are read. -/
def mtu : Nat := 23

/-! ## Error codes -/

def ecodeInvalidPdu : UInt8 := 0x04

def ecodeAttrNotFound : UInt8 := 0x0a

def ecodeUnlikely : UInt8 := 0x0e

def ecodeIo : UInt8 := 0x80

/-! ## Requests -/

/-- A request of `gatttool`. The discovery requests all end at handle `0xffff`. -/
inductive Request where
  | readByGroup (start : UInt16)
  | readByType (start : UInt16)
  | findInfo (start : UInt16)
  | read (handle : UInt16)
  | readBlob (handle offset : UInt16)
deriving DecidableEq, Repr

def Request.opcode : Request → UInt8
  | .readByGroup _ => 0x10
  | .readByType _ => 0x08
  | .findInfo _ => 0x04
  | .read _ => 0x0a
  | .readBlob .. => 0x0c

/-- `BT_ATT_OP_ERROR_RSP`. -/
def opError : UInt8 := 0x01

/-- `att_req_rsp_mapping_table`: the request that a response answers. -/
def reqOpcode (response : UInt8) : Option UInt8 :=
  [(0x03, 0x02), (0x05, 0x04), (0x07, 0x06), (0x09, 0x08), (0x0b, 0x0a), (0x0d, 0x0c),
    (0x0f, 0x0e), (0x11, 0x10), (0x13, 0x12), (0x17, 0x16), (0x19, 0x18)].lookup response

/-- The opcodes that `att_opcode_type_table` lists as responses. -/
def isResponse (opcode : UInt8) : Bool :=
  opcode == opError || (reqOpcode opcode).isSome

/-! ## Receiving -/

/-- What a received unit means for the outstanding request. -/
inductive Received where
  /-- Not a response. -/
  | ignored
  /-- The request is sent again with a higher security level. -/
  | retried
  /-- The callback of the request is called with this status and this unit. -/
  | answered (status : UInt8) (pdu : Pdu)
deriving DecidableEq, Repr

/-- A request that fails without a unit: the callback gets an error response
with no content. -/
def failed : Received := .answered ecodeUnlikely [opError]

/-- The error codes that `change_security` answers with a higher level. -/
def asksForSecurity (ecode : UInt8) : Bool := ecode == 0x05 || ecode == 0x0f

/-- `can_read_data` and `handle_rsp` for the request that is outstanding;
`raised` tells whether the kernel takes a higher security level. -/
def receive (request : Request) (unit : Pdu) (raised : Bool) : Received :=
  match unit.take mtu with
  | [] => .ignored
  | opcode :: content =>
      if !isResponse opcode then .ignored
      else if opcode = opError then
        match content with
        | [requestOpcode, _, _, ecode] =>
            if asksForSecurity ecode && raised then .retried
            else if requestOpcode = request.opcode then .answered ecode (opcode :: content)
            else failed
        | _ => failed
      else if reqOpcode opcode = some request.opcode then .answered 0 (opcode :: content)
      else failed

/-! ## Decoding -/

/-- `get_le16`. -/
def getLe16 (bytes : Nat → UInt8) (offset : Nat) : UInt16 :=
  UInt16.ofNat ((bytes offset).toNat + 256 * (bytes (offset + 1)).toNat)

/-- The bytes of a buffer, and what lies behind it. -/
def Stray.read (stray : Stray) (buffer : List UInt8) (offset : Nat) : UInt8 :=
  buffer.getD offset (stray.byte offset)

/-- `struct att_data_list`: entries of one length. -/
structure AttDataList where
  len : Nat
  data : List (List UInt8)
deriving DecidableEq, Repr

/-- The first `num` entries of the bytes from offset 2 on. -/
def entries (bytes : Nat → UInt8) (num elen : Nat) : List (List UInt8) :=
  (List.range num).map fun i => (List.range elen).map fun j => bytes (2 + i * elen + j)

/-- The part that `dec_read_by_grp_resp` and `dec_read_by_type_resp` share. -/
def decDataList (stray : Stray) (opcode : UInt8) (minLength minElen : Nat) (pdu : Pdu) :
    Option AttDataList :=
  let elen := (stray.read pdu 1).toNat
  if stray.read pdu 0 ≠ opcode ∨ pdu.length < minLength ∨ elen < minElen ∨
      (pdu.length - 2) % elen ≠ 0 then none
  else some { len := elen, data := entries (stray.read pdu) ((pdu.length - 2) / elen) elen }

def decReadByGrpResp (stray : Stray) : Pdu → Option AttDataList :=
  decDataList stray 0x11 7 5

def decReadByTypeResp (stray : Stray) : Pdu → Option AttDataList :=
  decDataList stray 0x09 5 3

/-- `dec_find_info_resp`: the entries and the format. The length of the unit is
not checked, so `len - 2` wraps for a unit of one byte. -/
def decFindInfoResp (stray : Stray) (pdu : Pdu) : Option (AttDataList × UInt8) :=
  if stray.read pdu 0 ≠ 0x05 then none
  else
    let format := stray.read pdu 1
    let elen := if format = 0x01 then 4 else if format = 0x02 then 18 else 2
    let num := (pdu.length + 2 ^ 64 - 2) % 2 ^ 64 / elen % 2 ^ 16
    some ({ len := elen, data := entries (stray.read pdu) num elen }, format)

/-- `dec_read_resp` with a buffer as long as the unit. -/
def decReadResp (pdu : Pdu) : Option (List UInt8) :=
  match pdu with
  | opcode :: value => if opcode = 0x0b then some value else none
  | [] => none

/-! ## UUIDs -/

/-- The value of little-endian bytes. -/
def leValue (bytes : List UInt8) : Nat :=
  bytes.foldr (fun byte value => byte.toNat + 256 * value) 0

/-- The UUID `00000000-0000-1000-8000-00805f9b34fb`. -/
def baseUuid : Uuid := 0x00000000_0000_1000_8000_00805f9b34fb

/-- `get_uuid128`: a 16-bit UUID stands in the base UUID. -/
def getUuid128 (wide : Bool) (bytes : Nat → UInt8) (offset : Nat) : Uuid :=
  if wide then
    BitVec.ofNat 128 (leValue ((List.range 16).map fun i => bytes (offset + i)))
  else
    baseUuid + BitVec.ofNat 128 ((getLe16 bytes offset).toNat * 2 ^ 96)

end NaiveBTSniffing.Gatttool
