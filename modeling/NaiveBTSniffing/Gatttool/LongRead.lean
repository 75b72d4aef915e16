import NaiveBTSniffing.Gatttool.Rounds

/-!
Contract: the read of one value, which may take several units.

The first answer holds as much of the value as fits into a unit, and so does each answer
to a further request, from the offset on that the client asks for. A client that goes on
until a unit is not full ends with the whole value (`read_complete`).

Does not own which values are read (`Gatttool.CompleteLog`).
-/

namespace NaiveBTSniffing.Gatttool

open NaiveBTSniffing.Library

/-- What of a value fits into a unit behind the opcode. -/
def partOf (value : List UInt8) (offset : Nat) : List UInt8 :=
  (value.drop offset).take (mtu - 1)

/-- The server has this value, of at most 512 bytes, for the handle. Behind the end of the
value it answers with an empty part, or with an error. -/
structure Server.Holds (server : Server) (handle : UInt16) (value : List UInt8) : Prop where
  short : value.length ≤ 512
  read : server (.read handle) = 0x0b :: partOf value 0
  blob : ∀ offset : UInt16, offset.toNat ≤ value.length →
    server (.readBlob handle offset) = 0x0d :: partOf value offset.toNat ∨
      (offset.toNat = value.length ∧ ∃ low high ecode, ecode ≠ 0 ∧
        server (.readBlob handle offset) = [opError, 0x0c, low, high, ecode])

/-- The request of a read that has these bytes so far. -/
def readRequest (handle : UInt16) : Option Pdu → Request
  | none => .read handle
  | some buffer => .readBlob handle (UInt16.ofNat (buffer.length - 1))

/-- `read_char_helper` or `read_blob_helper`, as the read has bytes already or not. -/
def readHelper (buffer : Option Pdu) (status : UInt8) (pdu : Pdu) : ReadNext :=
  match buffer with
  | none => readCharHelper status pdu
  | some bytes => readBlobHelper bytes status pdu

/-- What a read does with the answer that it gets. -/
def Server.reads (server : Server) (handle : UInt16) (buffer : Option Pdu) :
    Next (Option Pdu) (UInt8 × Pdu) :=
  let reply := server.reply (readRequest handle buffer)
  match readHelper buffer reply.1 reply.2 with
  | .more bytes => .more (some bytes)
  | .ended result => .ended result

theorem Server.reads_of_more {server : Server} {handle : UInt16} {buffer : Option Pdu}
    {bytes : Pdu}
    (asks : readHelper buffer (server.reply (readRequest handle buffer)).1
      (server.reply (readRequest handle buffer)).2 = .more bytes) :
    server.reads handle buffer = .more (some bytes) := by
  simp only [Server.reads, asks]

theorem Server.reads_of_ended {server : Server} {handle : UInt16} {buffer : Option Pdu}
    {result : UInt8 × Pdu}
    (ends : readHelper buffer (server.reply (readRequest handle buffer)).1
      (server.reply (readRequest handle buffer)).2 = .ended result) :
    server.reads handle buffer = .ended result := by
  simp only [Server.reads, ends]

section Parts

variable {server : Server} {handle : UInt16} {value : List UInt8}

theorem length_partOf (value : List UInt8) (offset : Nat) :
    (partOf value offset).length = min (mtu - 1) (value.length - offset) := by
  rw [partOf, List.length_take, List.length_drop]

/-- A part behind the bytes before it. -/
private theorem take_append_partOf (value : List UInt8) (offset : Nat) :
    value.take offset ++ partOf value offset = value.take (offset + (mtu - 1)) := by
  rw [partOf, List.take_add]

private theorem reply_of_part {request : Request} {opcode : UInt8} {offset : Nat}
    (answers : server request = opcode :: partOf value offset)
    (response : reqOpcode opcode = some request.opcode) (found : opcode ≠ opError) :
    server.reply request = (0, opcode :: partOf value offset) := by
  have short : (opcode :: partOf value offset).length ≤ mtu := by
    rw [List.length_cons, length_partOf, mtu]
    omega
  rw [Server.reply, answers, receive_of_response _ response found, List.take_of_length_le short]

private theorem reply_of_error {handle offset : UInt16} {low high ecode : UInt8}
    (answers : server (.readBlob handle offset) = [opError, 0x0c, low, high, ecode]) :
    server.reply (.readBlob handle offset) = (ecode, [opError, 0x0c, low, high, ecode]) := by
  have received := receive_of_error (.readBlob handle offset) low high ecode
  rw [Request.opcode] at received
  rw [Server.reply, answers, received]

/-- What an answer to a further request brings. -/
theorem reads_blob (holds : server.Holds handle value) {count : Nat}
    (before : count ≤ value.length) :
    server.reads handle (some (0x0b :: value.take count)) =
      if value.length - count < mtu - 1 then .ended (0, 0x0b :: value)
      else .more (some (0x0b :: value.take (count + (mtu - 1)))) := by
  have short := holds.short
  have length : (0x0b :: value.take count).length = count + 1 := by
    rw [List.length_cons, List.length_take, Nat.min_eq_left before]
  have offset : (UInt16.ofNat ((0x0b :: value.take count).length - 1)).toNat = count := by
    rw [length, UInt16.toNat_ofNat']
    omega
  have whole : value.length - count < mtu - 1 →
      value.take (count + (mtu - 1)) = value := fun last => List.take_of_length_le (by omega)
  unfold Server.reads readRequest readHelper
  rcases holds.blob (UInt16.ofNat ((0x0b :: value.take count).length - 1)) (by omega) with
    part | ⟨final, low, high, ecode, bad, error⟩
  · rw [reply_of_part part rfl (by decide), offset]
    have partLength := length_partOf value count
    by_cases nothing : count = value.length
    · have empty : partOf value count = [] := by
        rw [← List.length_eq_zero_iff, partLength]
        omega
      have all : value.take count = value := List.take_of_length_le (by omega)
      have last : value.length - count < mtu - 1 := by
        rw [mtu]
        omega
      simp only [readBlobHelper, empty, all, last, List.length_cons, List.length_nil, if_true,
        or_true]
    · have some : (0x0d :: partOf value count).length ≠ 1 := by
        rw [List.length_cons, partLength, mtu]
        omega
      have size : (count + 1 + ((0x0d :: partOf value count).length - 1)) % 2 ^ 16 =
          (0x0b :: value.take count ++ partOf value count).length := by
        rw [List.length_append, length, List.length_cons, partLength, mtu]
        omega
      have full : (0x0d :: partOf value count).length < mtu ↔ value.length - count < mtu - 1 := by
        rw [List.length_cons, partLength, mtu]
        omega
      simp only [readBlobHelper, some, ne_eq, not_true_eq_false, false_or, if_false, length,
        List.drop_one, List.tail_cons, size, List.take_length, full, List.cons_append,
        take_append_partOf]
      by_cases last : value.length - count < mtu - 1
      · simp only [last, if_true, whole last]
      · simp only [last, if_false]
  · rw [offset] at final
    have all : value.take count = value := List.take_of_length_le (by omega)
    have last : value.length - count < mtu - 1 := by
      rw [mtu]
      omega
    rw [reply_of_error error]
    simp only [readBlobHelper, bad, all, last, ne_eq, not_false_eq_true, true_or, if_true]

/-- What the answer to the first request brings. -/
theorem reads_first (holds : server.Holds handle value) :
    server.reads handle none =
      if value.length < mtu - 1 then .ended (0, 0x0b :: value)
      else .more (some (0x0b :: value.take (mtu - 1))) := by
  have part : partOf value 0 = value.take (mtu - 1) := by rw [partOf, List.drop_zero]
  have full : (0x0b :: partOf value 0).length < mtu ↔ value.length < mtu - 1 := by
    rw [List.length_cons, length_partOf, mtu]
    omega
  unfold Server.reads readRequest readHelper
  rw [reply_of_part holds.read rfl (by decide)]
  simp only [readCharHelper, ne_eq, not_true_eq_false, false_or, full]
  by_cases last : value.length < mtu - 1
  · have all : partOf value 0 = value := by
      rw [part, List.take_of_length_le (Nat.le_of_lt last)]
    simp only [last, if_true, all]
  · simp only [last, if_false, part]

/-- A read ends without an error and with the whole value. -/
theorem read_complete (holds : server.Holds handle value) :
    ∃ count, Converses (server.reads handle) none count (0, 0x0b :: value) := by
  have further : ∀ left count : Nat, value.length - count = left → count ≤ value.length →
      ∃ answers, Converses (server.reads handle) (some (0x0b :: value.take count)) answers
        (0, 0x0b :: value) := by
    intro left
    induction left using Nat.strongRecOn with
    | _ left inductionHypothesis =>
        intro count same before
        have answer := reads_blob holds before
        by_cases last : value.length - count < mtu - 1
        · rw [if_pos last] at answer
          exact ⟨1, .last answer⟩
        · rw [if_neg last] at answer
          have room : count + (mtu - 1) ≤ value.length := by omega
          have fewer : value.length - (count + (mtu - 1)) < left := by
            rw [mtu] at last ⊢
            omega
          obtain ⟨answers, rest⟩ := inductionHypothesis _ fewer _ rfl room
          exact ⟨answers + 1, .more answer rest⟩
  have answer := reads_first holds
  by_cases last : value.length < mtu - 1
  · rw [if_pos last] at answer
    exact ⟨1, .last answer⟩
  · rw [if_neg last] at answer
    obtain ⟨answers, rest⟩ := further _ (mtu - 1) rfl (Nat.le_of_not_lt last)
    exact ⟨answers + 1, .more answer rest⟩

end Parts

end NaiveBTSniffing.Gatttool
