import NaiveBTSniffing.Gatttool.Att

/-!
Contract: the encoders of `attrib/att.c` beside its decoders.

Owns: numbers and UUIDs in the byte order of the protocol, the requests with a range
of handles, and the lists of entries of one length. A list that a decoder accepts is
one that the encoder writes, and the other way round (`decDataList_iff`).

Does not own what an entry means (`Gatttool.AttributeTable`).
-/

namespace NaiveBTSniffing.Gatttool

/-! ## Numbers -/

/-- `put_le16`. -/
def putLe16 (value : UInt16) : List UInt8 :=
  [UInt8.ofNat value.toNat, UInt8.ofNat (value.toNat / 256)]

@[simp] theorem length_putLe16 (value : UInt16) : (putLe16 value).length = 2 := rfl

theorem getLe16_eq {bytes : Nat → UInt8} {offset : Nat} {value : UInt16}
    (low : bytes offset = UInt8.ofNat value.toNat)
    (high : bytes (offset + 1) = UInt8.ofNat (value.toNat / 256)) :
    getLe16 bytes offset = value := by
  have bound := value.toNat_lt
  apply UInt16.toNat_inj.mp
  simp only [getLe16, low, high, UInt16.toNat_ofNat', UInt8.toNat_ofNat']
  omega

/-- Two bytes are the number that they stand for. -/
theorem putLe16_getLe16 (bytes : Nat → UInt8) (offset : Nat) :
    putLe16 (getLe16 bytes offset) = [bytes offset, bytes (offset + 1)] := by
  have low := (bytes offset).toNat_lt
  have high := (bytes (offset + 1)).toNat_lt
  have value : (getLe16 bytes offset).toNat =
      (bytes offset).toNat + 256 * (bytes (offset + 1)).toNat := by
    rw [getLe16, UInt16.toNat_ofNat']
    omega
  unfold putLe16
  rw [value]
  congr 1
  · apply UInt8.toNat_inj.mp
    rw [UInt8.toNat_ofNat']
    omega
  · congr 1
    apply UInt8.toNat_inj.mp
    rw [UInt8.toNat_ofNat']
    omega

/-- The little-endian bytes of a number. -/
def leBytes : Nat → Nat → List UInt8
  | 0, _ => []
  | count + 1, value => UInt8.ofNat value :: leBytes count (value / 256)

@[simp] theorem length_leBytes (count value : Nat) : (leBytes count value).length = count := by
  induction count generalizing value with
  | zero => rfl
  | succ count inductionHypothesis => rw [leBytes, List.length_cons, inductionHypothesis]

theorem leValue_leBytes {count value : Nat} (bound : value < 256 ^ count) :
    leValue (leBytes count value) = value := by
  induction count generalizing value with
  | zero =>
      rw [Nat.pow_zero] at bound
      simp only [leBytes, leValue, List.foldr_nil]
      omega
  | succ count inductionHypothesis =>
      have smaller : value / 256 < 256 ^ count := by
        rw [Nat.pow_succ] at bound
        omega
      have rest := inductionHypothesis smaller
      simp only [leValue] at rest
      simp only [leBytes, leValue, List.foldr_cons, rest, UInt8.toNat_ofNat']
      omega

theorem leValue_lt (bytes : List UInt8) : leValue bytes < 256 ^ bytes.length := by
  induction bytes with
  | nil => decide
  | cons byte rest inductionHypothesis =>
      have bound := byte.toNat_lt
      simp only [leValue, List.foldr_cons, List.length_cons, Nat.pow_succ] at inductionHypothesis ⊢
      omega

theorem leBytes_leValue (bytes : List UInt8) :
    leBytes bytes.length (leValue bytes) = bytes := by
  induction bytes with
  | nil => rfl
  | cons byte rest inductionHypothesis =>
      have bound := byte.toNat_lt
      have low : UInt8.ofNat (leValue (byte :: rest)) = byte := by
        apply UInt8.toNat_inj.mp
        simp only [leValue, List.foldr_cons, UInt8.toNat_ofNat']
        omega
      have high : leValue (byte :: rest) / 256 = leValue rest := by
        simp only [leValue, List.foldr_cons]
        omega
      rw [List.length_cons, leBytes, low, high, inductionHypothesis]

/-! ## UUIDs -/

/-- `bt_uuid_t` with its type. -/
inductive BtUuid where
  | uuid16 (value : UInt16)
  | uuid32 (value : UInt32)
  | uuid128 (value : Uuid)
deriving DecidableEq, Repr

/-- `bt_uuid_to_uuid128`: a short UUID stands in the base UUID. -/
def BtUuid.toUuid128 : BtUuid → Uuid
  | .uuid16 value => baseUuid + BitVec.ofNat 128 (value.toNat * 2 ^ 96)
  | .uuid32 value => baseUuid + BitVec.ofNat 128 (value.toNat * 2 ^ 96)
  | .uuid128 value => value

/-- The UUID takes 16 bytes of a unit, not two. -/
def BtUuid.wide : BtUuid → Bool
  | .uuid16 _ => false
  | _ => true

/-- `bt_uuid_to_le`. -/
def BtUuid.toLe : BtUuid → List UInt8
  | .uuid16 value => putLe16 value
  | uuid => leBytes 16 uuid.toUuid128.toNat

@[simp] theorem BtUuid.length_toLe (uuid : BtUuid) :
    uuid.toLe.length = if uuid.wide then 16 else 2 := by
  cases uuid <;> simp [toLe, wide]

/-- What stands at an offset of a buffer. -/
private theorem read_append (stray : Stray) (before bytes after : List UInt8) {offset : Nat}
    (inside : offset < bytes.length) :
    stray.read (before ++ bytes ++ after) (before.length + offset) = bytes[offset] := by
  rw [Stray.read, List.getD_eq_getElem?_getD, List.append_assoc,
    List.getElem?_append_right (Nat.le_add_right _ _), Nat.add_sub_cancel_left,
    List.getElem?_append_left inside, List.getElem?_eq_getElem inside]
  rfl

theorem getLe16_append (stray : Stray) (before after : List UInt8) (value : UInt16) :
    getLe16 (stray.read (before ++ putLe16 value ++ after)) before.length = value := by
  apply getLe16_eq
  · exact read_append stray before (putLe16 value) after (Nat.succ_pos 1)
  · exact read_append stray before (putLe16 value) after (Nat.lt_succ_self 1)

/-- Sixteen bytes that are read are those that stand there. -/
private theorem range_read (stray : Stray) (before bytes after : List UInt8)
    (whole : bytes.length = 16) :
    ((List.range 16).map fun i => stray.read (before ++ bytes ++ after) (before.length + i)) =
      bytes := by
  apply List.ext_getElem
  · simp [whole]
  · intro i _ inside
    rw [List.getElem_map, List.getElem_range]
    exact read_append stray before bytes after inside

private theorem ofNat_leBytes (value : Uuid) :
    BitVec.ofNat 128 (leValue (leBytes 16 value.toNat)) = value := by
  rw [leValue_leBytes (Nat.lt_of_lt_of_le value.isLt (by decide)), BitVec.ofNat_toNat,
    BitVec.setWidth_eq]

/-- A UUID is read as the one that was written, in 128 bits. -/
theorem getUuid128_append (stray : Stray) (before after : List UInt8) (uuid : BtUuid) :
    getUuid128 uuid.wide (stray.read (before ++ uuid.toLe ++ after)) before.length =
      uuid.toUuid128 := by
  cases uuid with
  | uuid16 value =>
      simp only [getUuid128, BtUuid.wide, BtUuid.toLe, BtUuid.toUuid128]
      rw [getLe16_append]
      rfl
  | uuid32 value =>
      simp only [getUuid128, BtUuid.wide, if_true, BtUuid.toLe]
      rw [range_read stray before _ after (length_leBytes 16 _), ofNat_leBytes]
  | uuid128 value =>
      simp only [getUuid128, BtUuid.wide, if_true, BtUuid.toLe]
      rw [range_read stray before _ after (length_leBytes 16 _), ofNat_leBytes]

/-! ## Requests for a range of handles -/

/-- The part that `enc_read_by_grp_req` and `enc_read_by_type_req` share: there is no
request with a UUID of 32 bits. -/
def encRangeReq (opcode : UInt8) (start endHandle : UInt16) : BtUuid → Option Pdu
  | .uuid32 _ => none
  | uuid => some (opcode :: (putLe16 start ++ putLe16 endHandle ++ uuid.toLe))

def encReadByGrpReq : UInt16 → UInt16 → BtUuid → Option Pdu := encRangeReq 0x10

def encReadByTypeReq : UInt16 → UInt16 → BtUuid → Option Pdu := encRangeReq 0x08

/-- `get_uuid` of `att.c`. -/
def getUuid (wide : Bool) (bytes : Nat → UInt8) (offset : Nat) : BtUuid :=
  if wide then
    .uuid128 (BitVec.ofNat 128 (leValue ((List.range 16).map fun i => bytes (offset + i))))
  else .uuid16 (getLe16 bytes offset)

/-- The part that `dec_read_by_grp_req` and `dec_read_by_type_req` share. -/
def decRangeReq (stray : Stray) (opcode : UInt8) (pdu : Pdu) :
    Option (UInt16 × UInt16 × BtUuid) :=
  if stray.read pdu 0 ≠ opcode ∨ (pdu.length ≠ 7 ∧ pdu.length ≠ 21) then none
  else some (getLe16 (stray.read pdu) 1, getLe16 (stray.read pdu) 3,
    getUuid (decide (pdu.length = 21)) (stray.read pdu) 5)

def decReadByGrpReq (stray : Stray) : Pdu → Option (UInt16 × UInt16 × BtUuid) :=
  decRangeReq stray 0x10

def decReadByTypeReq (stray : Stray) : Pdu → Option (UInt16 × UInt16 × BtUuid) :=
  decRangeReq stray 0x08

/-- A UUID of 16 or 128 bits is read as the one that was written. -/
private theorem getUuid_append (stray : Stray) (before : List UInt8) {uuid : BtUuid}
    (sent : ∀ value, uuid ≠ .uuid32 value) :
    getUuid uuid.wide (stray.read (before ++ uuid.toLe)) before.length = uuid := by
  have bytes := range_read stray before uuid.toLe []
  have short := getLe16_append stray before []
  simp only [List.append_nil] at bytes short
  cases uuid with
  | uuid16 value => exact congrArg BtUuid.uuid16 (short value)
  | uuid32 value => exact absurd rfl (sent value)
  | uuid128 value =>
      simp only [getUuid, BtUuid.wide, if_true]
      rw [bytes (length_leBytes 16 _)]
      exact congrArg BtUuid.uuid128 (ofNat_leBytes value)

private theorem decRangeReq_of_encoded (stray : Stray) {opcode : UInt8} {pdu : Pdu}
    {start endHandle : UInt16} {uuid : BtUuid}
    (encoded : encRangeReq opcode start endHandle uuid = some pdu) :
    decRangeReq stray opcode pdu = some (start, endHandle, uuid) := by
  have sent : ∀ value, uuid ≠ .uuid32 value := by
    rintro value rfl
    cases encoded
  obtain rfl : opcode :: (putLe16 start ++ putLe16 endHandle ++ uuid.toLe) = pdu := by
    cases uuid with
    | uuid32 value => exact absurd rfl (sent value)
    | uuid16 value => exact Option.some.inj encoded
    | uuid128 value => exact Option.some.inj encoded
  have length : (opcode :: (putLe16 start ++ putLe16 endHandle ++ uuid.toLe)).length =
      if uuid.wide then 21 else 7 := by
    cases wide : uuid.wide <;> simp [wide]
  have isWide : decide ((opcode :: (putLe16 start ++ putLe16 endHandle ++ uuid.toLe)).length =
      21) = uuid.wide := by
    rw [length]
    cases uuid.wide <;> rfl
  have first := getLe16_append stray [opcode] (putLe16 endHandle ++ uuid.toLe) start
  have second := getLe16_append stray (opcode :: putLe16 start) uuid.toLe endHandle
  have type := getUuid_append stray (opcode :: (putLe16 start ++ putLe16 endHandle)) sent
  unfold decRangeReq
  rw [if_neg (by rw [length]; cases uuid.wide <;> simp [Stray.read]), isWide]
  simp only [List.cons_append, List.append_assoc, List.nil_append, List.length_cons,
    List.length_append, length_putLe16, List.length_nil] at first second type ⊢
  rw [first, second, type]

private theorem encRangeReq_of_decoded {stray : Stray} {opcode : UInt8} {pdu : Pdu}
    {start endHandle : UInt16} {uuid : BtUuid}
    (decoded : decRangeReq stray opcode pdu = some (start, endHandle, uuid)) :
    encRangeReq opcode start endHandle uuid = some pdu := by
  unfold decRangeReq at decoded
  split at decoded
  · simp at decoded
  next accepted =>
  simp only [not_or, not_and, not_not] at accepted
  obtain ⟨isOpcode, lengths⟩ := accepted
  obtain ⟨first, second, third, fourth, fifth, rest, rfl⟩ :
      ∃ first second third fourth fifth rest,
        pdu = first :: second :: third :: fourth :: fifth :: rest := by
    match pdu, lengths with
    | first :: second :: third :: fourth :: fifth :: rest, _ => exact ⟨_, _, _, _, _, _, rfl⟩
    | [], lengths => exact absurd (lengths (by simp)) (by simp)
    | [_], lengths => exact absurd (lengths (by simp)) (by simp)
    | [_, _], lengths => exact absurd (lengths (by simp)) (by simp)
    | [_, _, _], lengths => exact absurd (lengths (by simp)) (by simp)
    | [_, _, _, _], lengths => exact absurd (lengths (by simp)) (by simp)
  obtain rfl : first = opcode := isOpcode
  simp only [Option.some.injEq, Prod.mk.injEq] at decoded
  obtain ⟨rfl, rfl, rfl⟩ := decoded
  have range := putLe16_getLe16 (stray.read (first :: second :: third :: fourth :: fifth :: rest))
  by_cases short : rest.length = 2
  · have narrow : ¬ (first :: second :: third :: fourth :: fifth :: rest).length = 21 := by
      simp [short]
    match rest, short with
    | [sixth, seventh], _ =>
        simp only [getUuid, decide_eq_false narrow, Bool.false_eq_true, if_false, encRangeReq,
          BtUuid.toLe, range]
        rfl
  · have whole : rest.length = 16 := by
      have longer := lengths (by simpa using short)
      simpa using longer
    have wide : (first :: second :: third :: fourth :: fifth :: rest).length = 21 := by
      simp [whole]
    have bytes := range_read stray [first, second, third, fourth, fifth] rest [] whole
    have bound := leValue_lt rest
    have back := leBytes_leValue rest
    rw [whole] at bound back
    have same : (BitVec.ofNat 128 (leValue rest)).toNat = leValue rest := by
      rw [BitVec.toNat_ofNat]
      exact Nat.mod_eq_of_lt (Nat.lt_of_lt_of_le bound (by decide))
    simp only [List.append_nil, List.cons_append, List.nil_append, List.length_cons,
      List.length_nil] at bytes
    simp only [getUuid, decide_eq_true wide, if_true, encRangeReq, BtUuid.toLe,
      BtUuid.toUuid128, range, bytes, same, back]
    rfl

/-- A unit is decoded as a request exactly when it is the encoding of that request. -/
theorem decRangeReq_iff (stray : Stray) (opcode : UInt8) (pdu : Pdu) (start endHandle : UInt16)
    (uuid : BtUuid) :
    decRangeReq stray opcode pdu = some (start, endHandle, uuid) ↔
      encRangeReq opcode start endHandle uuid = some pdu :=
  ⟨encRangeReq_of_decoded, decRangeReq_of_encoded stray⟩

/-! ## Lists of entries -/

/-- Some entries, all of the length that the list gives. -/
structure AttDataList.Proper (list : AttDataList) (minElen : Nat) : Prop where
  nonempty : list.data ≠ []
  lengths : ∀ entry ∈ list.data, entry.length = list.len
  least : minElen ≤ list.len
  most : list.len < 256

/-- The loop of the list encoders: the entries that fit, from the one that would start at
`w` on. The number of bytes written so far wraps at `wrap`. -/
def writeEntries (wrap len elen : Nat) : Nat → List (List UInt8) → List UInt8
  | _, [] => []
  | w, entry :: rest =>
      if w + elen ≤ len then
        entry.take elen ++ writeEntries wrap len elen ((w + elen) % wrap) rest
      else []

/-- `enc_read_by_grp_resp`. -/
def encReadByGrpResp (list : AttDataList) (len : Nat) : Option Pdu :=
  if len < list.len + 2 then none
  else some (0x11 :: UInt8.ofNat list.len :: writeEntries (2 ^ 16) len list.len 2 list.data)

/-- `enc_read_by_type_resp`: entries that are too long for the buffer are cut. -/
def encReadByTypeResp (list : AttDataList) (len : Nat) : Option Pdu :=
  let l := min ((len + 2 ^ 64 - 2) % 2 ^ 64) list.len
  some (0x09 :: UInt8.ofNat l :: writeEntries (2 ^ 64) len l 2 list.data)

section Lists

variable {stray : Stray} {elen wrap len w : Nat} {data : List (List UInt8)}

theorem writeEntries_eq (lengths : ∀ entry ∈ data, entry.length = elen) (positive : 0 < elen)
    (small : len < wrap) (within : w ≤ len) :
    writeEntries wrap len elen w data = (data.take ((len - w) / elen)).flatten := by
  induction data generalizing w with
  | nil => simp [writeEntries]
  | cons entry rest inductionHypothesis =>
      have whole := lengths entry List.mem_cons_self
      unfold writeEntries
      split
      · next fits =>
        have count : (len - w) / elen = (len - (w + elen)) / elen + 1 := by
          rw [show len - w = len - (w + elen) + elen by omega, Nat.add_div_right _ positive]
        rw [Nat.mod_eq_of_lt (by omega), inductionHypothesis
          (fun other member => lengths other (List.mem_cons_of_mem _ member)) fits, count,
          List.take_succ_cons, List.flatten_cons, List.take_of_length_le (Nat.le_of_eq whole)]
      · next full =>
        rw [Nat.div_eq_of_lt (by omega)]
        rfl

/-- The entries of bytes that hold them one after the other. -/
theorem entries_eq {bytes : Nat → UInt8} (lengths : ∀ entry ∈ data, entry.length = elen)
    (reads : ∀ place (inside : place < data.flatten.length),
      bytes (2 + place) = data.flatten[place]) : entries bytes data.length elen = data := by
  induction data generalizing bytes with
  | nil => rfl
  | cons entry rest inductionHypothesis =>
      have whole := lengths entry List.mem_cons_self
      have later : entries (fun place => bytes (place + elen)) rest.length elen = rest := by
        apply inductionHypothesis fun other member => lengths other (List.mem_cons_of_mem _ member)
        intro place inside
        have read := reads (entry.length + place) (by
          rw [List.flatten_cons, List.length_append]
          omega)
        rw [show 2 + place + elen = 2 + (entry.length + place) by omega, read]
        simp [List.flatten_cons]
      have first : (List.range elen).map (fun j => bytes (2 + 0 * elen + j)) = entry := by
        apply List.ext_getElem
        · simp [whole]
        · intro j _ inside
          have read := reads j (by
            rw [List.flatten_cons, List.length_append]
            omega)
          rw [List.getElem_map, List.getElem_range, Nat.zero_mul, Nat.add_zero, read]
          simp [List.flatten_cons, inside]
      have others : ∀ i j, bytes (2 + (i + 1) * elen + j) = bytes (2 + i * elen + j + elen) := by
        intro i j
        congr 1
        rw [Nat.succ_mul]
        omega
      unfold entries at later ⊢
      rw [List.length_cons, List.range_succ_eq_map, List.map_cons, first, List.map_map]
      congr 1
      simpa only [Function.comp_def, others] using later

theorem flatten_length (lengths : ∀ entry ∈ data, entry.length = elen) :
    data.flatten.length = data.length * elen := by
  induction data with
  | nil => simp
  | cons entry rest inductionHypothesis =>
      rw [List.flatten_cons, List.length_append, lengths entry List.mem_cons_self,
        inductionHypothesis fun other member => lengths other (List.mem_cons_of_mem _ member),
        List.length_cons, Nat.succ_mul, Nat.add_comm]

theorem length_of_mem_entries {bytes : Nat → UInt8} {num : Nat} {entry : List UInt8}
    (member : entry ∈ entries bytes num elen) : entry.length = elen := by
  obtain ⟨_, _, rfl⟩ := List.mem_map.mp member
  simp

theorem length_entries {bytes : Nat → UInt8} {num : Nat} :
    (entries bytes num elen).length = num := by
  simp [entries]

/-- The entries of a buffer, one after the other, are what stands behind its head. -/
theorem flatten_entries (stray : Stray) {pdu : Pdu} {num : Nat}
    (within : 2 + num * elen ≤ pdu.length) :
    (entries (stray.read pdu) num elen).flatten = (pdu.drop 2).take (num * elen) := by
  have same : entries (stray.read pdu) num elen =
      (List.range num).map fun i => (pdu.drop (2 + i * elen)).take elen := by
    apply List.map_congr_left
    intro i member
    have inside := List.mem_range.mp member
    have room : (i + 1) * elen ≤ num * elen := Nat.mul_le_mul_right _ inside
    rw [Nat.succ_mul] at room
    apply List.ext_getElem
    · simp only [List.length_map, List.length_range, List.length_take, List.length_drop]
      omega
    · intro j before _
      have small : j < elen := by simpa using before
      simp only [List.getElem_map, List.getElem_range, List.getElem_take, List.getElem_drop,
        Stray.read]
      rw [List.getD_eq_getElem?_getD, List.getElem?_eq_getElem (by omega)]
      rfl
  rw [same]
  clear same
  induction num with
  | zero => simp
  | succ num inductionHypothesis =>
      rw [Nat.succ_mul] at within
      rw [List.range_succ, List.map_append, List.flatten_append, inductionHypothesis (by omega),
        Nat.succ_mul, List.take_add, List.drop_drop]
      simp [Nat.add_comm]

/-- The two bytes before the entries, and the entries. -/
private theorem read_head (stray : Stray) (opcode header : UInt8) (data : List (List UInt8)) :
    stray.read (opcode :: header :: data.flatten) 0 = opcode ∧
      stray.read (opcode :: header :: data.flatten) 1 = header :=
  ⟨rfl, rfl⟩

theorem entries_written (stray : Stray) (opcode header : UInt8)
    (lengths : ∀ entry ∈ data, entry.length = elen) :
    entries (stray.read (opcode :: header :: data.flatten)) data.length elen = data := by
  apply entries_eq lengths
  intro place inside
  have read := read_append stray [opcode, header] data.flatten [] inside
  simpa using read

/-- A list that has been written with whole entries is read back. -/
theorem decDataList_flatten {list : AttDataList} {opcode : UInt8} {minElen : Nat}
    (stray : Stray) (proper : list.Proper minElen) (positive : 0 < minElen) :
    decDataList stray opcode (minElen + 2) minElen
      (opcode :: UInt8.ofNat list.len :: list.data.flatten) = some list := by
  have whole := flatten_length proper.lengths
  have least := proper.least
  have count : 0 < list.data.length := List.length_pos_iff.mpr proper.nonempty
  have header : (UInt8.ofNat list.len).toNat = list.len := by
    rw [UInt8.toNat_ofNat']
    exact Nat.mod_eq_of_lt proper.most
  have long : list.len ≤ list.data.flatten.length := by
    rw [whole]
    exact Nat.le_mul_of_pos_left _ count
  have behind : ∀ length : Nat, length + 1 + 1 - 2 = length := fun _ => by omega
  have number : list.data.flatten.length / list.len = list.data.length := by
    rw [whole, Nat.mul_div_cancel _ (by omega)]
  unfold decDataList
  simp only [(read_head stray opcode (UInt8.ofNat list.len) list.data).1,
    (read_head stray opcode (UInt8.ofNat list.len) list.data).2, header, List.length_cons,
    behind]
  rw [if_neg (by
    simp only [not_or, not_not, not_lt]
    refine ⟨trivial, by omega, least, ?_⟩
    rw [whole]
    exact Nat.mul_mod_left _ _), number, entries_written stray _ _ proper.lengths]

/-- A list that has been read is proper, and writing it gives the unit again. -/
theorem flatten_of_decDataList {list : AttDataList} {opcode : UInt8} {minElen : Nat} {pdu : Pdu}
    (positive : 0 < minElen)
    (decoded : decDataList stray opcode (minElen + 2) minElen pdu = some list) :
    list.Proper minElen ∧ pdu = opcode :: UInt8.ofNat list.len :: list.data.flatten := by
  unfold decDataList at decoded
  simp only at decoded
  split at decoded
  · simp at decoded
  next accepted =>
  simp only [not_or, not_not, not_lt] at accepted
  obtain ⟨isOpcode, long, least, whole⟩ := accepted
  obtain ⟨first, header, rest, rfl⟩ : ∃ first header rest, pdu = first :: header :: rest := by
    match pdu, long with
    | first :: header :: rest, _ => exact ⟨_, _, _, rfl⟩
  obtain rfl : first = opcode := isOpcode
  obtain rfl := Option.some.inj decoded
  have behind : ∀ length : Nat, length + 1 + 1 - 2 = length := fun _ => by omega
  simp only [List.length_cons, behind] at long least whole ⊢
  have elen : stray.read (first :: header :: rest) 1 = header := rfl
  rw [elen] at least whole ⊢
  have product : rest.length / header.toNat * header.toNat = rest.length :=
    Nat.div_mul_cancel (Nat.dvd_of_mod_eq_zero whole)
  constructor
  · apply AttDataList.Proper.mk
    · apply List.ne_nil_of_length_pos
      rw [length_entries]
      apply Nat.pos_of_ne_zero
      intro none
      rw [none, Nat.zero_mul] at product
      omega
    · exact fun entry member => length_of_mem_entries member
    · exact least
    · exact header.toNat_lt
  · rw [flatten_entries stray (by simp only [List.length_cons]; omega), product, UInt8.ofNat_toNat]
    simp

/-- What the list encoders write is as long as a buffer that the entries fill. -/
private theorem writeEntries_full {list : AttDataList} {minElen : Nat} {pdu : Pdu}
    (proper : list.Proper minElen) (positive : 0 < minElen) (small : pdu.length < wrap)
    (full : pdu.length = 2 + list.data.length * list.len) :
    writeEntries wrap pdu.length list.len 2 list.data = list.data.flatten := by
  have least := proper.least
  rw [writeEntries_eq proper.lengths (by omega) small (by omega), full, Nat.add_sub_cancel_left,
    Nat.mul_div_cancel _ (by omega), List.take_length]

private theorem decDataList_iff {list : AttDataList} {opcode : UInt8} {minElen : Nat}
    (stray : Stray) (pdu : Pdu) (positive : 0 < minElen) (small : pdu.length < wrap) :
    decDataList stray opcode (minElen + 2) minElen pdu = some list ↔
      list.Proper minElen ∧ pdu.length = 2 + list.data.length * list.len ∧
        opcode :: UInt8.ofNat list.len :: writeEntries wrap pdu.length list.len 2 list.data =
          pdu := by
  constructor
  · intro decoded
    obtain ⟨proper, same⟩ := flatten_of_decDataList positive decoded
    have full : pdu.length = 2 + list.data.length * list.len := by
      rw [same, List.length_cons, List.length_cons, flatten_length proper.lengths]
      omega
    refine ⟨proper, full, ?_⟩
    rw [writeEntries_full proper positive small full]
    exact same.symm
  · rintro ⟨proper, full, written⟩
    rw [writeEntries_full proper positive small full] at written
    rw [← written]
    exact decDataList_flatten stray proper positive

/-- A unit is decoded as a list exactly when the encoder writes it for that list, with
a buffer that the entries fill. -/
theorem listResponses_iff (stray : Stray) (pdu : Pdu) (list : AttDataList)
    (small : pdu.length < 2 ^ 16) :
    (decReadByGrpResp stray pdu = some list ↔ list.Proper 5 ∧
      pdu.length = 2 + list.data.length * list.len ∧
        encReadByGrpResp list pdu.length = some pdu) ∧
      (decReadByTypeResp stray pdu = some list ↔ list.Proper 3 ∧
        pdu.length = 2 + list.data.length * list.len ∧
          encReadByTypeResp list pdu.length = some pdu) := by
  have room : ∀ {minElen : Nat}, list.Proper minElen →
      pdu.length = 2 + list.data.length * list.len → list.len + 2 ≤ pdu.length := by
    intro minElen proper full
    have count := List.length_pos_iff.mpr proper.nonempty
    have one := Nat.le_mul_of_pos_left list.len count
    omega
  constructor
  · unfold decReadByGrpResp
    rw [decDataList_iff stray pdu (by decide) small]
    apply and_congr_right
    intro proper
    apply and_congr_right
    intro full
    unfold encReadByGrpResp
    rw [if_neg (Nat.not_lt.mpr (room proper full)), Option.some.injEq]
  · unfold decReadByTypeResp
    rw [decDataList_iff stray pdu (by decide) (Nat.lt_of_lt_of_le small (by decide) :
      pdu.length < 2 ^ 64)]
    apply and_congr_right
    intro proper
    apply and_congr_right
    intro full
    have fits := room proper full
    have whole : min ((pdu.length + 2 ^ 64 - 2) % 2 ^ 64) list.len = list.len := by
      rw [show pdu.length + 2 ^ 64 - 2 = pdu.length - 2 + 2 ^ 64 by omega, Nat.add_mod_right,
        Nat.mod_eq_of_lt (by omega)]
      omega
    unfold encReadByTypeResp
    rw [whole, Option.some.injEq]

/-- Two services and two characteristics are accepted. -/
theorem listResponses_twoEntries :
    decReadByGrpResp { byte := fun _ => 0, descHandle := none }
        [0x11, 6, 1, 0, 3, 0, 0x00, 0x18, 4, 0, 9, 0, 0x01, 0x18] =
      some { len := 6, data := [[1, 0, 3, 0, 0x00, 0x18], [4, 0, 9, 0, 0x01, 0x18]] } ∧
    decReadByTypeResp { byte := fun _ => 0, descHandle := none }
        [0x09, 7, 5, 0, 0x02, 6, 0, 0x00, 0x2a, 7, 0, 0x10, 8, 0, 0x05, 0x2a] =
      some { len := 7, data := [[5, 0, 0x02, 6, 0, 0x00, 0x2a], [7, 0, 0x10, 8, 0, 0x05, 0x2a]] } :=
  ⟨(listResponses_iff _ _ _ (by decide)).1.mpr
      ⟨⟨by decide, by decide, by decide, by decide⟩, by decide, by decide⟩,
    (listResponses_iff _ _ _ (by decide)).2.mpr
      ⟨⟨by decide, by decide, by decide, by decide⟩, by decide, by decide⟩⟩

end Lists

end NaiveBTSniffing.Gatttool
