import NaiveBTSniffing.Gatttool.Codec
import NaiveBTSniffing.Gatttool.Rounds
import NaiveBTSniffing.Library.Paging

/-!
Contract: the discovery procedures against a server that declares an attribute table.

The server answers each discovery request with some of the declarations that are left,
all of one width, or with the error that there is none left (`Server.Declares`). How many
it puts into a unit is its own choice. Whatever it chooses, each procedure ends with all
declarations (`services_complete`, `characteristics_complete`, `descriptors_complete`).

Does not own the reads of values (`Gatttool.LongRead`), nor what becomes of the log
(`Gatttool.CompleteLog`).
-/

namespace NaiveBTSniffing.Gatttool

open NaiveBTSniffing.Library

/-! ## What a server declares -/

structure ServiceDecl where
  start : UInt16
  endHandle : UInt16
  uuid : BtUuid
deriving DecidableEq, Repr

structure CharDecl where
  handle : UInt16
  properties : UInt8
  valueHandle : UInt16
  uuid : BtUuid
deriving DecidableEq, Repr

structure AttributeDecl where
  handle : UInt16
  type : BtUuid
deriving DecidableEq, Repr

/-- The bytes of an entry of a Read By Group Type response. -/
def ServiceDecl.entry (decl : ServiceDecl) : List UInt8 :=
  putLe16 decl.start ++ putLe16 decl.endHandle ++ decl.uuid.toLe

/-- The bytes of an entry of a Read By Type response. -/
def CharDecl.entry (decl : CharDecl) : List UInt8 :=
  putLe16 decl.handle ++ decl.properties :: putLe16 decl.valueHandle ++ decl.uuid.toLe

/-- The bytes of an entry of a Find Information response. -/
def AttributeDecl.entry (decl : AttributeDecl) : List UInt8 :=
  putLe16 decl.handle ++ decl.type.toLe

/-- The service as `gatttool` keeps it. -/
def ServiceDecl.found (decl : ServiceDecl) : Primary where
  start := decl.start
  endHandle := decl.endHandle
  uuid := decl.uuid.toUuid128

def CharDecl.found (decl : CharDecl) : Characteristic where
  handle := decl.handle
  properties := decl.properties
  valueHandle := decl.valueHandle
  uuid := decl.uuid.toUuid128

def AttributeDecl.found (decl : AttributeDecl) : Descriptor where
  handle := decl.handle
  uuid := decl.type.toUuid128

/-- The declarations in the order of their handles. No characteristic stands at handle
`0xffff`, where there is no room for its value behind it. -/
structure AttributeTable where
  services : List ServiceDecl
  characteristics : List CharDecl
  attributes : List AttributeDecl
  serviceHandles : ∀ decl ∈ services, 0 < decl.start ∧ decl.start ≤ decl.endHandle
  servicesApart : services.Pairwise fun earlier later => earlier.endHandle < later.start
  charHandles : ∀ decl ∈ characteristics, 0 < decl.handle ∧ decl.handle < 0xffff
  charsApart : characteristics.Pairwise fun earlier later => earlier.handle < later.handle
  attributeHandles : ∀ decl ∈ attributes, 0 < decl.handle
  attributesApart : attributes.Pairwise fun earlier later => earlier.handle < later.handle

namespace AttributeTable

variable (table : AttributeTable)

def serviceListing : Listing ServiceDecl where
  items := table.services
  first := fun decl => decl.start.toNat
  last := fun decl => decl.endHandle.toNat
  ordered := fun decl member => (table.serviceHandles decl member).2
  apart := table.servicesApart

def charListing : Listing CharDecl where
  items := table.characteristics
  first := fun decl => decl.handle.toNat
  last := fun decl => decl.handle.toNat
  ordered := fun _ _ => Nat.le_refl _
  apart := table.charsApart

def attributeListing : Listing AttributeDecl where
  items := table.attributes
  first := fun decl => decl.handle.toNat
  last := fun decl => decl.handle.toNat
  ordered := fun _ _ => Nat.le_refl _
  apart := table.attributesApart

theorem since_services : table.serviceListing.since 1 = table.services :=
  Listing.since_of_le fun decl member => (table.serviceHandles decl member).1

theorem since_characteristics : table.charListing.since 1 = table.characteristics :=
  Listing.since_of_le fun decl member => (table.charHandles decl member).1

theorem since_attributes : table.attributeListing.since 1 = table.attributes :=
  Listing.since_of_le fun decl member => table.attributeHandles decl member

end AttributeTable

/-- The unit holds some of the declarations from the handle on, or says that there is
none. -/
inductive PagedAnswer {α : Type} (listing : Listing α) (wide : α → Bool)
    (entry : α → List UInt8) (head : Bool → List UInt8) (request : Request) (start : UInt16)
    (unit : Pdu) : Prop where
  | none (low high : UInt8) (nothing : listing.since start.toNat = [])
      (answers : unit = [opError, request.opcode, low, high, ecodeAttrNotFound])
  | page (front : List α) (item : α) (more : List α)
      (split : listing.since start.toNat = front ++ item :: more)
      (alike : ∀ other ∈ front, wide other = wide item)
      (answers : unit = head (wide item) ++ (front ++ [item]).flatMap entry)
      (short : unit.length ≤ mtu)

def serviceHead (wide : Bool) : List UInt8 := [0x11, if wide then 20 else 6]

def charHead (wide : Bool) : List UInt8 := [0x09, if wide then 21 else 7]

def attributeHead (wide : Bool) : List UInt8 := [0x05, if wide then 2 else 1]

/-- The server answers discovery requests from the table. -/
structure Server.Declares (server : Server) (table : AttributeTable) : Prop where
  services : ∀ start : UInt16, 0 < start.toNat →
    PagedAnswer table.serviceListing (fun decl => decl.uuid.wide) ServiceDecl.entry serviceHead
      (.readByGroup start) start (server (.readByGroup start))
  characteristics : ∀ start : UInt16, 0 < start.toNat →
    PagedAnswer table.charListing (fun decl => decl.uuid.wide) CharDecl.entry charHead
      (.readByType start) start (server (.readByType start))
  attributes : ∀ start : UInt16, 0 < start.toNat →
    PagedAnswer table.attributeListing (fun decl => decl.type.wide) AttributeDecl.entry attributeHead
      (.findInfo start) start (server (.findInfo start))

/-! ## Reading an entry -/

section Entries

variable (stray : Stray)

theorem ServiceDecl.length_entry (decl : ServiceDecl) :
    decl.entry.length = if decl.uuid.wide then 20 else 6 := by
  cases wide : decl.uuid.wide <;> simp [entry, wide]

theorem CharDecl.length_entry (decl : CharDecl) :
    decl.entry.length = if decl.uuid.wide then 21 else 7 := by
  cases wide : decl.uuid.wide <;> simp [entry, wide]

theorem AttributeDecl.length_entry (decl : AttributeDecl) :
    decl.entry.length = if decl.type.wide then 18 else 4 := by
  cases wide : decl.type.wide <;> simp [entry, wide]

theorem ServiceDecl.ofEntry (decl : ServiceDecl) :
    Primary.ofEntry stray decl.uuid.wide decl.entry = decl.found := by
  have first := getLe16_append stray [] (putLe16 decl.endHandle ++ decl.uuid.toLe) decl.start
  have second := getLe16_append stray (putLe16 decl.start) decl.uuid.toLe decl.endHandle
  have uuid := getUuid128_append stray (putLe16 decl.start ++ putLe16 decl.endHandle) [] decl.uuid
  simp only [List.nil_append, List.append_nil, List.length_nil, List.length_append,
    length_putLe16, ← List.append_assoc] at first second uuid
  simp only [Primary.ofEntry, entry, found, first, second, uuid]

theorem CharDecl.ofEntry (decl : CharDecl) :
    Characteristic.ofEntry stray decl.uuid.wide decl.entry = decl.found := by
  have first := getLe16_append stray [] (decl.properties :: putLe16 decl.valueHandle ++
    decl.uuid.toLe) decl.handle
  have second := getLe16_append stray (putLe16 decl.handle ++ [decl.properties]) decl.uuid.toLe
    decl.valueHandle
  have uuid := getUuid128_append stray (putLe16 decl.handle ++ decl.properties ::
    putLe16 decl.valueHandle) [] decl.uuid
  have properties : stray.read decl.entry 2 = decl.properties := rfl
  simp only [List.nil_append, List.append_nil, List.length_nil, List.length_append,
    length_putLe16, List.length_cons, List.append_assoc, List.cons_append] at first second uuid
  simp only [entry, List.append_assoc, List.cons_append] at properties
  simp only [Characteristic.ofEntry, entry, found, List.append_assoc, List.cons_append, first,
    second, uuid, properties]

theorem AttributeDecl.ofEntry (decl : AttributeDecl) :
    Descriptor.ofEntry stray decl.type.wide decl.entry = decl.found := by
  have first := getLe16_append stray [] decl.type.toLe decl.handle
  have uuid := getUuid128_append stray (putLe16 decl.handle) [] decl.type
  simp only [List.nil_append, List.append_nil, List.length_nil, length_putLe16] at first uuid
  simp only [Descriptor.ofEntry, entry, found, first, uuid]

end Entries

/-! ## What an answer brings -/

section Answers

variable {stray : Stray} {server : Server} {table : AttributeTable}

/-- A response to the request is passed on. -/
private theorem reply_of_response {request : Request} {opcode : UInt8} {content : List UInt8}
    (answers : server request = opcode :: content) (short : (opcode :: content).length ≤ mtu)
    (response : reqOpcode opcode = some request.opcode) (found : opcode ≠ opError) :
    server.reply request = (0, opcode :: content) := by
  rw [Server.reply, answers, receive_of_response content response found,
    List.take_of_length_le short]

/-- The error that there is no attribute is passed on with its code. -/
private theorem reply_of_notFound {request : Request} {low high : UInt8}
    (answers : server request = [opError, request.opcode, low, high, ecodeAttrNotFound]) :
    server.reply request =
      (ecodeAttrNotFound, [opError, request.opcode, low, high, ecodeAttrNotFound]) := by
  rw [Server.reply, answers, receive_of_error]

/-- Reading the entries of a page, all of one width. -/
private theorem map_ofEntry {α β : Type} {items : List α} {entry : α → List UInt8} {found : α → β}
    {wide : α → Bool} {width : Bool} {ofEntry : Bool → List UInt8 → β}
    (alike : ∀ item ∈ items, wide item = width)
    (reads : ∀ item, ofEntry (wide item) (entry item) = found item) :
    (items.map entry).map (ofEntry width) = items.map found := by
  rw [List.map_map]
  apply List.map_congr_left
  intro item member
  rw [Function.comp_apply, ← alike item member, reads]

/-- All items of the page are of the width of its last one. -/
private theorem alike_page {α : Type} {front : List α} {item : α} {wide : α → Bool}
    (alike : ∀ other ∈ front, wide other = wide item) :
    ∀ other ∈ front ++ [item], wide other = wide item := by
  intro other member
  rcases List.mem_append.mp member with inside | last
  · exact alike other inside
  · rw [List.mem_singleton.mp last]

private theorem proper_page {α : Type} {front : List α} {item : α} {entry : α → List UInt8}
    {len minElen : Nat} (lengths : ∀ other ∈ front ++ [item], (entry other).length = len)
    (least : minElen ≤ len) (most : len < 256) :
    AttDataList.Proper { len, data := (front ++ [item]).map entry } minElen where
  nonempty := by simp
  lengths := by
    intro bytes member
    obtain ⟨other, inside, rfl⟩ := List.mem_map.mp member
    exact lengths other inside
  least := least
  most := most

/-- Service discovery on a page. -/
private theorem services_page (declares : server.Declares table) (dp : DiscoverPrimary)
    (begun : 0 < dp.start.toNat) (some : table.serviceListing.since dp.start.toNat ≠ []) :
    ∃ front item more, table.serviceListing.since dp.start.toNat = front ++ item :: more ∧
      server.services stray dp =
        let primaries := dp.primaries ++ (front ++ [item]).map ServiceDecl.found
        if item.endHandle ≠ 0xffff then .more { start := item.endHandle + 1, primaries }
        else .ended (0, primaries) := by
  cases declares.services dp.start begun with
  | none low high nothing answers => exact absurd nothing some
  | page front item more split alike answers short =>
      refine ⟨front, item, more, split, ?_⟩
      have widths := alike_page alike
      have inside : item ∈ table.serviceListing.since dp.start.toNat := by
        rw [split]
        exact List.mem_append_right _ List.mem_cons_self
      obtain ⟨isService, behind⟩ := Listing.mem_since.mp inside
      have late : ¬ item.endHandle < dp.start := by
        have rises := (table.serviceHandles item isService).2
        exact UInt16.not_lt.mpr (UInt16.le_trans behind rises)
      let list : AttDataList :=
        { len := if item.uuid.wide then 20 else 6
          data := (front ++ [item]).map ServiceDecl.entry }
      have proper : list.Proper 5 := by
        apply proper_page
        · intro other member
          rw [other.length_entry, widths other member]
        · split <;> decide
        · split <;> decide
      have unit : server (.readByGroup dp.start) =
          0x11 :: UInt8.ofNat list.len :: list.data.flatten := by
        rw [answers, List.flatMap_def]
        cases wide : item.uuid.wide <;> simp [serviceHead, list, wide]
      rw [unit] at short
      have decoded : decReadByGrpResp stray
          (0x11 :: UInt8.ofNat list.len :: list.data.flatten) = .some list :=
        decDataList_flatten stray proper (by decide)
      have width : decide (list.len = 20) = item.uuid.wide := by
        cases wide : item.uuid.wide <;> simp [list, wide]
      have known : list.len = 6 ∨ list.len = 20 := by
        cases wide : item.uuid.wide <;> simp [list, wide]
      have found : list.data.map (Primary.ofEntry stray (decide (list.len = 20))) =
          (front ++ [item]).map ServiceDecl.found := by
        rw [width]
        exact map_ofEntry widths (ServiceDecl.ofEntry stray)
      have last : ((((front ++ [item]).map ServiceDecl.found).getLast?).map Primary.endHandle).getD 0 =
          item.endHandle := by simp [ServiceDecl.found]
      unfold Server.services
      rw [reply_of_response unit short rfl (by decide)]
      simp only [primaryAllCb, decoded, known, found, last, late, ne_eq, not_true_eq_false,
        if_false, if_true]

/-- Characteristic discovery on a page. -/
private theorem characteristics_page (declares : server.Declares table) (dc : DiscoverChar)
    (begun : 0 < dc.start.toNat) (some : table.charListing.since dc.start.toNat ≠ []) :
    ∃ front item more, table.charListing.since dc.start.toNat = front ++ item :: more ∧
      server.characteristics stray dc =
        let characteristics := dc.characteristics ++ (front ++ [item]).map CharDecl.found
        if item.handle + 1 < 0xffff then .more { start := item.handle + 1, characteristics }
        else .ended (0, characteristics) := by
  cases declares.characteristics dc.start begun with
  | none low high nothing answers => exact absurd nothing some
  | page front item more split alike answers short =>
      refine ⟨front, item, more, split, ?_⟩
      have widths := alike_page alike
      have inside : item ∈ table.charListing.since dc.start.toNat := by
        rw [split]
        exact List.mem_append_right _ List.mem_cons_self
      obtain ⟨isChar, behind⟩ := Listing.mem_since.mp inside
      have late : ¬ item.handle < dc.start := UInt16.not_lt.mpr behind
      have positive : item.handle ≠ 0 := by
        intro zero
        have above := (table.charHandles item isChar).1
        rw [zero] at above
        exact absurd above (by decide)
      let list : AttDataList :=
        { len := if item.uuid.wide then 21 else 7
          data := (front ++ [item]).map CharDecl.entry }
      have proper : list.Proper 3 := by
        apply proper_page
        · intro other member
          rw [other.length_entry, widths other member]
        · split <;> decide
        · split <;> decide
      have unit : server (.readByType dc.start) =
          0x09 :: UInt8.ofNat list.len :: list.data.flatten := by
        rw [answers, List.flatMap_def]
        cases wide : item.uuid.wide <;> simp [charHead, list, wide]
      rw [unit] at short
      have decoded : decReadByTypeResp stray
          (0x09 :: UInt8.ofNat list.len :: list.data.flatten) = .some list :=
        decDataList_flatten stray proper (by decide)
      have width : decide (list.len ≠ 7) = item.uuid.wide := by
        cases wide : item.uuid.wide <;> simp [list, wide]
      have found : list.data.map (Characteristic.ofEntry stray (decide (list.len ≠ 7))) =
          (front ++ [item]).map CharDecl.found := by
        rw [width]
        exact map_ofEntry widths (CharDecl.ofEntry stray)
      have last : ((((front ++ [item]).map CharDecl.found).getLast?).map
          Characteristic.handle).getD 0 = item.handle := by simp [CharDecl.found]
      have ok : (0 : UInt8) ≠ ecodeAttrNotFound := by decide
      unfold Server.characteristics
      rw [reply_of_response unit short rfl (by decide)]
      simp only [charDiscoveredCb, ok, decoded, found, last, late, positive, ne_eq,
        not_true_eq_false, not_false_eq_true, true_and, if_false]

/-- `dec_find_info_resp` on whole entries. -/
private theorem decFindInfoResp_flatten {list : AttDataList} {format : UInt8}
    (proper : list.Proper 3) (short : list.data.flatten.length < 2 ^ 16)
    (known : format = 1 ∧ list.len = 4 ∨ format = 2 ∧ list.len = 18) :
    decFindInfoResp stray (0x05 :: format :: list.data.flatten) = some (list, format) := by
  have whole := flatten_length proper.lengths
  have least := proper.least
  have elen : (if format = 0x01 then 4 else if format = 0x02 then 18 else 2) = list.len := by
    rcases known with ⟨rfl, same⟩ | ⟨rfl, same⟩
    · rw [same]
      rfl
    · rw [same]
      rfl
  have long : list.data.length ≤ list.data.length * list.len :=
    Nat.le_mul_of_pos_right _ (by omega)
  have number : ((0x05 :: format :: list.data.flatten).length + 2 ^ 64 - 2) % 2 ^ 64 / list.len %
      2 ^ 16 = list.data.length := by
    have wrapped : (list.data.flatten.length + 1 + 1 + 2 ^ 64 - 2) % 2 ^ 64 =
        list.data.flatten.length := by omega
    simp only [List.length_cons]
    rw [wrapped, whole, Nat.mul_div_cancel _ (by omega), Nat.mod_eq_of_lt (by omega)]
  have head : stray.read (0x05 :: format :: list.data.flatten) 0 = 0x05 ∧
      stray.read (0x05 :: format :: list.data.flatten) 1 = format := ⟨rfl, rfl⟩
  unfold decFindInfoResp
  rw [head.1, if_neg (by decide)]
  simp only [head.2, elen, number, entries_written stray _ _ proper.lengths]

/-- Descriptor discovery on a page. -/
private theorem descriptors_page (declares : server.Declares table) (dd : DiscoverDesc)
    (begun : 0 < dd.start.toNat) (some : table.attributeListing.since dd.start.toNat ≠ []) :
    ∃ front item more, table.attributeListing.since dd.start.toNat = front ++ item :: more ∧
      server.descriptors stray dd =
        let descriptors := dd.descriptors ++ (front ++ [item]).map AttributeDecl.found
        if item.handle < 0xffff then .more { start := item.handle + 1, descriptors }
        else .ended (0, descriptors) := by
  cases declares.attributes dd.start begun with
  | none low high nothing answers => exact absurd nothing some
  | page front item more split alike answers short =>
      refine ⟨front, item, more, split, ?_⟩
      have widths := alike_page alike
      have inside : item ∈ table.attributeListing.since dd.start.toNat := by
        rw [split]
        exact List.mem_append_right _ List.mem_cons_self
      have late : ¬ item.handle < dd.start := UInt16.not_lt.mpr (Listing.mem_since.mp inside).2
      let list : AttDataList :=
        { len := if item.type.wide then 18 else 4
          data := (front ++ [item]).map AttributeDecl.entry }
      let format : UInt8 := if item.type.wide then 2 else 1
      have proper : list.Proper 3 := by
        apply proper_page
        · intro other member
          rw [other.length_entry, widths other member]
        · split <;> decide
        · split <;> decide
      have unit : server (.findInfo dd.start) = 0x05 :: format :: list.data.flatten := by
        rw [answers, List.flatMap_def]
        rfl
      rw [unit] at short
      have small : list.data.flatten.length < 2 ^ 16 := by
        simp only [List.length_cons, mtu] at short
        omega
      have known : format = 1 ∧ list.len = 4 ∨ format = 2 ∧ list.len = 18 := by
        cases wide : item.type.wide <;> simp [format, list, wide]
      have decoded : decFindInfoResp stray (0x05 :: format :: list.data.flatten) =
          .some (list, format) := decFindInfoResp_flatten proper small known
      have width : decide (format ≠ 0x01) = item.type.wide := by
        cases wide : item.type.wide <;> simp [format, wide]
      have found : list.data.map (Descriptor.ofEntry stray (decide (format ≠ 0x01))) =
          (front ++ [item]).map AttributeDecl.found := by
        rw [width]
        exact map_ofEntry widths (AttributeDecl.ofEntry stray)
      have last : ((((front ++ [item]).map AttributeDecl.found).getLast?).map
          Descriptor.handle).getD 0xffff = item.handle := by simp [AttributeDecl.found]
      have ok : (0 : UInt8) ≠ ecodeAttrNotFound := by decide
      unfold Server.descriptors
      rw [reply_of_response unit short rfl (by decide)]
      simp only [descDiscoveredCb, ok, decoded, found, last, late, ne_eq, not_true_eq_false,
        if_false]

end Answers

/-! ## Whole procedures -/

section Procedures

/-- Below the last handle there is a next one. -/
private theorem toNat_succ {handle : UInt16} (below : handle ≠ 0xffff) :
    (handle + 1).toNat = handle.toNat + 1 := by
  have bound := handle.toNat_lt
  have different : handle.toNat ≠ 65535 := fun same => below (UInt16.toNat_inj.mp same)
  rw [UInt16.toNat_add]
  have one : (1 : UInt16).toNat = 1 := rfl
  omega

variable {stray : Stray} {server : Server} {table : AttributeTable}

private theorem services_pages (declares : server.Declares table) :
    Pages table.serviceListing ServiceDecl.found (server.services stray)
      (fun dp => dp.start.toNat) DiscoverPrimary.primaries fun found => (0, found) where
  none := by
    intro dp begun nothing
    cases declares.services dp.start begun with
    | none low high _ answers =>
        simp [Server.services, reply_of_notFound answers, primaryAllCb, ecodeAttrNotFound]
    | page front item more split alike answers short => simp [split] at nothing
  page := by
    intro dp begun some
    obtain ⟨front, item, more, split, answer⟩ := services_page declares dp begun some
    refine ⟨front, item, more, split, ?_⟩
    by_cases final : item.endHandle = 0xffff
    · refine .inr ⟨?_, by simpa [final] using answer⟩
      have behind := Listing.since_behind split
      rw [← behind]
      apply List.eq_nil_iff_forall_not_mem.mpr
      intro other member
      have above := (Listing.mem_since.mp member).2
      have below := other.start.toNat_lt
      simp only [AttributeTable.serviceListing, final] at above
      have most : (0xffff : UInt16).toNat = 65535 := rfl
      omega
    · rw [if_pos final] at answer
      exact .inl ⟨_, answer, toNat_succ final, rfl⟩

/-- The status of a procedure that has found nothing is an error. -/
private def foundStatus {α : Type} (found : List α) : UInt8 × List α :=
  (if found.isEmpty then ecodeAttrNotFound else 0, found)

private theorem foundStatus_page {α : Type} (held front : List α) (item : α) :
    foundStatus (held ++ (front ++ [item])) = (0, held ++ (front ++ [item])) := by
  simp [foundStatus]

private theorem characteristics_pages (declares : server.Declares table) :
    Pages table.charListing CharDecl.found (server.characteristics stray)
      (fun dc => dc.start.toNat) DiscoverChar.characteristics foundStatus where
  none := by
    intro dc begun nothing
    cases declares.characteristics dc.start begun with
    | none low high _ answers =>
        simp [Server.characteristics, reply_of_notFound answers, charDiscoveredCb, foundStatus]
    | page front item more split alike answers short => simp [split] at nothing
  page := by
    intro dc begun some
    obtain ⟨front, item, more, split, answer⟩ := characteristics_page declares dc begun some
    refine ⟨front, item, more, split, ?_⟩
    have inside : item ∈ table.charListing.since dc.start.toNat := by
      rw [split]
      exact List.mem_append_right _ List.mem_cons_self
    have below := (table.charHandles item (Listing.mem_since.mp inside).1).2
    have next : (item.handle + 1).toNat = item.handle.toNat + 1 :=
      toNat_succ (UInt16.ne_of_lt below)
    by_cases further : item.handle + 1 < 0xffff
    · simp only [further, if_true] at answer
      exact .inl ⟨_, answer, next, rfl⟩
    · simp only [further, if_false] at answer
      rw [List.map_append, List.map_singleton, foundStatus_page]
      rw [List.map_append, List.map_singleton] at answer
      refine .inr ⟨?_, answer⟩
      rw [← Listing.since_behind split]
      apply List.eq_nil_iff_forall_not_mem.mpr
      intro other member
      have above := Listing.mem_since.mp member
      have small : other.handle.toNat < (0xffff : UInt16).toNat := (table.charHandles other above.1).2
      have past : (0xffff : UInt16).toNat ≤ (item.handle + 1).toNat := UInt16.not_lt.mp further
      have reach : item.handle.toNat + 1 ≤ other.handle.toNat := above.2
      omega

private theorem descriptors_pages (declares : server.Declares table) :
    Pages table.attributeListing AttributeDecl.found (server.descriptors stray)
      (fun dd => dd.start.toNat) DiscoverDesc.descriptors foundStatus where
  none := by
    intro dd begun nothing
    cases declares.attributes dd.start begun with
    | none low high _ answers =>
        simp [Server.descriptors, reply_of_notFound answers, descDiscoveredCb, foundStatus]
    | page front item more split alike answers short => simp [split] at nothing
  page := by
    intro dd begun some
    obtain ⟨front, item, more, split, answer⟩ := descriptors_page declares dd begun some
    refine ⟨front, item, more, split, ?_⟩
    by_cases further : item.handle < 0xffff
    · simp only [further, if_true] at answer
      exact .inl ⟨_, answer, toNat_succ (UInt16.ne_of_lt further), rfl⟩
    · simp only [further, if_false] at answer
      rw [List.map_append, List.map_singleton, foundStatus_page]
      rw [List.map_append, List.map_singleton] at answer
      refine .inr ⟨?_, answer⟩
      rw [← Listing.since_behind split]
      apply List.eq_nil_iff_forall_not_mem.mpr
      intro other member
      have above : item.handle.toNat + 1 ≤ other.handle.toNat := (Listing.mem_since.mp member).2
      have past : (0xffff : UInt16).toNat ≤ item.handle.toNat := UInt16.not_lt.mp further
      have most : (0xffff : UInt16).toNat = 65535 := rfl
      have bound := other.handle.toNat_lt
      omega

/-- Service discovery ends without an error and with all services. -/
theorem services_complete (declares : server.Declares table) :
    ∃ count, Converses (server.services stray) State.initial.dp count
      (0, table.services.map ServiceDecl.found) := by
  obtain ⟨count, converses⟩ :=
    (services_pages declares).converses State.initial.dp (by decide)
  refine ⟨count, ?_⟩
  have whole : table.serviceListing.since State.initial.dp.start.toNat = table.services :=
    table.since_services
  rw [whole] at converses
  exact converses

/-- Characteristic discovery ends with all characteristics, and with an error if there is
none. -/
theorem characteristics_complete (declares : server.Declares table) :
    ∃ count, Converses (server.characteristics stray) State.initial.dc count
      (if table.characteristics.isEmpty then ecodeAttrNotFound else 0,
        table.characteristics.map CharDecl.found) := by
  obtain ⟨count, converses⟩ :=
    (characteristics_pages declares).converses State.initial.dc (by decide)
  refine ⟨count, ?_⟩
  have whole : table.charListing.since State.initial.dc.start.toNat = table.characteristics :=
    table.since_characteristics
  rw [whole, show State.initial.dc.characteristics = [] from rfl, List.nil_append, foundStatus,
    List.isEmpty_map] at converses
  exact converses

/-- Descriptor discovery ends with all attributes, and with an error if there is none. -/
theorem descriptors_complete (declares : server.Declares table) :
    ∃ count, Converses (server.descriptors stray) State.initial.dd count
      (if table.attributes.isEmpty then ecodeAttrNotFound else 0,
        table.attributes.map AttributeDecl.found) := by
  obtain ⟨count, converses⟩ :=
    (descriptors_pages declares).converses State.initial.dd (by decide)
  refine ⟨count, ?_⟩
  have whole : table.attributeListing.since State.initial.dd.start.toNat = table.attributes :=
    table.since_attributes
  rw [whole, show State.initial.dd.descriptors = [] from rfl, List.nil_append, foundStatus,
    List.isEmpty_map] at converses
  exact converses

end Procedures

end NaiveBTSniffing.Gatttool
