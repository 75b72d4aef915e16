import Mathlib.Data.Nat.Digits.Defs
import NaiveBTSniffing.Analysis.Fingerprint
import NaiveBTSniffing.Analysis.UuidNames
import NaiveBTSniffing.Library.Dict

/-!
Contract: what `print_GATT_info` prints of the GATT tables.

The section with meaning is a nested loop: services, the descriptors in their
range, the characteristics whose value handle is the descriptor's handle. The raw
section and its file take the rows as they are.

Owns how often a stored characteristic is printed with meaning and which value is
printed for it, when the section runs to its end. Decoding an Appearance value,
which is done below the value, can end it (`decodeAppearances`). The texts that name
UUIDs and appearances are left out.
-/

namespace NaiveBTSniffing.Analysis

open NaiveBTSniffing.Library

/-! ## The queries -/

structure GattResults where
  services : List GattService
  descriptors : List GattDescriptor
  characteristics : List GattCharacteristic
  characteristicsValues : List GattValue
deriving DecidableEq, Repr

def gattResults (collation : Collation) (database : Database) (bdaddr : Text) : GattResults where
  services := TypedRow.about collation bdaddr database.gattServices
  descriptors := TypedRow.about collation bdaddr database.gattDescriptors
  characteristics := TypedRow.about collation bdaddr database.gattCharacteristics
  characteristicsValues := TypedRow.about collation bdaddr database.gattCharacteristicsValues

/-! ## The section with meaning -/

/-- What is printed below a characteristic. -/
inductive ValueShown where
  | notReadable
  /-- "GATT Characteristic value read as {…}" -/
  | readAs (byteValues : List Nat)
  /-- "No GATT characteristic value was read and stored in the database (…)" -/
  | notStored
deriving DecidableEq, Repr

inductive GattEntry where
  /-- "GATT Service: Begin Handle: {…} End Handle: {…} UUID128: {…} ({…})" -/
  | service (row : GattService)
  /-- "GATT Descriptor: {…}, Descriptor Handle: {…}" -/
  | descriptor (row : GattDescriptor)
  /-- "GATT Characteristic: {…} ({…}), Properties: {…} ({…})" -/
  | characteristic (row : GattCharacteristic) (value : ValueShown)
deriving DecidableEq, Repr

/-- The values of the handles; a later row replaces an earlier one. -/
def charByteValsDict (values : List GattValue) : Dict Nat (List Nat) :=
  values.foldl (fun dict row => Dict.setItem dict row.readHandle row.byteValues) ∅

def isCharacteristicReadable (number : Nat) : Bool := decide (number &&& 0b00000010 ≠ 0)

def valueShown (values : List GattValue) (row : GattCharacteristic) : ValueShown :=
  if isCharacteristicReadable row.charProperties then
    match (charByteValsDict values).lookup row.charValueHandle with
    | some byteValues => .readAs byteValues
    | none => .notStored
  else .notReadable

/-- `descriptor_handle <= end_handle and descriptor_handle >= begin_handle`. -/
def GattService.contains (service : GattService) (handle : Nat) : Bool :=
  decide (handle ≤ service.endHandle) && decide (service.beginHandle ≤ handle)

def characteristicEntries (results : GattResults) (descriptor : GattDescriptor) :
    List GattEntry :=
  results.characteristics.flatMap fun row =>
    if descriptor.descriptorHandle = row.charValueHandle then
      [.characteristic row (valueShown results.characteristicsValues row)]
    else []

def descriptorEntries (results : GattResults) (service : GattService) : List GattEntry :=
  results.descriptors.flatMap fun descriptor =>
    if service.contains descriptor.descriptorHandle then
      .descriptor descriptor :: characteristicEntries results descriptor
    else []

def semanticSection (results : GattResults) : List GattEntry :=
  results.services.flatMap fun service => .service service :: descriptorEntries results service

/-! ## Appearances -/

/-- What can raise in `appearance_uint16_to_string`: its text has the number of the
category in decimal digits. -/
def appearanceUint16ToString (number : Nat) : Except Fault Unit :=
  match Text.formatInt (number >>> 6 : Nat) with
  | some _ => .ok ()
  | none => .error .valueError

private theorem shiftRight_lt {number bound : Nat} (below : number < 2 ^ 6 * bound) :
    number >>> 6 < bound := by
  rw [Nat.shiftRight_eq_div_pow]
  exact Nat.div_lt_of_lt_mul below

/-- The category of a value of not more than 1786 bytes can be written. -/
theorem formatInt_category_of_short {byteValues : List Nat}
    (bytes : ∀ byte ∈ byteValues, byte < 256) (short : byteValues.length ≤ 1786) :
    (Text.formatInt (Nat.ofDigits 256 byteValues >>> 6 : Nat)).isSome = true := by
  have below : Nat.ofDigits 256 byteValues < 2 ^ 6 * 10 ^ 4300 :=
    calc Nat.ofDigits 256 byteValues
      _ < 256 ^ byteValues.length := Nat.ofDigits_lt_base_pow_length (by decide) bytes
      _ ≤ 256 ^ 1786 := Nat.pow_le_pow_right (by decide) short
      _ < 2 ^ 6 * 10 ^ 4300 := by decide +kernel
  exact Text.formatInt_isSome_of_lt (shiftRight_lt below) (by decide) le_rfl

/-- What is done below the value of a characteristic; its bytes are read as
`int.from_bytes(…, byteorder='little')` does. -/
def decodeAppearance (files : NameFiles) : GattEntry → Except Fault Unit
  | .characteristic row (.readAs byteValues) => do
      let name ← matchGattCharacteristic files row.charUuid128
      if name = "Appearance".toList then
        appearanceUint16ToString (Nat.ofDigits 256 byteValues)
  | _ => .ok ()

def decodeAppearances (files : NameFiles) (entries : List GattEntry) : Except Fault Unit :=
  entries.forM (decodeAppearance files)

/-! ## The raw section -/

def decimal (value : Nat) : Text := (toString value).toList

def rawService (row : GattService) : Text :=
  "Svc: Begin Handle: ".toList ++ decimal row.beginHandle ++ "\tEnd Handle: ".toList ++
    decimal row.endHandle ++ "   \tUUID128: ".toList ++ row.uuid128 ++ "\n".toList

def rawDescriptor (row : GattDescriptor) : Text :=
  "Desc: ".toList ++ row.uuid128 ++ ", Descriptor Handle: ".toList ++
    decimal row.descriptorHandle ++ "\n".toList

def rawCharacteristic (row : GattCharacteristic) : Text :=
  "Char: ".toList ++ row.charUuid128 ++ ", Properties: ".toList ++ decimal row.charProperties ++
    ", Declaration Handle: ".toList ++ decimal row.declarationHandle ++
    ", Characteristic Handle: ".toList ++ decimal row.charValueHandle ++ "\n".toList

structure GattInfo where
  semantic : List GattEntry
  raw : Option RawFile

/-- The raw file is written only for a device with a service. -/
def printGattInfo (opens : Text → Bool) (files : NameFiles) (collation : Collation)
    (database : Database) (bdaddr : Text) : Except Fault GattInfo := do
  let results := gattResults collation database bdaddr
  decodeAppearances files (semanticSection results)
  if results.services ≠ [] then
    let path := "./GATTPrints/".toList ++ bdaddr ++ ".gattprint".toList
    openFile opens path
    return {
      semantic := semanticSection results
      raw := some {
        path := path
        contents := results.services.flatMap rawService ++
          results.descriptors.flatMap rawDescriptor ++
          results.characteristics.flatMap rawCharacteristic } }
  else return { semantic := semanticSection results, raw := none }

/-! ## How often a characteristic is printed -/

/-- The entry prints this stored characteristic. -/
def GattEntry.prints (chars : GattCharacteristic) : GattEntry → Bool
  | .characteristic row _ => decide (row = chars)
  | _ => false

/-- A loop in which some members print the same number and the others nothing. -/
private theorem countP_flatMap_ite {Member Entry : Type} (members : List Member)
    {body : Member → List Entry} {counted : Entry → Bool} (some : Member → Bool) (each : Nat)
    (bodies : ∀ member, (body member).countP counted = if some member then each else 0) :
    (members.flatMap body).countP counted = each * members.countP some := by
  induction members with
  | nil => simp
  | cons member members inductionHypothesis =>
      rw [List.flatMap_cons, List.countP_append, bodies, inductionHypothesis]
      by_cases this : some member = true
      · rw [if_pos this, List.countP_cons_of_pos this, Nat.mul_add_one, Nat.add_comm]
      · rw [if_neg this, List.countP_cons_of_neg this, Nat.zero_add]

section Counts

variable (results : GattResults) (chars : GattCharacteristic)

/-- Under a descriptor: once for each time it is stored, if the descriptor has its
value handle. -/
theorem countP_characteristicEntries (descriptor : GattDescriptor) :
    (characteristicEntries results descriptor).countP (GattEntry.prints chars) =
      if decide (descriptor.descriptorHandle = chars.charValueHandle) then
        results.characteristics.count chars
      else 0 := by
  unfold characteristicEntries
  by_cases same : descriptor.descriptorHandle = chars.charValueHandle
  · rw [countP_flatMap_ite results.characteristics (fun row => row == chars) 1]
    · rw [if_pos (decide_eq_true same), Nat.one_mul]
      rfl
    · intro row
      by_cases this : row = chars
      · subst this
        simp [same, GattEntry.prints]
      · have other : (row == chars) = false := by simpa using this
        rw [other]
        split <;> simp [GattEntry.prints, this]
  · rw [countP_flatMap_ite results.characteristics (fun _ => false) 0]
    · simp [same]
    · intro row
      by_cases this : row = chars
      · subst this
        simp [same]
      · split <;> simp [GattEntry.prints, this]

/-- Under a service: once for each descriptor with the handle, if the handle is in the
range of the service. -/
theorem countP_descriptorEntries (service : GattService) :
    (descriptorEntries results service).countP (GattEntry.prints chars) =
      if service.contains chars.charValueHandle then
        results.characteristics.count chars * results.descriptors.countP
          (fun descriptor => decide (descriptor.descriptorHandle = chars.charValueHandle))
      else 0 := by
  unfold descriptorEntries
  by_cases inside : service.contains chars.charValueHandle = true
  · rw [if_pos inside]
    apply countP_flatMap_ite
    intro descriptor
    by_cases same : descriptor.descriptorHandle = chars.charValueHandle
    · rw [same, if_pos inside, List.countP_cons_of_neg (by simp [GattEntry.prints])]
      exact (countP_characteristicEntries results chars descriptor).trans (by simp [same])
    · have other : decide (descriptor.descriptorHandle = chars.charValueHandle) = false :=
        decide_eq_false same
      rw [other]
      split
      · rw [List.countP_cons_of_neg (by simp [GattEntry.prints]),
          countP_characteristicEntries, other]
      · rfl
  · rw [if_neg inside, countP_flatMap_ite results.descriptors (fun _ => false) 0]
    · exact Nat.zero_mul _
    · intro descriptor
      split
      · next within =>
          have other : descriptor.descriptorHandle ≠ chars.charValueHandle :=
            fun same => inside (same ▸ within)
          rw [List.countP_cons_of_neg (by simp [GattEntry.prints]),
            countP_characteristicEntries, if_neg (by simpa using other)]
          rfl
      · rfl

/-- Once for each pair of a service whose range has the value handle and a descriptor
with that handle. -/
theorem countP_semanticSection :
    (semanticSection results).countP (GattEntry.prints chars) =
      results.characteristics.count chars *
        results.descriptors.countP
          (fun descriptor => decide (descriptor.descriptorHandle = chars.charValueHandle)) *
        results.services.countP (fun service => service.contains chars.charValueHandle) := by
  unfold semanticSection
  apply countP_flatMap_ite
  intro service
  rw [List.countP_cons_of_neg (by simp [GattEntry.prints]), countP_descriptorEntries]

end Counts

/-! ## The values -/

/-- The dictionary has, for a handle, one of the values stored for it, if there is one. -/
theorem lookup_charByteValsDict (values : List GattValue) (handle : Nat) :
    (∃ byteValues, (charByteValsDict values).lookup handle = some byteValues ∧
        ⟨handle, byteValues⟩ ∈ values) ∨
      ((charByteValsDict values).lookup handle = none ∧
        ∀ row ∈ values, row.readHandle ≠ handle) := by
  unfold charByteValsDict
  induction values using List.reverseRecOn with
  | nil => exact .inr ⟨rfl, by simp⟩
  | append_singleton values last inductionHypothesis =>
      rw [List.foldl_append, List.foldl_cons, List.foldl_nil, Dict.lookup_setItem]
      by_cases same : handle = last.readHandle
      · rw [if_pos same]
        exact .inl ⟨last.byteValues, rfl, by simp [same]⟩
      · rw [if_neg same]
        rcases inductionHypothesis with ⟨byteValues, found, stored⟩ | ⟨missing, other⟩
        · exact .inl ⟨byteValues, found, List.mem_append_left _ stored⟩
        · refine .inr ⟨missing, fun row member => ?_⟩
          rcases List.mem_append.mp member with earlier | atEnd
          · exact other row earlier
          · rw [List.mem_singleton.mp atEnd]
            exact fun equal => same equal.symm

theorem mem_semanticSection {results : GattResults} {chars : GattCharacteristic}
    {value : ValueShown} (printed : .characteristic chars value ∈ semanticSection results) :
    value = valueShown results.characteristicsValues chars := by
  unfold semanticSection descriptorEntries characteristicEntries at printed
  simp only [List.mem_flatMap, List.mem_cons, reduceCtorEq, false_or] at printed
  obtain ⟨_, _, _, _, inRange⟩ := printed
  split at inRange
  · simp only [List.mem_cons, List.mem_flatMap, reduceCtorEq, false_or] at inRange
    obtain ⟨row, _, entry⟩ := inRange
    split at entry
    · cases List.mem_singleton.mp entry
      rfl
    · cases entry
  · cases inRange

/-! ## What the section prints -/

/-- The section prints each stored characteristic once for each stored service whose
range has its value handle and each stored descriptor with that handle, so once
where the ranges are disjoint and one descriptor is stored; and with a readable one a
value that is stored for its handle, if there is one. -/
structure SemanticRight (results : GattResults) : Prop where
  count : ∀ chars, (semanticSection results).countP (GattEntry.prints chars) =
    results.characteristics.count chars *
      results.descriptors.countP
        (fun descriptor => decide (descriptor.descriptorHandle = chars.charValueHandle)) *
      results.services.countP (fun service => service.contains chars.charValueHandle)
  once : (∀ handle, results.services.countP (fun service => service.contains handle) ≤ 1) →
    ∀ chars, results.characteristics.count chars = 1 →
      results.descriptors.countP
        (fun descriptor => decide (descriptor.descriptorHandle = chars.charValueHandle)) = 1 →
      (∃ service ∈ results.services, service.contains chars.charValueHandle = true) →
      (semanticSection results).countP (GattEntry.prints chars) = 1
  values : ∀ chars value, .characteristic chars value ∈ semanticSection results →
    isCharacteristicReadable chars.charProperties = true →
    (∃ byteValues, value = .readAs byteValues ∧
        ⟨chars.charValueHandle, byteValues⟩ ∈ results.characteristicsValues) ∨
      (value = .notStored ∧
        ∀ row ∈ results.characteristicsValues, row.readHandle ≠ chars.charValueHandle)

theorem semanticRight_of_tables (collation : Collation) (database : Database) (bdaddr : Text) :
    SemanticRight (gattResults collation database bdaddr) where
  count := countP_semanticSection _
  once := by
    intro disjoint chars storedOnce oneDescriptor ⟨service, member, inside⟩
    have some : 0 < (gattResults collation database bdaddr).services.countP
        (fun service => service.contains chars.charValueHandle) :=
      List.countP_pos_iff.mpr ⟨service, member, inside⟩
    have one := disjoint chars.charValueHandle
    rw [countP_semanticSection, storedOnce, oneDescriptor]
    omega
  values := by
    intro chars value printed readable
    rw [mem_semanticSection printed]
    unfold valueShown
    rw [if_pos readable]
    rcases lookup_charByteValsDict
        (gattResults collation database bdaddr).characteristicsValues chars.charValueHandle with
      ⟨byteValues, found, stored⟩ | ⟨missing, other⟩
    · rw [found]
      exact .inl ⟨byteValues, rfl, stored⟩
    · rw [missing]
      exact .inr ⟨rfl, other⟩

private def cutOff : Text := "00:1a:7d:da:71:13".toList

/-- The capture ended before the descriptors were discovered. -/
private def withoutDescriptors : Database :=
  { Database.empty with
    gattServices := [⟨0, cutOff, ⟨1, 3, "00001800-0000-1000-8000-00805f9b34fb".toList⟩⟩]
    gattCharacteristics :=
      [⟨0, cutOff, ⟨2, 2, 3, "00002a00-0000-1000-8000-00805f9b34fb".toList⟩⟩] }

/-- A characteristic in the range of a service is not printed. -/
theorem not_printed_of_noDescriptors : ¬ ∀ (collation : Collation) (database : Database)
    (bdaddr : Text), ∀ chars ∈ (gattResults collation database bdaddr).characteristics,
    (∃ service ∈ (gattResults collation database bdaddr).services,
      service.contains chars.charValueHandle = true) →
    0 < (semanticSection (gattResults collation database bdaddr)).countP
      (GattEntry.prints chars) := by
  intro printed
  have some := printed .ignoringCase withoutDescriptors cutOff
    ⟨2, 2, 3, "00002a00-0000-1000-8000-00805f9b34fb".toList⟩ (by decide) (by decide)
  exact absurd some (by decide)

end NaiveBTSniffing.Analysis
