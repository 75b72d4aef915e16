import NaiveBTSniffing.Launcher.HandleLines

/-!
Contract: what `bluetoothctl` prints about a device object, handled by the
launcher.

`printDevice` is `print_device` of `client/main.c`. A `Lifetime` is one stay of
a device object, from its [NEW] line to its [DEL] line; the properties of the
object may differ at the two prints. Owns the condition under which a history of
such lifetimes leaves the address untracked after every [DEL] line.

Does not own lines that forge a [NEW] or [DEL] line about the address, nor the
workers, which may move it between the maps meanwhile.
-/

namespace NaiveBTSniffing.Launcher

open NaiveBTSniffing.Library

/-! ## Printing a device -/

/-- The properties of a D-Bus device object that `print_device` reads, each
`none` or `false` when the object does not have it. -/
structure Device where
  address : Option Text
  aliasName : Option Text
  addressType : Option Text
  hasClass : Bool
deriving DecidableEq, Repr

/-- `COLORED_NEW`. -/
def coloredNew : Text := "\x01\x1b[0;92m\x02NEW\x01\x1b[0m\x02".toList

/-- `COLORED_DEL`. -/
def coloredDel : Text := "\x01\x1b[0;91m\x02DEL\x01\x1b[0m\x02".toList

/-- The word for the kind of a device: a device class means BR/EDR, unless the
address is random. -/
def typeWord (addressType : Text) (hasClass : Bool) : Text :=
  if addressType = "public".toList ∧ hasClass = true then "BTC".toList else "BLE".toList

/-- `print_device`: nothing when the object lacks an address or its type. -/
def printDevice (description : Option Text) (device : Device) : Option Text := do
  let address ← device.address
  let name := device.aliasName.getD "<unknown>".toList
  let addressType ← device.addressType
  let heading := match description with
    | some description => '[' :: description ++ "] ".toList
    | none => []
  some (heading ++ "Device ".toList ++ address ++ ' ' :: typeWord addressType device.hasClass ++
    ' ' :: addressType ++ ' ' :: name ++ "\n".toList)

/-- The part of a text before its first line break. What a name with line breaks
prints after it are further lines of the log. -/
def firstLine (text : Text) : Text :=
  text.takeWhile fun char => decide (char ≠ '\n' ∧ char ≠ '\r')

/-- The word of the line that the device would print now. -/
def Device.word (device : Device) : Text :=
  typeWord (device.addressType.getD []) device.hasClass

/-- The object has the given address and, as every object of `bluetoothd`, an
address type. -/
structure Device.Reports (device : Device) (address : Text) : Prop where
  reported : device.address = some address
  addressWord : Text.IsWord address
  addressType : ∃ addressType, device.addressType = some addressType ∧ Text.IsWord addressType

private theorem firstLine_append {text : Text} (rest : Text)
    (oneLine : ∀ char ∈ text, char ≠ '\n' ∧ char ≠ '\r') :
    firstLine (text ++ rest) = text ++ firstLine rest :=
  List.takeWhile_append_of_pos fun char member => decide_eq_true (oneLine char member)

/-- A word has no line break. -/
private theorem firstLine_word_cons {word : Text} (isWord : Text.IsWord word) (rest : Text) :
    firstLine (word ++ ' ' :: rest) = word ++ ' ' :: firstLine rest := by
  have oneLine : ∀ char ∈ word ++ [' '], char ≠ '\n' ∧ char ≠ '\r' := by
    intro char member
    rcases List.mem_append.mp member with inside | last
    · have noSpace := isWord.noSpace char inside
      constructor <;> rintro rfl <;> exact absurd noSpace (by decide)
    · rw [List.mem_singleton.mp last]
      decide
  have split : word ++ ' ' :: rest = word ++ [' '] ++ rest := by simp
  rw [split, firstLine_append rest oneLine]
  simp

theorem typeWord_isWord (addressType : Text) (hasClass : Bool) :
    Text.IsWord (typeWord addressType hasClass) := by
  unfold typeWord
  split <;> decide

/-- The words of the first line of a text that starts with five words. -/
private theorem split_firstLine {first second third fourth fifth : Text} (rest : Text)
    (firstWord : Text.IsWord first) (secondWord : Text.IsWord second)
    (thirdWord : Text.IsWord third) (fourthWord : Text.IsWord fourth)
    (fifthWord : Text.IsWord fifth) :
    Text.split (firstLine (first ++ ' ' :: (second ++ ' ' :: (third ++ ' ' :: (fourth ++
      ' ' :: (fifth ++ ' ' :: rest)))))) =
        first :: second :: third :: fourth :: fifth :: Text.split (firstLine rest) := by
  rw [firstLine_word_cons firstWord, firstLine_word_cons secondWord,
    firstLine_word_cons thirdWord, firstLine_word_cons fourthWord, firstLine_word_cons fifthWord,
    Text.split_word_cons firstWord, Text.split_word_cons secondWord,
    Text.split_word_cons thirdWord, Text.split_word_cons fourthWord,
    Text.split_word_cons fifthWord]

/-- The line that the log gets from a print: the first one of its text. -/
def printedLine (description : Text) (device : Device) : Text :=
  firstLine ((printDevice (some description) device).getD [])

/-- The words of the line. -/
theorem split_printedLine (description : Text) {address : Text} {device : Device}
    (reports : device.Reports address)
    (heading : Text.IsWord ('[' :: description ++ "]".toList)) :
    ∃ addressType more, Text.split (printedLine description device) =
      ('[' :: description ++ "]".toList) :: "Device".toList :: address :: device.word ::
        addressType :: more := by
  obtain ⟨addressType, typed, addressTypeWord⟩ := reports.addressType
  have text : (printDevice (some description) device).getD [] =
      ('[' :: description ++ "]".toList) ++ ' ' :: ("Device".toList ++ ' ' :: (address ++
        ' ' :: (device.word ++ ' ' :: (addressType ++ ' ' ::
          (device.aliasName.getD "<unknown>".toList ++ "\n".toList))))) := by
    simp [printDevice, reports.reported, typed, Device.word]
  have deviceWord : Text.IsWord "Device".toList := by decide
  have typed : Text.IsWord device.word := typeWord_isWord _ device.hasClass
  have words := split_firstLine (device.aliasName.getD "<unknown>".toList ++ "\n".toList) heading
    deviceWord reports.addressWord typed addressTypeWord
  rw [← text] at words
  exact ⟨addressType, _, words⟩

/-- A [NEW] line tracks the address on the radio of its word. -/
theorem asks_printedLine_new (settings : Settings) {address : Text} {device : Device}
    (reports : device.Reports address) :
    ∃ addressType, asks settings (printedLine coloredNew device) =
      .new (settings.lower address) device.word addressType := by
  obtain ⟨addressType, more, words⟩ :=
    split_printedLine coloredNew reports (by decide)
  refine ⟨addressType, ?_⟩
  rw [asks_eq, words]
  rfl

/-- A [DEL] line deletes the address on the radio of its word. -/
theorem asks_printedLine_del (settings : Settings) {address : Text} {device : Device}
    (reports : device.Reports address) :
    asks settings (printedLine coloredDel device) =
      .del (settings.lower address) device.word := by
  obtain ⟨addressType, more, words⟩ :=
    split_printedLine coloredDel reports (by decide)
  rw [asks_eq, words]
  rfl

/-! ## Histories of a device object -/

/-- The command adds or removes the device with this key. -/
def Command.announces (bdaddr : Text) : Command → Bool
  | .new other _ _ => decide (other = bdaddr)
  | .del other _ => decide (other = bdaddr)
  | _ => false

/-- The line neither adds nor removes the device with this key. -/
def Quiet (settings : Settings) (bdaddr line : Text) : Prop :=
  (asks settings line).announces bdaddr = false

instance (settings : Settings) (bdaddr line : Text) : Decidable (Quiet settings bdaddr line) :=
  inferInstanceAs (Decidable (_ = false))

/-- The line moves the device with this key to the deprioritized dictionary. -/
def Parks (settings : Settings) (bdaddr line : Text) : Prop :=
  ∃ more, asks settings line = .manufacturerData bdaddr more ∧ more.head? = some appleWord

/-- One stay of the device object of an address, with the lines of the log that
come before it and during it: those about changed properties and those about
other devices. -/
structure Lifetime (settings : Settings) (address : Text) where
  before : List Text
  /-- The object when it is added. -/
  added : Device
  during : List Text
  /-- The object when it is removed. -/
  removed : Device
  addedReports : added.Reports address
  removedReports : removed.Reports address
  beforeQuiet : ∀ line ∈ before, Quiet settings (settings.lower address) line
  duringQuiet : ∀ line ∈ during, Quiet settings (settings.lower address) line

variable {settings : Settings} {address : Text}

/-- The lines of the log up to the [DEL] line. -/
def Lifetime.lines (lifetime : Lifetime settings address) : List Text :=
  lifetime.before ++ printedLine coloredNew lifetime.added :: lifetime.during ++
    [printedLine coloredDel lifetime.removed]

/-- The object printed the same word when it was removed as when it was added,
or the address was deprioritized in between. -/
def Lifetime.Matched (lifetime : Lifetime settings address) : Prop :=
  lifetime.added.word = lifetime.removed.word ∨
    ∃ line ∈ lifetime.during, Parks settings (settings.lower address) line

/-- After each [DEL] line of the history the address is tracked on no radio. -/
def FreesAddress (history : List (Lifetime settings address)) (start : Data) : Prop :=
  ∀ finished lifetime rest, history = finished ++ lifetime :: rest → ∀ data,
    handleLines settings ((finished ++ [lifetime]).flatMap Lifetime.lines) start = some data →
      ∀ radio, settings.lower address ∉ data.bdaddrs radio

/-- Quiet lines only ever take an address from the tracked ones: those that
park it. -/
private theorem mem_of_quiet {bdaddr : Text} {lines : List Text} {data after : Data}
    (quiet : ∀ line ∈ lines, Quiet settings bdaddr line)
    (handled : handleLines settings lines data = some after) (radio : Radio) :
    bdaddr ∈ after.bdaddrs radio ↔
      bdaddr ∈ data.bdaddrs radio ∧ ∀ line ∈ lines, ¬ Parks settings bdaddr line := by
  induction lines generalizing data with
  | nil =>
      rw [Option.some.inj handled]
      simp
  | cons line rest inductionHypothesis =>
      obtain ⟨next, remaining, tracked⟩ := mem_of_handled handled
      have quietHere := quiet line List.mem_cons_self
      have here : bdaddr ∈ next.bdaddrs radio ↔
          bdaddr ∈ data.bdaddrs radio ∧ ¬ Parks settings bdaddr line := by
        rw [tracked bdaddr radio]
        unfold Quiet at quietHere
        unfold Parks
        cases asked : asks settings line with
        | new other type addressType =>
            have different : other ≠ bdaddr := by
              simpa [asked, Command.announces] using quietHere
            simp [Command.keepsTracked, Ne.symm different]
        | rssi other rssiWord => simp [Command.keepsTracked]
        | manufacturerData other more =>
            simp only [Command.keepsTracked, Command.manufacturerData.injEq]
            constructor
            · rintro ⟨present, unparked⟩
              refine ⟨present, ?_⟩
              rintro ⟨_, ⟨rfl, rfl⟩, apple⟩
              exact unparked ⟨rfl, apple⟩
            · rintro ⟨present, unparked⟩
              refine ⟨present, ?_⟩
              rintro ⟨rfl, apple⟩
              exact unparked ⟨more, ⟨rfl, rfl⟩, apple⟩
        | del other type =>
            have different : other ≠ bdaddr := by
              simpa [asked, Command.announces] using quietHere
            simp [Command.keepsTracked, Ne.symm different]
        | ignored => simp [Command.keepsTracked]
      rw [inductionHypothesis (fun other member => quiet other (List.mem_cons_of_mem _ member))
        remaining, here, List.forall_mem_cons, and_assoc]

/-- The radio that a [NEW] line of this object tracks the address on. -/
theorem delRadio_word (device : Device) :
    delRadio device.word = some (newRadio device.word) := by
  unfold Device.word typeWord
  split <;> rfl

private theorem newRadio_word_inj {first second : Device}
    (same : newRadio first.word = newRadio second.word) : first.word = second.word := by
  revert same
  unfold Device.word typeWord
  split <;> split <;> decide

/-- One stay of the object: the address is free again after it exactly when the
words match. -/
private theorem free_iff_matched (lifetime : Lifetime settings address) {start data : Data}
    (fresh : ∀ radio, settings.lower address ∉ start.bdaddrs radio)
    (handled : handleLines settings lifetime.lines start = some data) :
    (∀ radio, settings.lower address ∉ data.bdaddrs radio) ↔ lifetime.Matched := by
  rw [Lifetime.lines, List.append_assoc, List.cons_append, handleLines_append] at handled
  obtain ⟨reached, before, fromNew⟩ := Option.bind_eq_some_iff.mp handled
  obtain ⟨added, fromAdded, trackedAdded⟩ := mem_of_handled fromNew
  rw [handleLines_append] at fromAdded
  obtain ⟨stayed, during, fromDel⟩ := Option.bind_eq_some_iff.mp fromAdded
  obtain ⟨removed, ended, trackedRemoved⟩ := mem_of_handled fromDel
  obtain rfl : removed = data := Option.some.inj ended
  obtain ⟨addressType, asksNew⟩ := asks_printedLine_new settings lifetime.addedReports
  have asksDel := asks_printedLine_del settings lifetime.removedReports
  have untracked : ∀ radio, settings.lower address ∉ reached.bdaddrs radio := by
    intro radio present
    exact fresh radio ((mem_of_quiet lifetime.beforeQuiet before radio).mp present).1
  have afterNew : ∀ radio, settings.lower address ∈ added.bdaddrs radio ↔
      radio = newRadio lifetime.added.word := by
    intro radio
    rw [trackedAdded, asksNew]
    simp [Command.keepsTracked, untracked radio]
  have afterDel : ∀ radio, settings.lower address ∈ removed.bdaddrs radio ↔
      (radio = newRadio lifetime.added.word ∧
        ∀ line ∈ lifetime.during, ¬ Parks settings (settings.lower address) line) ∧
      newRadio lifetime.removed.word ≠ radio := by
    intro radio
    rw [trackedRemoved, asksDel, Command.keepsTracked, mem_of_quiet lifetime.duringQuiet during,
      afterNew, delRadio_word]
    simp
  unfold Lifetime.Matched
  constructor
  · intro free
    by_contra unmatched
    push Not at unmatched
    apply free (newRadio lifetime.added.word)
    rw [afterDel]
    exact ⟨⟨rfl, unmatched.2⟩, fun same => unmatched.1 (newRadio_word_inj same.symm)⟩
  · intro matched radio present
    obtain ⟨⟨rfl, unparked⟩, other⟩ := (afterDel radio).mp present
    rcases matched with sameWord | ⟨line, member, parks⟩
    · exact other (by rw [sameWord])
    · exact unparked line member parks

/-- Along a history of a device object that the launcher handles to its end, the
address is free after every [DEL] line exactly when every such line has the word
of the [NEW] line before it or comes after the address was deprioritized. -/
theorem freesAddress_iff_matched (settings : Settings) (address : Text)
    (history : List (Lifetime settings address)) {start data : Data}
    (fresh : ∀ radio, settings.lower address ∉ start.bdaddrs radio)
    (handled : handleLines settings (history.flatMap Lifetime.lines) start = some data) :
    FreesAddress history start ↔ ∀ lifetime ∈ history, lifetime.Matched := by
  induction history generalizing start with
  | nil =>
      refine ⟨fun _ _ member => absurd member List.not_mem_nil, fun _ => ?_⟩
      intro finished lifetime rest impossible
      exact absurd impossible.symm (by simp)
  | cons first rest inductionHypothesis =>
      rw [List.flatMap_cons, handleLines_append] at handled
      obtain ⟨next, firstHandled, restHandled⟩ := Option.bind_eq_some_iff.mp handled
      have firstIff := free_iff_matched first fresh firstHandled
      rw [List.forall_mem_cons]
      constructor
      · intro frees
        have freed : ∀ radio, settings.lower address ∉ next.bdaddrs radio :=
          frees [] first rest rfl next (by simpa using firstHandled)
        refine ⟨firstIff.mp freed, (inductionHypothesis freed restHandled).mp ?_⟩
        intro finished lifetime others split state stateHandled
        apply frees (first :: finished) lifetime others (by rw [split, List.cons_append])
        rw [List.cons_append, List.flatMap_cons, handleLines_append, firstHandled]
        exact stateHandled
      · rintro ⟨matched, others⟩
        have freed := firstIff.mpr matched
        have frees := (inductionHypothesis freed restHandled).mpr others
        intro finished lifetime later split state stateHandled
        cases finished with
        | nil =>
            obtain ⟨rfl, rfl⟩ := List.cons.inj split
            rw [List.nil_append, List.flatMap_singleton, firstHandled] at stateHandled
            rw [← Option.some.inj stateHandled]
            exact freed
        | cons head finished =>
            obtain ⟨rfl, splitRest⟩ := List.cons.inj split
            rw [List.cons_append, List.flatMap_cons, handleLines_append, firstHandled]
              at stateHandled
            exact frees finished lifetime later splitRest state stateHandled

/-! ## A device class that appears late -/

/-- A public device without a class when it is added. -/
def lateClass (aliasName : Text) (hasClass : Bool) : Device where
  address := some "AA:BB:CC:DD:EE:FF".toList
  aliasName := some aliasName
  addressType := some "public".toList
  hasClass := hasClass

theorem lateClass_reports (aliasName : Text) (hasClass : Bool) :
    (lateClass aliasName hasClass).Reports "AA:BB:CC:DD:EE:FF".toList where
  reported := rfl
  addressWord := by decide
  addressType := ⟨"public".toList, rfl, by decide⟩

/-- Its stay, with or without a class at the end. -/
def lateClassLifetime (hasClass : Bool) :
    Lifetime Settings.shipped "AA:BB:CC:DD:EE:FF".toList where
  before := []
  added := lateClass "headset".toList false
  during := [deviceLine chgWord "AA:BB:CC:DD:EE:FF Class: 0x240404".toList]
  removed := lateClass "headset".toList hasClass
  addedReports := lateClass_reports _ _
  removedReports := lateClass_reports _ _
  beforeQuiet := by decide
  duringQuiet := by decide

/-- Without a class at the end the address is free again. -/
theorem freesAddress_without_class :
    FreesAddress [lateClassLifetime false] Data.empty ↔
      ∀ lifetime ∈ [lateClassLifetime false], lifetime.Matched := by
  have handled : (handleLines Settings.shipped
      ([lateClassLifetime false].flatMap Lifetime.lines) Data.empty).isSome = true := by decide
  obtain ⟨data, ended⟩ := Option.isSome_iff_exists.mp handled
  exact freesAddress_iff_matched Settings.shipped "AA:BB:CC:DD:EE:FF".toList
    [lateClassLifetime false] (fun _ => AList.notMem_empty _) ended

/-- Added as `BLE` and removed as `BTC`, the address stays tracked. -/
theorem not_freesAddress_of_late_class :
    ¬ ∀ (settings : Settings) (address : Text) (history : List (Lifetime settings address))
      (data : Data),
      handleLines settings (history.flatMap Lifetime.lines) Data.empty = some data →
        FreesAddress history Data.empty := by
  intro always
  have stays : (handleLines Settings.shipped
      ([lateClassLifetime true].flatMap Lifetime.lines) Data.empty).any (fun data =>
        decide ("aa:bb:cc:dd:ee:ff".toList ∈ data.bdaddrs .ble)) = true := by decide
  obtain ⟨data, ended, tracked⟩ := (Option.any_eq_true _ _).mp stays
  have frees := always _ _ [lateClassLifetime true] data ended
  exact frees [] (lateClassLifetime true) [] rfl data ended .ble (of_decide_eq_true tracked)

end NaiveBTSniffing.Launcher
