import NaiveBTSniffing.Launcher.Footprint
import NaiveBTSniffing.Launcher.PrintDevice
import NaiveBTSniffing.Library.Lines

/-!
Contract: what the name of a device can make the launcher do.

`bluetoothctl` prints the name as it is, and the launcher reads its log line by
line: what follows a line break in the name is a line of its own, which may have
the words of a [NEW], [CHG] or [DEL] line about any device. Owns `HarmlessName`,
the condition on these lines under which a print changes the state of its own
device and nothing else.

Does not own the history of a device object (`PrintDevice`).
-/

namespace NaiveBTSniffing.Launcher

open NaiveBTSniffing.Library
open NaiveBTSniffing.Library.Interleaving
open NaiveBTSniffing.Library.Interleaving.Prog
open Code

/-! ## Prints and their lines -/

/-- The two prints that announce a device object. -/
inductive Print where
  | added
  | removed
deriving DecidableEq, Repr

def Print.description : Print → Text
  | .added => coloredNew
  | .removed => coloredDel

/-- What the print leaves in the tracked dictionary of its radio. -/
def Print.entry (addressType : Text) : Print → Option (Text × Int)
  | .added => some (addressType, -80)
  | .removed => none

/-- The command of the line that names the device. -/
def Print.command (bdaddr type addressType : Text) : Print → Command
  | .added => .new bdaddr type addressType
  | .removed => .del bdaddr type

/-- The radio that is printed. -/
def Device.radio (device : Device) : Radio := newRadio device.word

/-- The lines of the log that a print makes. -/
def printedLines (print : Print) (device : Device) : List Text :=
  Text.lines ((printDevice (some print.description) device).getD [])

/-- The lines that the line breaks of the name make. -/
def Device.nameLines (device : Device) : List Text :=
  (Text.lines (device.aliasName.getD "<unknown>".toList ++ "\n".toList)).tail

/-- The launcher stores or removes the address on the printed radio, restarts its
counter when it is added, and changes no other entry and no other counter. -/
structure ChangesDevice (print : Print) (bdaddr : Text) (radio : Radio) (addressType : Text)
    (before after : Data) : Prop where
  tracked : ∀ query other, (after.bdaddrs query).lookup other =
    if other = bdaddr ∧ query = radio then print.entry addressType
    else (before.bdaddrs query).lookup other
  attempts : ∀ other, after.deviceConnectAttempts.lookup other =
    if print = .added ∧ other = bdaddr then some 0
    else before.deviceConnectAttempts.lookup other
  deprioritized : after.deprioritizedBdaddrs = before.deprioritizedBdaddrs
  succeeded : after.successBdaddrs = before.successBdaddrs

/-- Whenever the monitor is handed the lines of the print, it handles all of them
and changes only this device. -/
def ChangesOnlyDevice (settings : Settings) (print : Print) (address : Text) (device : Device) :
    Prop :=
  ∀ config, (launcher settings).Reachable initial config → config.thread .monitor = .done () →
    (∀ lock, config.shared.holder lock = none) →
      ∃ after, handleLines settings (printedLines print device) config.shared.data = some after ∧
        ChangesDevice print (settings.lower address) device.radio (device.addressType.getD [])
          config.shared.data after

/-! ## The condition -/

/-- The command changes the entry of this address on this radio, where it has
one or creates one. -/
def Command.touches (bdaddr : Text) (radio : Radio) : Command → Prop
  | .new other type _ => bdaddr = other ∧ radio = newRadio type
  | .rssi other _ => bdaddr = other
  | .manufacturerData other more => bdaddr = other ∧ more.head? = some appleWord
  | .del other type => bdaddr = other ∧ delRadio type = some radio
  | .ignored => False

/-- The command does not end the script: all words that it needs are there. -/
def Command.completes : Command → Prop
  | .manufacturerData _ more => more ≠ []
  | .del _ type => (delRadio type).isSome
  | _ => True

/-- The command ends well and touches at most one entry. -/
structure Command.Contained (bdaddr : Text) (radio : Radio) (asked : Command) : Prop where
  completes : asked.completes
  touches : ∀ other query, asked.touches other query → other = bdaddr ∧ query = radio

/-- The command restarts a counter. -/
def Command.restarts : Command → Bool
  | .new _ _ _ => true
  | _ => false

/-- The entry that a [NEW] or [DEL] line leaves. -/
def Command.announced : Command → Option (Option (Text × Int))
  | .new _ _ addressType => some (some (addressType, -80))
  | .del _ _ => some none
  | _ => none

/-- What the lines of the name ask for. -/
def Device.nameCommands (settings : Settings) (device : Device) : List Command :=
  device.nameLines.map (asks settings)

/-- The lines that the name adds to the print touch no entry but that of the
device itself, restart no counter when it is removed, and leave the entry as the
print has it. -/
structure HarmlessName (settings : Settings) (print : Print) (address : Text) (device : Device) :
    Prop where
  contained : ∀ asked ∈ device.nameCommands settings,
    asked.Contained (settings.lower address) device.radio
  restarts : print = .removed → ∀ asked ∈ device.nameCommands settings, asked.restarts = false
  settles : ∀ entry ∈ ((device.nameCommands settings).filterMap Command.announced).getLast?,
    entry = print.entry (device.addressType.getD [])

/-! ## The lines of a print -/

private theorem noBreak_of_isWord {word : Text} (isWord : Text.IsWord word) :
    ∀ char ∈ word, char ≠ '\n' ∧ char ≠ '\r' := by
  intro char member
  have noSpace := isWord.noSpace char member
  constructor <;> rintro rfl <;> exact absurd noSpace (by decide)

private theorem noBreak_word_cons {word rest : Text} (isWord : Text.IsWord word)
    (oneLine : ∀ char ∈ rest, char ≠ '\n' ∧ char ≠ '\r') :
    ∀ char ∈ word ++ ' ' :: rest, char ≠ '\n' ∧ char ≠ '\r' := by
  intro char member
  rcases List.mem_append.mp member with inside | later
  · exact noBreak_of_isWord isWord char inside
  · rcases List.mem_cons.mp later with rfl | inRest
    · decide
    · exact oneLine char inRest

/-- The first line of a print names the device, and the others come from its
name. -/
theorem printedLines_eq (settings : Settings) (print : Print) {address : Text} {device : Device}
    (reports : device.Reports address) :
    ∃ first, printedLines print device = first :: device.nameLines ∧
      asks settings first = print.command (settings.lower address) device.word
        (device.addressType.getD []) := by
  obtain ⟨addressType, typed, addressTypeWord⟩ := reports.addressType
  have heading : Text.IsWord ('[' :: print.description ++ "]".toList) := by
    cases print <;> decide
  have deviceWord : Text.IsWord "Device".toList := by decide
  have typeWord : Text.IsWord device.word := typeWord_isWord _ device.hasClass
  let name := device.aliasName.getD "<unknown>".toList ++ "\n".toList
  let front : Text := ('[' :: print.description ++ "]".toList) ++ ' ' :: ("Device".toList ++
    ' ' :: (address ++ ' ' :: (device.word ++ ' ' :: (addressType ++ [' ']))))
  have text : (printDevice (some print.description) device).getD [] = front ++ name := by
    simp [printDevice, reports.reported, typed, Device.word, front, name]
  have oneLine : ∀ char ∈ front, char ≠ '\n' ∧ char ≠ '\r' :=
    noBreak_word_cons heading <| noBreak_word_cons deviceWord <|
      noBreak_word_cons reports.addressWord <| noBreak_word_cons typeWord <|
        noBreak_word_cons addressTypeWord fun _ impossible => absurd impossible List.not_mem_nil
  cases split : Text.lines name with
  | nil => exact absurd split (Text.lines_ne_nil (by simp [name]))
  | cons line more =>
      refine ⟨front ++ line, ?_, ?_⟩
      · rw [printedLines, text, Text.lines_append_inside oneLine split]
        show _ = (front ++ line) :: (Text.lines name).tail
        rw [split, List.tail_cons]
      · have words : Text.split (front ++ line) =
            ('[' :: print.description ++ "]".toList) :: "Device".toList :: address ::
              device.word :: addressType :: Text.split line := by
          have apart : front ++ line = ('[' :: print.description ++ "]".toList) ++ ' ' ::
              ("Device".toList ++ ' ' :: (address ++ ' ' :: (device.word ++ ' ' ::
                (addressType ++ ' ' :: line)))) := by
            simp [front]
          rw [apart, Text.split_word_cons heading, Text.split_word_cons deviceWord,
            Text.split_word_cons reports.addressWord, Text.split_word_cons typeWord,
            Text.split_word_cons addressTypeWord]
        rw [asks_eq, words, typed]
        cases print <;> rfl

/-! ## Contained commands -/

/-- The shared data after commands that concern one address on one radio. -/
structure Concerns (bdaddr : Text) (radio : Radio) (commands : List Command)
    (before after : Data) : Prop where
  tracked : ∀ query other, (after.bdaddrs query).lookup other =
    if other = bdaddr ∧ query = radio then
      (commands.filterMap Command.announced).getLast?.getD ((before.bdaddrs query).lookup other)
    else (before.bdaddrs query).lookup other
  attempts : ∀ other, after.deviceConnectAttempts.lookup other =
    if other = bdaddr ∧ commands.any Command.restarts = true then some 0
    else before.deviceConnectAttempts.lookup other
  deprioritized : after.deprioritizedBdaddrs = before.deprioritizedBdaddrs
  succeeded : after.successBdaddrs = before.successBdaddrs

section Contained

variable {bdaddr : Text} {radio : Radio} {asked : Command} {commands : List Command}
variable {first second third : Data}

theorem Concerns.cons (here : Concerns bdaddr radio [asked] first second)
    (rest : Concerns bdaddr radio commands second third) :
    Concerns bdaddr radio (asked :: commands) first third where
  tracked := by
    intro query other
    rw [rest.tracked, here.tracked]
    split
    · cases announced : asked.announced with
      | none => simp [announced]
      | some entry => simp [announced, List.getLast?_cons]
    · rfl
  attempts := by
    intro other
    rw [rest.attempts, here.attempts, List.any_cons, List.any_cons, List.any_nil, Bool.or_false]
    by_cases same : other = bdaddr
    · cases asked.restarts <;> cases commands.any Command.restarts <;> simp [same]
    · simp [same]
  deprioritized := rest.deprioritized.trans here.deprioritized
  succeeded := rest.succeeded.trans here.succeeded

/-- A contained command changes the entry by what it announces. -/
private theorem Command.Contained.entryAfter (contained : asked.Contained bdaddr radio)
    (other : Text) (query : Radio) (before : Option (Text × Int)) :
    asked.entryAfter other query before =
      if other = bdaddr ∧ query = radio then asked.announced.getD before else before := by
  cases asked with
  | new target type addressType =>
      obtain ⟨rfl, rfl⟩ := contained.touches target (newRadio type) ⟨rfl, rfl⟩
      rfl
  | rssi target rssiWord =>
      obtain ⟨_, sameBle⟩ := contained.touches target .ble rfl
      obtain ⟨_, sameBtc⟩ := contained.touches target .btc rfl
      exact absurd (sameBle.trans sameBtc.symm) (by decide)
  | manufacturerData target more =>
      have foreign : more.head? ≠ some appleWord := by
        intro apple
        obtain ⟨_, sameBle⟩ := contained.touches target .ble ⟨rfl, apple⟩
        obtain ⟨_, sameBtc⟩ := contained.touches target .btc ⟨rfl, apple⟩
        exact absurd (sameBle.trans sameBtc.symm) (by decide)
      simp [Command.entryAfter, Command.announced, foreign]
  | del target type =>
      obtain ⟨named, known⟩ := Option.isSome_iff_exists.mp contained.completes
      obtain ⟨rfl, rfl⟩ := contained.touches target named ⟨rfl, known⟩
      simp [Command.entryAfter, Command.announced, known, eq_comm]
  | ignored => simp [Command.entryAfter, Command.announced]

/-- A contained command is handled to its end. -/
private theorem Command.Contained.handled (contained : asked.Contained bdaddr radio)
    (data : Data) :
    ∃ after, (processCommand asked).alone data = some ((), after) ∧
      Concerns bdaddr radio [asked] data after := by
  -- The tracked dictionaries follow from the effect of the command on an entry.
  suffices rest : ∃ after, (processCommand asked).alone data = some ((), after) ∧
      (∀ other, after.deviceConnectAttempts.lookup other =
        if other = bdaddr ∧ asked.restarts = true then some 0
        else data.deviceConnectAttempts.lookup other) ∧
      after.deprioritizedBdaddrs = data.deprioritizedBdaddrs ∧
      after.successBdaddrs = data.successBdaddrs by
    obtain ⟨after, handled, attempts, deprioritized, succeeded⟩ := rest
    refine ⟨after, handled, fun query other => ?_, by simpa using attempts, deprioritized,
      succeeded⟩
    rw [entry_of_processCommand handled, contained.entryAfter]
    cases announced : asked.announced <;> simp [announced]
  cases asked with
  | new target type addressType =>
      obtain ⟨rfl, rfl⟩ := contained.touches target (newRadio type) ⟨rfl, rfl⟩
      refine ⟨_, alone_processNew .., fun other => ?_, rfl, rfl⟩
      show (data.deviceConnectAttempts.setItem target 0).lookup other = _
      rw [Dict.lookup_setItem]
      simp [Command.restarts]
  | rssi target rssiWord =>
      obtain ⟨_, sameBle⟩ := contained.touches target .ble rfl
      obtain ⟨_, sameBtc⟩ := contained.touches target .btc rfl
      exact absurd (sameBle.trans sameBtc.symm) (by decide)
  | manufacturerData target more =>
      cases more with
      | nil => exact absurd rfl contained.completes
      | cons vendor rest =>
          have foreign : vendor ≠ appleWord := by
            rintro rfl
            obtain ⟨_, sameBle⟩ := contained.touches target .ble ⟨rfl, rfl⟩
            obtain ⟨_, sameBtc⟩ := contained.touches target .btc ⟨rfl, rfl⟩
            exact absurd (sameBle.trans sameBtc.symm) (by decide)
          refine ⟨data, ?_, by simp [Command.restarts], rfl, rfl⟩
          simp only [processCommand, processManufacturerData, if_neg foreign]
          rfl
  | del target type =>
      obtain ⟨named, known⟩ := Option.isSome_iff_exists.mp contained.completes
      simp only [processCommand, processDel, known, lockedDeleteFromDict, alone_whenTracked]
      split
      · next tracked =>
          obtain ⟨stored, found⟩ := (Dict.mem_iff_lookup _ _).mp tracked
          refine ⟨data.delete named target, ?_, by simp [Command.restarts], rfl, rfl⟩
          simp [deleteTracked, found]
      · exact ⟨data, rfl, by simp [Command.restarts], rfl, rfl⟩
  | ignored => exact ⟨data, rfl, by simp [Command.restarts], rfl, rfl⟩

/-- Lines with contained commands are handled to their end. -/
theorem handleLines_of_contained (settings : Settings) {lines : List Text}
    (contained : ∀ line ∈ lines, (asks settings line).Contained bdaddr radio) (data : Data) :
    ∃ after, handleLines settings lines data = some after ∧
      Concerns bdaddr radio (lines.map (asks settings)) data after := by
  induction lines generalizing data with
  | nil => exact ⟨data, rfl, by simp, by simp, rfl, rfl⟩
  | cons line rest inductionHypothesis =>
      obtain ⟨next, handled, here⟩ :=
        (contained line List.mem_cons_self).handled (data.record (.line (Text.strip line)))
      obtain ⟨after, remaining, later⟩ := inductionHypothesis
        (fun other member => contained other (List.mem_cons_of_mem _ member)) next
      refine ⟨after, ?_, Concerns.cons ⟨here.tracked, here.attempts, here.deprioritized,
        here.succeeded⟩ later⟩
      rw [handleLines_cons handled]
      exact remaining

end Contained

/-! ## Lines that are not contained -/

section Trace

variable {settings : Settings} {bdaddr : Text} {radio : Radio} {asked : Command}
variable {lines : List Text} {data after : Data} {rssi : Int}

private theorem completes_of_handled
    (handled : (processCommand asked).alone data = some ((), after)) : asked.completes := by
  cases asked with
  | manufacturerData target more =>
      rintro rfl
      simp [processCommand, processManufacturerData] at handled
  | del target type =>
      cases named : delRadio type with
      | none => simp [processCommand, processDel, named] at handled
      | some known =>
          show (delRadio type).isSome = true
          rw [named]
          rfl
  | _ => trivial

/-- Lines that are handled ask for nothing that ends the script. -/
theorem completes_of_handleLines (handled : handleLines settings lines data = some after) :
    ∀ line ∈ lines, (asks settings line).completes := by
  induction lines generalizing data with
  | nil => exact fun _ impossible => absurd impossible List.not_mem_nil
  | cons line rest inductionHypothesis =>
      obtain ⟨⟨_, next⟩, ended, remaining⟩ := Option.bind_eq_some_iff.mp handled
      rw [alone_handLine] at ended
      rw [List.forall_mem_cons]
      exact ⟨completes_of_handled ended, inductionHypothesis remaining⟩

/-- The address is tracked on the radio with this RSSI. -/
def HasRssi (rssi : Int) (bdaddr : Text) (radio : Radio) (data : Data) : Prop :=
  ∃ addressType, (data.bdaddrs radio).lookup bdaddr = some (addressType, rssi)

private theorem entryAfter_of_not_touches (untouched : ¬ asked.touches bdaddr radio)
    (before : Option (Text × Int)) : asked.entryAfter bdaddr radio before = before := by
  cases asked <;> simp_all [Command.touches, Command.entryAfter]

/-- A command that touches an entry leaves an RSSI that does not depend on what
was there before. -/
private theorem exists_rssi_of_command (touched : asked.touches bdaddr radio) :
    ∃ left : Int, ∀ {data after rssi}, (processCommand asked).alone data = some ((), after) →
      HasRssi rssi bdaddr radio after → rssi = left := by
  cases asked with
  | new target type newType =>
      have created : bdaddr = target ∧ radio = newRadio type := touched
      refine ⟨-80, fun handled ⟨addressType, found⟩ => ?_⟩
      rw [entry_of_processCommand handled, Command.entryAfter, if_pos created] at found
      simp only [Option.some.injEq, Prod.mk.injEq] at found
      exact found.2.symm
  | rssi target rssiWord =>
      obtain rfl : bdaddr = target := touched
      refine ⟨(Text.parseInt 10 rssiWord).getD 0, fun {data _ _} handled ⟨addressType, found⟩ => ?_⟩
      rw [entry_of_processCommand handled, Command.entryAfter, if_pos rfl,
        Option.map_eq_some_iff] at found
      obtain ⟨stored, present, same⟩ := found
      have tracked : bdaddr ∈ data.bdaddrs radio := (Dict.mem_iff_lookup _ _).mpr ⟨_, present⟩
      obtain ⟨number, parsed⟩ := Option.isSome_iff_exists.mp (parses_of_rssi handled tracked)
      rw [parsed, Option.getD_some, Prod.mk.injEq] at same
      rw [parsed, Option.getD_some, same.2]
  | manufacturerData target more =>
      have parked : bdaddr = target ∧ more.head? = some appleWord := touched
      refine ⟨0, fun handled ⟨addressType, found⟩ => ?_⟩
      rw [entry_of_processCommand handled, Command.entryAfter, if_pos parked] at found
      exact absurd found (by simp)
  | del target type =>
      have deleted : bdaddr = target ∧ delRadio type = some radio := touched
      refine ⟨0, fun handled ⟨addressType, found⟩ => ?_⟩
      rw [entry_of_processCommand handled, Command.entryAfter, if_pos deleted] at found
      exact absurd found (by simp)
  | ignored => exact touched.elim

/-- Lines that do not touch an entry leave its RSSI. -/
theorem hasRssi_of_not_touches
    (untouched : ∀ line ∈ lines, ¬ (asks settings line).touches bdaddr radio)
    (handled : handleLines settings lines data = some after)
    (still : HasRssi rssi bdaddr radio after) : HasRssi rssi bdaddr radio data := by
  induction lines generalizing data with
  | nil =>
      rw [Option.some.inj handled]
      exact still
  | cons line rest inductionHypothesis =>
      obtain ⟨⟨_, next⟩, ended, remaining⟩ := Option.bind_eq_some_iff.mp handled
      rw [alone_handLine] at ended
      rw [List.forall_mem_cons] at untouched
      obtain ⟨addressType, found⟩ := inductionHypothesis untouched.2 remaining
      rw [entry_of_processCommand ended, entryAfter_of_not_touches untouched.1] at found
      exact ⟨addressType, found⟩

/-- The last line that touches an entry decides the RSSI that it ends with. -/
theorem exists_rssi_of_handleLines
    (touched : ∃ line ∈ lines, (asks settings line).touches bdaddr radio) :
    ∃ left : Int, ∀ {data after rssi}, handleLines settings lines data = some after →
      HasRssi rssi bdaddr radio after → rssi = left := by
  induction lines with
  | nil => exact absurd touched.choose_spec.1 List.not_mem_nil
  | cons line rest inductionHypothesis =>
      by_cases later : ∃ line ∈ rest, (asks settings line).touches bdaddr radio
      · obtain ⟨left, same⟩ := inductionHypothesis later
        refine ⟨left, fun handled still => ?_⟩
        obtain ⟨⟨_, next⟩, _, remaining⟩ := Option.bind_eq_some_iff.mp handled
        exact same remaining still
      · have here : (asks settings line).touches bdaddr radio := by
          obtain ⟨other, member, there⟩ := touched
          rcases List.mem_cons.mp member with rfl | inRest
          · exact there
          · exact absurd ⟨other, inRest, there⟩ later
        obtain ⟨left, same⟩ := exists_rssi_of_command here
        refine ⟨left, fun handled still => ?_⟩
        obtain ⟨⟨_, next⟩, ended, remaining⟩ := Option.bind_eq_some_iff.mp handled
        rw [alone_handLine] at ended
        exact same ended (hasRssi_of_not_touches
          (fun other member there => later ⟨other, member, there⟩) remaining still)

end Trace

/-! ## A state that shows every touch -/

private theorem split_deviceLine {heading word third fourth : Text} (isHeading : Text.IsWord heading)
    (isWord : Text.IsWord word) (isThird : Text.IsWord third) (isFourth : Text.IsWord fourth) :
    Text.split (deviceLine heading (word ++ ' ' :: (third ++ ' ' :: fourth))) =
      [heading, "Device".toList, word, third, fourth] := by
  have apart : deviceLine heading (word ++ ' ' :: (third ++ ' ' :: fourth)) =
      heading ++ ' ' :: ("Device".toList ++ ' ' :: (word ++ ' ' :: (third ++ ' ' :: fourth))) := by
    simp [deviceLine]
  have deviceWord : Text.IsWord "Device".toList := by decide
  rw [apart, Text.split_word_cons isHeading, Text.split_word_cons deviceWord,
    Text.split_word_cons isWord, Text.split_word_cons isThird, Text.split_word isFourth]

private theorem new_handled (bdaddr type addressType : Text) (data : Data) :
    ∃ after, (processCommand (.new bdaddr type addressType)).alone data = some ((), after) ∧
      after.deviceConnectAttempts.lookup bdaddr = some 0 ∧
      ∀ radio, radio = newRadio type ∨ bdaddr ∈ data.bdaddrs radio →
        bdaddr ∈ after.bdaddrs radio := by
  refine ⟨_, alone_processNew bdaddr type addressType data, ?_, fun radio tracked => ?_⟩
  · simp
  · rcases tracked with rfl | old
    · simp
    · simp [old]

private theorem rssi_handled {bdaddr rssiWord : Text} {data : Data} {rssi : Int}
    (parsed : Text.parseInt 10 rssiWord = some rssi) (tracked : ∀ radio, bdaddr ∈ data.bdaddrs radio)
    (untried : data.deviceConnectAttempts.lookup bdaddr = some 0) :
    ∃ after, (processCommand (.rssi bdaddr rssiWord)).alone data = some ((), after) ∧
      ∀ radio, HasRssi rssi bdaddr radio after := by
  obtain ⟨between, first, stillUntried⟩ := updateRssi_handled parsed (tracked .ble) untried
  have stillTracked : bdaddr ∈ between.bdaddrs .btc := by
    rw [mem_of_updateRssi first]
    exact tracked .btc
  obtain ⟨after, second, _⟩ := updateRssi_handled parsed stillTracked stillUntried
  have handled : (processCommand (.rssi bdaddr rssiWord)).alone data = some ((), after) := by
    rw [processCommand, alone_bind, first]
    exact second
  refine ⟨after, handled, fun radio => ?_⟩
  obtain ⟨stored, found⟩ := (Dict.mem_iff_lookup _ _).mp (tracked radio)
  refine ⟨stored.1, ?_⟩
  rw [entry_of_processCommand handled, Command.entryAfter, if_pos rfl, found, parsed]
  rfl

/-- The device is tracked on both radios, with an RSSI that an RSSI line gave. -/
private theorem exists_tracked (settings : Settings) {word : Text} (isWord : Text.IsWord word)
    {rssiWord : Text} (isRssi : Text.IsWord rssiWord) {rssi : Int}
    (parsed : Text.parseInt 10 rssiWord = some rssi) :
    ∃ config, (launcher settings).Reachable initial config ∧ config.thread .monitor = .done () ∧
      (∀ lock, config.shared.holder lock = none) ∧
      ∀ radio, HasRssi rssi (settings.lower word) radio config.shared.data := by
  let announce (type : Text) : Text :=
    deviceLine newWord (word ++ ' ' :: (type ++ ' ' :: "public".toList))
  let raise : Text :=
    deviceLine chgWord (word ++ ' ' :: ("RSSI:".toList ++ ' ' :: rssiWord))
  have asksNew : ∀ type, Text.IsWord type → asks settings (announce type) =
      .new (settings.lower word) type "public".toList := by
    intro type isType
    rw [asks_eq, split_deviceLine (by decide) isWord isType (by decide)]
    rfl
  have asksRssi : asks settings raise =
      .rssi (settings.lower word) rssiWord := by
    rw [asks_eq, split_deviceLine (by decide) isWord (by decide) isRssi]
    rfl
  have handled : ∃ data, handleLines settings
      [announce "BLE".toList, announce "BTC".toList, raise] initial.shared.data = some data ∧
        ∀ radio, HasRssi rssi (settings.lower word) radio data := by
    obtain ⟨onBle, first, _, trackedBle⟩ := new_handled (settings.lower word) "BLE".toList
      "public".toList (initial.shared.data.record (.line (Text.strip (announce "BLE".toList))))
    obtain ⟨onBoth, second, untried, trackedBoth⟩ := new_handled (settings.lower word) "BTC".toList
      "public".toList (onBle.record (.line (Text.strip (announce "BTC".toList))))
    have tracked : ∀ radio, settings.lower word ∈ onBoth.bdaddrs radio := by
      intro radio
      apply trackedBoth
      cases radio with
      | ble => exact .inr (trackedBle .ble (.inl rfl))
      | btc => exact .inl rfl
    obtain ⟨data, third, stored⟩ := rssi_handled parsed
      (show ∀ radio, settings.lower word ∈ (onBoth.record (.line (Text.strip raise))).bdaddrs radio
        from tracked) untried
    refine ⟨data, ?_, stored⟩
    rw [handleLines_cons (by rw [asksNew _ (by decide)]; exact first),
      handleLines_cons (by rw [asksNew _ (by decide)]; exact second),
      handleLines_cons (by rw [asksRssi]; exact third)]
    rfl
  obtain ⟨data, ended, stored⟩ := handled
  have resting : initial.thread .monitor = .done () := rfl
  obtain ⟨config, reachable, same, free, threads⟩ :=
    handleLines_reachable settings resting (fun _ => rfl) ended
  exact ⟨config, reachable, by rw [threads, resting], free, same ▸ stored⟩

/-- The address of a command is a word of its line, in lower case. -/
private theorem word_of_touches {settings : Settings} {line bdaddr : Text} {radio : Radio}
    (touched : (asks settings line).touches bdaddr radio) :
    ∃ word, Text.IsWord word ∧ bdaddr = settings.lower word := by
  rw [asks_eq] at touched
  have words : ∀ word ∈ Text.split line, Text.IsWord word := fun _ => Text.isWord_of_mem_split
  revert touched words
  match Text.split line with
  | tok0 :: tok1 :: tok2 :: tok3 :: tok4 :: more =>
      intro touched words
      refine ⟨tok2, words tok2 (by simp), ?_⟩
      simp only [command] at touched
      split at touched
      · exact touched.elim
      · split at touched
        · exact touched.1
        · split at touched
          · exact touched
          · split at touched
            · exact touched.1
            · split at touched
              · exact touched.1
              · exact touched.elim
  | [] | [_] | [_, _] | [_, _, _] | [_, _, _, _] => exact fun touched => touched.elim

/-! ## The print as a whole -/

section Print

variable {settings : Settings} {print : Print} {address : Text} {device : Device}

private theorem Print.command_contained (print : Print) (bdaddr addressType : Text)
    (device : Device) :
    (print.command bdaddr device.word addressType).Contained bdaddr device.radio := by
  cases print with
  | added => exact ⟨trivial, fun _ _ touched => touched⟩
  | removed =>
      refine ⟨?_, fun other query touched => ⟨touched.1, ?_⟩⟩
      · show (delRadio device.word).isSome = true
        rw [delRadio_word]
        rfl
      · have named : delRadio device.word = some query := touched.2
        rw [delRadio_word] at named
        exact (Option.some.inj named).symm

/-- A print that always changes only its device has no line that is not
contained. -/
private theorem contained_of_changesOnly (reports : device.Reports address)
    (changes : ChangesOnlyDevice settings print address device) :
    ∀ asked ∈ device.nameCommands settings,
      asked.Contained (settings.lower address) device.radio := by
  obtain ⟨first, split, _⟩ := printedLines_eq settings print reports
  intro asked member
  obtain ⟨line, inName, rfl⟩ := List.mem_map.mp member
  have printed : line ∈ printedLines print device := split ▸ List.mem_cons_of_mem _ inName
  constructor
  · obtain ⟨after, handled, _⟩ := changes initial Relation.ReflTransGen.refl rfl fun _ => rfl
    exact completes_of_handleLines handled line printed
  · intro other query touched
    by_contra foreign
    obtain ⟨word, isWord, rfl⟩ := word_of_touches touched
    obtain ⟨left, same⟩ := exists_rssi_of_handleLines ⟨line, printed, touched⟩
    -- One of two RSSIs is not the one that the print leaves.
    obtain ⟨rssi, rssiWord, isRssi, parsed, apart⟩ : ∃ rssi rssiWord, Text.IsWord rssiWord ∧
        Text.parseInt 10 rssiWord = some rssi ∧ rssi ≠ left := by
      by_cases one : left = 1
      · exact ⟨2, "2".toList, by decide, by decide, by omega⟩
      · exact ⟨1, "1".toList, by decide, by decide, by omega⟩
    obtain ⟨config, reachable, resting, free, tracked⟩ :=
      exists_tracked settings isWord isRssi parsed
    obtain ⟨after, handled, changed⟩ := changes config reachable resting free
    have still : HasRssi rssi (settings.lower word) query after := by
      obtain ⟨addressType, found⟩ := tracked query
      exact ⟨addressType, by rw [changed.tracked, if_neg foreign, found]⟩
    exact apart (same handled still)

/-- The print and its name together, as commands. -/
private theorem concerns_of_contained (print : Print) (reports : device.Reports address)
    (contained : ∀ asked ∈ device.nameCommands settings,
      asked.Contained (settings.lower address) device.radio) (data : Data) :
    ∃ after, handleLines settings (printedLines print device) data = some after ∧
      Concerns (settings.lower address) device.radio
        (print.command (settings.lower address) device.word (device.addressType.getD []) ::
          device.nameCommands settings) data after := by
  obtain ⟨first, split, asked⟩ := printedLines_eq settings print reports
  have all : ∀ line ∈ first :: device.nameLines,
      (asks settings line).Contained (settings.lower address) device.radio := by
    rw [List.forall_mem_cons]
    refine ⟨?_, fun line member => contained _ (List.mem_map_of_mem member)⟩
    rw [asked]
    exact Print.command_contained print _ _ device
  obtain ⟨after, handled, concerns⟩ := handleLines_of_contained settings all data
  rw [List.map_cons, asked] at concerns
  exact ⟨after, split ▸ handled, concerns⟩

/-- What the print announces, followed by what the name announces. -/
private theorem getLast?_announced (print : Print) (bdaddr type addressType : Text)
    (commands : List Command) :
    ((print.command bdaddr type addressType :: commands).filterMap Command.announced).getLast? =
      some ((commands.filterMap Command.announced).getLast?.getD (print.entry addressType)) := by
  have announced : (print.command bdaddr type addressType).announced =
      some (print.entry addressType) := by
    cases print <;> rfl
  rw [List.filterMap_cons_some announced, List.getLast?_cons]

/-- The lines of a print change the state of the printed device and nothing else,
in whatever state the launcher is, exactly when the name of the device is
harmless. -/
theorem changesOnlyDevice_iff_harmlessName (settings : Settings) (print : Print)
    {address : Text} {device : Device} (reports : device.Reports address) :
    ChangesOnlyDevice settings print address device ↔
      HarmlessName settings print address device := by
  constructor
  · intro changes
    have contained := contained_of_changesOnly reports changes
    obtain ⟨after, handled, changed⟩ := changes initial Relation.ReflTransGen.refl rfl fun _ => rfl
    obtain ⟨same, handledSame, concerns⟩ :=
      concerns_of_contained print reports contained initial.shared.data
    obtain rfl : same = after := Option.some.inj (handledSame.symm.trans handled)
    refine ⟨contained, fun removed => ?_, fun entry last => ?_⟩
    · have counter := changed.attempts (settings.lower address)
      rw [concerns.attempts, removed] at counter
      intro asked member
      by_contra restarts
      rw [if_pos ⟨rfl, List.any_eq_true.mpr ⟨asked, List.mem_cons_of_mem _ member,
        by simpa using restarts⟩⟩] at counter
      exact absurd counter (by simp [initial, Data.empty])
    · have stored := changed.tracked device.radio (settings.lower address)
      rw [concerns.tracked, if_pos ⟨rfl, rfl⟩, if_pos ⟨rfl, rfl⟩, getLast?_announced, last] at stored
      exact stored
  · intro harmless config _ _ _
    obtain ⟨after, handled, concerns⟩ :=
      concerns_of_contained print reports harmless.contained config.shared.data
    refine ⟨after, handled, ?_, ?_, concerns.deprioritized, concerns.succeeded⟩
    · intro query other
      rw [concerns.tracked, getLast?_announced, Option.getD_some]
      cases last : ((device.nameCommands settings).filterMap Command.announced).getLast? with
      | none => rfl
      | some entry => rw [Option.getD_some, harmless.settles entry last]
    · intro other
      rw [concerns.attempts]
      cases print with
      | added => simp [Print.command, Command.restarts]
      | removed =>
          have none : (device.nameCommands settings).any Command.restarts = false := by
            rw [List.any_eq_false]
            exact fun asked member => by simp [harmless.restarts rfl asked member]
          rw [List.any_cons, none]
          simp [Print.command, Command.restarts]

end Print

/-- A line break alone does no harm. -/
theorem changesOnlyDevice_of_line_break :
    ChangesOnlyDevice .shipped .added "AA:BB:CC:DD:EE:FF".toList
      (lateClass "head\nset".toList false) := by
  have commands : (lateClass "head\nset".toList false).nameCommands .shipped = [.ignored] := by
    decide
  apply (changesOnlyDevice_iff_harmlessName .shipped .added (lateClass_reports _ _)).mpr
  constructor
  · rw [commands, List.forall_mem_singleton]
    exact ⟨trivial, fun _ _ touched => touched.elim⟩
  · exact fun removed => absurd removed (by decide)
  · rw [commands]
    exact fun _ last => absurd last (by simp [Command.announced])

/-- A name with a [NEW] line about another device in it. -/
def forgedName : Text :=
  "x\n".toList ++ deviceLine newWord "00:00:00:00:00:01 BLE public y".toList

/-- The device of the forged line becomes tracked. -/
theorem not_changesOnlyDevice_of_forgedName :
    ¬ ∀ (settings : Settings) (print : Print) (address : Text) (device : Device),
      device.Reports address → ChangesOnlyDevice settings print address device := by
  intro always
  have tracks : (handleLines .shipped (printedLines .added (lateClass forgedName false))
      initial.shared.data).any (fun data =>
        decide ("00:00:00:00:00:01".toList ∈ data.bdaddrs .ble)) = true := by decide
  obtain ⟨data, ended, tracked⟩ := (Option.any_eq_true _ _).mp tracks
  obtain ⟨after, handled, changed⟩ := always .shipped .added _ _ (lateClass_reports forgedName false)
    initial Relation.ReflTransGen.refl rfl fun _ => rfl
  obtain rfl : data = after := Option.some.inj (ended.symm.trans handled)
  have present := (Dict.mem_iff_lookup _ _).mp (of_decide_eq_true tracked)
  rw [changed.tracked, if_neg (by decide)] at present
  exact absurd present (by simp [initial, Data.empty])

end NaiveBTSniffing.Launcher
