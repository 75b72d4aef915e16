import NaiveBTSniffing.Library.Latest
import NaiveBTSniffing.Launcher.Footprint
import NaiveBTSniffing.Launcher.HandleLines

/-!
Contract: the dictionaries as a function of the last lines about an address.

Whether an address is tracked on a radio is decided by the last [NEW], [DEL] or
Apple line about it there, its RSSI by the last RSSI line after that, and what
the deprioritized dictionary holds by the last Apple line that found it tracked.

Owns the reading of a history of commands (`TrackedBy`, `ParkedBy`) and its
agreement with the monitor handling the lines alone. Does not own the effect of
one line on the tracked dictionaries (`HandleLines`).
-/

namespace NaiveBTSniffing.Launcher

open NaiveBTSniffing.Library
open NaiveBTSniffing.Library.Interleaving
open NaiveBTSniffing.Library.Interleaving.Prog
open Code

/-! ## Reading a history -/

/-- A manufacturer line of the vendor that is deprioritized, about the address. -/
def Command.Apple (bdaddr : Text) : Command → Prop
  | .manufacturerData other more => other = bdaddr ∧ more.head? = some appleWord
  | _ => False

/-- A line that decides whether the address is tracked on the radio. -/
def Command.Decides (radio : Radio) (bdaddr : Text) : Command → Prop
  | .new other type _ => other = bdaddr ∧ newRadio type = radio
  | .del other type => other = bdaddr ∧ delRadio type = some radio
  | .manufacturerData other more => Command.Apple bdaddr (.manufacturerData other more)
  | _ => False

/-- The fifth word of an RSSI line about the address. -/
def Command.rssiWord (bdaddr : Text) : Command → Option Text
  | .rssi other word => if other = bdaddr then some word else none
  | _ => none

/-- The RSSI after lines that followed a [NEW] line. -/
def rssiAfter (bdaddr : Text) (later : List Command) : Option Int :=
  match (later.filterMap (Command.rssiWord bdaddr)).getLast? with
  | none => some (-80)
  | some word => Text.parseInt 10 word

/-- The last line that decides about the address is [NEW] with this address type. -/
abbrev LastIsNew (radio : Radio) (bdaddr : Text) (history : List Command) (addressType : Text)
    (later : List Command) : Prop :=
  ∃ earlier type, Latest (fun _ asked => asked.Decides radio bdaddr) history earlier
    (.new bdaddr type addressType) later

/-- The history makes the address tracked with this entry. -/
def TrackedBy (radio : Radio) (bdaddr : Text) (history : List Command) (entry : Text × Int) :
    Prop :=
  ∃ later, LastIsNew radio bdaddr history entry.1 later ∧ rssiAfter bdaddr later = some entry.2

/-- An Apple line about an address that is tracked when it comes. -/
def FoundTracked (radio : Radio) (bdaddr : Text) (before : List Command) (asked : Command) :
    Prop :=
  asked.Apple bdaddr ∧ ∃ entry, TrackedBy radio bdaddr before entry

/-- The last Apple line that found the address tracked came after `before`. -/
abbrev LastFoundTracked (radio : Radio) (bdaddr : Text) (history before : List Command) : Prop :=
  ∃ asked later, Latest (FoundTracked radio bdaddr) history before asked later

/-- The history deprioritizes the address with this entry. -/
def ParkedBy (radio : Radio) (bdaddr : Text) (history : List Command)
    (entry : Text × Int × Text) : Prop :=
  ∃ before, LastFoundTracked radio bdaddr history before ∧
    TrackedBy radio bdaddr before (entry.1, entry.2.1) ∧ entry.2.2 = appleWord

variable {settings : Settings} {radio : Radio} {bdaddr : Text} {asked : Command}
variable {history : List Command} {data after : Data}

/-- A history tells one entry at most. -/
theorem TrackedBy.unique {first second : Text × Int} (one : TrackedBy radio bdaddr history first)
    (other : TrackedBy radio bdaddr history second) : first = second := by
  obtain ⟨later, ⟨_, _, isNew⟩, heard⟩ := one
  obtain ⟨_, ⟨_, _, alsoNew⟩, alsoHeard⟩ := other
  obtain ⟨_, same, rfl⟩ := isNew.unique alsoNew
  apply Prod.ext
  · exact (Command.new.inj same).2.2
  · exact Option.some.inj (heard.symm.trans alsoHeard)

theorem rssiAfter_append (later : List Command) :
    rssiAfter bdaddr (later ++ [asked]) =
      match asked.rssiWord bdaddr with
      | none => rssiAfter bdaddr later
      | some word => Text.parseInt 10 word := by
  rw [rssiAfter, List.filterMap_append]
  cases heard : asked.rssiWord bdaddr <;> simp [heard, rssiAfter]

/-! ## What a command does to an entry -/

/-- An Apple line decides on both radios. -/
theorem Command.Apple.decides (apple : asked.Apple bdaddr) (radio : Radio) :
    asked.Decides radio bdaddr := by
  cases asked with
  | manufacturerData other more => exact apple
  | _ => exact apple.elim

private theorem entryAfter_of_decides (decides : asked.Decides radio bdaddr)
    (before : Option (Text × Int)) :
    (∃ type addressType, asked = .new bdaddr type addressType ∧
      asked.entryAfter bdaddr radio before = some (addressType, -80)) ∨
    asked.entryAfter bdaddr radio before = none := by
  cases asked with
  | new other type addressType =>
      obtain ⟨rfl, rfl⟩ := decides
      exact .inl ⟨type, addressType, rfl, by simp [Command.entryAfter]⟩
  | rssi other word => exact decides.elim
  | manufacturerData other more =>
      obtain ⟨rfl, apple⟩ := decides
      exact .inr (by simp [Command.entryAfter, apple])
  | del other type =>
      obtain ⟨rfl, named⟩ := decides
      exact .inr (by simp [Command.entryAfter, named])
  | ignored => exact decides.elim

private theorem entryAfter_of_not_decides (other : ¬ asked.Decides radio bdaddr)
    (before : Option (Text × Int)) :
    asked.entryAfter bdaddr radio before =
      match asked.rssiWord bdaddr with
      | none => before
      | some word =>
          before.map fun stored => (stored.1, (Text.parseInt 10 word).getD stored.2) := by
  cases asked with
  | new about type addressType =>
      have elsewhere : ¬ (bdaddr = about ∧ radio = newRadio type) :=
        fun both => other ⟨both.1.symm, both.2.symm⟩
      simp [Command.entryAfter, Command.rssiWord, elsewhere]
  | rssi about word =>
      by_cases same : about = bdaddr
      · simp [Command.entryAfter, Command.rssiWord, same]
      · simp [Command.entryAfter, Command.rssiWord, same, Ne.symm same]
  | manufacturerData about more =>
      have elsewhere : ¬ (bdaddr = about ∧ more.head? = some appleWord) :=
        fun both => other ⟨both.1.symm, both.2⟩
      simp [Command.entryAfter, Command.rssiWord, elsewhere]
  | del about type =>
      have elsewhere : ¬ (bdaddr = about ∧ delRadio type = some radio) :=
        fun both => other ⟨both.1.symm, both.2⟩
      simp [Command.entryAfter, Command.rssiWord, elsewhere]
  | ignored => rfl

/-! ## Tracked addresses -/

/-- The tracked dictionary holds what the history says. -/
structure TracksHistory (radio : Radio) (bdaddr : Text) (history : List Command) (data : Data) :
    Prop where
  entry : ∀ addressType later, LastIsNew radio bdaddr history addressType later →
    ∃ rssi, rssiAfter bdaddr later = some rssi ∧
      (data.bdaddrs radio).lookup bdaddr = some (addressType, rssi)
  announced : bdaddr ∈ data.bdaddrs radio →
    ∃ addressType later, LastIsNew radio bdaddr history addressType later

namespace TracksHistory

theorem nil (untracked : data.bdaddrs radio = ∅) : TracksHistory radio bdaddr [] data where
  entry := fun _ _ ⟨_, _, latest⟩ => absurd latest not_latest_nil
  announced := fun tracked => absurd (untracked ▸ tracked) (AList.notMem_empty bdaddr)

theorem mem_iff (tracks : TracksHistory radio bdaddr history data) :
    bdaddr ∈ data.bdaddrs radio ↔
      ∃ addressType later, LastIsNew radio bdaddr history addressType later := by
  constructor
  · exact tracks.announced
  · intro ⟨addressType, later, isNew⟩
    obtain ⟨rssi, _, found⟩ := tracks.entry addressType later isNew
    exact (Dict.mem_iff_lookup _ _).mpr ⟨_, found⟩

theorem lookup_iff (tracks : TracksHistory radio bdaddr history data) (entry : Text × Int) :
    (data.bdaddrs radio).lookup bdaddr = some entry ↔ TrackedBy radio bdaddr history entry := by
  constructor
  · intro found
    obtain ⟨addressType, later, isNew⟩ :=
      tracks.announced ((Dict.mem_iff_lookup _ _).mpr ⟨entry, found⟩)
    obtain ⟨rssi, heard, same⟩ := tracks.entry addressType later isNew
    obtain rfl : entry = (addressType, rssi) := Option.some.inj (found.symm.trans same)
    exact ⟨later, isNew, heard⟩
  · intro ⟨later, isNew, heard⟩
    obtain ⟨rssi, same, found⟩ := tracks.entry entry.1 later isNew
    rw [found, Option.some.inj (same.symm.trans heard)]

private theorem entry_step (tracks : TracksHistory radio bdaddr history data)
    (handled : (processCommand asked).alone data = some ((), after)) {addressType : Text}
    {later : List Command} (isNew : LastIsNew radio bdaddr (history ++ [asked]) addressType later) :
    ∃ rssi, rssiAfter bdaddr later = some rssi ∧
      (after.bdaddrs radio).lookup bdaddr = some (addressType, rssi) := by
  obtain ⟨earlier, type, latest⟩ := isNew
  have becomes := entry_of_processCommand handled bdaddr radio
  by_cases decides : asked.Decides radio bdaddr
  · obtain ⟨rfl, rfl, rfl⟩ := (latest_append_wanted decides).mp latest
    refine ⟨-80, rfl, ?_⟩
    rw [becomes, Command.entryAfter, if_pos ⟨rfl, decides.2.symm⟩]
  · obtain ⟨sooner, rfl, before⟩ := (latest_append_other decides).mp latest
    obtain ⟨rssi, heard, found⟩ := tracks.entry addressType sooner ⟨earlier, type, before⟩
    rw [becomes, entryAfter_of_not_decides decides, rssiAfter_append, found]
    cases asked with
    | rssi other word =>
        by_cases same : other = bdaddr
        · subst same
          have tracked : other ∈ data.bdaddrs radio := (Dict.mem_iff_lookup _ _).mpr ⟨_, found⟩
          obtain ⟨number, parsed⟩ := Option.isSome_iff_exists.mp (parses_of_rssi handled tracked)
          exact ⟨number, by simp [Command.rssiWord, parsed]⟩
        · exact ⟨rssi, by simp [Command.rssiWord, same, heard]⟩
    | _ => exact ⟨rssi, heard, rfl⟩

private theorem announced_step (tracks : TracksHistory radio bdaddr history data)
    (handled : (processCommand asked).alone data = some ((), after))
    (tracked : bdaddr ∈ after.bdaddrs radio) :
    ∃ addressType later, LastIsNew radio bdaddr (history ++ [asked]) addressType later := by
  obtain ⟨entry, found⟩ := (Dict.mem_iff_lookup _ _).mp tracked
  rw [entry_of_processCommand handled] at found
  by_cases decides : asked.Decides radio bdaddr
  · rcases entryAfter_of_decides decides ((data.bdaddrs radio).lookup bdaddr) with
      ⟨type, addressType, rfl, _⟩ | none
    · exact ⟨addressType, [], history, type, (latest_append_wanted decides).mpr ⟨rfl, rfl, rfl⟩⟩
    · simp [none] at found
  · have before : bdaddr ∈ data.bdaddrs radio := by
      rw [entryAfter_of_not_decides decides] at found
      apply (Dict.mem_iff_lookup _ _).mpr
      split at found
      · exact ⟨entry, found⟩
      · obtain ⟨stored, sooner, _⟩ := Option.map_eq_some_iff.mp found
        exact ⟨stored, sooner⟩
    obtain ⟨addressType, sooner, earlier, type, latest⟩ := tracks.announced before
    exact ⟨addressType, sooner ++ [asked], earlier, type,
      (latest_append_other decides).mpr ⟨sooner, rfl, latest⟩⟩

theorem step (tracks : TracksHistory radio bdaddr history data)
    (handled : (processCommand asked).alone data = some ((), after)) :
    TracksHistory radio bdaddr (history ++ [asked]) after where
  entry := fun _ _ isNew => tracks.entry_step handled isNew
  announced := tracks.announced_step handled

end TracksHistory

/-! ## Deprioritized addresses -/

private theorem parked_of_deprioritize {own : Radio} {about vendor : Text}
    (handled : (deprioritize own about vendor).alone data = some ((), after)) :
    (after.deprioritizedBdaddrs radio).lookup bdaddr =
      if bdaddr = about ∧ radio = own then
        (((data.bdaddrs radio).lookup bdaddr).map fun stored => (stored.1, stored.2, vendor)).or
          ((data.deprioritizedBdaddrs radio).lookup bdaddr)
      else (data.deprioritizedBdaddrs radio).lookup bdaddr := by
  rw [deprioritize, alone_whenTracked] at handled
  split at handled
  · next tracked =>
      obtain ⟨stored, found⟩ := (Dict.mem_iff_lookup _ _).mp tracked
      simp only [park, trackedItem, deleteTracked, alone_bind, alone_demand, alone_withLock,
        alone_change, found, id, Option.map_some, Option.bind_some, Data.setDeprioritized,
        Data.setDeprioritizing] at handled
      rw [← eq_of_ended handled]
      show (Function.update data.deprioritizedBdaddrs own _ radio).lookup bdaddr = _
      rw [Dict.lookup_update, Dict.lookup_setItem]
      by_cases sameRadio : radio = own
      · subst sameRadio
        by_cases same : bdaddr = about
        · subst same
          simp [found]
        · simp [same]
      · simp [sameRadio]
  · next untracked =>
      rw [← eq_of_ended handled]
      split
      · next same =>
          obtain ⟨rfl, rfl⟩ := same
          rw [AList.lookup_eq_none.mpr untracked]
          rfl
      · rfl

private theorem parked_of_apple {about : Text} {more : List Text} (apple : more.head? = some appleWord)
    (handled : (processCommand (.manufacturerData about more)).alone data = some ((), after)) :
    (after.deprioritizedBdaddrs radio).lookup bdaddr =
      if bdaddr = about then
        (((data.bdaddrs radio).lookup bdaddr).map fun stored => (stored.1, stored.2, appleWord)).or
          ((data.deprioritizedBdaddrs radio).lookup bdaddr)
      else (data.deprioritizedBdaddrs radio).lookup bdaddr := by
  cases more with
  | nil => simp at apple
  | cons vendor rest =>
      obtain rfl : vendor = appleWord := Option.some.inj apple
      simp only [processCommand, processManufacturerData, if_true, alone_bind] at handled
      obtain ⟨⟨_, between⟩, first, second⟩ := Option.bind_eq_some_iff.mp handled
      rw [parked_of_deprioritize second, parked_of_deprioritize first,
        entry_of_deprioritize first]
      cases radio <;> simp

/-- Only an Apple line writes to a deprioritized dictionary. -/
private theorem parked_of_other (other : ¬ asked.Apple bdaddr)
    (handled : (processCommand asked).alone data = some ((), after)) :
    (after.deprioritizedBdaddrs radio).lookup bdaddr =
      (data.deprioritizedBdaddrs radio).lookup bdaddr := by
  have within : (processCommand asked).Within (fun held => CommandStep held asked) [] [] :=
    processCommand_within asked
  cases asked with
  | manufacturerData about more =>
      by_cases apple : more.head? = some appleWord
      · rw [parked_of_apple apple handled, if_neg fun same => other ⟨same.symm, apple⟩]
      · cases more with
        | nil => simp [processCommand, processManufacturerData] at handled
        | cons vendor rest =>
            have notApple : vendor ≠ appleWord := fun same => apple (congrArg some same)
            simp only [processCommand, processManufacturerData, if_neg notApple] at handled
            rw [eq_of_ended handled]
  | _ =>
      suffices same : after.deprioritizedBdaddrs = data.deprioritizedBdaddrs by rw [same]
      apply kept_of_alone (fun now => now.deprioritizedBdaddrs = data.deprioritizedBdaddrs) _
        within handled rfl
      intro held before next step same
      rw [← same]
      cases step <;> rfl

/-- The deprioritized dictionary holds what the history says. -/
structure ParksHistory (radio : Radio) (bdaddr : Text) (history : List Command) (data : Data) :
    Prop where
  entry : ∀ before, LastFoundTracked radio bdaddr history before →
    ∃ stored : Text × Int, TrackedBy radio bdaddr before stored ∧
      (data.deprioritizedBdaddrs radio).lookup bdaddr = some (stored.1, stored.2, appleWord)
  found : bdaddr ∈ data.deprioritizedBdaddrs radio →
    ∃ before, LastFoundTracked radio bdaddr history before

namespace ParksHistory

theorem nil (empty : data.deprioritizedBdaddrs radio = ∅) : ParksHistory radio bdaddr [] data where
  entry := fun _ ⟨_, _, latest⟩ => absurd latest not_latest_nil
  found := fun parked => absurd (empty ▸ parked) (AList.notMem_empty bdaddr)

theorem mem_iff (parks : ParksHistory radio bdaddr history data) :
    bdaddr ∈ data.deprioritizedBdaddrs radio ↔
      ∃ before, LastFoundTracked radio bdaddr history before := by
  constructor
  · exact parks.found
  · intro ⟨before, last⟩
    obtain ⟨stored, _, held⟩ := parks.entry before last
    exact (Dict.mem_iff_lookup _ _).mpr ⟨_, held⟩

theorem lookup_iff (parks : ParksHistory radio bdaddr history data)
    (entry : Text × Int × Text) :
    (data.deprioritizedBdaddrs radio).lookup bdaddr = some entry ↔
      ParkedBy radio bdaddr history entry := by
  constructor
  · intro held
    obtain ⟨before, last⟩ := parks.found ((Dict.mem_iff_lookup _ _).mpr ⟨entry, held⟩)
    obtain ⟨stored, tracked, same⟩ := parks.entry before last
    obtain rfl : entry = (stored.1, stored.2, appleWord) := Option.some.inj (held.symm.trans same)
    exact ⟨before, last, tracked, rfl⟩
  · intro ⟨before, last, tracked, vendor⟩
    obtain ⟨stored, alsoTracked, held⟩ := parks.entry before last
    obtain rfl := alsoTracked.unique tracked
    rw [held, ← vendor]

/-- What the deprioritized dictionary holds is not touched by other lines. -/
private theorem untouched (tracks : TracksHistory radio bdaddr history data)
    (handled : (processCommand asked).alone data = some ((), after))
    (notFound : ¬ FoundTracked radio bdaddr history asked) :
    (after.deprioritizedBdaddrs radio).lookup bdaddr =
      (data.deprioritizedBdaddrs radio).lookup bdaddr := by
  by_cases apple : asked.Apple bdaddr
  · have untracked : (data.bdaddrs radio).lookup bdaddr = none := by
      cases found : (data.bdaddrs radio).lookup bdaddr with
      | none => rfl
      | some entry => exact absurd ⟨apple, entry, (tracks.lookup_iff entry).mp found⟩ notFound
    cases asked with
    | manufacturerData other more =>
        obtain ⟨rfl, vendor⟩ := apple
        rw [parked_of_apple vendor handled, untracked]
        simp
    | _ => exact apple.elim
  · exact parked_of_other apple handled

private theorem entry_step (parks : ParksHistory radio bdaddr history data)
    (tracks : TracksHistory radio bdaddr history data)
    (handled : (processCommand asked).alone data = some ((), after)) {before : List Command}
    (last : LastFoundTracked radio bdaddr (history ++ [asked]) before) :
    ∃ stored : Text × Int, TrackedBy radio bdaddr before stored ∧
      (after.deprioritizedBdaddrs radio).lookup bdaddr =
        some (stored.1, stored.2, appleWord) := by
  obtain ⟨parking, later, latest⟩ := last
  by_cases found : FoundTracked radio bdaddr history asked
  · obtain ⟨rfl, rfl, rfl⟩ := (latest_append_wanted found).mp latest
    obtain ⟨apple, stored, tracked⟩ := found
    refine ⟨stored, tracked, ?_⟩
    cases parking with
    | manufacturerData other more =>
        obtain ⟨rfl, vendor⟩ := apple
        rw [parked_of_apple vendor handled, (tracks.lookup_iff stored).mpr tracked]
        simp
    | _ => exact apple.elim
  · obtain ⟨sooner, rfl, already⟩ := (latest_append_other found).mp latest
    obtain ⟨stored, tracked, held⟩ := parks.entry before ⟨parking, sooner, already⟩
    exact ⟨stored, tracked, (untouched tracks handled found).trans held⟩

private theorem found_step (parks : ParksHistory radio bdaddr history data)
    (tracks : TracksHistory radio bdaddr history data)
    (handled : (processCommand asked).alone data = some ((), after))
    (parked : bdaddr ∈ after.deprioritizedBdaddrs radio) :
    ∃ before, LastFoundTracked radio bdaddr (history ++ [asked]) before := by
  by_cases found : FoundTracked radio bdaddr history asked
  · exact ⟨history, asked, [], (latest_append_wanted found).mpr ⟨rfl, rfl, rfl⟩⟩
  · have sooner : bdaddr ∈ data.deprioritizedBdaddrs radio := by
      rwa [← AList.lookup_isSome, untouched tracks handled found, AList.lookup_isSome] at parked
    obtain ⟨before, parking, later, latest⟩ := parks.found sooner
    exact ⟨before, parking, later ++ [asked],
      (latest_append_other found).mpr ⟨later, rfl, latest⟩⟩

theorem step (parks : ParksHistory radio bdaddr history data)
    (tracks : TracksHistory radio bdaddr history data)
    (handled : (processCommand asked).alone data = some ((), after)) :
    ParksHistory radio bdaddr (history ++ [asked]) after where
  entry := fun _ last => parks.entry_step tracks handled last
  found := parks.found_step tracks handled

end ParksHistory

/-! ## Lines from the start -/

/-- The history of a list of lines, carried along the lines. -/
private theorem histories_of_lines {lines : List Text}
    (tracks : TracksHistory radio bdaddr history data)
    (parks : ParksHistory radio bdaddr history data)
    (handled : handleLines settings lines data = some after) :
    TracksHistory radio bdaddr (history ++ lines.map (asks settings)) after ∧
      ParksHistory radio bdaddr (history ++ lines.map (asks settings)) after := by
  induction lines generalizing history data with
  | nil =>
      obtain rfl : data = after := Option.some.inj handled
      simpa using ⟨tracks, parks⟩
  | cons line rest inductionHypothesis =>
      obtain ⟨⟨_, next⟩, ended, remaining⟩ := Option.bind_eq_some_iff.mp handled
      rw [alone_handLine] at ended
      -- The record of the line is all that differs from the state before it.
      have recorded : TracksHistory radio bdaddr history
          (data.record (.line (Text.strip line))) := ⟨tracks.entry, tracks.announced⟩
      have alsoRecorded : ParksHistory radio bdaddr history
          (data.record (.line (Text.strip line))) := ⟨parks.entry, parks.found⟩
      have step := inductionHypothesis (recorded.step ended)
        (alsoRecorded.step recorded ended) remaining
      simpa using step

/-- After lines handled from empty dictionaries, both dictionaries of a radio
hold exactly what the last lines about an address say. -/
theorem entries_of_lines (settings : Settings) {lines : List Text} {data after : Data}
    (noneTracked : ∀ radio, data.bdaddrs radio = ∅)
    (noneDeprioritized : ∀ radio, data.deprioritizedBdaddrs radio = ∅)
    (handled : handleLines settings lines data = some after) (radio : Radio) (bdaddr : Text) :
    (bdaddr ∈ after.bdaddrs radio ↔ ∃ addressType later,
      LastIsNew radio bdaddr (lines.map (asks settings)) addressType later) ∧
    (∀ entry, (after.bdaddrs radio).lookup bdaddr = some entry ↔
      TrackedBy radio bdaddr (lines.map (asks settings)) entry) ∧
    (bdaddr ∈ after.deprioritizedBdaddrs radio ↔ ∃ earlier asked later,
      lines.map (asks settings) = earlier ++ asked :: later ∧
        FoundTracked radio bdaddr earlier asked) ∧
    (∀ entry, (after.deprioritizedBdaddrs radio).lookup bdaddr = some entry ↔
      ParkedBy radio bdaddr (lines.map (asks settings)) entry) := by
  obtain ⟨tracks, parks⟩ := histories_of_lines (TracksHistory.nil (noneTracked radio))
    (ParksHistory.nil (noneDeprioritized radio)) handled
  rw [List.nil_append] at tracks parks
  refine ⟨tracks.mem_iff, tracks.lookup_iff, ?_, parks.lookup_iff⟩
  rw [parks.mem_iff, exists_latest_iff]

private def appears : Text := deviceLine newWord "AA BLE public A".toList

private def comesCloser : Text := deviceLine chgWord "AA RSSI: -40".toList

private def isApple : Text := deviceLine chgWord "AA ManufacturerData Key: 0x004c".toList

/-- A device that is found to be of the vendor after its second line. -/
theorem entries_of_lines_apple : ∃ after,
    handleLines .shipped [appears, comesCloser, isApple] Data.empty = some after ∧
      "aa".toList ∉ after.bdaddrs .ble ∧
      ParkedBy .ble "aa".toList ([appears, comesCloser, isApple].map (asks .shipped))
        ("public".toList, -40, appleWord) := by
  have ends : (handleLines .shipped [appears, comesCloser, isApple] Data.empty).any (fun after =>
      decide ("aa".toList ∉ after.bdaddrs .ble ∧
        (after.deprioritizedBdaddrs .ble).lookup "aa".toList =
          some ("public".toList, -40, appleWord))) = true := by
    decide
  obtain ⟨after, handled, holds⟩ := (Option.any_eq_true _ _).mp ends
  have both := of_decide_eq_true holds
  have entries := entries_of_lines .shipped (fun _ => rfl) (fun _ => rfl) handled .ble "aa".toList
  exact ⟨after, handled, both.1, (entries.2.2.2 _).mp both.2⟩

end NaiveBTSniffing.Launcher
