import NaiveBTSniffing.Library.Interleaving.Alone
import NaiveBTSniffing.Launcher.Deadlock

/-!
Contract: the monitor handling lines while no other thread moves.

`handleLines` computes the shared data after a list of lines, and
`handleLines_reachable` says that the launcher has a run that does exactly this.
Owns the effect of one line on the tracked addresses (`mem_of_handled`). Does
not own where the lines come from.
-/

namespace NaiveBTSniffing.Launcher

open NaiveBTSniffing.Library
open NaiveBTSniffing.Library.Interleaving
open NaiveBTSniffing.Library.Interleaving.Prog
open Code

variable {α : Type}

/-- The shared data after the monitor was handed the lines one after the other,
or `none` where a line ends the script with an exception. -/
def handleLines (settings : Settings) : List Text → Data → Option Data
  | [], data => some data
  | line :: rest, data =>
      ((handLine settings line).alone data).bind fun ended =>
        handleLines settings rest ended.2

@[simp] theorem handleLines_nil (settings : Settings) (data : Data) :
    handleLines settings [] data = some data := rfl

theorem handleLines_append (settings : Settings) (first rest : List Text) (data : Data) :
    handleLines settings (first ++ rest) data =
      (handleLines settings first data).bind (handleLines settings rest) := by
  induction first generalizing data with
  | nil => rfl
  | cons line lines inductionHypothesis =>
      simp only [List.cons_append, handleLines]
      cases (handLine settings line).alone data with
      | none => rfl
      | some ended => exact inductionHypothesis ended.2

/-- The lines of a list are handled one by one in some run of the launcher. -/
theorem handleLines_reachable (settings : Settings) {lines : List Text} {data : Data}
    {config : Config Lock ThreadId Data Site} (resting : config.thread .monitor = .done ())
    (free : ∀ lock, config.shared.holder lock = none)
    (handled : handleLines settings lines config.shared.data = some data) :
    ∃ after, (launcher settings).Reachable config after ∧ after.shared.data = data ∧
      (∀ lock, after.shared.holder lock = none) ∧ after.thread = config.thread := by
  induction lines generalizing config with
  | nil =>
      exact ⟨config, Relation.ReflTransGen.refl, Option.some.inj handled, free, rfl⟩
  | cons line rest inductionHypothesis =>
      obtain ⟨⟨_, next⟩, ended, handledRest⟩ := Option.bind_eq_some_iff.mp handled
      have program : (launcher settings).entry .monitor (some line) =
          some (handLine settings line) := rfl
      let started : Config Lock ThreadId Data Site :=
        { config with
          thread := Function.update config.thread .monitor (handLine settings line) }
      have start : (launcher settings).Steps config started :=
        ⟨.start .monitor (some line), by
          simp [System.step, resting, program, started]⟩
      have running : started.thread .monitor = handLine settings line := by
        simp [started]
      have taken : OnlyTaken started.shared.holder .monitor [] := by
        intro lock
        rw [if_neg (List.not_mem_nil)]
        exact free lock
      obtain ⟨handed, reaches, stillTaken, same, threads⟩ :=
        (launcher settings).reachable_of_alone running (entry_ordered program) List.nodup_nil
          taken ended
      have back : handed.thread = config.thread := by
        rw [threads, Function.update_idem, ← resting, Function.update_eq_self]
      have freed : ∀ lock, handed.shared.holder lock = none := by
        intro lock
        rw [stillTaken lock, if_neg (List.not_mem_nil)]
      obtain ⟨after, remaining, final, finalFree, finalThreads⟩ :=
        inductionHypothesis (by rw [back, resting]) freed (same ▸ handledRest)
      refine ⟨after, ?_, final, finalFree, by rw [finalThreads, back]⟩
      exact Relation.ReflTransGen.head ⟨start, trivial⟩
        (Relation.ReflTransGen.trans reaches remaining)

/-! ## Steps of the monitor alone -/

theorem eq_of_ended {value other : α} {data after : Data}
    (ended : some (value, data) = some (other, after)) : data = after :=
  (Prod.ext_iff.mp (Option.some.inj ended)).2

@[simp] theorem alone_look (view : Data → α) (data : Data) :
    (look view).alone data = some (view data, data) := rfl

@[simp] theorem alone_change (update : Data → Data) (data : Data) :
    (change update).alone data = some ((), update data) := rfl

@[simp] theorem alone_demand (update : Data → Data) (view : Data → Option α)
    (data : Data) :
    (demand update view).alone data = (view data).map fun value => (value, update data) := by
  simp only [demand, alone]
  cases view data <;> rfl

theorem alone_whenTracked (radio : Radio) (bdaddr : Text) (body : Code Unit)
    (data : Data) :
    (whenTracked radio bdaddr body).alone data =
      if bdaddr ∈ data.bdaddrs radio then body.alone data else some ((), data) := by
  simp only [whenTracked, isTracked, alone_withLock, alone_bind, alone_look, Option.bind_some,
    alone_ite, decide_eq_true_eq]
  rfl

/-! ## The effect of a line on the tracked addresses -/

/-- What a line that the monitor is handed asks for. -/
def asks (settings : Settings) (line : Text) : Command :=
  command settings.lower (Text.split (Text.strip line))

theorem asks_eq (settings : Settings) (line : Text) :
    asks settings line = command settings.lower (Text.split line) := by
  rw [asks, Text.split_strip]

/-- Whether an address is tracked on a radio after a command, when it was
tracked before or not. -/
def Command.keepsTracked (bdaddr : Text) (radio : Radio) (before : Prop) : Command → Prop
  | .new other type _ => before ∨ (bdaddr = other ∧ radio = newRadio type)
  | .rssi _ _ => before
  | .manufacturerData other more => before ∧ ¬ (bdaddr = other ∧ more.head? = some appleWord)
  | .del other type => before ∧ ¬ (bdaddr = other ∧ delRadio type = some radio)
  | .ignored => before

/-- What a tracked dictionary holds for an address after a command, when it held
`before`. -/
def Command.entryAfter (bdaddr : Text) (radio : Radio) (before : Option (Text × Int)) :
    Command → Option (Text × Int)
  | .new other type addressType =>
      if bdaddr = other ∧ radio = newRadio type then some (addressType, -80) else before
  | .rssi other rssiWord =>
      if bdaddr = other then
        before.map fun stored => (stored.1, (Text.parseInt 10 rssiWord).getD stored.2)
      else before
  | .manufacturerData other more =>
      if bdaddr = other ∧ more.head? = some appleWord then none else before
  | .del other type => if bdaddr = other ∧ delRadio type = some radio then none else before
  | .ignored => before

private theorem bdaddrs_of_readStoredRssi {radio : Radio} {bdaddr rssiWord : Text}
    {stored : Text × Int} {data after : Data}
    (handled : (readStoredRssi radio bdaddr rssiWord).alone data = some (stored, after)) :
    (data.bdaddrs radio).lookup bdaddr = some stored ∧ after.bdaddrs = data.bdaddrs := by
  rw [readStoredRssi, alone_demand, Option.map_eq_some_iff] at handled
  obtain ⟨_, found, same⟩ := handled
  obtain ⟨rfl, rfl⟩ := Prod.ext_iff.mp same
  refine ⟨found, ?_⟩
  dsimp only
  split
  · split <;> rfl
  · rfl

private theorem bdaddrs_of_grantOneMoreTry {bdaddr : Text} {data after : Data}
    (handled : (grantOneMoreTry bdaddr).alone data = some ((), after)) :
    after.bdaddrs = data.bdaddrs := by
  simp only [grantOneMoreTry, alone_bind, alone_demand, alone_ite] at handled
  cases attempts : data.deviceConnectAttempts.lookup bdaddr with
  | none => simp [attempts] at handled
  | some current =>
      simp only [attempts, Option.map_some, Option.bind_some] at handled
      split at handled
      · simp only [id, attempts, Option.map_some, Option.some.injEq, Prod.mk.injEq] at handled
        rw [← handled.2]
        rfl
      · have same : id data = after := eq_of_ended handled
        rw [← same, id]

/-- Looking up in a family of dictionaries of which one was changed at one key. -/
private theorem lookup_update {data : Data} {radio : Radio} {bdaddr : Text}
    {dict : Dict Text (Text × Int)} {entry : Option (Text × Int)}
    (changed : ∀ other, dict.lookup other =
      if other = bdaddr then entry else (data.bdaddrs radio).lookup other)
    (other : Text) (query : Radio) :
    (Function.update data.bdaddrs radio dict query).lookup other =
      if other = bdaddr ∧ query = radio then entry else (data.bdaddrs query).lookup other := by
  by_cases same : query = radio
  · subst same
    rw [Function.update_self, changed]
    simp
  · rw [Function.update_of_ne same, if_neg fun both => same both.2]

private theorem lookup_erase (dict : Dict Text (Text × Int)) (bdaddr other : Text) :
    (dict.erase bdaddr).lookup other = if other = bdaddr then none else dict.lookup other := by
  by_cases same : other = bdaddr
  · rw [if_pos same, same]
    exact AList.lookup_erase bdaddr dict
  · rw [if_neg same]
    exact AList.lookup_erase_ne same

/-- Leaving out an address that is not there. -/
private theorem lookup_of_untracked {data : Data} {radio : Radio} {bdaddr : Text}
    (untracked : bdaddr ∉ data.bdaddrs radio) (other : Text) (query : Radio) :
    (data.bdaddrs query).lookup other =
      if other = bdaddr ∧ query = radio then none else (data.bdaddrs query).lookup other := by
  split
  · next same =>
      obtain ⟨rfl, rfl⟩ := same
      exact AList.lookup_eq_none.mpr untracked
  · rfl

private theorem entry_of_storeRssi {radio : Radio} {bdaddr rssiWord : Text} {data after : Data}
    (handled : (storeRssi radio bdaddr rssiWord).alone data = some ((), after))
    (other : Text) (query : Radio) :
    (after.bdaddrs query).lookup other =
      if other = bdaddr ∧ query = radio then
        ((data.bdaddrs query).lookup other).map fun stored =>
          (stored.1, (Text.parseInt 10 rssiWord).getD stored.2)
      else (data.bdaddrs query).lookup other := by
  simp only [storeRssi, alone_bind] at handled
  obtain ⟨⟨stored, read⟩, readStored, remaining⟩ := Option.bind_eq_some_iff.mp handled
  obtain ⟨found, unchanged⟩ := bdaddrs_of_readStoredRssi readStored
  cases number : Text.parseInt 10 rssiWord with
  | none => simp [number] at remaining
  | some rssi =>
      simp only [number, alone_bind] at remaining
      obtain ⟨⟨_, granted⟩, grant, stores⟩ := Option.bind_eq_some_iff.mp remaining
      have alsoUnchanged : granted.bdaddrs = read.bdaddrs := by
        rw [alone_ite] at grant
        split at grant
        · exact bdaddrs_of_grantOneMoreTry grant
        · rw [eq_of_ended grant]
      rw [alone_change, Option.some.injEq, Prod.mk.injEq] at stores
      rw [← stores.2]
      simp only [Data.setTracked, alsoUnchanged, unchanged]
      rw [lookup_update (fun other => Dict.lookup_setItem _ _ _ _)]
      split
      · next same =>
          obtain ⟨rfl, rfl⟩ := same
          rw [found]
          rfl
      · rfl

private theorem entry_of_updateRssi {radio : Radio} {bdaddr rssiWord : Text} {data after : Data}
    (handled : (updateRssi radio bdaddr rssiWord).alone data = some ((), after))
    (other : Text) (query : Radio) :
    (after.bdaddrs query).lookup other =
      if other = bdaddr ∧ query = radio then
        ((data.bdaddrs query).lookup other).map fun stored =>
          (stored.1, (Text.parseInt 10 rssiWord).getD stored.2)
      else (data.bdaddrs query).lookup other := by
  rw [updateRssi, alone_whenTracked] at handled
  split at handled
  · exact entry_of_storeRssi handled other query
  · next untracked =>
      rw [← eq_of_ended handled]
      split
      · next same =>
          obtain ⟨rfl, rfl⟩ := same
          rw [AList.lookup_eq_none.mpr untracked]
          rfl
      · rfl

theorem entry_of_deprioritize {radio : Radio} {bdaddr vendor : Text} {data after : Data}
    (handled : (deprioritize radio bdaddr vendor).alone data = some ((), after))
    (other : Text) (query : Radio) :
    (after.bdaddrs query).lookup other =
      if other = bdaddr ∧ query = radio then none else (data.bdaddrs query).lookup other := by
  rw [deprioritize, alone_whenTracked] at handled
  split at handled
  · next tracked =>
      obtain ⟨stored, found⟩ := (Dict.mem_iff_lookup _ _).mp tracked
      simp only [park, trackedItem, deleteTracked, alone_bind, alone_demand, alone_withLock,
        alone_change, found, id, Option.map_some, Option.bind_some, Data.setDeprioritized,
        Data.setDeprioritizing] at handled
      rw [← eq_of_ended handled]
      exact lookup_update (lookup_erase _ _) other query
  · next untracked =>
      rw [← eq_of_ended handled]
      exact lookup_of_untracked untracked other query

private theorem entry_of_lockedDelete {radio : Radio} {bdaddr : Text} {data after : Data}
    (handled : (lockedDeleteFromDict radio bdaddr).alone data = some ((), after))
    (other : Text) (query : Radio) :
    (after.bdaddrs query).lookup other =
      if other = bdaddr ∧ query = radio then none else (data.bdaddrs query).lookup other := by
  rw [lockedDeleteFromDict, alone_whenTracked] at handled
  split at handled
  · next tracked =>
      obtain ⟨stored, found⟩ := (Dict.mem_iff_lookup _ _).mp tracked
      simp only [deleteTracked, alone_demand, found, Option.map_some] at handled
      rw [← eq_of_ended handled]
      exact lookup_update (lookup_erase _ _) other query
  · next untracked =>
      rw [← eq_of_ended handled]
      exact lookup_of_untracked untracked other query

@[simp] theorem alone_processNew (bdaddr type addressType : Text) (data : Data) :
    (processNew bdaddr type addressType).alone data =
      some ((), (data.setAttempts bdaddr 0).setTracked (newRadio type)
        ((data.bdaddrs (newRadio type)).setItem bdaddr (addressType, -80))) := by
  simp [processNew]

private theorem entry_of_manufacturerData {bdaddr : Text} {more : List Text} {data after : Data}
    (handled : (processManufacturerData bdaddr more).alone data = some ((), after))
    (other : Text) (query : Radio) :
    (after.bdaddrs query).lookup other =
      if other = bdaddr ∧ more.head? = some appleWord then none
      else (data.bdaddrs query).lookup other := by
  cases more with
  | nil => simp [processManufacturerData] at handled
  | cons vendor rest =>
      simp only [processManufacturerData, alone_ite, alone_bind] at handled
      split at handled
      · next apple =>
          obtain ⟨⟨_, between⟩, first, second⟩ := Option.bind_eq_some_iff.mp handled
          rw [entry_of_deprioritize second, entry_of_deprioritize first, apple]
          cases query <;> simp
      · next notApple =>
          rw [eq_of_ended handled]
          simp [notApple]

/-- The tracked dictionaries after a command. -/
theorem entry_of_processCommand {asked : Command} {data after : Data}
    (handled : (processCommand asked).alone data = some ((), after))
    (bdaddr : Text) (radio : Radio) :
    (after.bdaddrs radio).lookup bdaddr =
      asked.entryAfter bdaddr radio ((data.bdaddrs radio).lookup bdaddr) := by
  cases asked with
  | new other type addressType =>
      rw [processCommand, alone_processNew] at handled
      rw [← eq_of_ended handled]
      exact lookup_update (fun query => Dict.lookup_setItem _ _ _ _) bdaddr radio
  | rssi other rssiWord =>
      simp only [processCommand, alone_bind] at handled
      obtain ⟨⟨_, between⟩, first, second⟩ := Option.bind_eq_some_iff.mp handled
      rw [entry_of_updateRssi second, entry_of_updateRssi first, Command.entryAfter]
      cases radio <;> simp
  | manufacturerData other more => exact entry_of_manufacturerData handled bdaddr radio
  | del other type =>
      simp only [processCommand, processDel] at handled
      cases deleted : delRadio type with
      | none => simp [deleted] at handled
      | some known =>
          simp only [deleted] at handled
          rw [entry_of_lockedDelete handled, Command.entryAfter, deleted]
          simp only [Option.some.injEq, eq_comm]
  | ignored =>
      rw [eq_of_ended handled]
      rfl

/-- RSSI lines change no set of tracked addresses. -/
theorem mem_of_updateRssi {radio : Radio} {bdaddr rssiWord : Text} {data after : Data}
    (handled : (updateRssi radio bdaddr rssiWord).alone data = some ((), after))
    (other : Text) (query : Radio) :
    other ∈ after.bdaddrs query ↔ other ∈ data.bdaddrs query := by
  rw [← AList.lookup_isSome, ← AList.lookup_isSome, entry_of_updateRssi handled]
  split <;> simp

private theorem parses_of_updateRssi {radio : Radio} {bdaddr rssiWord : Text} {data after : Data}
    (handled : (updateRssi radio bdaddr rssiWord).alone data = some ((), after))
    (tracked : bdaddr ∈ data.bdaddrs radio) : (Text.parseInt 10 rssiWord).isSome := by
  rw [updateRssi, alone_whenTracked, if_pos tracked, storeRssi, alone_bind] at handled
  obtain ⟨_, _, remaining⟩ := Option.bind_eq_some_iff.mp handled
  cases number : Text.parseInt 10 rssiWord with
  | none => simp [number] at remaining
  | some rssi => rfl

/-- The RSSI of a tracked address is a number. -/
theorem parses_of_rssi {radio : Radio} {bdaddr rssiWord : Text} {data after : Data}
    (handled : (processCommand (.rssi bdaddr rssiWord)).alone data = some ((), after))
    (tracked : bdaddr ∈ data.bdaddrs radio) : (Text.parseInt 10 rssiWord).isSome := by
  simp only [processCommand, alone_bind] at handled
  obtain ⟨⟨_, between⟩, first, second⟩ := Option.bind_eq_some_iff.mp handled
  cases radio with
  | ble => exact parses_of_updateRssi first tracked
  | btc =>
      apply parses_of_updateRssi second
      rwa [mem_of_updateRssi first]

/-- An RSSI line about an address that is tracked and not yet tried is handled. -/
theorem updateRssi_handled {radio : Radio} {bdaddr rssiWord : Text} {data : Data} {rssi : Int}
    (parsed : Text.parseInt 10 rssiWord = some rssi) (tracked : bdaddr ∈ data.bdaddrs radio)
    (untried : data.deviceConnectAttempts.lookup bdaddr = some 0) :
    ∃ after, (updateRssi radio bdaddr rssiWord).alone data = some ((), after) ∧
      after.deviceConnectAttempts.lookup bdaddr = some 0 := by
  obtain ⟨stored, found⟩ := (Dict.mem_iff_lookup _ _).mp tracked
  rw [updateRssi, alone_whenTracked, if_pos tracked]
  by_cases higher : stored.2 < rssi
  · simp [storeRssi, readStoredRssi, grantOneMoreTry, found, parsed, higher, untried]
  · simp [storeRssi, readStoredRssi, found, parsed, higher, untried]

/-- The tracked addresses after a command. -/
theorem mem_of_processCommand {asked : Command} {data after : Data}
    (handled : (processCommand asked).alone data = some ((), after))
    (bdaddr : Text) (radio : Radio) :
    bdaddr ∈ after.bdaddrs radio ↔
      asked.keepsTracked bdaddr radio (bdaddr ∈ data.bdaddrs radio) := by
  rw [← AList.lookup_isSome, ← AList.lookup_isSome, entry_of_processCommand handled]
  cases asked with
  | new other type addressType =>
      rw [Command.entryAfter, Command.keepsTracked]
      split <;> simp_all
  | rssi other rssiWord =>
      rw [Command.entryAfter, Command.keepsTracked]
      split <;> simp
  | manufacturerData other more =>
      rw [Command.entryAfter, Command.keepsTracked]
      split <;> simp_all
  | del other type =>
      rw [Command.entryAfter, Command.keepsTracked]
      split <;> simp_all
  | ignored => exact Iff.rfl

/-- Handling a line is handling its command. -/
theorem alone_handLine (settings : Settings) (line : Text) (data : Data) :
    (handLine settings line).alone data =
      (processCommand (asks settings line)).alone (data.record (.line (Text.strip line))) := by
  simp only [handLine, alone_bind, alone_change, Option.bind_some]
  rfl

/-- A line whose command ends well leaves the remaining lines. -/
theorem handleLines_cons {settings : Settings} {line : Text} {data next : Data}
    (handled : (processCommand (asks settings line)).alone
      (data.record (.line (Text.strip line))) = some ((), next)) (rest : List Text) :
    handleLines settings (line :: rest) data = handleLines settings rest next := by
  rw [handleLines, alone_handLine, handled]
  rfl

/-- The tracked addresses after a line. -/
theorem mem_of_handled {settings : Settings} {line : Text} {rest : List Text}
    {data after : Data} (handled : handleLines settings (line :: rest) data = some after) :
    ∃ next, handleLines settings rest next = some after ∧ ∀ bdaddr radio,
      bdaddr ∈ next.bdaddrs radio ↔
        (asks settings line).keepsTracked bdaddr radio (bdaddr ∈ data.bdaddrs radio) := by
  obtain ⟨⟨_, next⟩, ended, remaining⟩ := Option.bind_eq_some_iff.mp handled
  refine ⟨next, remaining, fun bdaddr radio => ?_⟩
  rw [alone_handLine] at ended
  exact mem_of_processCommand ended bdaddr radio

end NaiveBTSniffing.Launcher
