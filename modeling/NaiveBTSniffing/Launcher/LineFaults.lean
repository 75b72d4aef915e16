import NaiveBTSniffing.Launcher.Footprint
import NaiveBTSniffing.Launcher.HandleLines

/-!
Contract: which lines of the log end the script.

`process_line` raises, or quits, on three kinds of lines and on no other: a
manufacturer line that breaks off after `Key:`, a [DEL] line with a type word of
no radio, and an RSSI line about a tracked address whose fifth word is no number.

Owns the exact condition (`Command.Harmless`) and the equivalence. Does not own
what the harmless lines do to the dictionaries (`HandleLines`, `LastLines`).
-/

namespace NaiveBTSniffing.Launcher

open NaiveBTSniffing.Library
open NaiveBTSniffing.Library.Interleaving
open NaiveBTSniffing.Library.Interleaving.Prog
open Code

/-- A line that `process_line` can be handed in this state. -/
def Command.Harmless (data : Data) : Command → Prop
  | .rssi bdaddr rssiWord =>
      (∃ radio, bdaddr ∈ data.bdaddrs radio) → (Text.parseInt 10 rssiWord).isSome = true
  | .manufacturerData _ more => more ≠ []
  | .del _ type => type = "BLE".toList ∨ type = "BTC".toList
  | .new _ _ _ => True
  | .ignored => True

/-- Every tracked address has an entry in `device_connect_attempts`. -/
def TrackedCounted (data : Data) : Prop :=
  ∀ radio bdaddr, bdaddr ∈ data.bdaddrs radio → bdaddr ∈ data.deviceConnectAttempts

variable {radio : Radio} {bdaddr word : Text} {data : Data}

/-! ## RSSI lines -/

private theorem grantOneMoreTry_returns (counted : bdaddr ∈ data.deviceConnectAttempts) :
    ((grantOneMoreTry bdaddr).alone data).isSome = true := by
  obtain ⟨attempts, present⟩ := (Dict.mem_iff_lookup _ _).mp counted
  simp only [grantOneMoreTry, alone_bind, alone_demand, present, Option.map_some,
    Option.bind_some, alone_ite]
  split
  · simp [present]
  · rfl

private theorem attempts_of_readStoredRssi {stored : Text × Int} {after : Data}
    (handled : (readStoredRssi radio bdaddr word).alone data = some (stored, after)) :
    after.deviceConnectAttempts = data.deviceConnectAttempts := by
  rw [readStoredRssi, alone_demand, Option.map_eq_some_iff] at handled
  obtain ⟨_, _, same⟩ := handled
  obtain ⟨_, rfl⟩ := Prod.ext_iff.mp same
  dsimp only
  split
  · split <;> rfl
  · rfl

private theorem storeRssi_returns_iff (counted : bdaddr ∈ data.deviceConnectAttempts)
    (tracked : bdaddr ∈ data.bdaddrs radio) :
    ((storeRssi radio bdaddr word).alone data).isSome = true ↔
      (Text.parseInt 10 word).isSome = true := by
  obtain ⟨stored, found⟩ := (Dict.mem_iff_lookup _ _).mp tracked
  have reads : ∃ read, (readStoredRssi radio bdaddr word).alone data = some (stored, read) := by
    simp [readStoredRssi, found]
  obtain ⟨read, reads⟩ := reads
  rw [storeRssi, alone_bind, reads, Option.bind_some]
  cases parsed : Text.parseInt 10 word with
  | none => simp
  | some rssi =>
      have granted : ∃ next, (if stored.2 < rssi then grantOneMoreTry bdaddr else pure ()).alone
          read = some ((), next) := by
        rw [← attempts_of_readStoredRssi reads] at counted
        rw [alone_ite]
        split
        · obtain ⟨⟨_, next⟩, returned⟩ :=
            Option.isSome_iff_exists.mp (grantOneMoreTry_returns counted)
          exact ⟨next, returned⟩
        · exact ⟨read, rfl⟩
      obtain ⟨next, granted⟩ := granted
      simp only [alone_bind, granted]
      rfl

private theorem updateRssi_returns_iff
    (counted : bdaddr ∈ data.bdaddrs radio → bdaddr ∈ data.deviceConnectAttempts) :
    ((updateRssi radio bdaddr word).alone data).isSome = true ↔
      (bdaddr ∈ data.bdaddrs radio → (Text.parseInt 10 word).isSome = true) := by
  rw [updateRssi, alone_whenTracked]
  split
  · next tracked => simp [storeRssi_returns_iff (counted tracked) tracked, tracked]
  · next untracked => simp [untracked]

private theorem attempts_of_updateRssi {after : Data}
    (handled : (updateRssi radio bdaddr word).alone data = some ((), after)) {other : Text}
    (counted : other ∈ data.deviceConnectAttempts) : other ∈ after.deviceConnectAttempts := by
  have within : (updateRssi radio bdaddr word).Within
      (fun held => CommandStep held (.rssi bdaddr word)) [] [] :=
    updateRssi_within radio bdaddr word
  exact kept_of_alone (fun now => other ∈ now.deviceConnectAttempts)
    (fun _ _ _ step => step.attempts) within handled counted

private theorem rssi_returns_iff (counted : TrackedCounted data) :
    ((processCommand (.rssi bdaddr word)).alone data).isSome = true ↔
      (Command.rssi bdaddr word).Harmless data := by
  have first : ((updateRssi .ble bdaddr word).alone data).isSome = true ↔
      (bdaddr ∈ data.bdaddrs .ble → (Text.parseInt 10 word).isSome = true) :=
    updateRssi_returns_iff (counted .ble bdaddr)
  rw [processCommand, alone_bind]
  cases handled : (updateRssi .ble bdaddr word).alone data with
  | none =>
      rw [handled] at first
      apply iff_of_false
      · simp
      · intro harmless
        exact absurd (first.mpr fun tracked => harmless ⟨.ble, tracked⟩) (by simp)
  | some ended =>
      obtain ⟨_, next⟩ := ended
      rw [handled] at first
      have number := first.mp rfl
      have stillCounted : bdaddr ∈ next.bdaddrs .btc → bdaddr ∈ next.deviceConnectAttempts := by
        intro tracked
        rw [mem_of_updateRssi handled] at tracked
        exact attempts_of_updateRssi handled (counted .btc bdaddr tracked)
      rw [Option.bind_some, updateRssi_returns_iff stillCounted, mem_of_updateRssi handled]
      constructor
      · rintro second ⟨radio, tracked⟩
        cases radio with
        | ble => exact number tracked
        | btc => exact second tracked
      · intro harmless tracked
        exact harmless ⟨.btc, tracked⟩

/-! ## The other lines -/

private theorem deprioritize_returns (radio : Radio) (bdaddr vendor : Text) (data : Data) :
    ∃ next, (deprioritize radio bdaddr vendor).alone data = some ((), next) := by
  rw [deprioritize, alone_whenTracked]
  split
  · next tracked =>
      obtain ⟨stored, found⟩ := (Dict.mem_iff_lookup _ _).mp tracked
      simp [park, trackedItem, deleteTracked, found]
  · exact ⟨data, rfl⟩

private theorem lockedDeleteFromDict_returns (radio : Radio) (bdaddr : Text) (data : Data) :
    ∃ next, (lockedDeleteFromDict radio bdaddr).alone data = some ((), next) := by
  rw [lockedDeleteFromDict, alone_whenTracked]
  split
  · next tracked =>
      obtain ⟨stored, found⟩ := (Dict.mem_iff_lookup _ _).mp tracked
      simp [deleteTracked, found]
  · exact ⟨data, rfl⟩

private theorem manufacturerData_returns_iff (bdaddr : Text) (more : List Text) (data : Data) :
    ((processManufacturerData bdaddr more).alone data).isSome = true ↔ more ≠ [] := by
  cases more with
  | nil => simp [processManufacturerData]
  | cons vendor rest =>
      apply iff_of_true
      · rw [processManufacturerData, alone_ite]
        split
        · obtain ⟨next, first⟩ := deprioritize_returns .ble bdaddr vendor data
          obtain ⟨last, second⟩ := deprioritize_returns .btc bdaddr vendor next
          rw [alone_bind, first, Option.bind_some, second]
          rfl
        · rfl
      · exact List.cons_ne_nil vendor rest

private theorem del_returns_iff (bdaddr type : Text) (data : Data) :
    ((processDel bdaddr type).alone data).isSome = true ↔
      type = "BLE".toList ∨ type = "BTC".toList := by
  have known : (delRadio type).isSome = true ↔ type = "BLE".toList ∨ type = "BTC".toList := by
    rw [delRadio]
    split
    · next ble => exact iff_of_true rfl (.inl ble)
    · next notBle =>
        split
        · next btc => exact iff_of_true rfl (.inr btc)
        · next notBtc => exact iff_of_false (by simp) (not_or.mpr ⟨notBle, notBtc⟩)
  rw [← known, processDel]
  cases delRadio type with
  | none => simp
  | some radio =>
      obtain ⟨next, returned⟩ := lockedDeleteFromDict_returns radio bdaddr data
      simp [returned]

private theorem processCommand_returns_iff (asked : Command) (counted : TrackedCounted data) :
    ((processCommand asked).alone data).isSome = true ↔ asked.Harmless data := by
  cases asked with
  | new bdaddr type addressType => simp [processCommand, Command.Harmless]
  | rssi bdaddr word => exact rssi_returns_iff counted
  | manufacturerData bdaddr more => exact manufacturerData_returns_iff bdaddr more data
  | del bdaddr type => exact del_returns_iff bdaddr type data
  | ignored => exact iff_of_true rfl trivial

/-! ## Every line -/

/-- `process_line` returns exactly on the harmless lines. -/
theorem processLine_returns_iff (settings : Settings) (line : Text) (data : Data)
    (counted : TrackedCounted data) :
    ((processLine settings line).alone data).isSome = true ↔
      (command settings.lower (Text.split line)).Harmless data :=
  processCommand_returns_iff _ counted

/-- A state in which a device has been heard and tried twice. -/
private def heard : Data :=
  (Data.empty.setAttempts "aa".toList 2).setTracked .ble
    ((∅ : Dict Text (Text × Int)).setItem "aa".toList ("public".toList, -60))

private theorem counted_heard : TrackedCounted heard := by
  intro radio bdaddr tracked
  cases radio with
  | ble =>
      obtain rfl : bdaddr = "aa".toList := by simpa [heard] using tracked
      simp [heard]
  | btc => simp [heard, Data.empty] at tracked

/-- An RSSI line about the device, which it finds above the stored RSSI. -/
private def closer : Text := deviceLine chgWord "AA RSSI: -50".toList

theorem processLine_returns_closer :
    ((processLine .shipped closer).alone heard).isSome = true := by
  apply (processLine_returns_iff .shipped closer heard counted_heard).mpr
  have asked : command Settings.shipped.lower (Text.split closer) =
      .rssi "aa".toList "-50".toList := by decide
  rw [asked]
  exact fun _ => by decide

private theorem counted_empty : TrackedCounted Data.empty :=
  fun _ _ tracked => absurd tracked (AList.notMem_empty _)

/-- A manufacturer line that breaks off after `Key:`. -/
private def brokenOff : Text := deviceLine chgWord "AA ManufacturerData Key:".toList

/-- The line that breaks off ends a monitor that has just started. -/
theorem processLine_raises :
    (¬ ∀ (settings : Settings) (line : Text) (data : Data), TrackedCounted data →
      ((processLine settings line).alone data).isSome = true) ∧
    ∃ config, (launcher .shipped).Run
      (fun _ after => ∀ event ∈ after.ghost.trace, event = .line brokenOff) initial config ∧
      (config.thread .monitor).isRaised = true := by
  constructor
  · intro returns
    have raises : ((processLine .shipped brokenOff).alone Data.empty).isSome = false := by decide
    simp [returns .shipped brokenOff Data.empty counted_empty] at raises
  · have stops : leads .shipped
        (fun _ after => ∀ event ∈ after.ghost.trace, event = .line brokenOff)
        (Schedule.handed brokenOff 1) initial
        (fun config => (config.thread .monitor).isRaised) = true := by
      decide
    exact run_of_leads stops

end NaiveBTSniffing.Launcher
