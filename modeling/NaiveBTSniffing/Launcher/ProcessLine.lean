import NaiveBTSniffing.Launcher.State

/-!
Contract: `process_line` of `central_app_launcher2.py` and the dictionary
operations it shares with the other threads.

Every read, store and deletion on a dictionary is one step, taken under exactly
the locks of the source. A missing key, a missing token and a number that
`int()` refuses end the thread with an exception. Does not own the reading of
the log (`LogReader`).
-/

namespace NaiveBTSniffing.Launcher

open NaiveBTSniffing.Library
open NaiveBTSniffing.Library.Interleaving
open NaiveBTSniffing.Library.Interleaving.Prog
open Code

/-! ## Dictionary operations -/

/-- `bdaddr in ble_bdaddrs`. -/
def isTracked (radio : Radio) (bdaddr : Text) : Code Bool :=
  look fun data => decide (bdaddr ∈ data.bdaddrs radio)

/-- `with ble_bdaddrs_lock: if (bdaddr in ble_bdaddrs): body`. -/
def whenTracked (radio : Radio) (bdaddr : Text) (body : Code Unit) : Code Unit :=
  withLock (.bdaddrs radio) do
    if ← isTracked radio bdaddr then body

/-- `(type, rssi) = ble_bdaddrs[bdaddr]`. -/
def trackedItem (radio : Radio) (bdaddr : Text) : Code (Text × Int) :=
  demand id fun data => (data.bdaddrs radio).lookup bdaddr

/-- `del dict[key]` on a tracked dictionary; `note` adds to the ghost record. -/
def deleteTracked (radio : Radio) (bdaddr : Text) (note : Data → Data) : Code Unit :=
  demand
    (fun data => note (data.setTracked radio ((data.bdaddrs radio).erase bdaddr)))
    (fun data => (data.bdaddrs radio).lookup bdaddr |>.map fun _ => ())

/-- `locked_delete_from_dict`, for a tracked dictionary and its lock. -/
def lockedDeleteFromDict (radio : Radio) (bdaddr : Text) : Code Unit :=
  whenTracked radio bdaddr <|
    deleteTracked radio bdaddr fun data => data.record (.deleted radio bdaddr)

/-! ## The words of a line -/

def newWord : Text := "[\x01\x1b[0;92m\x02NEW\x01\x1b[0m\x02]".toList

def chgWord : Text := "[\x01\x1b[0;93m\x02CHG\x01\x1b[0m\x02]".toList

def delWord : Text := "[\x01\x1b[0;91m\x02DEL\x01\x1b[0m\x02]".toList

/-- A line of the log about a device. -/
def deviceLine (word rest : Text) : Text :=
  word ++ " Device ".toList ++ rest

/-- The vendor that is deprioritized: Apple. -/
def appleWord : Text := "0x004c".toList

/-- The radio a type word stands for on a [NEW] line. -/
def newRadio (type : Text) : Radio :=
  if type = "BLE".toList then .ble else .btc

/-- The radio a type word stands for on a [DEL] line. -/
def delRadio (type : Text) : Option Radio :=
  if type = "BLE".toList then some .ble else if type = "BTC".toList then some .btc else none

/-! ## The branches -/

/-- [NEW]: the counter starts anew and the address is tracked at -80. -/
def processNew (bdaddr type addressType : Text) : Code Unit := do
  change fun data => data.setAttempts bdaddr 0
  withLock (.bdaddrs (newRadio type)) do
    change fun data =>
      data.setTracked (newRadio type) ((data.bdaddrs (newRadio type)).setItem bdaddr
        (addressType, -80))

/-- `device_connect_attempts[bdaddr] -= 1`, when the counter is above one. -/
def grantOneMoreTry (bdaddr : Text) : Code Unit := do
  let attempts ← demand id fun data => data.deviceConnectAttempts.lookup bdaddr
  if attempts > 1 then
    demand
      (fun data => match data.deviceConnectAttempts.lookup bdaddr with
        | some current => data.setAttempts bdaddr (current - 1)
        | none => data)
      (fun data => data.deviceConnectAttempts.lookup bdaddr |>.map fun _ => ())

/-- The stored type and RSSI; the ghost record notes an RSSI line above it. -/
def readStoredRssi (radio : Radio) (bdaddr rssiWord : Text) : Code (Text × Int) :=
  demand
    (fun data => match (data.bdaddrs radio).lookup bdaddr, Text.parseInt 10 rssiWord with
      | some stored, some rssi =>
          if stored.2 < rssi then data.record (.rssiRaised radio bdaddr) else data
      | _, _ => data)
    (fun data => (data.bdaddrs radio).lookup bdaddr)

/-- `int(tok[4])` against the stored RSSI, and the new RSSI stored. -/
def storeRssi (radio : Radio) (bdaddr rssiWord : Text) : Code Unit := do
  let stored ← readStoredRssi radio bdaddr rssiWord
  match Text.parseInt 10 rssiWord with
  | none => raised
  | some rssi => do
      (if stored.2 < rssi then grantOneMoreTry bdaddr else pure ())
      change fun data =>
        data.setTracked radio ((data.bdaddrs radio).setItem bdaddr (stored.1, rssi))

/-- [CHG] RSSI on one radio. -/
def updateRssi (radio : Radio) (bdaddr rssiWord : Text) : Code Unit :=
  whenTracked radio bdaddr (storeRssi radio bdaddr rssiWord)

/-- The move from the tracked to the deprioritized dictionary. -/
def park (radio : Radio) (bdaddr vendor : Text) : Code Unit := do
  let stored ← trackedItem radio bdaddr
  withLock (.deprioritized radio) do
    change fun data =>
      (data.setDeprioritized radio ((data.deprioritizedBdaddrs radio).setItem bdaddr
        (stored.1, stored.2, vendor))).setDeprioritizing (some (radio, bdaddr))
  deleteTracked radio bdaddr fun data => data.setDeprioritizing none

/-- [CHG] ManufacturerData of a vendor to deprioritize, on one radio. -/
def deprioritize (radio : Radio) (bdaddr vendor : Text) : Code Unit :=
  whenTracked radio bdaddr (park radio bdaddr vendor)

/-- [CHG] ManufacturerData: `tok[5]` may be missing. -/
def processManufacturerData (bdaddr : Text) : List Text → Code Unit
  | [] => raised
  | vendor :: _ =>
      if vendor = appleWord then do
        deprioritize .ble bdaddr vendor
        deprioritize .btc bdaddr vendor
      else
        pure ()

/-- [DEL]: an unknown type word ends the script. -/
def processDel (bdaddr type : Text) : Code Unit :=
  match delRadio type with
  | some radio => lockedDeleteFromDict radio bdaddr
  | none => raised

/-- What a split line asks for. -/
inductive Command where
  | new (bdaddr type addressType : Text)
  | rssi (bdaddr rssiWord : Text)
  | manufacturerData (bdaddr : Text) (more : List Text)
  | del (bdaddr type : Text)
  | ignored
deriving DecidableEq, Repr

/-- The address a command is about. -/
def Command.bdaddr : Command → Option Text
  | .new bdaddr _ _ | .rssi bdaddr _ | .manufacturerData bdaddr _ | .del bdaddr _ => some bdaddr
  | .ignored => none

/-- The tests of `process_line` on the tokens of a line, in their order. -/
def command (lower : Text → Text) : List Text → Command
  | tok0 :: tok1 :: tok2 :: tok3 :: tok4 :: more =>
      if tok1 ≠ "Device".toList then .ignored
      else if tok0 = newWord then .new (lower tok2) tok3 tok4
      else if tok0 = chgWord ∧ tok3 = "RSSI:".toList then .rssi (lower tok2) tok4
      else if tok0 = chgWord ∧ tok3 = "ManufacturerData".toList ∧ tok4 = "Key:".toList then
        .manufacturerData (lower tok2) more
      else if tok0 = delWord then .del (lower tok2) tok3
      else .ignored
  | _ => .ignored

def processCommand : Command → Code Unit
  | .new bdaddr type addressType => processNew bdaddr type addressType
  | .rssi bdaddr rssiWord => do
      updateRssi .ble bdaddr rssiWord
      updateRssi .btc bdaddr rssiWord
  | .manufacturerData bdaddr more => processManufacturerData bdaddr more
  | .del bdaddr type => processDel bdaddr type
  | .ignored => pure ()

def processLine (settings : Settings) (line : Text) : Code Unit :=
  processCommand (command settings.lower (Text.split line))

end NaiveBTSniffing.Launcher
