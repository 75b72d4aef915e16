import NaiveBTSniffing.Library.Dict
import NaiveBTSniffing.Library.Text
import NaiveBTSniffing.Library.Interleaving.System

/-!
Contract: the data that the threads of `central_app_launcher2.py` share.

Owns: the settings at the head of the script, the dictionaries with their locks,
the log files, the launched processes with their `ApplicationThread`s, and the
ghost record of a run. The ghost record is written together with the real step
it belongs to and is never read by a program; specifications refer to it.

A dictionary that exists once for each radio is one field indexed by `Radio`.
-/

namespace NaiveBTSniffing.Launcher

open NaiveBTSniffing.Library
open NaiveBTSniffing.Library.Interleaving

inductive Radio where
  | ble
  | btc
deriving DecidableEq, Repr

instance {wanted : Radio → Prop} [DecidablePred wanted] : Decidable (∀ radio, wanted radio) :=
  decidable_of_iff (wanted .ble ∧ wanted .btc)
    ⟨fun both radio => match radio with
      | .ble => both.1
      | .btc => both.2, fun all => ⟨all .ble, all .btc⟩⟩

/-- `info_type` of an `ApplicationThread`. -/
inductive InfoType where
  | gatt
  | ll2thprint
  | lmp2thprint
  | sdp
deriving DecidableEq, Repr

/-- The radio whose dictionaries a tool works on. -/
def InfoType.radio : InfoType → Radio
  | .gatt | .ll2thprint => .ble
  | .lmp2thprint | .sdp => .btc

/-- The eight locks: `ble_bdaddrs_lock`, `btc_bdaddrs_lock`,
`ble_deprioritized_bdaddrs_lock`, `btc_deprioritized_bdaddrs_lock` and one for
each success dictionary. -/
inductive Lock where
  | bdaddrs (radio : Radio)
  | deprioritized (radio : Radio)
  | success (infoType : InfoType)
deriving DecidableEq, Repr

inductive ThreadId where
  | monitor
  | worker (radio : Radio)
  /-- The `ApplicationThread` of the process with this number. -/
  | tool (process : Nat)
deriving DecidableEq, Repr

/-! ## Settings -/

/-- The toggles and lists at the head of the script, and `str.lower`, which the
launcher only applies to addresses: everything is proved for every such
function. -/
structure Settings where
  bleThreadEnabled : Bool
  btcThreadEnabled : Bool
  btc2thprintEnabled : Bool
  ble2thprintEnabled : Bool
  gattprintEnabled : Bool
  sdpprintEnabled : Bool
  skipTheseAddresses : List Text
  maxConnectAttempts : Nat
  lower : Text → Text

/-- The settings as the script has them. -/
def Settings.shipped : Settings where
  bleThreadEnabled := true
  btcThreadEnabled := true
  btc2thprintEnabled := false
  ble2thprintEnabled := false
  gattprintEnabled := true
  sdpprintEnabled := true
  skipTheseAddresses := []
  maxConnectAttempts := 3
  lower := List.map Char.toLower

def Settings.threadEnabled (settings : Settings) : Radio → Bool
  | .ble => settings.bleThreadEnabled
  | .btc => settings.btcThreadEnabled

def Settings.printEnabled (settings : Settings) : InfoType → Bool
  | .gatt => settings.gattprintEnabled
  | .ll2thprint => settings.ble2thprintEnabled
  | .lmp2thprint => settings.btc2thprintEnabled
  | .sdp => settings.sdpprintEnabled

/-! ## Log files -/

inductive LogFile where
  | gattprint
  | btc2thprint
  | sdpprint
deriving DecidableEq, Repr

/-- The log file of a tool; LL2thprint has none. -/
def InfoType.logFile : InfoType → Option LogFile
  | .gatt => some .gattprint
  | .ll2thprint => none
  | .lmp2thprint => some .btc2thprint
  | .sdp => some .sdpprint

/-- A line of a log file, without the time that ends each launcher line. -/
inductive LogLine where
  | attempt (bdaddr : Text)
  | success (bdaddr : Text)
  | failure (retCode : Int) (bdaddr : Text)
  | failureTimeout (bdaddr : Text)
  /-- A line that a launched process writes itself. -/
  | output (process : Nat) (line : Text)
deriving DecidableEq, Repr

/-- The value as at least two lower-case hexadecimal digits, the sign included:
the format `02x`. -/
def hex02 (value : Int) : Text :=
  let digits := Nat.toDigits 16 value.natAbs
  if value < 0 then '-' :: digits
  else if digits.length < 2 then '0' :: digits else digits

/-- The text that `external_log_write` is given. -/
def LogLine.text (file : LogFile) (now : Text) : LogLine → Text
  | .attempt bdaddr =>
      (match file with
        | .gattprint => "GATTPRINTING ATTEMPT FOR: ".toList
        | .btc2thprint => "BTC_2THPRINT: LOG ENTRY FOR BDADDR: ".toList
        | .sdpprint => "SDPPRINTING ATTEMPT FOR: ".toList) ++ bdaddr ++ ' ' :: now
  | .success bdaddr => tag file ++ " SUCCESS FOR: ".toList ++ bdaddr ++ ' ' :: now
  | .failure retCode bdaddr =>
      tag file ++ " FAILURE 0x".toList ++ hex02 retCode ++ " FOR: ".toList ++ bdaddr ++ ' ' :: now
  | .failureTimeout bdaddr =>
      tag file ++ " FAILURE TIMEOUT FOR: ".toList ++ bdaddr ++ ' ' :: now
  | .output _ line => line
where
  tag : LogFile → Text
    | .gattprint => "GATTPRINTING".toList
    | .btc2thprint => "BTC_2THPRINT:".toList
    | .sdpprint => "SDPPRINTING".toList

/-! ## Launched processes -/

inductive ProcessStatus where
  | running
  | exited (retCode : Int)
  | killed
deriving DecidableEq, Repr

/-- How `process.wait(timeout)` ends. -/
inductive WaitResult where
  | returned (retCode : Int)
  | timeoutExpired
deriving DecidableEq, Repr

/-- A process started by `launch_application`, with its `ApplicationThread`. The
number of a process is its place in the list of all processes started so far. -/
structure Process where
  bdaddr : Text
  infoType : InfoType
  /-- What follows the program's path on its command line. -/
  arguments : List Text
  status : ProcessStatus
  waitResult : Option WaitResult
  threadStarted : Bool
deriving DecidableEq, Repr

/-! ## Ghost record -/

/-- What happened in a run. -/
inductive Event where
  /-- A line of the bluetoothctl log was handed to `process_line`. -/
  | line (line : Text)
  /-- An RSSI line was found to be above the stored RSSI. -/
  | rssiRaised (radio : Radio) (bdaddr : Text)
  /-- A worker found the attempts of an address used up. -/
  | exceeded (radio : Radio) (bdaddr : Text)
  /-- A worker counted one more attempt for an address. -/
  | selected (radio : Radio) (bdaddr : Text)
  /-- `locked_delete_from_dict` was applied to an address. -/
  | deleted (radio : Radio) (bdaddr : Text)
deriving DecidableEq, Repr

/-- The ghost record: what a specification needs to know and no program reads. -/
structure Ghost where
  trace : List Event
  /-- Addresses of a worker's key snapshot whose RSSI `sorted` has not read yet. -/
  sortPending : Radio → List Text
  /-- Addresses of a worker's snapshot that its loop has not reached yet. -/
  unvisited : Radio → List Text
  /-- `process_line` has written the address to the deprioritized dictionary and
  not yet deleted it from the tracked one. -/
  deprioritizing : Option (Radio × Text)
  /-- A worker has deleted the address from the deprioritized dictionary and not
  yet written it to the tracked one. -/
  reprioritizing : Radio → Option Text

/-! ## Shared data -/

structure Data where
  deviceConnectAttempts : Dict Text Int
  /-- `ble_bdaddrs`, `btc_bdaddrs`: address type and RSSI. -/
  bdaddrs : Radio → Dict Text (Text × Int)
  /-- `ble_deprioritized_bdaddrs`, `btc_deprioritized_bdaddrs`: address type, RSSI
  and vendor word. -/
  deprioritizedBdaddrs : Radio → Dict Text (Text × Int × Text)
  successBdaddrs : InfoType → Dict Text Int
  logs : LogFile → List LogLine
  processes : List Process
  externalToolThreads : Radio → List Nat
  /-- The operating system refuses the next `Popen`. -/
  popenFails : Bool
  /-- The operating system refuses the next thread start. -/
  startFails : Bool
  /-- The operating system refuses the next open of an output file. -/
  openFails : Bool
  ghost : Ghost

/-- Everything empty, as after the script's top level. -/
def Data.empty : Data where
  deviceConnectAttempts := ∅
  bdaddrs := fun _ => ∅
  deprioritizedBdaddrs := fun _ => ∅
  successBdaddrs := fun _ => ∅
  logs := fun _ => []
  processes := []
  externalToolThreads := fun _ => []
  popenFails := false
  startFails := false
  openFails := false
  ghost :=
    { trace := []
      sortPending := fun _ => []
      unvisited := fun _ => []
      deprioritizing := none
      reprioritizing := fun _ => none }

/-! ## Elementary updates -/

namespace Data

@[simp, grind =] def setAttempts (data : Data) (bdaddr : Text) (attempts : Int) : Data :=
  { data with deviceConnectAttempts := data.deviceConnectAttempts.setItem bdaddr attempts }

@[simp, grind =] def setTracked (data : Data) (radio : Radio) (dict : Dict Text (Text × Int)) : Data :=
  { data with bdaddrs := Function.update data.bdaddrs radio dict }

@[simp, grind =] def setDeprioritized (data : Data) (radio : Radio)
    (dict : Dict Text (Text × Int × Text)) : Data :=
  { data with deprioritizedBdaddrs := Function.update data.deprioritizedBdaddrs radio dict }

@[simp, grind =] def setSuccess (data : Data) (infoType : InfoType) (bdaddr : Text) : Data :=
  { data with
    successBdaddrs := Function.update data.successBdaddrs infoType
      ((data.successBdaddrs infoType).setItem bdaddr 1) }

@[simp, grind =] def appendLog (data : Data) (file : LogFile) (line : LogLine) : Data :=
  { data with logs := Function.update data.logs file (data.logs file ++ [line]) }

@[simp, grind =] def modifyProcess (data : Data) (number : Nat) (update : Process → Process) : Data :=
  { data with processes := data.processes.modify number update }

@[simp, grind =] def record (data : Data) (event : Event) : Data :=
  { data with ghost := { data.ghost with trace := data.ghost.trace ++ [event] } }

@[simp, grind =] def setSortPending (data : Data) (radio : Radio) (pending : List Text) : Data :=
  { data with
    ghost := { data.ghost with
      sortPending := Function.update data.ghost.sortPending radio pending } }

@[simp, grind =] def setUnvisited (data : Data) (radio : Radio) (unvisited : List Text) : Data :=
  { data with
    ghost := { data.ghost with
      unvisited := Function.update data.ghost.unvisited radio unvisited } }

@[simp, grind =] def setDeprioritizing (data : Data) (move : Option (Radio × Text)) : Data :=
  { data with ghost := { data.ghost with deprioritizing := move } }

@[simp, grind =] def setReprioritizing (data : Data) (radio : Radio) (move : Option Text) : Data :=
  { data with
    ghost := { data.ghost with
      reprioritizing := Function.update data.ghost.reprioritizing radio move } }

end Data

/-! ## Programs -/

/-- Program points that a specification names. -/
inductive Site where
  | step
  /-- `while(len(ble_bdaddrs) == 0): pass` at the end of a worker's pass. -/
  | busyWait (radio : Radio)
deriving DecidableEq, Repr

/-- A program of the launcher. -/
abbrev Code (α : Type) : Type := Prog Lock ThreadId Data Site α

namespace Code

open Prog

/-- One read of the shared data. -/
def look (view : Data → α) : Code α := read .step view

/-- One update of the shared data. -/
def change (update : Data → Data) : Code Unit := modify .step update

/-- One update, and the answer that the state before it gives. -/
def exchange (update : Data → Data) (view : Data → α) : Code α :=
  .act .step (fun _ => true) update fun data => .done (view data)

/-- One update, or an exception where the state before it gives no answer. -/
def demand (update : Data → Data) (view : Data → Option α) : Code α :=
  .act .step (fun _ => true) update fun data =>
    match view data with
    | some value => .done value
    | none => .raised

end Code

end NaiveBTSniffing.Launcher
