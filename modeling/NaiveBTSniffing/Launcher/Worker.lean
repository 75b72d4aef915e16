import Mathlib.Data.List.Sort
import NaiveBTSniffing.Launcher.ApplicationThread

/-!
Contract: the two workers, `ble_thread_function` and `btc_thread_function`.

Both have the shape of `passOf`: one pass of their `while True` loop takes a
snapshot of the tracked addresses, sorts it by RSSI, visits each address and
ends in the busy wait. A worker is started again after each pass. The workers
differ in the tools they launch, in the point at which an attempt is logged, and
in `reprioritizeBtcBdaddr`, which takes the lock of the other radio.
-/

namespace NaiveBTSniffing.Launcher

open NaiveBTSniffing.Library
open NaiveBTSniffing.Library.Interleaving
open NaiveBTSniffing.Library.Interleaving.Prog
open Code

/-! ## Deprioritized addresses -/

/-- The move from the deprioritized to the tracked dictionary. -/
def unpark (radio : Radio) (bdaddr : Text) : Code Unit := do
  let stored ← demand id fun data => (data.deprioritizedBdaddrs radio).lookup bdaddr
  demand
    (fun data => (data.setDeprioritized radio
      ((data.deprioritizedBdaddrs radio).erase bdaddr)).setReprioritizing radio (some bdaddr))
    (fun data => (data.deprioritizedBdaddrs radio).lookup bdaddr |>.map fun _ => ())
  change fun data =>
    (data.setTracked radio ((data.bdaddrs radio).setItem bdaddr
      (stored.1, stored.2.1))).setReprioritizing radio none

/-- Move an address back to the tracked dictionary of `radio`, with the tracked
lock of `lockRadio` taken. -/
def reprioritize (lockRadio radio : Radio) (bdaddr : Text) : Code Unit :=
  withLock (.bdaddrs lockRadio) do
    withLock (.deprioritized radio) do
      if ← look fun data => decide (bdaddr ∈ data.deprioritizedBdaddrs radio) then
        unpark radio bdaddr

def reprioritizeBleBdaddr (bdaddr : Text) : Code Unit := reprioritize .ble .ble bdaddr

/-- Takes `ble_bdaddrs_lock`, as the source does. -/
def reprioritizeBtcBdaddr (bdaddr : Text) : Code Unit := reprioritize .ble .btc bdaddr

/-! ## The snapshot -/

/-- The key function of `sorted`, applied to each address in turn. -/
def readRssis (radio : Radio) : List Text → Code (List (Text × Int))
  | [] => pure []
  | bdaddr :: rest => do
      let stored ← demand (fun data => data.setSortPending radio rest)
        fun data => (data.bdaddrs radio).lookup bdaddr
      let others ← readRssis radio rest
      pure ((bdaddr, stored.2) :: others)

/-- Descending RSSI; equal ones keep their order. -/
def sortByRssi (rssis : List (Text × Int)) : List Text :=
  (rssis.insertionSort fun left right => right.2 ≤ left.2).map Prod.fst

theorem mem_sortByRssi {rssis : List (Text × Int)} {bdaddr : Text}
    (member : bdaddr ∈ sortByRssi rssis) : bdaddr ∈ rssis.map Prod.fst := by
  simpa [sortByRssi] using member

/-- `sorted(ble_bdaddrs.keys(), key=lambda x: ble_bdaddrs[x][1], reverse=True)`. -/
def sortedBdaddrs (radio : Radio) : Code (List Text) := do
  let keys ← exchange
    (fun data => (data.setSortPending radio (data.bdaddrs radio).keys).setUnvisited radio
      (data.bdaddrs radio).keys)
    (fun data => (data.bdaddrs radio).keys)
  let rssis ← readRssis radio keys
  change fun data => data.setUnvisited radio (sortByRssi rssis)
  pure (sortByRssi rssis)

/-! ## Launching the tools for one address -/

/-- The test on a success dictionary that sets `skip_sub_process`. -/
def skipSubProcess (infoType : InfoType) (bdaddr : Text) : Code Bool :=
  withLock (.success infoType) do
    if ← hasSucceeded infoType bdaddr then do
      deleteIfAllDone infoType.radio bdaddr
      pure true
    else
      pure false

/-- One tool on one address: nothing when the tool is disabled or has succeeded
already, or when the address has been deleted. -/
def runStage (settings : Settings) (infoType : InfoType) (bdaddr : Text)
    (launch : Code Unit) : Code Unit :=
  if settings.printEnabled infoType then do
    if ← skipSubProcess infoType bdaddr then
      pure ()
    else if ← isTracked infoType.radio bdaddr then
      launch
  else
    pure ()

def startGatt (bdaddr : Text) : Code Unit := do
  externalLogWrite .gatt (.attempt bdaddr)
  let stored ← trackedItem .ble bdaddr
  launchTool .gatt bdaddr ["-t".toList, stored.1, "-b".toList, bdaddr]

/-- Looks the address up a second time, under the lock of the tracked
dictionary, and launches under that lock. -/
def launchGatt (bdaddr : Text) : Code Unit :=
  whenTracked .ble bdaddr (startGatt bdaddr)

def launchLl2thprint (bdaddr : Text) : Code Unit :=
  launchTool .ll2thprint bdaddr ["/dev/ttyACM0".toList, bdaddr]

def launchLmp2thprint (bdaddr : Text) : Code Unit := do
  externalLogWrite .lmp2thprint (.attempt bdaddr)
  launchTool .lmp2thprint bdaddr ["--exploit=LMP2thprint".toList, "--target=".toList ++ bdaddr]

/-- `output_file = open(f"{sdptool_log_path}/{bdaddr}_sdp.xml", "a")`, outside the
`try`: it raises where the operating system refuses the open, such as for an address
word `a/b`, which names a directory that is not there. -/
def openOutputFile : Code Unit :=
  demand id fun data => if data.openFails then none else some ()

def launchSdp (bdaddr : Text) : Code Unit := do
  externalLogWrite .sdp (.attempt bdaddr)
  openOutputFile
  launchTool .sdp bdaddr ["browse".toList, "--xml".toList, bdaddr]

def bleStages (settings : Settings) (bdaddr : Text) : Code Unit := do
  runStage settings .gatt bdaddr (launchGatt bdaddr)
  runStage settings .ll2thprint bdaddr (launchLl2thprint bdaddr)

def btcStages (settings : Settings) (bdaddr : Text) : Code Unit := do
  runStage settings .lmp2thprint bdaddr (launchLmp2thprint bdaddr)
  runStage settings .sdp bdaddr (launchSdp bdaddr)

/-! ## The loop -/

/-- The test that makes a worker skip an address. -/
def shouldSkip (settings : Settings) (radio : Radio) (bdaddr : Text) : Code Bool :=
  if settings.lower bdaddr ∈ settings.skipTheseAddresses then
    pure true
  else do
    let attempts ← demand
      (fun data => match data.deviceConnectAttempts.lookup bdaddr with
        | some attempts =>
            if attempts ≥ settings.maxConnectAttempts then data.record (.exceeded radio bdaddr)
            else data
        | none => data)
      (fun data => data.deviceConnectAttempts.lookup bdaddr)
    pure (decide (attempts ≥ settings.maxConnectAttempts))

/-- When every address was skipped, one deprioritized address gets its turn. -/
def reprioritizeFirst (radio : Radio) (reprioritizeBdaddr : Text → Code Unit) : Code Unit := do
  if ← look fun data => !(data.deprioritizedBdaddrs radio).keys.isEmpty then
    let first ← demand id fun data => (data.deprioritizedBdaddrs radio).keys.head?
    reprioritizeBdaddr first

/-- A skipped address is deleted, otherwise it would come up again in every
pass. -/
def skipBdaddr (radio : Radio) (reprioritizeBdaddr : Text → Code Unit) (bdaddr : Text)
    (allSkipped : Bool) : Code Unit := do
  lockedDeleteFromDict radio bdaddr
  if allSkipped then reprioritizeFirst radio reprioritizeBdaddr

/-- `device_connect_attempts[bdaddr] += 1`. -/
def countAttempt (radio : Radio) (bdaddr : Text) : Code Unit :=
  demand
    (fun data => match data.deviceConnectAttempts.lookup bdaddr with
      | some attempts => (data.setAttempts bdaddr (attempts + 1)).record (.selected radio bdaddr)
      | none => data)
    (fun data => data.deviceConnectAttempts.lookup bdaddr |>.map fun _ => ())

/-- Join every tool thread that the worker ever started. -/
def joinExternalToolThreads (radio : Radio) : Code Unit := do
  let numbers ← look fun data => data.externalToolThreads radio
  forEach (fun number => joinThread (.tool number)) numbers

/-- Count an attempt, launch the tools, and wait for all of them. -/
def collectBdaddr (radio : Radio) (stages : Text → Code Unit) (bdaddr : Text) : Code Unit := do
  countAttempt radio bdaddr
  stages bdaddr
  joinExternalToolThreads radio

/-- `for bdaddr in sorted_ble_bdaddrs`, with `skip_count` so far and the length
of the whole list. -/
def visit (settings : Settings) (radio : Radio) (stages reprioritizeBdaddr : Text → Code Unit)
    (total : Nat) : Nat → List Text → Code Unit
  | _, [] => pure ()
  | skipCount, bdaddr :: rest => do
      change fun data => data.setUnvisited radio rest
      if ← shouldSkip settings radio bdaddr then
        skipBdaddr radio reprioritizeBdaddr bdaddr (skipCount + 1 == total)
        visit settings radio stages reprioritizeBdaddr total (skipCount + 1) rest
      else
        collectBdaddr radio stages bdaddr
        visit settings radio stages reprioritizeBdaddr total skipCount rest

/-- One pass of a worker's `while True` loop. -/
def passOf (settings : Settings) (radio : Radio) (stages reprioritizeBdaddr : Text → Code Unit) :
    Code Unit := do
  let sorted ← sortedBdaddrs radio
  visit settings radio stages reprioritizeBdaddr sorted.length 0 sorted
  await (.busyWait radio) (fun data => !(data.bdaddrs radio).keys.isEmpty) fun _ => ()

def bleThreadFunction (settings : Settings) : Code Unit :=
  passOf settings .ble (bleStages settings) reprioritizeBleBdaddr

def btcThreadFunction (settings : Settings) : Code Unit :=
  passOf settings .btc (btcStages settings) reprioritizeBtcBdaddr

/-- The thread function of a radio. -/
def threadFunction (settings : Settings) : Radio → Code Unit
  | .ble => bleThreadFunction settings
  | .btc => btcThreadFunction settings

end NaiveBTSniffing.Launcher
