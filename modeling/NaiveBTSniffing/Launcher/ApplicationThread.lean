import NaiveBTSniffing.Launcher.ProcessLine

/-!
Contract: `ApplicationThread.run`, the launching of a tool and the tests on the
success dictionaries.

`process.wait(timeout)` is a step that the outside world enables: it either
returns the code of an exited process or raises `TimeoutExpired`. `kill()` ends a
running process at once and does nothing to an exited one.
-/

namespace NaiveBTSniffing.Launcher

open NaiveBTSniffing.Library
open NaiveBTSniffing.Library.Interleaving
open NaiveBTSniffing.Library.Interleaving.Prog
open Code

/-! ## Success dictionaries -/

/-- `bdaddr in gatt_success_bdaddrs.keys()`. -/
def hasSucceeded (infoType : InfoType) (bdaddr : Text) : Code Bool :=
  look fun data => decide (bdaddr ∈ data.successBdaddrs infoType)

/-- `all_2thprints_done`: the second dictionary is only read when the first one
has the address. -/
def all2thprintsDone (radio : Radio) (bdaddr : Text) : Code Bool :=
  match radio with
  | .ble => both .gatt .ll2thprint
  | .btc => both .sdp .lmp2thprint
where
  both (first second : InfoType) : Code Bool := do
    if ← hasSucceeded first bdaddr then hasSucceeded second bdaddr else pure false

/-- `if(all_2thprints_done(...)): locked_delete_from_dict(...)`. -/
def deleteIfAllDone (radio : Radio) (bdaddr : Text) : Code Unit := do
  if ← all2thprintsDone radio bdaddr then lockedDeleteFromDict radio bdaddr

/-! ## Log files -/

/-- `external_log_write` to the log of a tool, which can be opened and written;
LL2thprint has none. -/
def externalLogWrite (infoType : InfoType) (line : LogLine) : Code Unit :=
  match infoType.logFile with
  | some file => change fun data => data.appendLog file line
  | none => pure ()

/-! ## Processes -/

namespace Process

/-- `process.kill()`. -/
def kill (process : Process) : Process :=
  { process with
    status := match process.status with
      | .running => .killed
      | ended => ended }

theorem kill_status (process : Process) : process.kill.status ≠ .running := by
  unfold kill
  cases status : process.status <;> simp

/-- `process.poll() is None`. -/
def isRunning (process : Process) : Bool :=
  decide (process.status = .running)

end Process

/-- `launch_application`: the new process, or `None` when `Popen` fails. -/
def launchApplication (infoType : InfoType) (bdaddr : Text) (arguments : List Text) :
    Code (Option Nat) :=
  exchange
    (fun data => if data.popenFails then data else
      { data with processes := data.processes ++
          [{ bdaddr, infoType, arguments, status := .running, waitResult := none,
             threadStarted := false }] })
    (fun data => if data.popenFails then none else some data.processes.length)

/-- `thread.start()`, which may raise. -/
def startThread (number : Nat) : Code Bool :=
  exchange
    (fun data => if data.startFails then data else
      data.modifyProcess number fun process => { process with threadStarted := true })
    (fun data => !data.startFails)

/-- Launch a tool and start its `ApplicationThread`, which the worker then keeps
in its list of threads to join. -/
def launchTool (infoType : InfoType) (bdaddr : Text) (arguments : List Text) : Code Unit := do
  match ← launchApplication infoType bdaddr arguments with
  | none => pure ()
  | some number =>
      if ← startThread number then
        change fun data =>
          { data with
            externalToolThreads := Function.update data.externalToolThreads infoType.radio
              (data.externalToolThreads infoType.radio ++ [number]) }

namespace ApplicationThread

/-- What `run` does with a return code. -/
def report (infoType : InfoType) (bdaddr : Text) (retCode : Int) : Code Unit :=
  if retCode = 0 then do
    externalLogWrite infoType (.success bdaddr)
    withLock (.success infoType) do
      change fun data => data.setSuccess infoType bdaddr
      deleteIfAllDone infoType.radio bdaddr
  else
    externalLogWrite infoType (.failure retCode bdaddr)

/-- `run` for a process: `wait`, then the return code or the timeout. -/
def runProcess (number : Nat) (process : Process) : Code Unit := do
  let waited ← await .step
    (fun data => data.processes[number]?.any fun current => current.waitResult.isSome)
    (fun data => data.processes[number]?.bind fun current => current.waitResult)
  match waited with
  | some (.returned retCode) =>
      if ← look fun data => data.processes[number]?.any Process.isRunning then
        change fun data => data.modifyProcess number Process.kill
      else
        report process.infoType process.bdaddr retCode
  | some .timeoutExpired => do
      change fun data => data.modifyProcess number Process.kill
      externalLogWrite process.infoType (.failureTimeout process.bdaddr)
  | none => pure ()

/-- The thread of a process that may be launched later: it runs from its start
on. -/
def run (number : Nat) : Code Unit := do
  let started ← await .step
    (fun data => data.processes[number]?.any fun process => process.threadStarted)
    (fun data => data.processes[number]?)
  match started with
  | some process => runProcess number process
  | none => pure ()

end ApplicationThread

end NaiveBTSniffing.Launcher
