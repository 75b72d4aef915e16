import NaiveBTSniffing.Launcher.Worker

/-!
Contract: the launcher as a system of interleaved threads.

The monitor starts `process_line` on each line that it is handed, a worker
starts its next pass whenever the last one is over, and the thread of every
process waits for its start. The outside world writes to the logs through the
launched processes, ends them, and decides how each `wait`, `Popen` and thread
start goes. The order of all these steps is arbitrary.
-/

namespace NaiveBTSniffing.Launcher

open NaiveBTSniffing.Library
open NaiveBTSniffing.Library.Interleaving
open NaiveBTSniffing.Library.Interleaving.Prog
open Code

/-- Events of the outside world. -/
inductive Outside where
  /-- A running process writes a line to the log of its kind. -/
  | processWrites (number : Nat) (line : Text)
  | processExits (number : Nat) (retCode : Int)
  /-- `wait` returns the code of an exited process. -/
  | waitReturns (number : Nat)
  /-- `wait` raises `TimeoutExpired`. -/
  | waitTimesOut (number : Nat)
  | popen (fails : Bool)
  | threadStart (fails : Bool)
  | openFile (fails : Bool)
deriving DecidableEq, Repr

namespace Process

/-- The process ends by itself. -/
def exit (retCode : Int) (process : Process) : Option Process :=
  if process.status = .running then some { process with status := .exited retCode } else none

/-- The answer that `wait` gets, if its thread waits for it. -/
def answerWait (answer : WaitResult) (process : Process) : Option Process :=
  if process.threadStarted && process.waitResult.isNone then
    some { process with waitResult := some answer }
  else none

/-- `wait` returns only when the process has exited. -/
def returnWait (process : Process) : Option Process :=
  match process.status with
  | .exited retCode => process.answerWait (.returned retCode)
  | _ => none

end Process

/-- An event of one process, which may not be possible now. -/
def onProcess (number : Nat) (update : Process → Option Process) (data : Data) : Option Data := do
  let process ← data.processes[number]?
  let changed ← update process
  some (data.modifyProcess number fun _ => changed)

/-- The effect of an outside event, or `none` where it cannot happen. -/
def environment : Outside → Data → Option Data
  | .processWrites number line, data => do
      let process ← data.processes[number]?
      let file ← process.infoType.logFile
      if process.status = .running then some (data.appendLog file (.output number line)) else none
  | .processExits number retCode, data => onProcess number (Process.exit retCode) data
  | .waitReturns number, data => onProcess number Process.returnWait data
  | .waitTimesOut number, data => onProcess number (Process.answerWait .timeoutExpired) data
  | .popen fails, data => some { data with popenFails := fails }
  | .threadStart fails, data => some { data with startFails := fails }
  | .openFile fails, data => some { data with openFails := fails }

/-- The body of `for line in file`. -/
def handLine (settings : Settings) (line : Text) : Code Unit := do
  change fun data => data.record (.line (Text.strip line))
  processLine settings (Text.strip line)

/-- What a thread at rest may start: the monitor a line, a worker a pass. -/
def entry (settings : Settings) : ThreadId → Option Text → Option (Code Unit)
  | .monitor, some line => some (handLine settings line)
  | .worker radio, none =>
      if settings.threadEnabled radio then some (threadFunction settings radio) else none
  | _, _ => none

/-- `central_app_launcher2.py`. -/
def launcher (settings : Settings) : System Lock ThreadId Data Site Outside (Option Text) where
  entry := entry settings
  environment := environment

/-- The threads before anything has happened. -/
def initialThread : ThreadId → Code Unit
  | .tool number => ApplicationThread.run number
  | _ => pure ()

def initial : Config Lock ThreadId Data Site where
  shared := { holder := fun _ => none, data := Data.empty }
  thread := initialThread

/-! ## Schedules -/

/-- The scheduler's choices in a run. -/
abbrev Schedule : Type := List (Choice ThreadId Outside (Option Text))

/-- The monitor is handed a line and takes some steps on it. -/
def Schedule.handed (line : Text) (steps : Nat) : Schedule :=
  .start .monitor (some line) :: List.replicate steps (.run .monitor)

/-- A worker starts a pass and takes some steps of it. -/
def Schedule.pass (radio : Radio) (steps : Nat) : Schedule :=
  .start (.worker radio) none :: List.replicate steps (.run (.worker radio))

/-- A thread goes on for some steps. -/
def Schedule.resume (thread : ThreadId) (steps : Nat) : Schedule :=
  List.replicate steps (.run thread)

/-- Whether a schedule leads, by allowed steps, to a wanted state. -/
def leads (settings : Settings) (allowed : Data → Data → Prop) [DecidableRel allowed]
    (schedule : Schedule) (start : Config Lock ThreadId Data Site)
    (wanted : Config Lock ThreadId Data Site → Bool) : Bool :=
  ((launcher settings).exec (fun before after => decide (allowed before after)) schedule
    start).any wanted

theorem run_of_leads {settings : Settings} {allowed : Data → Data → Prop}
    [DecidableRel allowed] {schedule : Schedule} {start : Config Lock ThreadId Data Site}
    {wanted : Config Lock ThreadId Data Site → Bool}
    (executed : leads settings allowed schedule start wanted = true) :
    ∃ config, (launcher settings).Run allowed start config ∧ wanted config = true :=
  (launcher settings).run_of_exec (fun _ _ => of_decide_eq_true) executed

end NaiveBTSniffing.Launcher
