import NaiveBTSniffing.Library.Interleaving.Triple
import NaiveBTSniffing.Launcher.Main

/-!
Contract: every step that a thread of the launcher can take on the shared data.

`CommandStep`, `WorkerStep` and `ToolStep` list the elementary steps of the
monitor, of a worker and of a tool thread, each with the locks under which it is
taken; the `_within` theorems say that the programs take no others. An argument
about a contract is a case distinction over these steps, and only the parts of a
program whose order of steps matters are followed one by one.
-/

namespace NaiveBTSniffing.Launcher

open NaiveBTSniffing.Library
open NaiveBTSniffing.Library.Interleaving
open NaiveBTSniffing.Library.Interleaving.Prog

/-! ## Elementary steps -/

/-- `del dict[key]` on a tracked dictionary, recorded. -/
abbrev Data.delete (data : Data) (radio : Radio) (bdaddr : Text) : Data :=
  (data.setTracked radio ((data.bdaddrs radio).erase bdaddr)).record (.deleted radio bdaddr)

/-- `device_connect_attempts[bdaddr] += 1`, recorded. -/
abbrev Data.select (data : Data) (radio : Radio) (bdaddr : Text) (attempts : Int) : Data :=
  (data.setAttempts bdaddr (attempts + 1)).record (.selected radio bdaddr)

/-- The first half of a move back to the tracked dictionary. -/
abbrev Data.unpark (data : Data) (radio : Radio) (bdaddr : Text) : Data :=
  (data.setDeprioritized radio
    ((data.deprioritizedBdaddrs radio).erase bdaddr)).setReprioritizing radio (some bdaddr)

/-- The second half of a move back to the tracked dictionary. -/
abbrev Data.retrack (data : Data) (radio : Radio) (bdaddr : Text) (value : Text × Int) : Data :=
  (data.setTracked radio ((data.bdaddrs radio).setItem bdaddr value)).setReprioritizing radio none

/-- The first half of a move to the deprioritized dictionary. -/
abbrev Data.park (data : Data) (radio : Radio) (bdaddr : Text) (value : Text × Int × Text) : Data :=
  (data.setDeprioritized radio
    ((data.deprioritizedBdaddrs radio).setItem bdaddr value)).setDeprioritizing
      (some (radio, bdaddr))

/-- The second half of a move to the deprioritized dictionary. -/
abbrev Data.untrack (data : Data) (radio : Radio) (bdaddr : Text) : Data :=
  (data.setTracked radio ((data.bdaddrs radio).erase bdaddr)).setDeprioritizing none

/-- The list of processes with a freshly launched one. -/
abbrev Data.launch (data : Data) (infoType : InfoType) (bdaddr : Text) (arguments : List Text) :
    Data :=
  { data with processes := data.processes ++
      [{ bdaddr, infoType, arguments, status := .running, waitResult := none,
         threadStarted := false }] }

/-- The `ApplicationThread` of a process has started. -/
abbrev Data.startThread (data : Data) (number : Nat) : Data :=
  data.modifyProcess number fun process => { process with threadStarted := true }

/-- Steps of `process_line` on a command. -/
inductive CommandStep (held : List Lock) : Command → Data → Data → Prop where
  | same {asked data} : CommandStep held asked data data
  | resetAttempts {bdaddr type addressType data} :
      CommandStep held (.new bdaddr type addressType) data (data.setAttempts bdaddr 0)
  | trackNew {bdaddr type addressType data} (locked : Lock.bdaddrs (newRadio type) ∈ held) :
      CommandStep held (.new bdaddr type addressType) data
        (data.setTracked (newRadio type)
          ((data.bdaddrs (newRadio type)).setItem bdaddr (addressType, -80)))
  | raiseRssi {bdaddr word data radio stored rssi} (locked : Lock.bdaddrs radio ∈ held)
      (present : (data.bdaddrs radio).lookup bdaddr = some stored)
      (parsed : Text.parseInt 10 word = some rssi) (higher : stored.2 < rssi) :
      CommandStep held (.rssi bdaddr word) data (data.record (.rssiRaised radio bdaddr))
  | grantOneMoreTry {bdaddr word data attempts}
      (present : data.deviceConnectAttempts.lookup bdaddr = some attempts) :
      CommandStep held (.rssi bdaddr word) data (data.setAttempts bdaddr (attempts - 1))
  | trackRssi {bdaddr word data radio value} (locked : Lock.bdaddrs radio ∈ held) :
      CommandStep held (.rssi bdaddr word) data
        (data.setTracked radio ((data.bdaddrs radio).setItem bdaddr value))
  | park {bdaddr more data radio value} (locked : Lock.bdaddrs radio ∈ held)
      (lockedToo : Lock.deprioritized radio ∈ held) :
      CommandStep held (.manufacturerData bdaddr more) data (data.park radio bdaddr value)
  | untrack {bdaddr more data radio} (locked : Lock.bdaddrs radio ∈ held) :
      CommandStep held (.manufacturerData bdaddr more) data (data.untrack radio bdaddr)
  | delete {bdaddr type data radio} (named : delRadio type = some radio)
      (locked : Lock.bdaddrs radio ∈ held) :
      CommandStep held (.del bdaddr type) data (data.delete radio bdaddr)

/-- Steps of the sort at the start of a worker's pass. -/
inductive SortStep (radio : Radio) : Data → Data → Prop where
  | snapshot {data} :
      SortStep radio data
        ((data.setSortPending radio (data.bdaddrs radio).keys).setUnvisited radio
          (data.bdaddrs radio).keys)
  | readRssi {data pending} : SortStep radio data (data.setSortPending radio pending)
  | sorted {data unvisited} : SortStep radio data (data.setUnvisited radio unvisited)

/-- A tool thread that the worker keeps for its joins. -/
abbrev Data.keepThread (data : Data) (radio : Radio) (number : Nat) : Data :=
  { data with
    externalToolThreads := Function.update data.externalToolThreads radio
      (data.externalToolThreads radio ++ [number]) }

/-- Steps that at most delete an address. -/
inductive DeleteStep (radio : Radio) (bdaddr : Text) (held : List Lock) : Data → Data → Prop where
  | same {data} : DeleteStep radio bdaddr held data data
  | delete {data} (locked : Lock.bdaddrs radio ∈ held) :
      DeleteStep radio bdaddr held data (data.delete radio bdaddr)

/-- Steps of starting a process and its thread. -/
inductive LaunchStep (infoType : InfoType) (bdaddr : Text) : Data → Data → Prop where
  | same {data} : LaunchStep infoType bdaddr data data
  | launch {data arguments} (accepted : data.popenFails = false) :
      LaunchStep infoType bdaddr data (data.launch infoType bdaddr arguments)
  | startThread {data number} (accepted : data.startFails = false) :
      LaunchStep infoType bdaddr data (data.startThread number)
  | keepThread {data number} :
      LaunchStep infoType bdaddr data (data.keepThread infoType.radio number)

/-- Steps of one tool's turn on one address. -/
inductive StageStep (infoType : InfoType) (bdaddr : Text) (held : List Lock) :
    Data → Data → Prop where
  | delete {data after} (step : DeleteStep infoType.radio bdaddr held data after) :
      StageStep infoType bdaddr held data after
  | attempt {data file} (logged : infoType.logFile = some file) :
      StageStep infoType bdaddr held data (data.appendLog file (.attempt bdaddr))
  | launch {data after} (step : LaunchStep infoType bdaddr data after) :
      StageStep infoType bdaddr held data after

/-- Steps of a worker's loop on one address, up to the decision to skip it and
its deletion when it is skipped. -/
inductive LoopStep (radio : Radio) (bdaddr : Text) (held : List Lock) : Data → Data → Prop where
  | delete {data after} (step : DeleteStep radio bdaddr held data after) :
      LoopStep radio bdaddr held data after
  | next {data unvisited} : LoopStep radio bdaddr held data (data.setUnvisited radio unvisited)
  | exceeded {data} : LoopStep radio bdaddr held data (data.record (.exceeded radio bdaddr))

/-- Steps of a worker on an address that it does not skip. -/
inductive CollectStep (radio : Radio) (bdaddr : Text) (held : List Lock) :
    Data → Data → Prop where
  | same {data} : CollectStep radio bdaddr held data data
  | countAttempt {data attempts}
      (present : data.deviceConnectAttempts.lookup bdaddr = some attempts) :
      CollectStep radio bdaddr held data (data.select radio bdaddr attempts)
  | stage {data after infoType} (own : infoType.radio = radio)
      (step : StageStep infoType bdaddr held data after) : CollectStep radio bdaddr held data after

/-- Steps of a worker's pass. -/
inductive WorkerStep (radio : Radio) (held : List Lock) : Data → Data → Prop where
  | sort {data after} (step : SortStep radio data after) : WorkerStep radio held data after
  | loop {data after bdaddr} (step : LoopStep radio bdaddr held data after) :
      WorkerStep radio held data after
  | collect {data after bdaddr} (step : CollectStep radio bdaddr held data after) :
      WorkerStep radio held data after
  | unpark {data bdaddr} (locked : Lock.bdaddrs .ble ∈ held)
      (lockedToo : Lock.deprioritized radio ∈ held) :
      WorkerStep radio held data (data.unpark radio bdaddr)
  | retrack {data bdaddr value} (locked : Lock.bdaddrs .ble ∈ held)
      (lockedToo : Lock.deprioritized radio ∈ held) :
      WorkerStep radio held data (data.retrack radio bdaddr value)

/-- Steps of the thread of a process. -/
inductive ToolStep (number : Nat) (process : Process) (held : List Lock) : Data → Data → Prop where
  | kill {data} : ToolStep number process held data (data.modifyProcess number Process.kill)
  | outcome {data file line} (logged : process.infoType.logFile = some file)
      (kind : line = .success process.bdaddr ∨ (∃ retCode, line = .failure retCode process.bdaddr) ∨
        line = .failureTimeout process.bdaddr) :
      ToolStep number process held data (data.appendLog file line)
  | succeed {data} (locked : Lock.success process.infoType ∈ held) :
      ToolStep number process held data (data.setSuccess process.infoType process.bdaddr)
  | delete {data after}
      (step : DeleteStep process.infoType.radio process.bdaddr held data after) :
      ToolStep number process held data after

/-! ## What the steps do to the dictionaries -/

namespace CommandStep

variable {held : List Lock} {asked : Command} {before after : Data} {radio : Radio} {bdaddr : Text}

theorem attempts (step : CommandStep held asked before after)
    (member : bdaddr ∈ before.deviceConnectAttempts) : bdaddr ∈ after.deviceConnectAttempts := by
  cases step with
  | same => exact member
  | _ => simp [member]

/-- Only the address of the command becomes tracked. -/
theorem tracked (step : CommandStep held asked before after)
    (member : bdaddr ∈ after.bdaddrs radio) :
    bdaddr ∈ before.bdaddrs radio ∨ asked.bdaddr = some bdaddr := by
  cases step with
  | same => exact .inl member
  | _ => simp at member; grind [Command.bdaddr]

/-- An address stops being tracked only under the lock. -/
theorem untracked (step : CommandStep held asked before after)
    (member : bdaddr ∈ before.bdaddrs radio) (missing : bdaddr ∉ after.bdaddrs radio) :
    Lock.bdaddrs radio ∈ held := by
  cases step with
  | same => exact absurd member missing
  | _ => simp at missing; grind

/-- Only the address of the command becomes deprioritized. -/
theorem deprioritized (step : CommandStep held asked before after)
    (member : bdaddr ∈ after.deprioritizedBdaddrs radio) :
    bdaddr ∈ before.deprioritizedBdaddrs radio ∨ asked.bdaddr = some bdaddr := by
  cases step with
  | same => exact .inl member
  | _ => simp at member; grind [Command.bdaddr]

/-- The monitor never takes an address out of a deprioritized dictionary. -/
theorem staysDeprioritized (step : CommandStep held asked before after)
    (member : bdaddr ∈ before.deprioritizedBdaddrs radio) :
    bdaddr ∈ after.deprioritizedBdaddrs radio := by
  cases step with
  | same => exact member
  | _ => simp; grind

theorem sortPending (step : CommandStep held asked before after) :
    after.ghost.sortPending = before.ghost.sortPending := by
  cases step <;> rfl

end CommandStep

/-- A step that changes at most one tracked dictionary, and that only by a deletion
under its lock. -/
structure OnlyDeletes (held : List Lock) (before after : Data) : Prop where
  deviceConnectAttempts : after.deviceConnectAttempts = before.deviceConnectAttempts
  tracked : ∀ {radio bdaddr}, bdaddr ∈ after.bdaddrs radio → bdaddr ∈ before.bdaddrs radio
  untracked : ∀ {radio bdaddr}, bdaddr ∈ before.bdaddrs radio → bdaddr ∉ after.bdaddrs radio →
    Lock.bdaddrs radio ∈ held
  deprioritizedBdaddrs : after.deprioritizedBdaddrs = before.deprioritizedBdaddrs
  sortPending : after.ghost.sortPending = before.ghost.sortPending

namespace OnlyDeletes

variable {held : List Lock} {before after : Data}

theorem of_same (attempts : after.deviceConnectAttempts = before.deviceConnectAttempts)
    (tracked : after.bdaddrs = before.bdaddrs)
    (deprioritized : after.deprioritizedBdaddrs = before.deprioritizedBdaddrs)
    (pending : after.ghost.sortPending = before.ghost.sortPending) :
    OnlyDeletes held before after :=
  ⟨attempts, fun member => by rwa [tracked] at member,
    fun member missing => absurd (by rwa [tracked]) missing, deprioritized, pending⟩

theorem of_delete {radio : Radio} {bdaddr : Text}
    (step : DeleteStep radio bdaddr held before after) : OnlyDeletes held before after := by
  cases step with
  | same => exact of_same rfl rfl rfl rfl
  | delete locked =>
      exact ⟨rfl, fun member => by simp at member; grind,
        fun member missing => by simp at missing; grind, rfl, rfl⟩

theorem of_stage {infoType : InfoType} {bdaddr : Text}
    (step : StageStep infoType bdaddr held before after) : OnlyDeletes held before after := by
  cases step with
  | delete step => exact of_delete step
  | attempt => exact of_same rfl rfl rfl rfl
  | launch step => cases step <;> exact of_same rfl rfl rfl rfl

theorem of_loop {radio : Radio} {bdaddr : Text} (step : LoopStep radio bdaddr held before after) :
    OnlyDeletes held before after := by
  cases step with
  | delete step => exact of_delete step
  | _ => exact of_same rfl rfl rfl rfl

theorem of_tool {number : Nat} {process : Process}
    (step : ToolStep number process held before after) : OnlyDeletes held before after := by
  cases step with
  | delete step => exact of_delete step
  | _ => exact of_same rfl rfl rfl rfl

end OnlyDeletes

namespace SortStep

variable {own radio : Radio} {before after : Data}

theorem deviceConnectAttempts (step : SortStep own before after) :
    after.deviceConnectAttempts = before.deviceConnectAttempts := by
  cases step <;> rfl

theorem bdaddrs (step : SortStep own before after) : after.bdaddrs = before.bdaddrs := by
  cases step <;> rfl

theorem deprioritizedBdaddrs (step : SortStep own before after) :
    after.deprioritizedBdaddrs = before.deprioritizedBdaddrs := by
  cases step <;> rfl

theorem sortPending (step : SortStep own before after) (different : own ≠ radio) :
    after.ghost.sortPending radio = before.ghost.sortPending radio := by
  cases step <;> simp [Ne.symm different]

end SortStep

namespace CollectStep

variable {own radio : Radio} {held : List Lock} {before after : Data} {bdaddr other : Text}

theorem attempts (step : CollectStep own bdaddr held before after)
    (member : other ∈ before.deviceConnectAttempts) : other ∈ after.deviceConnectAttempts := by
  cases step with
  | same => exact member
  | countAttempt => simp [member]
  | stage _ step => rwa [(OnlyDeletes.of_stage step).deviceConnectAttempts]

theorem tracked (step : CollectStep own bdaddr held before after)
    (member : other ∈ after.bdaddrs radio) : other ∈ before.bdaddrs radio := by
  cases step with
  | stage _ step => exact (OnlyDeletes.of_stage step).tracked member
  | _ => exact member

theorem untracked (step : CollectStep own bdaddr held before after)
    (member : other ∈ before.bdaddrs radio) (missing : other ∉ after.bdaddrs radio) :
    Lock.bdaddrs radio ∈ held := by
  cases step with
  | stage _ step => exact (OnlyDeletes.of_stage step).untracked member missing
  | _ => exact absurd member missing

theorem deprioritizedBdaddrs (step : CollectStep own bdaddr held before after) :
    after.deprioritizedBdaddrs = before.deprioritizedBdaddrs := by
  cases step with
  | stage _ step => exact (OnlyDeletes.of_stage step).deprioritizedBdaddrs
  | _ => rfl

theorem sortPending (step : CollectStep own bdaddr held before after) :
    after.ghost.sortPending = before.ghost.sortPending := by
  cases step with
  | stage _ step => exact (OnlyDeletes.of_stage step).sortPending
  | _ => rfl

end CollectStep

namespace WorkerStep

variable {own radio : Radio} {held : List Lock} {before after : Data} {bdaddr : Text}

theorem attempts (step : WorkerStep own held before after)
    (member : bdaddr ∈ before.deviceConnectAttempts) : bdaddr ∈ after.deviceConnectAttempts := by
  cases step with
  | sort step => rwa [step.deviceConnectAttempts]
  | loop step => rwa [(OnlyDeletes.of_loop step).deviceConnectAttempts]
  | collect step => exact step.attempts member
  | _ => exact member

theorem untracked (step : WorkerStep own held before after)
    (member : bdaddr ∈ before.bdaddrs radio) (missing : bdaddr ∉ after.bdaddrs radio) :
    Lock.bdaddrs radio ∈ held := by
  cases step with
  | sort step => exact absurd (by rwa [step.bdaddrs]) missing
  | loop step => exact (OnlyDeletes.of_loop step).untracked member missing
  | collect step => exact step.untracked member missing
  | unpark => exact absurd member missing
  | retrack => simp at missing; grind

/-- A worker never puts an address into a deprioritized dictionary. -/
theorem deprioritized (step : WorkerStep own held before after)
    (member : bdaddr ∈ after.deprioritizedBdaddrs radio) :
    bdaddr ∈ before.deprioritizedBdaddrs radio := by
  cases step with
  | sort step => rwa [step.deprioritizedBdaddrs] at member
  | loop step => rwa [(OnlyDeletes.of_loop step).deprioritizedBdaddrs] at member
  | collect step => rwa [step.deprioritizedBdaddrs] at member
  | unpark => simp at member; grind
  | retrack => exact member

/-- A worker takes addresses only out of its own deprioritized dictionary. -/
theorem staysDeprioritized (step : WorkerStep own held before after) (different : own ≠ radio)
    (member : bdaddr ∈ before.deprioritizedBdaddrs radio) :
    bdaddr ∈ after.deprioritizedBdaddrs radio := by
  cases step with
  | sort step => rwa [step.deprioritizedBdaddrs]
  | loop step => rwa [(OnlyDeletes.of_loop step).deprioritizedBdaddrs]
  | collect step => rwa [step.deprioritizedBdaddrs]
  | unpark => simp; grind
  | retrack => exact member

theorem sortPending (step : WorkerStep own held before after) (different : own ≠ radio) :
    after.ghost.sortPending radio = before.ghost.sortPending radio := by
  cases step with
  | sort step => exact step.sortPending different
  | loop step => rw [(OnlyDeletes.of_loop step).sortPending]
  | collect step => rw [step.sortPending]
  | _ => rfl

end WorkerStep

/-! ## Programs shared by the threads -/

variable {α : Type} {shape : List Lock → Data → Data → Prop} {start : List Lock}

theorem within_look (same : ∀ held data, shape held data data) (view : Data → α) :
    (Code.look view).Within shape start start :=
  fun data => ⟨fun _ => same start data, rfl⟩

theorem within_change {update : Data → Data} (shaped : ∀ data, shape start data (update data)) :
    (Code.change update).Within shape start start :=
  fun data => ⟨fun _ => shaped data, rfl⟩

theorem within_exchange {update : Data → Data} {view : Data → α}
    (shaped : ∀ data, shape start data (update data)) :
    (Code.exchange update view).Within shape start start :=
  fun data => ⟨fun _ => shaped data, rfl⟩

theorem within_demand {update : Data → Data} {view : Data → Option α}
    (shaped : ∀ data, shape start data (update data)) :
    (Code.demand update view).Within shape start start := by
  intro data
  refine ⟨fun _ => shaped data, ?_⟩
  simp only
  split <;> rfl

theorem whenTracked_within (same : ∀ held data, shape held data data) {radio : Radio}
    {bdaddr : Text} {body : Code Unit}
    (within : body.Within shape (.bdaddrs radio :: start) (.bdaddrs radio :: start)) :
    (whenTracked radio bdaddr body).Within shape start start :=
  within_withLock <| within_bind (within_look same _) fun _ =>
    within_ite (fun _ => within) fun _ => rfl

theorem lockedDeleteFromDict_within {radio : Radio} {bdaddr : Text} :
    (lockedDeleteFromDict radio bdaddr).Within (DeleteStep radio bdaddr) start start :=
  whenTracked_within (fun _ _ => .same) <| within_demand fun _ => .delete (by simp)

theorem deleteIfAllDone_within {radio : Radio} {bdaddr : Text} :
    (deleteIfAllDone radio bdaddr).Within (DeleteStep radio bdaddr) start start := by
  have both : ∀ first second,
      (all2thprintsDone.both bdaddr first second).Within (DeleteStep radio bdaddr) start start :=
    fun _ _ => within_bind (within_look (fun _ _ => .same) _) fun _ =>
      within_ite (fun _ => within_look (fun _ _ => .same) _) fun _ => rfl
  refine within_bind ?_ fun _ => within_ite (fun _ => lockedDeleteFromDict_within) fun _ => rfl
  cases radio
  · exact both _ _
  · exact both _ _

/-! ## The monitor -/

section Monitor

variable {asked : Command}

private theorem command_same (asked : Command) (held : List Lock) (data : Data) :
    CommandStep held asked data data := .same

theorem grantOneMoreTry_within (bdaddr word : Text) :
    (grantOneMoreTry bdaddr).Within (fun held => CommandStep held (.rssi bdaddr word))
      start start := by
  refine within_bind (within_demand fun _ => .same) fun _ =>
    within_ite (fun _ => within_demand fun data => ?_) fun _ => rfl
  cases present : data.deviceConnectAttempts.lookup bdaddr with
  | none => exact .same
  | some attempts => exact .grantOneMoreTry present

theorem readStoredRssi_within {radio : Radio} (bdaddr word : Text)
    (locked : Lock.bdaddrs radio ∈ start) :
    (readStoredRssi radio bdaddr word).Within (fun held => CommandStep held (.rssi bdaddr word))
      start start := by
  refine within_demand fun data => ?_
  cases present : (data.bdaddrs radio).lookup bdaddr with
  | none => exact .same
  | some stored =>
      cases parsed : Text.parseInt 10 word with
      | none => exact .same
      | some rssi =>
          simp only
          split
          · next higher => exact .raiseRssi locked present parsed higher
          · exact .same

theorem storeRssi_within {radio : Radio} (bdaddr word : Text)
    (locked : Lock.bdaddrs radio ∈ start) :
    (storeRssi radio bdaddr word).Within (fun held => CommandStep held (.rssi bdaddr word))
      start start := by
  refine within_bind (readStoredRssi_within bdaddr word locked) fun stored => ?_
  cases Text.parseInt 10 word with
  | none => rfl
  | some rssi =>
      refine within_bind ?_ fun _ => within_change fun data => .trackRssi locked
      exact within_ite (fun _ => grantOneMoreTry_within bdaddr word) fun _ => rfl

theorem updateRssi_within (radio : Radio) (bdaddr word : Text) :
    (updateRssi radio bdaddr word).Within (fun held => CommandStep held (.rssi bdaddr word))
      start start :=
  whenTracked_within (command_same _) (storeRssi_within bdaddr word (by simp))

theorem park_within {radio : Radio} (bdaddr vendor : Text) (more : List Text)
    (locked : Lock.bdaddrs radio ∈ start) :
    (park radio bdaddr vendor).Within
      (fun held => CommandStep held (.manufacturerData bdaddr more)) start start :=
  within_bind (within_demand fun _ => .same) fun _ =>
    within_bind
      (within_withLock <| within_change fun _ => .park (List.mem_cons_of_mem _ locked) (by simp))
      fun _ => within_demand fun _ => .untrack locked

theorem deprioritize_within (radio : Radio) (bdaddr vendor : Text) (more : List Text) :
    (deprioritize radio bdaddr vendor).Within
      (fun held => CommandStep held (.manufacturerData bdaddr more)) start start :=
  whenTracked_within (command_same _) (park_within bdaddr vendor more (by simp))

/-- `process_line` takes the steps of its command. -/
theorem processCommand_within (asked : Command) :
    (processCommand asked).Within (fun held => CommandStep held asked) start start := by
  cases asked with
  | new bdaddr type addressType =>
      exact within_bind (within_change fun _ => .resetAttempts) fun _ =>
        within_withLock <| within_change fun _ => .trackNew (by simp)
  | rssi bdaddr word =>
      exact within_bind (updateRssi_within .ble bdaddr word) fun _ =>
        updateRssi_within .btc bdaddr word
  | manufacturerData bdaddr more =>
      cases more with
      | nil => rfl
      | cons vendor rest =>
          exact within_ite
            (fun _ => within_bind (deprioritize_within _ _ _ _) fun _ => deprioritize_within _ _ _ _)
            fun _ => rfl
  | del bdaddr type =>
      simp only [processCommand, processDel]
      cases named : delRadio type with
      | none => rfl
      | some radio =>
          refine lockedDeleteFromDict_within.mono fun _ _ _ step => ?_
          cases step with
          | same => exact .same
          | delete locked => exact .delete named locked
  | ignored => rfl

end Monitor

/-! ## The tool threads -/

section Tool

variable {number : Nat} {process : Process}

theorem externalLogWrite_outcome_within {line : LogLine}
    (kind : line = .success process.bdaddr ∨ (∃ retCode, line = .failure retCode process.bdaddr) ∨
      line = .failureTimeout process.bdaddr) :
    (externalLogWrite process.infoType line).Within (ToolStep number process) start start := by
  unfold externalLogWrite
  cases logged : process.infoType.logFile with
  | none => rfl
  | some file => exact within_change fun _ => .outcome logged kind

theorem report_within (retCode : Int) :
    (ApplicationThread.report process.infoType process.bdaddr retCode).Within
      (ToolStep number process) start start := by
  refine within_ite (fun _ => within_bind (externalLogWrite_outcome_within (.inl rfl)) fun _ => ?_)
    fun _ => externalLogWrite_outcome_within (.inr (.inl ⟨retCode, rfl⟩))
  exact within_withLock <| within_bind (within_change fun _ => .succeed (by simp)) fun _ =>
    deleteIfAllDone_within.mono fun _ _ _ step => .delete step

/-- The thread of a process takes the steps of that process. -/
theorem runProcess_within :
    (ApplicationThread.runProcess number process).Within (ToolStep number process) start start := by
  refine within_bind (within_await (fun _ => .delete .same) _ _ _) fun waited => ?_
  match waited with
  | some (.returned retCode) =>
      exact within_bind (within_look (fun _ _ => .delete .same) _) fun _ =>
        within_ite (fun _ => within_change fun _ => .kill) fun _ => report_within retCode
  | some .timeoutExpired =>
      exact within_bind (within_change fun _ => .kill) fun _ =>
        externalLogWrite_outcome_within (.inr (.inr rfl))
  | none => rfl

end Tool

/-! ## The workers -/

section Worker

variable {infoType : InfoType} {bdaddr : Text} {radio : Radio}

theorem externalLogWrite_attempt_within :
    (externalLogWrite infoType (.attempt bdaddr)).Within (StageStep infoType bdaddr)
      start start := by
  unfold externalLogWrite
  cases logged : infoType.logFile with
  | none => rfl
  | some file => exact within_change fun _ => .attempt logged

theorem launchTool_within (arguments : List Text) :
    (launchTool infoType bdaddr arguments).Within (fun _ => LaunchStep infoType bdaddr)
      start start := by
  refine within_bind (within_exchange fun data => ?_) fun launched => ?_
  · split
    · exact .same
    · next accepted => exact .launch (by simpa using accepted)
  · cases launched with
    | none => rfl
    | some number =>
        refine within_bind (within_exchange fun data => ?_) fun _ =>
          within_ite (fun _ => within_change fun _ => .keepThread) fun _ => rfl
        split
        · exact .same
        · next accepted => exact .startThread (by simpa using accepted)

private theorem launch_widens {program : Code Unit}
    (within : program.Within (fun _ => LaunchStep infoType bdaddr) start start) :
    program.Within (StageStep infoType bdaddr) start start :=
  within.mono fun _ _ _ step => .launch step

private theorem stage_same (held : List Lock) (data : Data) :
    StageStep infoType bdaddr held data data := .delete .same

theorem launchGatt_within :
    (launchGatt bdaddr).Within (StageStep .gatt bdaddr) start start :=
  whenTracked_within stage_same <|
    within_bind externalLogWrite_attempt_within fun _ =>
      within_bind (within_demand fun _ => stage_same _ _) fun _ =>
        launch_widens (launchTool_within _)

theorem skipSubProcess_within :
    (skipSubProcess infoType bdaddr).Within (DeleteStep infoType.radio bdaddr) start start :=
  within_withLock <| within_bind (within_look (fun _ _ => .same) _) fun _ =>
    within_ite (fun _ => within_bind deleteIfAllDone_within fun _ => rfl) fun _ => rfl

theorem runStage_within (settings : Settings) {launch : Code Unit}
    (within : launch.Within (StageStep infoType bdaddr) start start) :
    (runStage settings infoType bdaddr launch).Within (StageStep infoType bdaddr) start start :=
  within_ite
    (fun _ => within_bind (skipSubProcess_within.mono fun _ _ _ step => .delete step) fun _ =>
      within_ite (fun _ => rfl) fun _ => within_bind (within_look stage_same _) fun _ =>
        within_ite (fun _ => within) fun _ => rfl)
    fun _ => rfl

/-- The launch program of each tool takes the steps of its stage. -/
def launchOf : InfoType → Text → Code Unit
  | .gatt => launchGatt
  | .ll2thprint => launchLl2thprint
  | .lmp2thprint => launchLmp2thprint
  | .sdp => launchSdp

theorem launchOf_within : (launchOf infoType bdaddr).Within (StageStep infoType bdaddr)
    start start := by
  cases infoType with
  | gatt => exact launchGatt_within
  | ll2thprint => exact launch_widens (launchTool_within _)
  | lmp2thprint =>
      exact within_bind externalLogWrite_attempt_within fun _ =>
        launch_widens (launchTool_within _)
  | sdp =>
      exact within_bind externalLogWrite_attempt_within fun _ =>
        within_bind (within_demand fun _ => stage_same _ _) fun _ =>
          launch_widens (launchTool_within _)

theorem stage_within (settings : Settings) (infoType : InfoType) (bdaddr : Text)
    (own : infoType.radio = radio) :
    (runStage settings infoType bdaddr (launchOf infoType bdaddr)).Within
      (CollectStep radio bdaddr) start start :=
  (runStage_within settings launchOf_within).mono fun _ _ _ step => .stage own step

theorem shouldSkip_within (settings : Settings) :
    (shouldSkip settings radio bdaddr).Within (LoopStep radio bdaddr) start start := by
  refine within_ite (fun _ => rfl) fun _ => within_bind (within_demand fun data => ?_) fun _ => rfl
  split
  · split
    · exact .exceeded
    · exact .delete .same
  · exact .delete .same

private theorem worker_same (held : List Lock) (data : Data) : WorkerStep radio held data data :=
  .collect (.same : CollectStep radio [] held data data)

/-- A move back to the tracked dictionary takes only steps of a shape that its two
halves have. -/
theorem reprioritize_within_of {shape : List Lock → Data → Data → Prop}
    (same : ∀ held data, shape held data data)
    (unparks : ∀ {held data}, Lock.bdaddrs .ble ∈ held → Lock.deprioritized radio ∈ held →
      shape held data (data.unpark radio bdaddr))
    (retracks : ∀ {held data value}, Lock.bdaddrs .ble ∈ held → Lock.deprioritized radio ∈ held →
      shape held data (data.retrack radio bdaddr value)) :
    (reprioritize .ble radio bdaddr).Within shape start start := by
  apply within_withLock
  apply within_withLock
  apply within_bind (within_look same _)
  intro found
  refine within_ite (fun _ => ?_) fun _ => rfl
  exact within_bind (within_demand fun _ => same _ _) fun _ =>
    within_bind (within_demand fun _ => unparks (by simp) (by simp)) fun _ =>
      within_change fun _ => retracks (by simp) (by simp)

theorem reprioritizeFirst_within_of {shape : List Lock → Data → Data → Prop}
    (same : ∀ held data, shape held data data)
    (each : ∀ bdaddr, (reprioritize .ble radio bdaddr).Within shape start start) :
    (reprioritizeFirst radio (reprioritize .ble radio)).Within shape start start := by
  apply within_bind (within_look same _)
  intro some
  refine within_ite (fun _ => ?_) fun _ => rfl
  exact within_bind (within_demand fun _ => same _ _) each

theorem countAttempt_within :
    (countAttempt radio bdaddr).Within (CollectStep radio bdaddr) start start := by
  refine within_demand fun data => ?_
  cases present : data.deviceConnectAttempts.lookup bdaddr with
  | none => exact .same
  | some attempts => exact .countAttempt present

theorem joinExternalToolThreads_within :
    (joinExternalToolThreads radio).Within (CollectStep radio bdaddr) start start :=
  within_bind (within_look (fun _ _ => .same) _) fun _ =>
    within_forEach _ _ fun _ _ => within_joinThread _

/-- The stages of a worker, as `threadFunction` has them. -/
def stagesOf (settings : Settings) : Radio → Text → Code Unit
  | .ble => bleStages settings
  | .btc => btcStages settings

theorem threadFunction_eq (settings : Settings) (radio : Radio) :
    threadFunction settings radio =
      passOf settings radio (stagesOf settings radio) (reprioritize .ble radio) := by
  cases radio <;> rfl

theorem stagesOf_within (settings : Settings) :
    (stagesOf settings radio bdaddr).Within (CollectStep radio bdaddr) start start := by
  cases radio with
  | ble =>
      exact within_bind (stage_within settings .gatt bdaddr rfl) fun _ =>
        stage_within settings .ll2thprint bdaddr rfl
  | btc =>
      exact within_bind (stage_within settings .lmp2thprint bdaddr rfl) fun _ =>
        stage_within settings .sdp bdaddr rfl

theorem collectBdaddr_within (settings : Settings) :
    (collectBdaddr radio (stagesOf settings radio) bdaddr).Within (CollectStep radio bdaddr)
      start start :=
  within_bind countAttempt_within fun _ => within_bind (stagesOf_within settings) fun _ =>
    joinExternalToolThreads_within

theorem readRssis_within (bdaddrs : List Text) :
    (readRssis radio bdaddrs).Within (fun _ => SortStep radio) start start := by
  induction bdaddrs with
  | nil => rfl
  | cons bdaddr rest inductionHypothesis =>
      exact within_bind (within_demand fun _ => .readRssi) fun _ =>
        within_bind inductionHypothesis fun _ => rfl

theorem sortedBdaddrs_within :
    (sortedBdaddrs radio).Within (fun _ => SortStep radio) start start :=
  within_bind (within_exchange fun _ => .snapshot) fun _ =>
    within_bind (readRssis_within _) fun _ =>
      within_bind (within_change fun _ => .sorted) fun _ => rfl

theorem reprioritizeFirst_within :
    (reprioritizeFirst radio (reprioritize .ble radio)).Within (WorkerStep radio) start start :=
  reprioritizeFirst_within_of worker_same fun _ =>
    reprioritize_within_of worker_same .unpark .retrack

/-- A pass of a worker takes only steps of a shape that its parts take. -/
theorem threadFunction_within_of {shape : List Lock → Data → Data → Prop} (settings : Settings)
    (same : ∀ held data, shape held data data)
    (sort : (sortedBdaddrs radio).Within shape start start)
    (next : ∀ data unvisited, shape start data (data.setUnvisited radio unvisited))
    (decision : ∀ bdaddr, (shouldSkip settings radio bdaddr).Within shape start start)
    (delete : ∀ bdaddr, (lockedDeleteFromDict radio bdaddr).Within shape start start)
    (collect : ∀ bdaddr,
      (collectBdaddr radio (stagesOf settings radio) bdaddr).Within shape start start)
    (turn : (reprioritizeFirst radio (reprioritize .ble radio)).Within shape start start) :
    (threadFunction settings radio).Within shape start start := by
  have visited : ∀ total bdaddrs skipCount, (visit settings radio (stagesOf settings radio)
      (reprioritize .ble radio) total skipCount bdaddrs).Within shape start start := by
    intro total bdaddrs
    induction bdaddrs with
    | nil => exact fun _ => rfl
    | cons bdaddr rest inductionHypothesis =>
        intro skipCount
        refine within_bind (within_change fun data => next data rest) fun _ =>
          within_bind (decision bdaddr) fun _ => within_ite (fun _ => ?_) fun _ => ?_
        · refine within_bind (within_bind (delete bdaddr) fun _ => ?_) fun _ =>
            inductionHypothesis _
          exact within_ite (fun _ => turn) fun _ => rfl
        · exact within_bind (collect bdaddr) fun _ => inductionHypothesis _
  rw [threadFunction_eq]
  exact within_bind sort fun _ => within_bind (visited _ _ _) fun _ => within_await (same _) _ _ _

/-- A pass of a worker takes the steps of its radio. -/
theorem threadFunction_within (settings : Settings) :
    (threadFunction settings radio).Within (WorkerStep radio) start start := by
  apply threadFunction_within_of settings worker_same
  · exact sortedBdaddrs_within.mono fun _ _ _ step => .sort step
  · exact fun _ _ => .loop (.next : LoopStep radio [] _ _ _)
  · exact fun _ => (shouldSkip_within settings).mono fun _ _ _ step => .loop step
  · exact fun _ => lockedDeleteFromDict_within.mono fun _ _ _ step => .loop (.delete step)
  · exact fun _ => (collectBdaddr_within settings).mono fun _ _ _ step => .collect step
  · exact reprioritizeFirst_within

end Worker

end NaiveBTSniffing.Launcher
