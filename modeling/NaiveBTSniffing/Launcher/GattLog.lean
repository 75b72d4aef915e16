import NaiveBTSniffing.Launcher.GattBlocks
import NaiveBTSniffing.Launcher.Rules

/-!
Contract: what a run writes to `GATTprint.log`.

The BLE worker and the threads of the gatttool processes take turns on the log:
the worker writes an ATTEMPT line, launches a process and waits for its thread,
which writes the outcome. `gatt_log` says that the log consists of blocks and
that an address with a SUCCESS line never gets another ATTEMPT line.

Owns the contract `gattContract` between the threads.
-/

namespace NaiveBTSniffing.Launcher

open NaiveBTSniffing.Library
open NaiveBTSniffing.Library.Interleaving
open NaiveBTSniffing.Library.Interleaving.Prog

/-- Every `Popen` and every thread start succeeds. -/
def LaunchesSucceed (_ after : Data) : Prop :=
  after.popenFails = false ∧ after.startFails = false

instance : DecidableRel LaunchesSucceed := fun _ after =>
  inferInstanceAs (Decidable (after.popenFails = false ∧ after.startFails = false))

/-! ## The gatttool processes -/

/-- Number and address of every gatttool process, in the order of their launch. -/
def gattProcesses (processes : List Process) : List (Nat × Text) :=
  (processes.map fun process => (process.infoType, process.bdaddr)).zipIdx.filterMap
    fun entry => if entry.1.1 = .gatt then some (entry.2, entry.1.2) else none

abbrev Data.gatts (data : Data) : List (Nat × Text) := gattProcesses data.processes

theorem gattProcesses_append (processes : List Process) (process : Process) :
    gattProcesses (processes ++ [process]) = gattProcesses processes ++
      if process.infoType = .gatt then [(processes.length, process.bdaddr)] else [] := by
  unfold gattProcesses
  rw [List.map_append, List.zipIdx_append, List.filterMap_append]
  by_cases gatt : process.infoType = .gatt <;> simp [gatt]

theorem gattProcesses_modify (processes : List Process) (number : Nat)
    (update : Process → Process)
    (infoType : ∀ process, processes[number]? = some process →
      (update process).infoType = process.infoType)
    (bdaddr : ∀ process, processes[number]? = some process →
      (update process).bdaddr = process.bdaddr) :
    gattProcesses (processes.modify number update) = gattProcesses processes := by
  have same : (processes.modify number update).map
      (fun process => (process.infoType, process.bdaddr)) =
      processes.map fun process => (process.infoType, process.bdaddr) := by
    refine List.ext_getElem? fun index => ?_
    rw [List.getElem?_map, List.getElem?_map, List.getElem?_modify]
    cases found : processes[index]? with
    | none => rfl
    | some process =>
        by_cases here : number = index
        · subst here
          simp [infoType process found, bdaddr process found]
        · simp [here]
  unfold gattProcesses
  rw [same]

theorem mem_gattProcesses {processes : List Process} {number : Nat} {bdaddr : Text} :
    (number, bdaddr) ∈ gattProcesses processes ↔ ∃ process,
      processes[number]? = some process ∧ process.infoType = .gatt ∧ process.bdaddr = bdaddr := by
  unfold gattProcesses
  rw [List.mem_filterMap]
  constructor
  · rintro ⟨⟨⟨infoType, address⟩, index⟩, member, picked⟩
    obtain ⟨gatt, same⟩ := Option.ite_none_right_eq_some.mp picked
    obtain ⟨rfl, rfl⟩ : index = number ∧ address = bdaddr := by simpa using same
    rw [List.mem_zipIdx_iff_getElem?, List.getElem?_map, Option.map_eq_some_iff] at member
    obtain ⟨process, found, named⟩ := member
    obtain ⟨sameType, sameAddress⟩ := Prod.ext_iff.mp named
    exact ⟨process, found, sameType.trans gatt, sameAddress⟩
  · rintro ⟨process, found, gatt, rfl⟩
    refine ⟨((process.infoType, process.bdaddr), number), ?_, by simp [gatt]⟩
    rw [List.mem_zipIdx_iff_getElem?, List.getElem?_map, found]
    rfl

/-! ## The phases of the log -/

def Data.gattScan (data : Data) : Option Scan := scan data.gatts (data.logs .gattprint)

/-- Every address with a SUCCESS line, but for one perhaps, is in
`gatt_success_bdaddrs`. -/
def SuccessKnown (missing : Option Text) (data : Data) : Prop :=
  ∀ bdaddr, .success bdaddr ∈ data.logs .gattprint →
    bdaddr ∈ data.successBdaddrs .gatt ∨ missing = some bdaddr

/-- Every block is finished, and a process was launched for each. -/
structure GattIdle (data : Data) : Prop where
  scanned : data.gattScan = some ⟨data.gatts.length, none⟩
  known : SuccessKnown none data

/-- The ATTEMPT line is written and the process not yet launched. -/
structure GattOpened (bdaddr : Text) (data : Data) : Prop where
  scanned : data.gattScan = some ⟨data.gatts.length + 1, some bdaddr⟩
  known : SuccessKnown none data

/-- The process is launched and its outcome not yet written. -/
structure GattAwaited (number : Nat) (bdaddr : Text) (data : Data) : Prop where
  scanned : data.gattScan = some ⟨data.gatts.length, some bdaddr⟩
  last : data.gatts.getLast? = some (number, bdaddr)
  known : SuccessKnown none data

/-- The last block is the one of this process. -/
def GattCurrent (number : Nat) (data : Data) : Prop :=
  ∃ bdaddr opened, data.gattScan = some ⟨data.gatts.length, opened⟩ ∧
    data.gatts.getLast? = some (number, bdaddr)

/-- If the last block is the one of this process, it is finished. -/
structure GattClosed (missing : Option Text) (number : Nat) (data : Data) : Prop where
  started : number < data.processes.length
  finished : GattCurrent number data → data.gattScan = some ⟨data.gatts.length, none⟩ ∧
    SuccessKnown missing data

section Phases

variable {number other : Nat} {bdaddr another : Text} {data : Data}

theorem GattAwaited.not_idle (awaited : GattAwaited number bdaddr data) : ¬ GattIdle data :=
  fun idle => by simpa using awaited.scanned.symm.trans idle.scanned

theorem GattAwaited.not_opened (awaited : GattAwaited number bdaddr data) :
    ¬ GattOpened another data :=
  fun opened => by simpa using awaited.scanned.symm.trans opened.scanned

theorem GattOpened.not_idle (opened : GattOpened bdaddr data) : ¬ GattIdle data :=
  fun idle => by simpa using opened.scanned.symm.trans idle.scanned

theorem GattOpened.not_current (opened : GattOpened bdaddr data) : ¬ GattCurrent number data :=
  fun ⟨_, _, scanned, _⟩ => by simpa using opened.scanned.symm.trans scanned

theorem GattAwaited.unique (first : GattAwaited number bdaddr data)
    (second : GattAwaited other another data) : number = other ∧ bdaddr = another := by
  simpa using first.last.symm.trans second.last

theorem GattAwaited.current (awaited : GattAwaited number bdaddr data) : GattCurrent number data :=
  ⟨bdaddr, some bdaddr, awaited.scanned, awaited.last⟩

theorem GattAwaited.mem (awaited : GattAwaited number bdaddr data) :
    (number, bdaddr) ∈ data.gatts :=
  List.mem_of_getLast? awaited.last

theorem GattCurrent.unique (current : GattCurrent number data)
    (awaited : GattAwaited other bdaddr data) : number = other := by
  obtain ⟨_, _, _, last⟩ := current
  exact (Prod.ext_iff.mp (Option.some.inj (last.symm.trans awaited.last))).1

/-- The address of a process is one only. -/
theorem gatts_unique (first : (number, bdaddr) ∈ data.gatts)
    (second : (number, another) ∈ data.gatts) : bdaddr = another := by
  obtain ⟨process, found, _, rfl⟩ := mem_gattProcesses.mp first
  obtain ⟨same, foundToo, _, rfl⟩ := mem_gattProcesses.mp second
  obtain rfl := Option.some.inj (found.symm.trans foundToo)
  rfl

end Phases

/-! ## The terms -/

structure GattInv (data : Data) : Prop where
  scanned : data.gattScan.isSome
  noRetry : (data.logs .gattprint).Pairwise fun first second =>
    ∀ bdaddr, first = .success bdaddr → second ≠ .attempt bdaddr
  running : ∀ (number : Nat) (process : Process), data.processes[number]? = some process →
    process.infoType = .gatt → process.status = .running → GattAwaited number process.bdaddr data
  waited : ∀ process ∈ data.processes, ∀ retCode,
    process.waitResult = some (.returned retCode) → process.status ≠ .running

/-- What the whole run only adds to. -/
structure GattGrows (before after : Data) : Prop where
  processes : ∀ (number : Nat) (process : Process), before.processes[number]? = some process →
    ∃ later : Process, after.processes[number]? = some later ∧
      later.infoType = process.infoType ∧ later.bdaddr = process.bdaddr ∧
      (later.status = .running → process.status = .running)
  success : ∀ bdaddr ∈ before.successBdaddrs .gatt, bdaddr ∈ after.successBdaddrs .gatt

/-- What a step of the given thread, or of the outside world, does to the log and
to the list of gatttool processes. -/
inductive GattChange (before after : Data) : Option ThreadId → Prop where
  | quiet {author} (log : after.logs .gattprint = before.logs .gattprint)
      (gatts : after.gatts = before.gatts) : GattChange before after author
  | attempt (bdaddr : Text) (idle : GattIdle before)
      (log : after.logs .gattprint = before.logs .gattprint ++ [.attempt bdaddr])
      (gatts : after.gatts = before.gatts) : GattChange before after (some (.worker .ble))
  | launch (bdaddr : Text) (opened : GattOpened bdaddr before)
      (log : after.logs .gattprint = before.logs .gattprint)
      (gatts : after.gatts = before.gatts ++ [(before.processes.length, bdaddr)]) :
      GattChange before after (some (.worker .ble))
  | outcome (number : Nat) (bdaddr : Text) (line : LogLine)
      (awaited : GattAwaited number bdaddr before) (kind : IsOutcome bdaddr line)
      (log : after.logs .gattprint = before.logs .gattprint ++ [line])
      (gatts : after.gatts = before.gatts) : GattChange before after (some (.tool number))
  | output (number : Nat) (bdaddr text : Text) (awaited : GattAwaited number bdaddr before)
      (log : after.logs .gattprint = before.logs .gattprint ++ [.output number text])
      (gatts : after.gatts = before.gatts) : GattChange before after none

structure GattStep (author : Option ThreadId) (before after : Data) : Prop where
  grows : GattGrows before after
  threads : author ≠ some (.worker .ble) →
    after.externalToolThreads .ble = before.externalToolThreads .ble
  change : GattChange before after author

theorem GattGrows.refl (data : Data) : GattGrows data data :=
  ⟨fun _ process found => ⟨process, found, rfl, rfl, id⟩, fun _ => id⟩

theorem GattStep.refl (author : Option ThreadId) (data : Data) : GattStep author data data :=
  ⟨.refl data, fun _ => rfl, .quiet rfl rfl⟩

/-- At rest the BLE worker leaves only finished blocks, and so does the thread of
a process once it has ended. -/
def GattRest : ThreadId → Data → Prop
  | .worker .ble, data => GattIdle data
  | .tool number, data => GattClosed none number data
  | _, _ => True

def GattDead : ThreadId → Data → Prop
  | .tool number, data => GattClosed none number data
  | _, _ => True

def gattContract : LauncherContract :=
  Contract.ofSteps GattInv (fun thread => GattStep (some thread)) (GattStep none) GattRest GattDead
    LaunchesSucceed fun thread => GattStep.refl (some thread)

/-! ## How the phases follow each other -/

section Steps

variable {author : Option ThreadId} {before after : Data} {number : Nat} {bdaddr : Text}

private theorem gattScan_same (log : after.logs .gattprint = before.logs .gattprint)
    (gatts : after.gatts = before.gatts) : after.gattScan = before.gattScan := by
  unfold Data.gattScan
  rw [log, gatts]

private theorem gattScan_line {state next : Scan} {line : LogLine}
    (scanned : before.gattScan = some state)
    (accepted : state.line before.gatts line = some next)
    (log : after.logs .gattprint = before.logs .gattprint ++ [line])
    (gatts : after.gatts = before.gatts) : after.gattScan = some next := by
  unfold Data.gattScan at *
  rw [log, gatts]
  exact scan_next scanned accepted

private theorem gattScan_launch {state : Scan} {launched : Nat × Text}
    (scanned : before.gattScan = some state)
    (log : after.logs .gattprint = before.logs .gattprint)
    (gatts : after.gatts = before.gatts ++ [launched]) : after.gattScan = some state := by
  unfold Data.gattScan at *
  rw [log, gatts]
  exact scan_launch launched scanned

private theorem known_of_log {missing : Option Text} (known : SuccessKnown missing before)
    (grows : GattGrows before after)
    (log : ∀ bdaddr, .success bdaddr ∈ after.logs .gattprint →
      .success bdaddr ∈ before.logs .gattprint) : SuccessKnown missing after :=
  fun other member => (known other (log other member)).imp (grows.success other) id

/-- Another line than SUCCESS. -/
private theorem known_of_line {missing : Option Text} {line : LogLine}
    (known : SuccessKnown missing before) (grows : GattGrows before after)
    (log : after.logs .gattprint = before.logs .gattprint ++ [line])
    (other : ∀ bdaddr, line ≠ .success bdaddr) : SuccessKnown missing after := by
  refine known_of_log known grows fun bdaddr member => ?_
  rw [log] at member
  exact (List.mem_append.mp member).resolve_right fun last =>
    other bdaddr (List.mem_singleton.mp last).symm

theorem GattIdle.attempt (idle : GattIdle before) (grows : GattGrows before after)
    (log : after.logs .gattprint = before.logs .gattprint ++ [.attempt bdaddr])
    (gatts : after.gatts = before.gatts) : GattOpened bdaddr after :=
  ⟨by rw [gatts]; exact gattScan_line idle.scanned rfl log gatts,
    known_of_line idle.known grows log (by simp)⟩

theorem GattOpened.launch (opened : GattOpened bdaddr before) (grows : GattGrows before after)
    (log : after.logs .gattprint = before.logs .gattprint)
    (gatts : after.gatts = before.gatts ++ [(number, bdaddr)]) : GattAwaited number bdaddr after :=
  ⟨by simpa [gatts] using gattScan_launch opened.scanned log gatts, by simp [gatts],
    known_of_log opened.known grows fun _ member => by rwa [log] at member⟩

theorem GattAwaited.output {text : Text} (awaited : GattAwaited number bdaddr before)
    (grows : GattGrows before after)
    (log : after.logs .gattprint = before.logs .gattprint ++ [.output number text])
    (gatts : after.gatts = before.gatts) : GattAwaited number bdaddr after := by
  have last := awaited.last
  rw [List.getLast?_eq_getElem?] at last
  exact ⟨by rw [gatts]; exact gattScan_line awaited.scanned (by simp [Scan.line, last]) log gatts,
    by rw [gatts]; exact awaited.last, known_of_line awaited.known grows log (by simp)⟩

theorem GattAwaited.closed_scan {line : LogLine} (awaited : GattAwaited number bdaddr before)
    (kind : IsOutcome bdaddr line)
    (log : after.logs .gattprint = before.logs .gattprint ++ [line])
    (gatts : after.gatts = before.gatts) :
    after.gattScan = some ⟨after.gatts.length, none⟩ := by
  rw [gatts]
  exact gattScan_line awaited.scanned (Scan.line_outcome kind) log gatts

theorem GattIdle.quiet (idle : GattIdle before) (grows : GattGrows before after)
    (log : after.logs .gattprint = before.logs .gattprint) (gatts : after.gatts = before.gatts) :
    GattIdle after :=
  ⟨by rw [gattScan_same log gatts, gatts]; exact idle.scanned,
    known_of_log idle.known grows fun _ member => by rwa [log] at member⟩

theorem GattOpened.quiet (opened : GattOpened bdaddr before) (grows : GattGrows before after)
    (log : after.logs .gattprint = before.logs .gattprint) (gatts : after.gatts = before.gatts) :
    GattOpened bdaddr after :=
  ⟨by rw [gattScan_same log gatts, gatts]; exact opened.scanned,
    known_of_log opened.known grows fun _ member => by rwa [log] at member⟩

theorem GattAwaited.quiet (awaited : GattAwaited number bdaddr before)
    (grows : GattGrows before after) (log : after.logs .gattprint = before.logs .gattprint)
    (gatts : after.gatts = before.gatts) : GattAwaited number bdaddr after :=
  ⟨by rw [gattScan_same log gatts, gatts]; exact awaited.scanned, by rw [gatts]; exact awaited.last,
    known_of_log awaited.known grows fun _ member => by rwa [log] at member⟩

theorem gattCurrent_same (log : after.logs .gattprint = before.logs .gattprint)
    (gatts : after.gatts = before.gatts) : GattCurrent number after ↔ GattCurrent number before := by
  unfold GattCurrent
  rw [gattScan_same log gatts, gatts]

/-- While every block is finished, only the BLE worker can touch the log. -/
theorem GattIdle.undisturbed (idle : GattIdle before) (step : GattStep author before after)
    (other : author ≠ some (.worker .ble)) :
    after.logs .gattprint = before.logs .gattprint ∧ after.gatts = before.gatts := by
  cases step.change with
  | quiet log gatts => exact ⟨log, gatts⟩
  | attempt => exact absurd rfl other
  | launch => exact absurd rfl other
  | outcome _ _ _ awaited => exact absurd idle awaited.not_idle
  | output _ _ _ awaited => exact absurd idle awaited.not_idle

theorem GattOpened.undisturbed (opened : GattOpened bdaddr before)
    (step : GattStep author before after) (other : author ≠ some (.worker .ble)) :
    after.logs .gattprint = before.logs .gattprint ∧ after.gatts = before.gatts := by
  cases step.change with
  | quiet log gatts => exact ⟨log, gatts⟩
  | attempt => exact absurd rfl other
  | launch => exact absurd rfl other
  | outcome _ _ _ awaited => exact absurd opened awaited.not_opened
  | output _ _ _ awaited => exact absurd opened awaited.not_opened

/-- The last block stays the last one until the BLE worker opens another. -/
theorem GattCurrent.step (current : GattCurrent number before)
    (step : GattStep author before after) (other : author ≠ some (.worker .ble)) :
    GattCurrent number after := by
  obtain ⟨address, opened, scanned, last⟩ := current
  cases step.change with
  | quiet log gatts => exact (gattCurrent_same log gatts).mpr ⟨address, opened, scanned, last⟩
  | attempt => exact absurd rfl other
  | launch => exact absurd rfl other
  | outcome _ _ _ awaited kind log gatts =>
      exact ⟨address, none, awaited.closed_scan kind log gatts, by rw [gatts]; exact last⟩
  | output _ _ _ awaited log gatts =>
      have after := awaited.output step.grows log gatts
      exact ⟨address, some _, after.scanned, by rw [gatts]; exact last⟩

/-- As long as no other thread can finish the block of this process, it is
awaited from its launch on. -/
theorem awaited_step (awaits : ∀ bdaddr, (number, bdaddr) ∈ before.gatts →
      GattAwaited number bdaddr before) (step : GattStep author before after)
    (other : author ≠ some (.tool number)) :
    ∀ bdaddr, (number, bdaddr) ∈ after.gatts → GattAwaited number bdaddr after := by
  intro bdaddr member
  cases step.change with
  | quiet log gatts => exact (awaits bdaddr (gatts ▸ member)).quiet step.grows log gatts
  | attempt _ idle _ gatts =>
      exact absurd idle (awaits bdaddr (gatts ▸ member)).not_idle
  | launch address opened log gatts =>
      rw [gatts] at member
      rcases List.mem_append.mp member with old | new
      · exact absurd opened (awaits bdaddr old).not_opened
      · obtain ⟨rfl, rfl⟩ : number = before.processes.length ∧ bdaddr = address := by
          simpa using new
        exact opened.launch step.grows log gatts
  | outcome tool address line awaited kind log gatts =>
      obtain ⟨rfl, _⟩ := awaited.unique (awaits bdaddr (gatts ▸ member))
      exact absurd rfl other
  | output tool address text awaited log gatts =>
      obtain ⟨rfl, rfl⟩ := awaited.unique (awaits bdaddr (gatts ▸ member))
      exact awaited.output step.grows log gatts

theorem GattClosed.step {missing : Option Text} (closed : GattClosed missing number before)
    (step : GattStep author before after) (other : author ≠ some (.tool number)) :
    GattClosed missing number after := by
  have started : number < after.processes.length := by
    obtain ⟨later, found, _⟩ := step.grows.processes number _ (List.getElem?_eq_getElem closed.started)
    exact (List.getElem?_eq_some_iff.mp found).1
  refine ⟨started, fun current => ?_⟩
  cases step.change with
  | quiet log gatts =>
      obtain ⟨scanned, known⟩ := closed.finished ((gattCurrent_same log gatts).mp current)
      exact ⟨by rw [gattScan_same log gatts, gatts]; exact scanned,
        known_of_log known step.grows fun _ member => by rwa [log] at member⟩
  | attempt _ idle log gatts =>
      exact absurd current (idle.attempt step.grows log gatts).not_current
  | launch _ opened log gatts =>
      have same := current.unique (opened.launch step.grows log gatts)
      have inside := closed.started
      omega
  | outcome tool _ _ awaited _ log gatts =>
      obtain ⟨_, _, _, last⟩ := current
      rw [gatts] at last
      obtain ⟨rfl, _⟩ : tool = number ∧ _ := by simpa using awaited.last.symm.trans last
      exact absurd rfl other
  | output tool _ _ awaited log gatts =>
      obtain ⟨_, _, _, last⟩ := current
      rw [gatts] at last
      obtain ⟨rfl, _⟩ : tool = number ∧ _ := by simpa using awaited.last.symm.trans last
      exact absurd (awaited.scanned.symm.trans (closed.finished awaited.current).1) (by simp)

end Steps

/-! ## Steps that leave the log alone -/

/-- What such a step may do to the processes: launch another tool, or end a
process or its wait. -/
inductive ProcessStep (before : List Process) : List Process → Prop where
  | same : ProcessStep before before
  | launch (process : Process) (other : process.infoType ≠ .gatt)
      (waits : process.waitResult = none) : ProcessStep before (before ++ [process])
  | modify (number : Nat) (update : Process → Process)
      (infoType : ∀ process, before[number]? = some process →
        (update process).infoType = process.infoType)
      (bdaddr : ∀ process, before[number]? = some process →
        (update process).bdaddr = process.bdaddr)
      (running : ∀ process, before[number]? = some process →
        (update process).status = .running → process.status = .running)
      (waited : ∀ process, before[number]? = some process → ∀ retCode,
        (update process).waitResult = some (.returned retCode) →
        (process.waitResult = some (.returned retCode) → process.status ≠ .running) →
        (update process).status ≠ .running) :
      ProcessStep before (before.modify number update)

namespace ProcessStep

variable {before after : List Process} {number : Nat} {process later : Process}

theorem forward (step : ProcessStep before after) (found : before[number]? = some process) :
    ∃ later, after[number]? = some later ∧ later.infoType = process.infoType ∧
      later.bdaddr = process.bdaddr ∧ (later.status = .running → process.status = .running) := by
  cases step with
  | same => exact ⟨process, found, rfl, rfl, id⟩
  | launch other =>
      have inside := (List.getElem?_eq_some_iff.mp found).1
      exact ⟨process, by rw [List.getElem?_append_left inside, found], rfl, rfl, id⟩
  | modify index update infoType bdaddr running =>
      by_cases here : index = number
      · subst here
        exact ⟨update process, by simp [found], infoType process found,
          bdaddr process found, running process found⟩
      · exact ⟨process, by simp [found, here], rfl, rfl, id⟩

theorem backward (step : ProcessStep before after) (found : after[number]? = some later) :
    later.infoType ≠ .gatt ∧ later.waitResult = none ∨
      ∃ process, before[number]? = some process ∧ later.infoType = process.infoType ∧
        later.bdaddr = process.bdaddr ∧
        (later.status = .running → process.status = .running) ∧
        ∀ retCode, later.waitResult = some (.returned retCode) →
          (process.waitResult = some (.returned retCode) → process.status ≠ .running) →
          later.status ≠ .running := by
  cases step with
  | same => exact .inr ⟨later, found, rfl, rfl, id, fun _ waited settled => settled waited⟩
  | launch launched other waits =>
      rcases Nat.lt_or_ge number before.length with inside | outside
      · rw [List.getElem?_append_left inside] at found
        exact .inr ⟨later, found, rfl, rfl, id, fun _ waited settled => settled waited⟩
      · rw [List.getElem?_append_right outside] at found
        obtain ⟨_, rfl⟩ := List.getElem?_eq_some_iff.mp found
        exact .inl ⟨by simpa using other, by simpa using waits⟩
  | modify index update infoType bdaddr running waited =>
      rw [List.getElem?_modify] at found
      obtain ⟨process, foundBefore, rfl⟩ := Option.map_eq_some_iff.mp found
      refine .inr ⟨process, foundBefore, ?_⟩
      by_cases here : index = number
      · subst here
        rw [if_pos rfl]
        exact ⟨infoType process foundBefore, bdaddr process foundBefore,
          running process foundBefore, waited process foundBefore⟩
      · rw [if_neg here]
        exact ⟨rfl, rfl, id, fun _ found settled => settled found⟩

theorem gatts (step : ProcessStep before after) : gattProcesses after = gattProcesses before := by
  cases step with
  | same => rfl
  | launch process other => simp [gattProcesses_append, other]
  | modify number update infoType bdaddr => exact gattProcesses_modify _ _ _ infoType bdaddr

end ProcessStep

/-- A step that leaves `GATTprint.log` alone and launches no gatttool. -/
structure Silent (before after : Data) : Prop where
  log : after.logs .gattprint = before.logs .gattprint
  success : ∀ bdaddr ∈ before.successBdaddrs .gatt, bdaddr ∈ after.successBdaddrs .gatt
  processes : ProcessStep before.processes after.processes

namespace Silent

variable {before after : Data} {held : List Lock} {bdaddr : Text} {radio : Radio}

theorem refl (data : Data) : Silent data data := ⟨rfl, fun _ => id, .same⟩

theorem grows (silent : Silent before after) : GattGrows before after :=
  ⟨fun _ _ found => silent.processes.forward found, silent.success⟩

theorem invariant (silent : Silent before after) (inv : GattInv before) : GattInv after where
  scanned := by
    rw [gattScan_same silent.log silent.processes.gatts]
    exact inv.scanned
  noRetry := by
    rw [silent.log]
    exact inv.noRetry
  running := by
    intro number later found gatt running
    rcases silent.processes.backward found with ⟨other, _⟩ | ⟨process, foundBefore, same, address,
      ran, _⟩
    · exact absurd gatt other
    · rw [address]
      exact (inv.running number process foundBefore (same ▸ gatt) (ran running)).quiet silent.grows
        silent.log silent.processes.gatts
  waited := by
    intro later member retCode returned
    obtain ⟨number, found⟩ := List.mem_iff_getElem?.mp member
    rcases silent.processes.backward found with ⟨_, waits⟩ | ⟨process, foundBefore, _, _, _, settled⟩
    · simp [waits] at returned
    · exact settled retCode returned
        (inv.waited process (List.mem_of_getElem? foundBefore) retCode)

theorem step (silent : Silent before after) {author : Option ThreadId}
    (threads : author ≠ some (.worker .ble) →
      after.externalToolThreads .ble = before.externalToolThreads .ble) :
    GattStep author before after :=
  ⟨silent.grows, threads, .quiet silent.log silent.processes.gatts⟩

theorem of_same (log : after.logs .gattprint = before.logs .gattprint)
    (success : after.successBdaddrs = before.successBdaddrs)
    (processes : after.processes = before.processes) : Silent before after :=
  ⟨log, fun _ member => by rwa [success], by rw [processes]; exact .same⟩

theorem of_command {asked : Command} (step : CommandStep held asked before after) :
    Silent before after ∧ after.externalToolThreads .ble = before.externalToolThreads .ble := by
  cases step <;> exact ⟨of_same rfl rfl rfl, rfl⟩

theorem of_sort (step : SortStep radio before after) : Silent before after := by
  cases step <;> exact of_same rfl rfl rfl

theorem of_delete (step : DeleteStep radio bdaddr held before after) : Silent before after := by
  cases step <;> exact of_same rfl rfl rfl

theorem of_loop (step : LoopStep radio bdaddr held before after) : Silent before after := by
  cases step with
  | delete step => exact of_delete step
  | _ => exact of_same rfl rfl rfl

theorem of_startThread (data : Data) (number : Nat) : Silent data (data.startThread number) :=
  ⟨rfl, fun _ => id, .modify _ _ (fun _ _ => rfl) (fun _ _ => rfl) (fun _ _ => id)
    fun _ _ _ waited settled => settled waited⟩

theorem of_launch {infoType : InfoType} (step : LaunchStep infoType bdaddr before after)
    (other : infoType ≠ .gatt) : Silent before after := by
  cases step with
  | same => exact refl before
  | launch => exact ⟨rfl, fun _ => id, .launch _ other rfl⟩
  | startThread => exact of_startThread before _
  | keepThread => exact of_same rfl rfl rfl

theorem of_stage {infoType : InfoType} (step : StageStep infoType bdaddr held before after)
    (other : infoType ≠ .gatt) : Silent before after := by
  cases step with
  | delete step => exact of_delete step
  | attempt logged =>
      refine of_same ?_ rfl rfl
      cases infoType <;> simp_all [InfoType.logFile]
      all_goals subst logged; rfl
  | launch step => exact of_launch step other

/-- The BTC worker never touches the log of the BLE one. -/
theorem of_btcWorker (step : WorkerStep .btc held before after) :
    Silent before after ∧ after.externalToolThreads .ble = before.externalToolThreads .ble := by
  cases step with
  | sort step => exact ⟨of_sort step, by cases step <;> rfl⟩
  | loop step =>
      refine ⟨of_loop step, ?_⟩
      cases step with
      | delete step => cases step <;> rfl
      | _ => rfl
  | collect step =>
      cases step with
      | same => exact ⟨refl before, rfl⟩
      | countAttempt => exact ⟨of_same rfl rfl rfl, rfl⟩
      | stage own step =>
          refine ⟨of_stage step (by rintro rfl; simp [InfoType.radio] at own), ?_⟩
          cases step with
          | delete step => cases step <;> rfl
          | attempt => rfl
          | launch step => cases step <;> simp [own]
  | unpark => exact ⟨of_same rfl rfl rfl, rfl⟩
  | retrack => exact ⟨of_same rfl rfl rfl, rfl⟩

theorem of_kill (data : Data) (number : Nat) :
    Silent data (data.modifyProcess number Process.kill) :=
  ⟨rfl, fun _ => id, .modify _ _ (fun _ _ => rfl) (fun _ _ => rfl)
    (fun process _ running => absurd running process.kill_status)
    fun process _ _ _ _ => process.kill_status⟩

/-- The thread of a process leaves the log alone, the outcome of a gatttool apart. -/
theorem of_tool {number : Nat} {process : Process} (step : ToolStep number process held before after)
    (other : process.infoType ≠ .gatt) :
    Silent before after ∧ after.externalToolThreads .ble = before.externalToolThreads .ble := by
  cases step with
  | kill => exact ⟨of_kill before number, rfl⟩
  | outcome logged =>
      refine ⟨of_same ?_ rfl rfl, rfl⟩
      cases infoType : process.infoType <;> simp_all [InfoType.logFile]
      all_goals subst logged; rfl
  | succeed =>
      exact ⟨⟨rfl, fun _ member => by simp; grind, .same⟩, rfl⟩
  | delete step => exact ⟨of_delete step, by cases step <;> rfl⟩

end Silent

/-! ## Stable assertions -/

section Stable

variable {thread : ThreadId} {held : List Lock} {number : Nat} {bdaddr : Text}

private theorem kept_stable {assertion : Data → Prop}
    (kept : ∀ author before after, GattStep author before after → author ≠ some thread →
      assertion before → assertion after) : gattContract.Stable thread held assertion := by
  refine Contract.stable_ofSteps fun before after interference holds => ?_
  obtain ⟨_, _, step | ⟨other, different, step⟩⟩ := interference
  · exact kept none before after step (by simp) holds
  · exact kept (some other) before after step (by simpa using different) holds

private theorem fact_stable (fact : Prop) : gattContract.Stable thread held fun _ => fact :=
  Contract.stable_const _ _ _ _

private theorem idle_stable : gattContract.Stable (.worker .ble) held GattIdle := by
  refine kept_stable fun author before after step other idle => ?_
  obtain ⟨log, gatts⟩ := idle.undisturbed step other
  exact idle.quiet step.grows log gatts

/-- Every block is finished, and the address has no SUCCESS line. -/
private def GattFresh (bdaddr : Text) (data : Data) : Prop :=
  GattIdle data ∧ .success bdaddr ∉ data.logs .gattprint

private theorem fresh_stable : gattContract.Stable (.worker .ble) held (GattFresh bdaddr) := by
  refine kept_stable fun author before after step other fresh => ?_
  obtain ⟨log, gatts⟩ := fresh.1.undisturbed step other
  exact ⟨fresh.1.quiet step.grows log gatts, by rw [log]; exact fresh.2⟩

private theorem opened_stable :
    gattContract.Stable (.worker .ble) held (GattOpened bdaddr) := by
  refine kept_stable fun author before after step other opened => ?_
  obtain ⟨log, gatts⟩ := opened.undisturbed step other
  exact opened.quiet step.grows log gatts

private theorem current_stable :
    gattContract.Stable (.worker .ble) held (GattCurrent number) :=
  kept_stable fun _ _ _ step other current => current.step step other

/-- Nothing is to be waited for, or one of these processes. -/
private def GattJoining (numbers : List Nat) (data : Data) : Prop :=
  GattIdle data ∨ ∃ number ∈ numbers, GattCurrent number data

private theorem joining_stable (numbers : List Nat) :
    gattContract.Stable (.worker .ble) held (GattJoining numbers) := by
  refine kept_stable fun author before after step other joining => ?_
  refine joining.imp (fun idle => ?_) fun ⟨number, member, current⟩ =>
    ⟨number, member, current.step step other⟩
  obtain ⟨log, gatts⟩ := idle.undisturbed step other
  exact idle.quiet step.grows log gatts

/-- Nothing is to be waited for, or a process that the worker has kept. -/
private def GattKept (data : Data) : Prop := GattJoining (data.externalToolThreads .ble) data

private theorem gattKept_stable : gattContract.Stable (.worker .ble) held GattKept := by
  refine kept_stable fun author before after step other kept => ?_
  unfold GattKept
  rw [step.threads other]
  refine kept.imp (fun idle => ?_) fun ⟨number, member, current⟩ =>
    ⟨number, member, current.step step other⟩
  obtain ⟨log, gatts⟩ := idle.undisturbed step other
  exact idle.quiet step.grows log gatts

private theorem awaited_stable :
    gattContract.Stable (.tool number) held (GattAwaited number bdaddr) := by
  refine kept_stable fun author before after step other awaited => ?_
  refine awaited_step (fun address member => ?_) step other bdaddr ?_
  · obtain rfl := gatts_unique awaited.mem member
    exact awaited
  · obtain ⟨process, found, gatt, address⟩ := mem_gattProcesses.mp awaited.mem
    obtain ⟨later, foundLater, sameType, sameAddress, _⟩ := step.grows.processes number process found
    exact mem_gattProcesses.mpr ⟨later, foundLater, sameType.trans gatt, sameAddress.trans address⟩

private theorem closed_stable (missing : Option Text) :
    gattContract.Stable (.tool number) held (GattClosed missing number) :=
  kept_stable fun _ _ _ step other closed => closed.step step other

/-- The process is launched and, if it is a gatttool, awaited. -/
private def Launched (number : Nat) (infoType : InfoType) (data : Data) : Prop :=
  ∃ process, data.processes[number]? = some process ∧ process.infoType = infoType

private theorem launched_stable (infoType : InfoType) :
    gattContract.Stable thread held (Launched number infoType) := by
  refine kept_stable fun author before after step _ launched => ?_
  obtain ⟨process, found, same⟩ := launched
  obtain ⟨later, foundLater, sameType, _⟩ := step.grows.processes number process found
  exact ⟨later, foundLater, sameType.trans same⟩

/-- The process is over. -/
private def Ended (number : Nat) (data : Data) : Prop :=
  ∃ process, data.processes[number]? = some process ∧ process.status ≠ .running

private theorem ended_stable : gattContract.Stable thread held (Ended number) := by
  refine kept_stable fun author before after step _ ended => ?_
  obtain ⟨process, found, finished⟩ := ended
  obtain ⟨later, foundLater, _, _, running⟩ := step.grows.processes number process found
  exact ⟨later, foundLater, fun runs => finished (running runs)⟩

end Stable

/-! ## Programs that leave the log alone -/

section Programs

variable {thread : ThreadId} {held : List Lock} {failed pre : Data → Prop} {α : Type}
variable {shape : List Lock → Data → Data → Prop}

private theorem silent_frame {program : Code α} (within : program.Within shape held held)
    (silent : ∀ now before after, shape now before after → Silent before after ∧
      (thread ≠ .worker .ble → after.externalToolThreads .ble = before.externalToolThreads .ble))
    (stable : gattContract.Stable thread held pre)
    (keeps : ∀ now before after, shape now before after → pre before → pre after)
    (failing : ∀ data, pre data → failed data) :
    Triple gattContract thread held failed pre program fun _ => pre := by
  refine Triple.frame within stable (fun now before after _ inv holds step _ => ?_)
    (fun _ _ _ _ _ free => free) fun _ _ holds => failing _ holds
  obtain ⟨quiet, threads⟩ := silent now before after step
  exact ⟨quiet.invariant inv, quiet.step fun other => threads fun same => other (by rw [same]),
    keeps now before after step holds⟩

/-- A step of the BLE worker that is not on the log. -/
private theorem silent_worker {program : Code α} (within : program.Within shape held held)
    (silent : ∀ now before after, shape now before after → Silent before after)
    (stable : gattContract.Stable (.worker .ble) held pre)
    (keeps : ∀ before after, Silent before after → pre before → pre after) :
    Triple gattContract (.worker .ble) held (fun _ => True) pre program fun _ => pre :=
  silent_frame within (fun now before after step =>
      ⟨silent now before after step, fun other => absurd rfl other⟩) stable
    (fun now before after step => keeps before after (silent now before after step))
    fun _ _ => trivial

private theorem Silent.idle {before after : Data} (silent : Silent before after)
    (idle : GattIdle before) : GattIdle after :=
  idle.quiet silent.grows silent.log silent.processes.gatts

private theorem Silent.fresh {bdaddr : Text} {before after : Data} (silent : Silent before after)
    (fresh : GattFresh bdaddr before) : GattFresh bdaddr after :=
  ⟨silent.idle fresh.1, by rw [silent.log]; exact fresh.2⟩

private theorem Silent.current {number : Nat} {before after : Data} (silent : Silent before after)
    (current : GattCurrent number before) : GattCurrent number after :=
  (gattCurrent_same silent.log silent.processes.gatts).mpr current

private theorem Silent.closed {missing : Option Text} {number : Nat} {before after : Data}
    (silent : Silent before after) (closed : GattClosed missing number before) :
    GattClosed missing number after := by
  have step : GattStep (some (.worker .ble)) before after :=
    silent.step fun other => absurd rfl other
  exact closed.step step (by simp)

end Programs

/-! ## The thread of a process -/

section Tool

variable {number : Nat} {bdaddr : Text} {held : List Lock}

/-- A program of the thread of a process, which leaves a finished block even when
it raises. -/
private abbrev ToolTriple {α : Type} (number : Nat) (held : List Lock) (pre : Data → Prop)
    (program : Code α) (post : α → Data → Prop) : Prop :=
  Triple gattContract (.tool number) held (GattClosed none number) pre program post

/-- The outcome of an ended process finishes its block. -/
private theorem outcome_triple {line : LogLine} {missing : Option Text}
    (kind : IsOutcome bdaddr line) (named : ∀ other, line = .success other → missing = some other) :
    ToolTriple number held (fun data => GattAwaited number bdaddr data ∧ Ended number data)
      (Code.change fun data => data.appendLog .gattprint line)
      fun _ => GattClosed missing number := by
  refine Rule.change (awaited_stable.and ended_stable) (closed_stable missing) ?_
  rintro data inv ⟨awaited, process, found, finished⟩ _
  set after := data.appendLog .gattprint line
  have log : after.logs .gattprint = data.logs .gattprint ++ [line] := by simp [after]
  have gatts : after.gatts = data.gatts := rfl
  have scanned := awaited.closed_scan kind log gatts
  have grows : GattGrows data after :=
    ⟨fun _ process found => ⟨process, found, rfl, rfl, id⟩, fun _ => id⟩
  refine ⟨⟨by simp [scanned], ?_, fun other later foundLater gatt running => ?_, inv.waited⟩,
    ⟨grows, fun _ => rfl, .outcome number bdaddr line awaited kind log gatts⟩,
    ⟨(List.getElem?_eq_some_iff.mp found).1, fun _ => ⟨scanned, fun other member => ?_⟩⟩⟩
  · rw [log, List.pairwise_append]
    refine ⟨inv.noRetry, List.pairwise_singleton _ _, fun first _ second member other _ => ?_⟩
    obtain rfl := List.mem_singleton.mp member
    rcases kind with rfl | ⟨_, rfl⟩ | rfl <;> simp
  · obtain ⟨rfl, _⟩ := (inv.running other later foundLater gatt running).unique awaited
    obtain rfl := Option.some.inj (found.symm.trans foundLater)
    exact absurd running finished
  · rw [log] at member
    rcases List.mem_append.mp member with old | new
    · exact .inl ((awaited.known other old).resolve_right (by simp))
    · exact .inr (named other (List.mem_singleton.mp new).symm)

private theorem recordSuccess_triple :
    ToolTriple number held (GattClosed (some bdaddr) number)
      (Code.change fun data => data.setSuccess .gatt bdaddr) fun _ => GattClosed none number := by
  refine Rule.change (closed_stable _) (closed_stable _) fun data inv closed _ => ?_
  have silent : Silent data (data.setSuccess .gatt bdaddr) :=
    ⟨rfl, fun _ member => by simp; grind, .same⟩
  refine ⟨silent.invariant inv, silent.step fun _ => rfl, closed.started, fun current => ?_⟩
  obtain ⟨scanned, known⟩ := closed.finished ((gattCurrent_same rfl rfl).mp current)
  refine ⟨scanned, fun other member => .inl ?_⟩
  rcases known other member with present | same
  · simp [present]
  · obtain rfl : bdaddr = other := Option.some.inj same
    simp

private theorem deleteIfAllDone_triple {radio : Radio} :
    ToolTriple number held (GattClosed none number) (deleteIfAllDone radio bdaddr)
      fun _ => GattClosed none number :=
  silent_frame deleteIfAllDone_within
    (fun _ _ _ step => ⟨.of_delete step, fun _ => by cases step <;> rfl⟩) (closed_stable none)
    (fun _ _ _ step closed => (Silent.of_delete step).closed closed) fun _ closed => closed

private theorem report_triple (retCode : Int) :
    ToolTriple number [] (fun data => GattAwaited number bdaddr data ∧ Ended number data)
      (ApplicationThread.report .gatt bdaddr retCode) fun _ => GattClosed none number := by
  refine Triple.ite (fun _ => ?_) fun _ => outcome_triple (.inr (.inl ⟨retCode, rfl⟩)) (by simp)
  refine Triple.bind (fun _ => GattClosed (some bdaddr) number)
    (outcome_triple (.inl rfl) fun other same => by simpa using same) fun _ => ?_
  exact Triple.withBareLock (fun _ => trivial) (closed_stable _)
    (Triple.bind _ recordSuccess_triple fun _ => deleteIfAllDone_triple)
    (fun _ => closed_stable _) (closed_stable _)

private theorem runGatt_triple {process : Process} (gatt : process.infoType = .gatt) :
    ToolTriple number [] (GattAwaited number process.bdaddr)
      (ApplicationThread.runProcess number process) fun _ => GattClosed none number := by
  refine Triple.bind (fun waited data => waited ≠ none ∧ GattAwaited number process.bdaddr data ∧
    ∀ retCode, waited = some (.returned retCode) → Ended number data)
    (Triple.await awaited_stable (fun waited => ?_) fun data inv awaited answered => ?_)
    fun waited => Triple.of_pure fun answered => ?_
  · refine (fact_stable _).and (awaited_stable.and ?_)
    exact fun before after ended beforeInv afterInv relied retCode same =>
      ended_stable before after (ended retCode same) beforeInv afterInv relied
  · obtain ⟨current, found, waited⟩ := (Option.any_eq_true _ _).mp answered
    simp only [found, Option.bind_some]
    refine ⟨by simpa [Option.isSome_iff_ne_none] using waited, awaited, fun retCode same => ?_⟩
    exact ⟨current, found, inv.waited current (List.mem_of_getElem? found) retCode same⟩
  match waited with
  | some (.returned retCode) =>
      refine Triple.bind (fun running data => running = false ∧
        GattAwaited number process.bdaddr data ∧ Ended number data) ?_
        fun running => Triple.of_pure fun finished => ?_
      · refine Triple.weaken (Rule.look (awaited_stable.and ended_stable)
          (fun _ => (fact_stable _).and (awaited_stable.and ended_stable)) ?_)
          (fun _ _ holds => ⟨holds.1, holds.2 retCode rfl⟩) fun _ _ _ holds => holds
        rintro data _ ⟨awaited, current, found, finished⟩
        exact ⟨by simp [found, Process.isRunning, finished], awaited, current, found, finished⟩
      · subst finished
        rw [gatt]
        exact report_triple retCode
  | some .timeoutExpired =>
      refine Triple.bind
        (fun _ data => GattAwaited number process.bdaddr data ∧ Ended number data) ?_ fun _ => ?_
      · refine Triple.weaken (Rule.change awaited_stable (awaited_stable.and ended_stable)
          fun data inv awaited _ => ?_) (fun _ _ holds => holds.1) fun _ _ _ holds => holds
        have silent := Silent.of_kill data number
        obtain ⟨current, found, _⟩ := mem_gattProcesses.mp awaited.mem
        refine ⟨silent.invariant inv, silent.step fun _ => rfl,
          awaited.quiet silent.grows silent.log silent.processes.gatts, current.kill, ?_,
          current.kill_status⟩
        simp [found]
      · rw [gatt]
        exact outcome_triple (.inr (.inr rfl)) (by simp)
  | none => exact absurd rfl answered

private theorem runOther_triple {process : Process} (other : process.infoType ≠ .gatt) :
    ToolTriple number [] (Launched number process.infoType)
      (ApplicationThread.runProcess number process) fun _ => GattClosed none number := by
  have closes : ∀ data, Launched number process.infoType data → GattClosed none number data := by
    rintro data ⟨current, found, same⟩
    refine ⟨(List.getElem?_eq_some_iff.mp found).1, fun ⟨address, _, _, last⟩ => ?_⟩
    obtain ⟨launched, foundToo, gatt, _⟩ := mem_gattProcesses.mp (List.mem_of_getLast? last)
    obtain rfl := Option.some.inj (found.symm.trans foundToo)
    exact absurd (same.symm.trans gatt) other
  refine Triple.weaken (silent_frame runProcess_within (fun _ _ _ step => ?_)
    (launched_stable _) (fun _ before after step launched => ?_) closes) (fun _ _ holds => holds)
    fun _ data _ => closes data
  · exact ⟨(Silent.of_tool step other).1, fun _ => (Silent.of_tool step other).2⟩
  · obtain ⟨current, found, same⟩ := launched
    obtain ⟨later, foundLater, sameType, _⟩ :=
      (Silent.of_tool step other).1.processes.forward found
    exact ⟨later, foundLater, sameType.trans same⟩

private theorem run_triple :
    ToolTriple number [] (fun data => ∀ bdaddr, (number, bdaddr) ∈ data.gatts →
      GattAwaited number bdaddr data) (ApplicationThread.run number)
      fun _ => GattClosed none number := by
  refine Triple.bind (fun started data => ∃ process, started = some process ∧
    Launched number process.infoType data ∧
    (process.infoType = .gatt → GattAwaited number process.bdaddr data))
    (Triple.await (kept_stable fun _ _ _ step other awaits => awaited_step awaits step other)
      (fun started => ?_) fun data inv awaits started => ?_) fun started => ?_
  · rintro before after ⟨process, same, launched, awaited⟩ beforeInv afterInv relied
    exact ⟨process, same, launched_stable _ before after launched beforeInv afterInv relied,
      fun gatt => awaited_stable before after (awaited gatt) beforeInv afterInv relied⟩
  · obtain ⟨process, found, _⟩ := (Option.any_eq_true _ _).mp started
    exact ⟨process, found, ⟨process, found, rfl⟩, fun gatt =>
      awaits _ (mem_gattProcesses.mpr ⟨process, found, gatt, rfl⟩)⟩
  · cases started with
    | none => exact fun _ _ ⟨_, impossible, _⟩ => by simp at impossible
    | some process =>
        by_cases gatt : process.infoType = .gatt
        · refine (runGatt_triple gatt).weaken (fun data _ holds => ?_) fun _ _ _ holds => holds
          obtain ⟨_, same, _, awaited⟩ := holds
          obtain rfl := Option.some.inj same
          exact awaited gatt
        · refine (runOther_triple gatt).weaken (fun data _ holds => ?_) fun _ _ _ holds => holds
          obtain ⟨_, same, launched, _⟩ := holds
          obtain rfl := Option.some.inj same
          exact launched

end Tool

/-! ## The BLE worker -/

section Worker

variable {bdaddr : Text} {held : List Lock} {settings : Settings}

/-- A program of the BLE worker; it may raise anywhere. -/
private abbrev WorkerTriple {α : Type} (held : List Lock) (pre : Data → Prop) (program : Code α)
    (post : α → Data → Prop) : Prop :=
  Triple gattContract (.worker .ble) held (fun _ => True) pre program post

/-- An address without a SUCCESS line gets its ATTEMPT line. -/
private theorem attempt_triple :
    WorkerTriple held (GattFresh bdaddr)
      (Code.change fun data => data.appendLog .gattprint (.attempt bdaddr))
      fun _ => GattOpened bdaddr := by
  refine Rule.change fresh_stable opened_stable ?_
  rintro data inv ⟨idle, fresh⟩ _
  set after := data.appendLog .gattprint (.attempt bdaddr)
  have log : after.logs .gattprint = data.logs .gattprint ++ [.attempt bdaddr] := by simp [after]
  have gatts : after.gatts = data.gatts := rfl
  have grows : GattGrows data after :=
    ⟨fun _ process found => ⟨process, found, rfl, rfl, id⟩, fun _ => id⟩
  have opened := idle.attempt grows log gatts
  refine ⟨⟨by simp [opened.scanned], ?_, fun other process found gatt running => ?_, inv.waited⟩,
    ⟨grows, fun _ => rfl, .attempt bdaddr idle log gatts⟩, opened⟩
  · rw [log, List.pairwise_append]
    refine ⟨inv.noRetry, List.pairwise_singleton _ _, fun first there second member other same => ?_⟩
    obtain rfl := List.mem_singleton.mp member
    subst same
    intro again
    obtain rfl := LogLine.attempt.inj again
    exact fresh there
  · exact absurd idle (inv.running other process found gatt running).not_idle

/-- The launch gives the unfinished block its process. -/
private theorem launchApplication_triple (arguments : List Text) :
    WorkerTriple held (GattOpened bdaddr) (launchApplication .gatt bdaddr arguments)
      fun launched data => ∃ number, launched = some number ∧ GattCurrent number data := by
  refine Rule.exchange opened_stable (fun launched => ?_) fun data inv opened admitted => ?_
  · rintro before after ⟨number, same, current⟩ beforeInv afterInv relied
    exact ⟨number, same, current_stable before after current beforeInv afterInv relied⟩
  · have accepted : ¬ data.popenFails = true := fun refused => by
      have accepts := admitted.1
      rw [if_pos refused] at accepts
      simp [refused] at accepts
    rw [if_neg accepted, if_neg accepted]
    set after := data.launch .gatt bdaddr arguments
    have gatts : after.gatts = data.gatts ++ [(data.processes.length, bdaddr)] :=
      gattProcesses_append _ _
    have grows : GattGrows data after := by
      refine ⟨fun number process found => ⟨process, ?_, rfl, rfl, id⟩, fun _ => id⟩
      rw [List.getElem?_append_left (List.getElem?_eq_some_iff.mp found).1, found]
    have awaited := opened.launch grows rfl gatts
    refine ⟨⟨Option.isSome_iff_exists.mpr ⟨_, awaited.scanned⟩, inv.noRetry, fun number process found gatt running => ?_,
      fun process member retCode returned => ?_⟩, ⟨grows, fun _ => rfl,
        .launch bdaddr opened rfl gatts⟩, data.processes.length, rfl, awaited.current⟩
    · rcases Nat.lt_or_ge number data.processes.length with inside | outside
      · rw [List.getElem?_append_left inside] at found
        exact absurd opened (inv.running number process found gatt running).not_opened
      · rw [List.getElem?_append_right outside] at found
        obtain ⟨atEnd, rfl⟩ := List.getElem?_eq_some_iff.mp found
        obtain rfl : number = data.processes.length := by simp at atEnd; omega
        simpa using awaited
    · rcases List.mem_append.mp member with old | new
      · exact inv.waited process old retCode returned
      · obtain rfl := List.mem_singleton.mp new
        simp at returned

private theorem startThread_triple {number : Nat} :
    WorkerTriple held (GattCurrent number) (startThread number)
      fun started data => started = true ∧ GattCurrent number data := by
  refine Rule.exchange current_stable (fun _ => (fact_stable _).and current_stable)
    fun data inv current admitted => ?_
  have accepted : ¬ data.startFails = true := fun refused => by
    have accepts := admitted.2
    rw [if_pos refused] at accepts
    simp [refused] at accepts
  rw [if_neg accepted]
  have silent : Silent data (data.startThread number) := .of_startThread data number
  exact ⟨silent.invariant inv, silent.step fun _ => rfl, by simpa using accepted,
    silent.current current⟩

private theorem launchTool_triple (arguments : List Text) :
    WorkerTriple held (GattOpened bdaddr) (launchTool .gatt bdaddr arguments) fun _ => GattKept := by
  refine Triple.bind _ (launchApplication_triple arguments) fun launched => ?_
  cases launched with
  | none => exact fun _ _ ⟨_, impossible, _⟩ => by simp at impossible
  | some number =>
      refine Triple.bind (fun started data => started = true ∧ GattCurrent number data) ?_
        fun started => Triple.of_pure fun isStarted => ?_
      · refine startThread_triple.weaken (fun data _ holds => ?_) fun _ _ _ holds => holds
        obtain ⟨_, same, current⟩ := holds
        obtain rfl := Option.some.inj same
        exact current
      · subst isStarted
        refine Rule.change current_stable gattKept_stable fun data inv current _ => ?_
        have silent : Silent data (data.keepThread .ble number) := .of_same rfl rfl rfl
        refine ⟨silent.invariant inv, silent.step fun other => absurd rfl other, .inr ⟨number, ?_,
          silent.current current⟩⟩
        simp [InfoType.radio]

private theorem startGatt_triple :
    WorkerTriple held (GattFresh bdaddr) (startGatt bdaddr) fun _ => GattKept := by
  refine Triple.bind _ attempt_triple fun _ => Triple.bind (fun _ => GattOpened bdaddr) ?_
    fun stored => launchTool_triple _
  exact Rule.demand opened_stable (fun _ => opened_stable) (fact_stable _)
    fun data inv opened _ => ⟨inv, .refl _ _, fun _ _ => opened, fun _ => trivial⟩

private theorem kept_of_idle {data : Data} (idle : GattIdle data) : GattKept data := .inl idle

/-- An address whose success is known is not attempted again. -/
private theorem skipSubProcess_triple :
    WorkerTriple held GattIdle (skipSubProcess .gatt bdaddr)
      fun skipped data => (skipped = false → .success bdaddr ∉ data.logs .gattprint) ∧
        GattIdle data := by
  have stable : ∀ {held} (skipped : Bool), gattContract.Stable (.worker .ble) held fun data =>
      (skipped = false → .success bdaddr ∉ data.logs .gattprint) ∧ GattIdle data := by
    refine fun skipped => kept_stable fun author before after step other holds => ?_
    obtain ⟨log, gatts⟩ := holds.2.undisturbed step other
    exact ⟨fun visited => by rw [log]; exact holds.1 visited, holds.2.quiet step.grows log gatts⟩
  refine Triple.withBareLock (fun _ => trivial) idle_stable ?_ stable (fact_stable _)
  refine Triple.bind (fun found data => (found = false → .success bdaddr ∉ data.logs .gattprint) ∧
    GattIdle data) (Rule.look idle_stable stable fun data _ idle => ⟨fun missing there => ?_, idle⟩)
    fun found => Triple.ite (fun isFound => ?_) fun isMissing => ?_
  · have known := (idle.known bdaddr there).resolve_right (by simp)
    simp [known] at missing
  · refine Triple.bind (fun _ => GattIdle) ?_ fun _ =>
      Triple.done (stable true) fun _ _ idle => ⟨by simp, idle⟩
    exact (silent_worker deleteIfAllDone_within (fun _ _ _ => .of_delete) idle_stable
      fun _ _ silent => silent.idle).weaken (fun _ _ holds => holds.2) fun _ _ _ holds => holds
  · exact Triple.done (stable false) fun _ _ holds =>
      ⟨fun _ => holds.1 (by simpa using isMissing), holds.2⟩

private theorem gattStage_triple :
    WorkerTriple [] GattIdle (runStage settings .gatt bdaddr (launchGatt bdaddr))
      fun _ => GattKept := by
  have finished : WorkerTriple [] GattIdle (Prog.done ()) fun _ => GattKept :=
    Triple.done gattKept_stable fun _ _ => kept_of_idle
  refine Triple.ite (fun _ => Triple.bind _ skipSubProcess_triple fun skipped => ?_) fun _ => finished
  refine Triple.ite (fun _ => finished.weaken (fun _ _ holds => holds.2) fun _ _ _ holds => holds)
    fun visited => ?_
  have fresh : ∀ {pre : Data → Prop} {program : Code Unit},
      WorkerTriple [] (GattFresh bdaddr) program (fun _ => GattKept) →
      (∀ data, pre data → GattFresh bdaddr data) →
      WorkerTriple [] pre program fun _ => GattKept :=
    fun triple implies => triple.weaken (fun data _ => implies data) fun _ _ _ holds => holds
  refine fresh ?_ fun data holds => ⟨holds.2, holds.1 (by simpa using visited)⟩
  refine Triple.bind _ (Rule.look fresh_stable (fun _ => fresh_stable) fun _ _ holds => holds)
    fun _ => Triple.ite (fun _ => ?_) fun _ => ?_
  · exact Rule.whenTrackedBare (fun _ => trivial) fresh_stable fresh_stable gattKept_stable
      (fact_stable _) (fun _ _ holds _ => holds) (fun _ _ holds => kept_of_idle holds.1)
      startGatt_triple
  · exact Triple.done gattKept_stable fun _ _ holds => kept_of_idle holds.1

private theorem ll2thprintStage_triple :
    WorkerTriple [] GattKept (runStage settings .ll2thprint bdaddr (launchLl2thprint bdaddr))
      fun _ => GattKept := by
  refine silent_frame (runStage_within settings launchOf_within) (fun _ _ _ step =>
    ⟨.of_stage step (by simp), fun other => absurd rfl other⟩) gattKept_stable
    (fun _ before after step kept => ?_) fun _ _ => trivial
  have silent := Silent.of_stage step (by simp)
  have grown : ∀ number ∈ before.externalToolThreads .ble,
      number ∈ after.externalToolThreads .ble := by
    intro number member
    cases step with
    | delete step => cases step <;> exact member
    | attempt => exact member
    | launch step => cases step <;> simp [InfoType.radio, member]
  exact kept.imp silent.idle fun ⟨number, member, current⟩ =>
    ⟨number, grown number member, silent.current current⟩

/-- The joins wait for the process of the last block, if it is not finished. -/
private theorem joinAll_triple (numbers : List Nat) :
    WorkerTriple [] (GattJoining numbers)
      (Prog.forEach (fun number => Prog.joinThread (.tool number)) numbers)
      fun _ => GattIdle := by
  induction numbers with
  | nil => exact Triple.done idle_stable fun _ _ joining => joining.resolve_right (by simp)
  | cons number rest inductionHypothesis =>
      refine Triple.bind (fun _ => GattJoining rest) (Triple.joinThread (joining_stable _)
        (joining_stable _) fun data inv joining finished => ?_) fun _ => inductionHypothesis
      have closed : GattClosed none number data := finished.elim id id
      rcases joining with idle | ⟨other, member, current⟩
      · exact .inl idle
      · rcases List.mem_cons.mp member with rfl | later
        · exact .inl ⟨(closed.finished current).1, (closed.finished current).2⟩
        · exact .inr ⟨other, later, current⟩

private theorem collectBdaddr_triple :
    WorkerTriple [] GattIdle (collectBdaddr .ble (stagesOf settings .ble) bdaddr)
      fun _ => GattIdle := by
  refine Triple.bind (fun _ => GattIdle) ?_ fun _ => Triple.bind (fun _ => GattKept) ?_ fun _ => ?_
  · have within : (countAttempt .ble bdaddr).Within (fun _ => Silent) [] [] := by
      refine within_demand fun data => ?_
      split <;> exact .of_same rfl rfl rfl
    exact silent_worker within (fun _ _ _ step => step) idle_stable fun _ _ silent => silent.idle
  · exact Triple.bind _ gattStage_triple fun _ => ll2thprintStage_triple
  · exact Triple.bind _ (Rule.look gattKept_stable joining_stable fun _ _ kept => kept)
      joinAll_triple

private theorem reprioritizeFirst_silent :
    (reprioritizeFirst .ble (reprioritize .ble .ble)).Within (fun _ => Silent) held held :=
  reprioritizeFirst_within_of (fun _ => .refl) fun _ =>
    reprioritize_within_of (fun _ => .refl) (fun _ _ => .of_same rfl rfl rfl) fun _ _ =>
      .of_same rfl rfl rfl

/-- A pass of the BLE worker starts and ends with only finished blocks. -/
private theorem bleWorker_triple (settings : Settings) :
    WorkerTriple [] GattIdle (threadFunction settings .ble) fun _ => GattIdle := by
  have framed : ∀ {α : Type} {shape : List Lock → Data → Data → Prop} {program : Code α},
      program.Within shape [] [] →
      (∀ now before after, shape now before after → Silent before after) →
      WorkerTriple [] GattIdle program fun _ => GattIdle :=
    fun within silent => silent_worker within silent idle_stable fun _ _ silent => silent.idle
  refine Rule.threadFunction (fun _ => True) (fun _ _ => True) idle_stable ?_
    (fun _ within => framed within fun _ _ _ => .of_loop) (fun bdaddr _ => ?_)
    (fun bdaddr _ => ?_) (framed reprioritizeFirst_silent fun _ _ _ step => step)
  · exact (framed sortedBdaddrs_within fun _ _ _ => .of_sort).weaken (fun _ _ holds => holds)
      fun _ _ _ holds => ⟨fun _ _ => trivial, holds⟩
  · exact (framed (shouldSkip_within settings) fun _ _ _ => .of_loop).weaken
      (fun _ _ holds => holds) fun _ _ _ holds => ⟨fun _ => trivial, holds⟩
  · exact collectBdaddr_triple.weaken (fun _ _ holds => holds.2) fun _ _ _ holds => holds

end Worker

/-! ## The system -/

/-- A process that ends or whose wait ends keeps its name, and `wait` returns only
for a process that has ended. -/
private theorem process_event {process changed : Process}
    (kind : (∃ retCode, process.exit retCode = some changed) ∨ process.returnWait = some changed ∨
      process.answerWait .timeoutExpired = some changed) :
    changed.infoType = process.infoType ∧ changed.bdaddr = process.bdaddr ∧
      (changed.status = .running → process.status = .running) ∧
      ∀ retCode, changed.waitResult = some (.returned retCode) →
        (process.waitResult = some (.returned retCode) → process.status ≠ .running) →
        changed.status ≠ .running := by
  rcases kind with ⟨retCode, exited⟩ | returned | expired
  · obtain ⟨_, same⟩ := Option.ite_none_right_eq_some.mp exited
    obtain rfl := Option.some.inj same
    simp
  · unfold Process.returnWait at returned
    cases status : process.status with
    | exited retCode =>
        rw [status] at returned
        obtain ⟨_, same⟩ := Option.ite_none_right_eq_some.mp returned
        obtain rfl := Option.some.inj same
        simp [status]
    | _ => simp [status] at returned
  · obtain ⟨_, same⟩ := Option.ite_none_right_eq_some.mp expired
    obtain rfl := Option.some.inj same
    simp

private theorem environment_gattStep {event : Outside} {before after : Data}
    (happened : environment event before = some after) (inv : GattInv before) :
    GattInv after ∧ GattStep none before after := by
  have quiet : ∀ {after : Data}, Silent before after →
      after.externalToolThreads .ble = before.externalToolThreads .ble →
      GattInv after ∧ GattStep none before after :=
    fun silent threads => ⟨silent.invariant inv, silent.step fun _ => threads⟩
  rcases environment_cases happened with ⟨number, line, process, file, found, logged, running, rfl⟩ |
    ⟨number, process, changed, found, kind, rfl⟩ | ⟨_, _, _, rfl⟩
  · by_cases gatt : process.infoType = .gatt
    · obtain rfl : LogFile.gattprint = file := by simpa [gatt, InfoType.logFile] using logged
      have awaited := inv.running number process found gatt running
      set after := before.appendLog .gattprint (.output number line)
      have log : after.logs .gattprint = before.logs .gattprint ++ [.output number line] := by
        simp [after]
      have gatts : after.gatts = before.gatts := rfl
      have grows : GattGrows before after :=
        ⟨fun _ process found => ⟨process, found, rfl, rfl, id⟩, fun _ => id⟩
      have still := awaited.output grows log gatts
      refine ⟨⟨by simp [still.scanned], ?_, fun other later foundLater isGatt runs => ?_,
        inv.waited⟩, ⟨grows, fun _ => rfl, .output number _ line awaited log gatts⟩⟩
      · rw [log, List.pairwise_append]
        exact ⟨inv.noRetry, List.pairwise_singleton _ _, by simp⟩
      · have awaitedToo := inv.running other later foundLater isGatt runs
        obtain ⟨rfl, same⟩ := awaited.unique awaitedToo
        rwa [← same]
    · refine quiet (.of_same ?_ rfl rfl) rfl
      cases infoType : process.infoType <;> simp_all [InfoType.logFile]
      all_goals subst logged; rfl
  · obtain ⟨infoType, bdaddr, ran, waited⟩ := process_event kind
    refine quiet ⟨rfl, fun _ => id, .modify number _ ?_ ?_ ?_ ?_⟩ rfl <;> intro same foundSame <;>
      obtain rfl := Option.some.inj (found.symm.trans foundSame)
    · exact infoType
    · exact bdaddr
    · exact ran
    · exact waited
  · exact quiet (.of_same rfl rfl rfl) rfl

theorem gattContract_lawful (settings : Settings) : gattContract.Lawful (launcher settings) where
  guarRely := fun {thread other _ _ _ _} different _ inv invAfter promise =>
    Relation.ReflTransGen.single ⟨inv, invAfter, .inr ⟨thread, different, promise⟩⟩
  guarFree := fun _ _ _ _ _ => trivial
  outside := by
    intro event before after happened inv _
    obtain ⟨invAfter, step⟩ := environment_gattStep happened inv
    exact ⟨invAfter, fun _ _ => trivial, fun _ _ =>
      Relation.ReflTransGen.single ⟨inv, invAfter, .inl step⟩⟩
  entries := by
    intro thread input program data entered inv rests
    match thread, input, entered with
    | .monitor, some line, entered =>
        obtain rfl := Option.some.inj entered
        have framed : Triple gattContract .monitor [] (fun _ => True) (fun _ => True)
            (handLine settings line) fun _ _ => True := by
          refine Triple.bind (fun _ _ => True) (Rule.change (fact_stable _) (fact_stable _)
            fun data inv _ _ => ?_) fun _ => silent_frame (processCommand_within _)
              (fun _ _ _ step => ⟨(Silent.of_command step).1, fun _ => (Silent.of_command step).2⟩)
              (fact_stable _) (fun _ _ _ _ holds => holds) fun _ _ => trivial
          have silent : Silent data (data.record (.line (Text.strip line))) := .of_same rfl rfl rfl
          exact ⟨silent.invariant inv, silent.step fun _ => rfl, trivial⟩
        exact framed data inv trivial
    | .worker .ble, none, entered =>
        obtain ⟨_, rfl⟩ : settings.threadEnabled .ble = true ∧
            threadFunction settings .ble = program := by
          simpa [launcher, entry] using entered
        exact bleWorker_triple settings data inv rests
    | .worker .btc, none, entered =>
        obtain ⟨_, rfl⟩ : settings.threadEnabled .btc = true ∧
            threadFunction settings .btc = program := by
          simpa [launcher, entry] using entered
        have framed : Triple gattContract (.worker .btc) [] (fun _ => True) (fun _ => True)
            (threadFunction settings .btc) fun _ _ => True :=
          silent_frame (threadFunction_within settings) (fun _ _ _ step =>
            ⟨(Silent.of_btcWorker step).1, fun _ => (Silent.of_btcWorker step).2⟩) (fact_stable _)
            (fun _ _ _ _ holds => holds) fun _ _ => trivial
        exact framed data inv trivial

theorem gattInv_initial : GattInv Data.empty where
  scanned := rfl
  noRetry := by simp [Data.empty]
  running := by simp [Data.empty]
  waited := by simp [Data.empty]

theorem gattContract_initial : gattContract.Holds initial fun _ => [] where
  invariant := gattInv_initial
  free := fun _ _ => trivial
  owns := ⟨by simp [initial], by simp⟩
  safe := fun thread => by
    match thread with
    | .tool number =>
        exact run_triple Data.empty gattInv_initial (by simp [Data.empty, gattProcesses])
    | .worker .ble =>
        have idle : GattIdle Data.empty := ⟨rfl, by simp [SuccessKnown, Data.empty]⟩
        exact ⟨rfl, fun now relied inv => idle_stable Data.empty now idle gattInv_initial inv relied⟩
    | .worker .btc => exact ⟨rfl, fun _ _ _ => trivial⟩
    | .monitor => exact ⟨rfl, fun _ _ _ => trivial⟩

/-- Along every run in which every launch succeeds, `GATTprint.log` consists of
blocks, one for each gatttool process and possibly one more, and an address with
a SUCCESS line never gets another ATTEMPT line. -/
theorem gatt_log (settings : Settings) {config : Config Lock ThreadId Data Site}
    (run : (launcher settings).Run LaunchesSucceed initial config) :
    (∃ blocks, IsBlocks config.shared.data.gatts (config.shared.data.logs .gattprint) blocks) ∧
    ∀ bdaddr earlier later,
      config.shared.data.logs .gattprint = earlier ++ .success bdaddr :: later →
      .attempt bdaddr ∉ later := by
  obtain ⟨held, holds⟩ := (gattContract_lawful settings).holds_of_run run gattContract_initial
  have inv : GattInv config.shared.data := holds.invariant
  refine ⟨?_, fun bdaddr earlier later split member => ?_⟩
  · obtain ⟨state, read⟩ := Option.isSome_iff_exists.mp inv.scanned
    obtain ⟨blocks, isBlocks, _⟩ := blocks_of_scan read
    exact ⟨blocks, isBlocks⟩
  · have noRetry := inv.noRetry
    rw [split, List.pairwise_append] at noRetry
    exact List.rel_of_pairwise_cons noRetry.2.1 member bdaddr rfl rfl

/-- A gatttool writes a line and succeeds. -/
theorem gatt_log_success : ∃ config, (launcher .shipped).Run LaunchesSucceed initial config ∧
    config.shared.data.logs .gattprint =
      [.attempt "aa".toList, .output 0 "GATTPRINT".toList, .success "aa".toList] ∧
    (∃ blocks, IsBlocks config.shared.data.gatts (config.shared.data.logs .gattprint) blocks) ∧
    ∀ bdaddr earlier later,
      config.shared.data.logs .gattprint = earlier ++ .success bdaddr :: later →
      .attempt bdaddr ∉ later := by
  have succeeds : leads .shipped LaunchesSucceed
      (Schedule.handed (deviceLine newWord "AA BLE public A".toList) 5 ++ Schedule.pass .ble 17 ++
        [.environment (.processWrites 0 "GATTPRINT".toList), .environment (.processExits 0 0)] ++
        Schedule.resume (.tool 0) 1 ++ [.environment (.waitReturns 0)] ++
        Schedule.resume (.tool 0) 3) initial
      (fun config => decide (config.shared.data.logs .gattprint =
        [.attempt "aa".toList, .output 0 "GATTPRINT".toList, .success "aa".toList])) = true := by
    decide
  obtain ⟨config, run, written⟩ := run_of_leads succeeds
  exact ⟨config, run, of_decide_eq_true written, gatt_log .shipped run⟩

end NaiveBTSniffing.Launcher
