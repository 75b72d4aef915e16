import NaiveBTSniffing.Library.Interleaving.Waiting
import NaiveBTSniffing.Launcher.Steps

/-!
Contract: what the threads of the launcher wait for, besides locks.

A worker joins only tool threads that have been started, and it waits for the
data only in its busy wait; the thread of a process does nothing before its start.
`waits_of_reachable` says so for every reachable state.

Owns the terms `launchWaiting`. Does not own the locks (`Deadlock`).
-/

namespace NaiveBTSniffing.Launcher

open NaiveBTSniffing.Library
open NaiveBTSniffing.Library.Interleaving
open NaiveBTSniffing.Library.Interleaving.Prog

/-! ## The terms -/

/-- The `ApplicationThread` of the process has been started. -/
def Started (number : Nat) (data : Data) : Prop :=
  ∃ process, data.processes[number]? = some process ∧ process.threadStarted = true

/-- Every thread that a worker keeps for its joins has been started. -/
def KeptStarted (data : Data) : Prop :=
  ∀ radio, ∀ number ∈ data.externalToolThreads radio, Started number data

/-- No process is forgotten, and no thread is unstarted. -/
def ProcessesLast (before after : Data) : Prop :=
  ∀ (number : Nat) (process : Process), before.processes[number]? = some process →
    ∃ later : Process, after.processes[number]? = some later ∧
      (process.threadStarted = true → later.threadStarted = true)

theorem Started.last {number : Nat} {before after : Data} (started : Started number before)
    (last : ProcessesLast before after) : Started number after := by
  obtain ⟨process, found, runs⟩ := started
  obtain ⟨later, foundLater, still⟩ := last number process found
  exact ⟨later, foundLater, still runs⟩

def launchWaiting (radio : Radio) : Waiting ThreadId Data Site where
  inv := KeptStarted
  grows := ProcessesLast
  joins := fun data thread => ∃ number, thread = .tool number ∧ Started number data
  site := .busyWait radio
  guard := fun data => !(data.bdaddrs radio).keys.isEmpty
  growsRefl := fun _ _ process found => ⟨process, found, id⟩
  growsTrans := fun first second number process found => by
    obtain ⟨middle, foundMiddle, early⟩ := first number process found
    obtain ⟨later, foundLater, late⟩ := second number middle foundMiddle
    exact ⟨later, foundLater, fun runs => late (early runs)⟩
  joinsGrows := fun grown joinable => by
    obtain ⟨number, same, started⟩ := joinable
    exact ⟨number, same, started.last grown⟩

section Keeps

variable {radio : Radio} {before after : Data}

/-- A step that touches neither the processes nor the lists of threads to join. -/
private theorem keeps_of_same (processes : after.processes = before.processes)
    (threads : after.externalToolThreads = before.externalToolThreads) :
    (launchWaiting radio).Keeps before after where
  inv := fun kept own number member => by
    rw [threads] at member
    obtain ⟨process, found, runs⟩ := kept own number member
    exact ⟨process, by rwa [processes], runs⟩
  grows := fun number process found => ⟨process, by rwa [processes], id⟩

/-- A step that only adds to the processes. -/
private theorem keeps_of_last (last : ProcessesLast before after)
    (threads : after.externalToolThreads = before.externalToolThreads) :
    (launchWaiting radio).Keeps before after where
  inv := fun kept own number member => (kept own number (by rwa [threads] at member)).last last
  grows := last

private theorem last_of_modify (data : Data) (number : Nat) {update : Process → Process}
    (still : ∀ process, data.processes[number]? = some process →
      process.threadStarted = true → (update process).threadStarted = true) :
    ProcessesLast data (data.modifyProcess number update) := by
  intro other process found
  by_cases same : number = other
  · subst same
    exact ⟨update process, by simp [found], still process found⟩
  · exact ⟨process, by simp [same, found], id⟩

private theorem last_of_launch (data : Data) (infoType : InfoType) (bdaddr : Text)
    (arguments : List Text) : ProcessesLast data (data.launch infoType bdaddr arguments) := by
  intro other process found
  refine ⟨process, ?_, id⟩
  have within := (List.getElem?_eq_some_iff.mp found).1
  simp [List.getElem?_append_left within, found]

end Keeps

/-! ## The programs of a worker -/

section Programs

variable {radio : Radio} {α : Type}

/-- The program waits on the terms of the worker of the radio. -/
private abbrev Waits (radio : Radio) (post : α → Data → Prop) (program : Code α) (data : Data) :
    Prop :=
  program.WaitsFor (launchWaiting radio) False post data

/-- The program waits on these terms, whatever it finds. -/
private abbrev WaitsOnly (radio : Radio) (program : Code α) : Prop :=
  ∀ data, Waits radio (fun _ _ => True) program data

private theorem waits_done (value : α) : WaitsOnly radio (Prog.done value) :=
  fun _ => trivial

private theorem waits_look (view : Data → α) : WaitsOnly radio (Code.look view) :=
  fun _ => ⟨.inl fun _ => rfl, fun _ _ _ => ⟨keeps_of_same rfl rfl, trivial⟩⟩

private theorem waits_change {update : Data → Data}
    (keeps : ∀ now, (launchWaiting radio).Keeps now (update now)) :
    WaitsOnly radio (Code.change update) :=
  fun _ => ⟨.inl fun _ => rfl, fun now _ _ => ⟨keeps now, trivial⟩⟩

private theorem waitsFor_exchange {update : Data → Data} {view : Data → α}
    {post : α → Data → Prop} {data : Data}
    (keeps : ∀ now, ProcessesLast data now → (launchWaiting radio).Keeps now (update now))
    (seen : ∀ now, ProcessesLast data now → post (view now) (update now)) :
    Waits radio post (Code.exchange update view) data :=
  ⟨.inl fun _ => rfl, fun now grown _ => ⟨keeps now grown, seen now grown⟩⟩

private theorem waits_demand {update : Data → Data} {view : Data → Option α}
    (keeps : ∀ now, (launchWaiting radio).Keeps now (update now)) :
    WaitsOnly radio (Code.demand update view) := by
  refine fun _ => ⟨.inl fun _ => rfl, fun now _ _ => ⟨keeps now, ?_⟩⟩
  simp only
  split <;> trivial

private theorem waits_bind {β : Type} {first : Code α} {rest : α → Code β}
    (waits : WaitsOnly radio first) (later : ∀ value, WaitsOnly radio (rest value)) :
    WaitsOnly radio (first >>= rest) :=
  fun data => waitsFor_bind _ (waits data) fun value now _ => later value now

private theorem waits_ite {condition : Prop} [Decidable condition] {yes no : Code α}
    (waitsYes : WaitsOnly radio yes) (waitsNo : WaitsOnly radio no) :
    WaitsOnly radio (if condition then yes else no) :=
  fun data => waitsFor_ite (fun _ => waitsYes data) fun _ => waitsNo data

private theorem waits_whenTracked {own : Radio} {bdaddr : Text} {body : Code Unit}
    (waits : WaitsOnly radio body) : WaitsOnly radio (whenTracked own bdaddr body) :=
  fun data => waitsFor_withLock _ <| waits_bind (waits_look _)
    (fun _ => waits_ite waits (waits_done _)) data

private theorem waits_lockedDelete {own : Radio} {bdaddr : Text} :
    WaitsOnly radio (lockedDeleteFromDict own bdaddr) :=
  waits_whenTracked <| waits_demand fun _ => keeps_of_same rfl rfl

private theorem waits_deleteIfAllDone {own : Radio} {bdaddr : Text} :
    WaitsOnly radio (deleteIfAllDone own bdaddr) := by
  have both : ∀ first second, WaitsOnly radio (all2thprintsDone.both bdaddr first second) :=
    fun _ _ => waits_bind (waits_look _) fun _ => waits_ite (waits_look _) (waits_done _)
  refine waits_bind ?_ fun _ => waits_ite waits_lockedDelete (waits_done _)
  cases own
  · exact both _ _
  · exact both _ _

private theorem waits_externalLogWrite {infoType : InfoType} {line : LogLine} :
    WaitsOnly radio (externalLogWrite infoType line) := by
  unfold externalLogWrite
  cases infoType.logFile with
  | some file => exact waits_change fun _ => keeps_of_same rfl rfl
  | none => exact waits_done _

/-- A process that has just been launched is there. -/
private theorem waits_launchApplication {infoType : InfoType} {bdaddr : Text}
    {arguments : List Text} {data : Data} :
    Waits radio (fun launched now => ∀ number, launched = some number →
      number < now.processes.length) (launchApplication infoType bdaddr arguments) data := by
  apply waitsFor_exchange
  · intro now _
    by_cases refused : now.popenFails = true
    · simp only [refused, if_true]
      exact keeps_of_same rfl rfl
    · simp only [refused]
      exact keeps_of_last (last_of_launch now infoType bdaddr arguments) rfl
  · intro now _ number same
    by_cases refused : now.popenFails = true
    · simp [refused] at same
    · obtain rfl : now.processes.length = number := by simpa [refused] using same
      simp [refused]

private theorem started_of_start {number : Nat} {data : Data} (there : number < data.processes.length) :
    Started number (data.startThread number) := by
  refine ⟨{ data.processes[number] with threadStarted := true }, ?_, rfl⟩
  simp [there]

/-- A thread whose start has succeeded is started. -/
private theorem waits_startThread {number : Nat} {data : Data}
    (there : number < data.processes.length) :
    Waits radio (fun started now => started = true → Started number now) (startThread number)
      data := by
  apply waitsFor_exchange
  · intro now _
    by_cases refused : now.startFails = true
    · simp only [refused, if_true]
      exact keeps_of_same rfl rfl
    · simp only [refused]
      exact keeps_of_last (last_of_modify now number fun _ _ _ => rfl) rfl
  · intro now grown succeeded
    have accepted : now.startFails = false := by simpa using succeeded
    obtain ⟨later, found, _⟩ := grown number _ (List.getElem?_eq_getElem there)
    simp only [accepted]
    exact started_of_start (List.getElem?_eq_some_iff.mp found).1

/-- A thread that is kept for the joins has been started. -/
private theorem waits_launchTool {infoType : InfoType} {bdaddr : Text} {arguments : List Text} :
    WaitsOnly radio (launchTool infoType bdaddr arguments) := by
  refine fun data => waitsFor_bind _ waits_launchApplication fun launched now listed => ?_
  cases launched with
  | none => trivial
  | some number =>
      refine waitsFor_bind _ (waits_startThread (listed number rfl)) fun succeeded later runs =>
        waitsFor_ite (fun started => ?_) fun _ => trivial
      refine ⟨.inl fun _ => rfl, fun last grown _ => ⟨⟨fun kept own other member => ?_, ?_⟩, trivial⟩⟩
      · have joined := (runs started).last grown
        by_cases same : own = infoType.radio
        · subst same
          have either : other ∈ last.externalToolThreads infoType.radio ∨ other = number := by
            simpa using member
          rcases either with old | rfl
          · exact kept infoType.radio other old
          · exact joined
        · exact kept own other (by simpa [same] using member)
      · exact fun other process found => ⟨process, found, id⟩

private theorem waits_skipSubProcess {infoType : InfoType} {bdaddr : Text} :
    WaitsOnly radio (skipSubProcess infoType bdaddr) :=
  fun data => waitsFor_withLock _ <| waits_bind (waits_look _)
    (fun _ => waits_ite (waits_bind waits_deleteIfAllDone fun _ => waits_done _) (waits_done _)) data

private theorem waits_launchOf {infoType : InfoType} {bdaddr : Text} :
    WaitsOnly radio (launchOf infoType bdaddr) := by
  cases infoType with
  | gatt =>
      refine waits_whenTracked (waits_bind waits_externalLogWrite fun _ => ?_)
      exact waits_bind (waits_demand fun _ => keeps_of_same rfl rfl) fun _ => waits_launchTool
  | ll2thprint => exact waits_launchTool
  | lmp2thprint => exact waits_bind waits_externalLogWrite fun _ => waits_launchTool
  | sdp =>
      exact waits_bind waits_externalLogWrite fun _ =>
        waits_bind (waits_demand fun _ => keeps_of_same rfl rfl) fun _ => waits_launchTool

private theorem waits_stage {settings : Settings} (infoType : InfoType) {bdaddr : Text} :
    WaitsOnly radio (runStage settings infoType bdaddr (launchOf infoType bdaddr)) := by
  refine waits_ite (waits_bind waits_skipSubProcess fun _ => ?_) (waits_done _)
  exact waits_ite (waits_done _) (waits_bind (waits_look _) fun _ =>
    waits_ite waits_launchOf (waits_done _))

/-- Only started threads are joined. -/
private theorem waits_joins {own : Radio} : WaitsOnly radio (joinExternalToolThreads own) := by
  intro data
  refine waitsFor_bind (fun numbers now => ∀ number ∈ numbers, Started number now)
    ⟨.inl fun _ => rfl, fun now _ kept => ⟨keeps_of_same rfl rfl, kept own⟩⟩
    fun numbers now started => waitsFor_joinAll fun number member => ?_
  exact ⟨number, rfl, started number member⟩

private theorem waits_collect {settings : Settings} {own : Radio} {bdaddr : Text} :
    WaitsOnly radio (collectBdaddr own (stagesOf settings own) bdaddr) := by
  have counts : WaitsOnly radio (countAttempt own bdaddr) := by
    apply waits_demand
    intro now
    split <;> exact keeps_of_same rfl rfl
  refine waits_bind counts fun _ => waits_bind ?_ fun _ => waits_joins
  cases own with
  | ble =>
      exact waits_bind (waits_stage .gatt) fun _ => waits_stage .ll2thprint
  | btc =>
      exact waits_bind (waits_stage .lmp2thprint) fun _ => waits_stage .sdp

private theorem waits_shouldSkip {settings : Settings} {own : Radio} {bdaddr : Text} :
    WaitsOnly radio (shouldSkip settings own bdaddr) := by
  refine waits_ite (waits_done _) (waits_bind (waits_demand fun now => ?_) fun _ => waits_done _)
  split
  · split <;> exact keeps_of_same rfl rfl
  · exact keeps_of_same rfl rfl

private theorem waits_reprioritize {lockRadio own : Radio} {bdaddr : Text} :
    WaitsOnly radio (reprioritize lockRadio own bdaddr) := by
  have moves : WaitsOnly radio (unpark own bdaddr) :=
    waits_bind (waits_demand fun _ => keeps_of_same rfl rfl) fun _ =>
      waits_bind (waits_demand fun _ => keeps_of_same rfl rfl) fun _ =>
        waits_change fun _ => keeps_of_same rfl rfl
  exact fun data => waitsFor_withLock _ <| waitsFor_withLock _ <|
    waits_bind (waits_look _) (fun _ => waits_ite moves (waits_done _)) data

private theorem waits_skip {own lockRadio : Radio} {bdaddr : Text} {allSkipped : Bool} :
    WaitsOnly radio (skipBdaddr own (reprioritize lockRadio own) bdaddr allSkipped) := by
  refine waits_bind waits_lockedDelete fun _ => waits_ite ?_ (waits_done _)
  exact waits_bind (waits_look _) fun _ => waits_ite
    (waits_bind (waits_demand fun _ => keeps_of_same rfl rfl) fun _ => waits_reprioritize)
    (waits_done _)

private theorem waits_readRssis {own : Radio} {bdaddrs : List Text} :
    WaitsOnly radio (readRssis own bdaddrs) := by
  induction bdaddrs with
  | nil => exact waits_done _
  | cons bdaddr rest inductionHypothesis =>
      exact waits_bind (waits_demand fun _ => keeps_of_same rfl rfl) fun _ =>
        waits_bind inductionHypothesis fun _ => waits_done _

private theorem waits_visit {settings : Settings} {own : Radio} {total skipCount : Nat}
    {bdaddrs : List Text} :
    WaitsOnly radio (visit settings own (stagesOf settings own) (reprioritize .ble own) total
      skipCount bdaddrs) := by
  induction bdaddrs generalizing skipCount with
  | nil => exact waits_done _
  | cons bdaddr rest inductionHypothesis =>
      refine waits_bind (waits_change fun _ => keeps_of_same rfl rfl) fun _ =>
        waits_bind waits_shouldSkip fun _ => waits_ite ?_ ?_
      · exact waits_bind waits_skip fun _ => inductionHypothesis
      · exact waits_bind waits_collect fun _ => inductionHypothesis

/-- A worker waits for started threads, and for the data in its busy wait only. -/
private theorem waits_threadFunction {settings : Settings} (data : Data) :
    (threadFunction settings radio).WaitsFor (launchWaiting radio) True (fun _ _ => True) data := by
  rw [threadFunction_eq]
  have sorts : WaitsOnly radio (sortedBdaddrs radio) :=
    waits_bind (fun _ => waitsFor_exchange (fun _ _ => keeps_of_same rfl rfl) fun _ _ => trivial)
      fun _ => waits_bind waits_readRssis fun _ =>
        waits_bind (waits_change fun _ => keeps_of_same rfl rfl) fun _ => waits_done _
  refine waitsFor_bind _ (sorts data) fun _ now _ => waitsFor_bind _ (waits_visit now) fun _ _ _ => ?_
  exact ⟨.inr ⟨trivial, rfl, rfl, fun _ => rfl⟩, fun _ _ _ => ⟨keeps_of_same rfl rfl, trivial⟩⟩

/-! ## The program of the monitor -/

private theorem waits_updateRssi {own : Radio} {bdaddr rssiWord : Text} :
    WaitsOnly radio (updateRssi own bdaddr rssiWord) := by
  have grants : WaitsOnly radio (grantOneMoreTry bdaddr) := by
    refine waits_bind (waits_demand fun _ => keeps_of_same rfl rfl) fun _ =>
      waits_ite (waits_demand fun now => ?_) (waits_done _)
    split <;> exact keeps_of_same rfl rfl
  apply waits_whenTracked
  refine waits_bind (waits_demand fun now => ?_) fun stored => ?_
  · split
    · split <;> exact keeps_of_same rfl rfl
    · exact keeps_of_same rfl rfl
  · cases Text.parseInt 10 rssiWord with
    | none => exact fun _ => trivial
    | some rssi =>
        exact waits_bind (waits_ite grants (waits_done _)) fun _ =>
          waits_change fun _ => keeps_of_same rfl rfl

private theorem waits_deprioritize {own : Radio} {bdaddr vendor : Text} :
    WaitsOnly radio (deprioritize own bdaddr vendor) := by
  have parks : ∀ stored : Text × Int, WaitsOnly radio (withLock (.deprioritized own)
      (Code.change fun data => (data.setDeprioritized own
        ((data.deprioritizedBdaddrs own).setItem bdaddr
          (stored.1, stored.2, vendor))).setDeprioritizing (some (own, bdaddr)))) := by
    intro stored data
    apply waitsFor_withLock
    apply waits_change
    exact fun _ => keeps_of_same rfl rfl
  apply waits_whenTracked
  exact waits_bind (waits_demand fun _ => keeps_of_same rfl rfl) fun stored =>
    waits_bind (parks stored) fun _ => waits_demand fun _ => keeps_of_same rfl rfl

private theorem waits_processNew {bdaddr type addressType : Text} :
    WaitsOnly radio (processNew bdaddr type addressType) := by
  have tracks : WaitsOnly radio (withLock (.bdaddrs (newRadio type))
      (Code.change fun data => data.setTracked (newRadio type)
        ((data.bdaddrs (newRadio type)).setItem bdaddr (addressType, -80)))) := by
    intro data
    apply waitsFor_withLock
    apply waits_change
    exact fun _ => keeps_of_same rfl rfl
  exact waits_bind (waits_change fun _ => keeps_of_same rfl rfl) fun _ => tracks

private theorem waits_processCommand (asked : Command) :
    WaitsOnly radio (processCommand asked) := by
  cases asked with
  | new bdaddr type addressType => exact waits_processNew
  | rssi bdaddr rssiWord => exact waits_bind waits_updateRssi fun _ => waits_updateRssi
  | manufacturerData bdaddr more =>
      cases more with
      | nil => exact fun _ => trivial
      | cons vendor rest =>
          exact waits_ite (waits_bind waits_deprioritize fun _ => waits_deprioritize)
            (waits_done _)
  | del bdaddr type =>
      show WaitsOnly radio (processDel bdaddr type)
      unfold processDel
      cases delRadio type with
      | none => exact fun _ => trivial
      | some own => exact waits_lockedDelete
  | ignored => exact waits_done _

/-- The monitor never waits for the data, nor for another thread. -/
private theorem waits_handLine {settings : Settings} {line : Text} :
    WaitsOnly radio (handLine settings line) :=
  waits_bind (waits_change fun _ => keeps_of_same rfl rfl) fun _ => waits_processCommand _

end Programs

/-! ## The system -/

/-- The workers wait for started threads, the monitor waits for locks only, and a
tool thread does nothing before its start. -/
structure AwaitsStarted (config : Config Lock ThreadId Data Site) : Prop where
  kept : KeptStarted config.shared.data
  monitor : (config.thread .monitor).WaitsFor (launchWaiting .ble) False (fun _ _ => True)
    config.shared.data
  workers : ∀ radio, (config.thread (.worker radio)).WaitsFor (launchWaiting radio) True
    (fun _ _ => True) config.shared.data
  tools : ∀ number, config.thread (.tool number) = ApplicationThread.run number ∨
    Started number config.shared.data

section System

variable {settings : Settings} {before after : Config Lock ThreadId Data Site}

private theorem command_spares {held : List Lock} {asked : Command} {data changed : Data}
    (step : CommandStep held asked data changed) :
    changed.processes = data.processes ∧
      changed.externalToolThreads = data.externalToolThreads := by
  cases step <;> exact ⟨rfl, rfl⟩

private theorem tool_keeps {radio : Radio} {number : Nat} {process : Process} {held : List Lock}
    {data changed : Data} (step : ToolStep number process held data changed) :
    (launchWaiting radio).Keeps data changed := by
  cases step with
  | kill =>
      have last : ProcessesLast data (data.modifyProcess number Process.kill) :=
        last_of_modify data number fun _ _ runs => runs
      exact keeps_of_last last rfl
  | delete step => cases step <;> exact keeps_of_same rfl rfl
  | _ => exact keeps_of_same rfl rfl

private theorem environment_keeps {radio : Radio} {event : Outside} {data changed : Data}
    (happened : environment event data = some changed) :
    (launchWaiting radio).Keeps data changed := by
  rcases environment_cases happened with ⟨_, _, _, _, _, _, _, rfl⟩ |
    ⟨number, process, answer, found, answered, rfl⟩ | ⟨_, _, _, rfl⟩
  · exact keeps_of_same rfl rfl
  · refine keeps_of_last (last_of_modify data number fun other same runs => ?_) rfl
    obtain rfl : process = other := Option.some.inj (found.symm.trans same)
    have kept : answer.threadStarted = process.threadStarted := by
      rcases changed_cases answered with ⟨_, _, rfl⟩ | ⟨_, _, _, _, rfl⟩
      · rfl
      · rfl
    rw [kept]
    exact runs
  · exact keeps_of_same rfl rfl

/-- A step that keeps the terms and leaves each thread alone, or on the terms. -/
private theorem AwaitsStarted.of_keeps (awaits : AwaitsStarted before)
    (keeps : ∀ radio, (launchWaiting radio).Keeps before.shared.data after.shared.data)
    (monitor : after.thread .monitor = before.thread .monitor ∨
      (after.thread .monitor).WaitsFor (launchWaiting .ble) False (fun _ _ => True)
        after.shared.data)
    (workers : ∀ radio, after.thread (.worker radio) = before.thread (.worker radio) ∨
      (after.thread (.worker radio)).WaitsFor (launchWaiting radio) True (fun _ _ => True)
        after.shared.data)
    (tools : ∀ number, after.thread (.tool number) = before.thread (.tool number) ∨
      Started number before.shared.data) : AwaitsStarted after where
  kept := (keeps .ble).inv awaits.kept
  monitor := by
    rcases monitor with same | waits
    · rw [same]
      exact awaits.monitor.grows (keeps .ble).grows
    · exact waits
  workers := fun radio => by
    rcases workers radio with same | waits
    · rw [same]
      exact (awaits.workers radio).grows (keeps radio).grows
    · exact waits
  tools := fun number => by
    rcases tools number with same | started
    · rw [same]
      exact (awaits.tools number).imp id fun started => started.last (keeps .ble).grows
    · exact .inr (started.last (keeps .ble).grows)

private theorem AwaitsStarted.step (reachable : (launcher settings).Reachable initial before)
    (awaits : AwaitsStarted before) (stepped : (launcher settings).Steps before after) :
    AwaitsStarted after := by
  obtain ⟨choice, chosen⟩ := stepped
  rcases System.steps_of_choice chosen with ⟨thread, left, shared, rfl, threadStep, rfl⟩ |
    ⟨thread, input, program, rfl, resting, entered, rfl⟩ | ⟨event, data, rfl, happened, rfl⟩
  · obtain ⟨held, _, step⟩ := threadStep_of_run reachable chosen
    cases thread with
    | monitor =>
        have keeps : ∀ radio, (launchWaiting radio).Keeps before.shared.data shared.data := by
          intro radio
          rcases step with ⟨line, recorded⟩ | ⟨asked, command⟩
          · rw [recorded]
            exact keeps_of_same rfl rfl
          · exact keeps_of_same (command_spares command).1 (command_spares command).2
        have waits := (awaits.monitor.step awaits.kept threadStep).2
        apply awaits.of_keeps keeps
        · exact .inr (by simpa using waits)
        · exact fun radio => .inl (by simp)
        · exact fun number => .inl (by simp)
    | worker own =>
        obtain ⟨⟨inv, grows⟩, waits⟩ := (awaits.workers own).step awaits.kept threadStep
        have keeps : ∀ radio, (launchWaiting radio).Keeps before.shared.data shared.data :=
          fun _ => ⟨inv, grows⟩
        apply awaits.of_keeps keeps
        · exact .inl (by simp)
        · intro radio
          by_cases mine : radio = own
          · subst mine
            exact .inr (by simpa using waits)
          · exact .inl (by simp [mine])
        · exact fun number => .inl (by simp)
    | tool number =>
        obtain ⟨process, tool⟩ := step
        apply awaits.of_keeps fun radio => tool_keeps tool
        · exact .inl (by simp)
        · exact fun radio => .inl (by simp)
        · intro other
          by_cases mine : other = number
          · subst mine
            -- The first step of a tool thread waits for its start.
            apply (awaits.tools other).elim _ .inr
            intro runs
            rw [runs] at threadStep
            obtain ⟨enabled, _, _⟩ := step_act.mp threadStep
            obtain ⟨found, present, started⟩ := (Option.any_eq_true _ _).mp enabled
            exact .inr ⟨found, present, started⟩
          · exact .inl (by simp [mine])
  · have keeps : ∀ radio, (launchWaiting radio).Keeps before.shared.data before.shared.data :=
      fun _ => keeps_of_same rfl rfl
    refine awaits.of_keeps keeps ?_ ?_ ?_
    · by_cases mine : thread = .monitor
      · subst mine
        cases input with
        | none => simp [launcher, entry] at entered
        | some line =>
            obtain rfl : handLine settings line = program := by simpa [launcher, entry] using entered
            exact .inr (by simpa using waits_handLine _)
      · exact .inl (Function.update_of_ne (Ne.symm mine) _ _)
    · intro radio
      by_cases mine : thread = .worker radio
      · subst mine
        cases input with
        | none =>
            obtain ⟨_, rfl⟩ : settings.threadEnabled radio = true ∧
                threadFunction settings radio = program := by
              simpa [launcher, entry] using entered
            exact .inr (by simpa using waits_threadFunction _)
        | some line => simp [launcher, entry] at entered
      · exact .inl (Function.update_of_ne (Ne.symm mine) _ _)
    · intro number
      apply Or.inl
      have different : ThreadId.tool number ≠ thread := by
        rintro rfl
        cases input <;> simp [launcher, entry] at entered
      exact Function.update_of_ne different _ _
  · have keeps : ∀ radio, (launchWaiting radio).Keeps before.shared.data data :=
      fun _ => environment_keeps happened
    apply awaits.of_keeps keeps
    · exact .inl rfl
    · exact fun radio => .inl rfl
    · exact fun number => .inl rfl

theorem waits_of_reachable {config : Config Lock ThreadId Data Site}
    (reachable : (launcher settings).Reachable initial config) : AwaitsStarted config := by
  induction reachable with
  | refl =>
      exact ⟨fun _ _ member => absurd member List.not_mem_nil, trivial, fun _ => trivial,
        fun _ => .inl rfl⟩
  | tail earlier stepped inductionHypothesis => exact inductionHypothesis.step earlier stepped.1

end System

end NaiveBTSniffing.Launcher
