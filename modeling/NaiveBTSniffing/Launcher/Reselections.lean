import NaiveBTSniffing.Launcher.ToolThreads

/-!
Contract: an address whose prints have all succeeded is left alone until it is
tracked anew.

The handlers of the two tools untrack the address (`handled_or_atWork`), and as long
as one of them is at work the worker selects nothing. So every later selection comes
after a removal and after a new tracking (`selected_after_removal`), and two later
selections have both between them (`selected_again`).

Owns the contract that every success entry is that of a tool that returned 0. Does
not own the deprioritized dictionary: an address that a worker moves back counts as
tracked anew.
-/

namespace NaiveBTSniffing.Launcher

open NaiveBTSniffing.Library
open NaiveBTSniffing.Library.Interleaving
open NaiveBTSniffing.Library.Interleaving.Prog

/-! ## Success entries -/

/-- Every success entry is that of a tool that has returned 0. -/
def Backed (data : Data) : Prop :=
  ∀ infoType bdaddr, bdaddr ∈ data.successBdaddrs infoType →
    ∃ number, ToolSucceeded infoType bdaddr number data

theorem ToolSucceeded.lasts {infoType : InfoType} {bdaddr : Text} {number : Nat}
    {before after : Data} (succeeded : ToolSucceeded infoType bdaddr number before)
    (lasting : Lasting before after) : ToolSucceeded infoType bdaddr number after := by
  obtain ⟨process, found, ofType, ofAddress, returned⟩ := succeeded
  obtain ⟨later, still, continues⟩ := lasting.processes found
  exact ⟨later, still, continues.infoType.trans ofType, continues.bdaddr.trans ofAddress,
    continues.waitResult _ returned⟩

theorem Backed.lasts {before after : Data} (backed : Backed before) (lasting : Lasting before after)
    (same : after.successBdaddrs = before.successBdaddrs) : Backed after := by
  intro infoType bdaddr member
  rw [same] at member
  obtain ⟨number, succeeded⟩ := backed infoType bdaddr member
  exact ⟨number, succeeded.lasts lasting⟩

def successContract : LauncherContract where
  inv := Backed
  lockInv := fun _ _ => True
  rely := fun _ _ => Lasting
  guar := fun _ _ => Lasting
  rest := fun _ _ => True
  dead := fun _ _ => True
  allowed := fun _ _ => True
  relyRefl := fun _ _ => Lasting.refl
  relyTrans := Lasting.trans
  relyLock := id
  relyFree := fun _ _ _ => trivial
  guarRefl := fun _ _ => Lasting.refl

section Entries

variable {settings : Settings} {infoType : InfoType} {bdaddr : Text} {number : Nat}
variable {process : Process} {thread : ThreadId} {held : List Lock} {α : Type}

private theorem anything_stays : successContract.Stable thread held fun _ => True :=
  Contract.stable_const _ _ _ _

private theorem succeeded_stable :
    successContract.Stable thread held (ToolSucceeded infoType bdaddr number) :=
  fun _ _ succeeded _ _ relied => succeeded.lasts relied

/-- A step that writes no success entry. -/
private abbrev SilentStep (before after : Data) : Prop :=
  Lasting before after ∧ after.successBdaddrs = before.successBdaddrs

/-- A program that writes no success entry. -/
private theorem silent_triple {shape : List Lock → Data → Data → Prop} {program : Code α}
    {pre : Data → Prop} (within : program.Within shape held held)
    (step : ∀ now before after, shape now before after → SilentStep before after)
    (stable : successContract.Stable thread held pre)
    (lasts : ∀ before after, Lasting before after → pre before → pre after) :
    Triple successContract thread held (fun _ => True) pre program fun _ => pre :=
  Triple.frame within stable
    (fun now before after _ backed holds shaped _ =>
      ⟨Backed.lasts backed (step now before after shaped).1 (step now before after shaped).2,
        (step now before after shaped).1, lasts before after (step now before after shaped).1 holds⟩)
    (fun _ _ _ _ _ free => free) fun _ _ _ => trivial

private theorem silentStep_of_same {before after : Data}
    (processes : after.processes = before.processes)
    (success : after.successBdaddrs = before.successBdaddrs) : SilentStep before after :=
  ⟨⟨fun _ _ member => by rwa [success],
    fun {_ process} found => ⟨process, by rwa [processes], .refl _⟩⟩, success⟩

private theorem silentStep_of_delete {radio : Radio} {before after : Data}
    (step : DeleteStep radio bdaddr held before after) : SilentStep before after := by
  cases step with
  | same => exact silentStep_of_same rfl rfl
  | delete => exact silentStep_of_same rfl rfl

private theorem externalLogWrite_silent {line : LogLine} :
    (externalLogWrite infoType line).Within (fun _ => SilentStep) held held := by
  unfold externalLogWrite
  cases infoType.logFile with
  | none => rfl
  | some file => exact within_change fun _ => silentStep_of_same rfl rfl

private theorem kill_silent :
    (Code.change fun data => data.modifyProcess number Process.kill).Within
      (fun _ => SilentStep) held held := by
  apply within_change
  intro data
  have step : ThreadStep Settings.shipped (.tool number) [] data
      (data.modifyProcess number Process.kill) :=
    ⟨⟨[], .gatt, [], .running, none, false⟩, .kill⟩
  exact ⟨lasting_of_anyStep (.inl ⟨_, _, step⟩), rfl⟩

/-- The handler writes the entry of its own tool, which has returned 0. -/
private theorem report_backs :
    Triple successContract thread [] (fun _ => True) (ToolSucceeded infoType bdaddr number)
      (ApplicationThread.report infoType bdaddr 0) fun _ _ => True := by
  unfold ApplicationThread.report
  rw [if_pos rfl]
  apply Triple.bind (fun _ => ToolSucceeded infoType bdaddr number)
  · exact silent_triple externalLogWrite_silent (fun _ _ _ => id) succeeded_stable
      fun _ _ lasting holds => holds.lasts lasting
  · intro _
    apply Triple.withBareLock (fun _ => trivial) succeeded_stable _ (fun _ => anything_stays)
      anything_stays
    apply Triple.bind (fun _ _ => True)
    · apply Rule.change succeeded_stable anything_stays
      intro data backed succeeded _
      have lasting : Lasting data (data.setSuccess infoType bdaddr) := by
        apply Lasting.mk
        · intro other address member
          by_cases same : other = infoType
          · subst same
            simp [member]
          · simpa [same] using member
        · exact fun found => ⟨_, found, .refl _⟩
      refine ⟨fun other address member => ?_, lasting, trivial⟩
      by_cases same : other = infoType
      · subst same
        have either : address = bdaddr ∨ address ∈ data.successBdaddrs other := by
          simpa using member
        rcases either with rfl | old
        · exact ⟨number, succeeded.lasts lasting⟩
        · obtain ⟨earlier, backs⟩ := backed other address old
          exact ⟨earlier, backs.lasts lasting⟩
      · have old : address ∈ data.successBdaddrs other := by simpa [same] using member
        obtain ⟨earlier, backs⟩ := backed other address old
        exact ⟨earlier, backs.lasts lasting⟩
    · exact fun _ => silent_triple deleteIfAllDone_within (fun _ _ _ => silentStep_of_delete)
        anything_stays fun _ _ _ => id

/-- The process with the number is the one that the thread was started for. -/
private abbrev FoundAs (number : Nat) (process : Process) (data : Data) : Prop :=
  ∃ later, data.processes[number]? = some later ∧ process.Continues later

private theorem foundAs_stable :
    successContract.Stable thread held (FoundAs number process) := by
  intro before after found _ _ relied
  obtain ⟨later, there, continues⟩ := found
  obtain ⟨last, still, further⟩ := relied.processes there
  exact ⟨last, still, continues.trans further⟩

/-- What a thread knows of the answer of `wait`. -/
private abbrev AnsweredAs (number : Nat) (process : Process) (answer : Option WaitResult)
    (data : Data) : Prop :=
  answer = some (.returned 0) → ToolSucceeded process.infoType process.bdaddr number data

private theorem answeredAs_stable {answer : Option WaitResult} :
    successContract.Stable thread held (AnsweredAs number process answer) :=
  fun _ _ holds _ _ relied same => (holds same).lasts relied

private theorem runProcess_backs :
    Triple successContract (.tool number) [] (fun _ => True) (FoundAs number process)
      (ApplicationThread.runProcess number process) fun _ _ => True := by
  apply Triple.bind (AnsweredAs number process)
  · apply Triple.await foundAs_stable fun _ => answeredAs_stable
    rintro data _ ⟨later, there, continues⟩ _ answered
    rw [there] at answered
    exact ⟨later, there, continues.infoType, continues.bdaddr, answered⟩
  · intro answer
    have others : ∀ {program : Code Unit}, program.Within (fun _ => SilentStep) [] [] →
        Triple successContract (.tool number) [] (fun _ => True)
          (AnsweredAs number process answer) program fun _ _ => True := fun within =>
      (silent_triple within (fun _ _ _ => id) anything_stays fun _ _ _ => id).weaken
        (fun _ _ _ => trivial) fun _ _ _ => id
    match answer with
    | none => exact others rfl
    | some .timeoutExpired =>
        exact others (within_bind kill_silent fun _ => externalLogWrite_silent)
    | some (.returned retCode) =>
        apply Triple.bind fun _ => AnsweredAs number process (some (.returned retCode))
        · exact Rule.look answeredAs_stable (fun _ => answeredAs_stable) fun _ _ holds => holds
        · intro running
          apply Triple.ite (fun _ => others kill_silent)
          intro _
          by_cases success : retCode = 0
          · subst success
            exact report_backs.weaken (fun _ _ answered => answered rfl) fun _ _ _ => id
          · unfold ApplicationThread.report
            rw [if_neg success]
            exact others externalLogWrite_silent

private theorem run_backs :
    Triple successContract (.tool number) [] (fun _ => True) (fun _ => True)
      (ApplicationThread.run number) fun _ _ => True := by
  apply Triple.bind fun started data => ∀ process, started = some process →
    FoundAs number process data
  · apply Triple.await anything_stays
    · exact fun _ before after found backed kept relied process same =>
        foundAs_stable before after (found process same) backed kept relied
    · exact fun data _ _ _ process found => ⟨process, found, .refl _⟩
  · intro started
    cases started with
    | none => exact Triple.done anything_stays fun _ _ _ => trivial
    | some process =>
        exact runProcess_backs.weaken (fun _ _ found => found process rfl) fun _ _ _ => id

private theorem silentStep_of_command {asked : Command} {before after : Data}
    (step : CommandStep held asked before after) : SilentStep before after := by
  cases step <;> exact silentStep_of_same rfl rfl

private theorem silentStep_of_worker {radio : Radio} {before after : Data}
    (step : WorkerStep radio held before after) : SilentStep before after := by
  apply And.intro (lasting_of_worker step)
  cases step with
  | sort step => cases step <;> rfl
  | loop step =>
      cases step with
      | delete step => exact (silentStep_of_delete step).2
      | _ => rfl
  | collect step =>
      cases step with
      | stage _ step =>
          cases step with
          | delete step => exact (silentStep_of_delete step).2
          | attempt => rfl
          | launch step => cases step <;> rfl
      | _ => rfl
  | _ => rfl

private theorem rests_of_within {shape : List Lock → Data → Data → Prop} {program : Code Unit}
    {data : Data} (within : program.Within shape [] [])
    (step : ∀ now before after, shape now before after → SilentStep before after)
    (backed : Backed data) : successContract.SafeThread thread [] program data :=
  silent_triple within step anything_stays (fun _ _ _ => id) data backed trivial

private theorem successContract_lawful : successContract.Lawful (launcher settings) where
  guarRely := fun _ _ _ _ lasting => lasting
  guarFree := fun _ _ _ _ free => free
  outside := by
    intro event before after happened backed _
    have step : AnyStep settings before after := .inr ⟨event, happened⟩
    have lasting := lasting_of_anyStep step
    apply And.intro _ ⟨fun _ => id, fun _ _ => lasting⟩
    apply backed.lasts lasting
    obtain ⟨_, _, _, _, _, rfl⟩ := environment_frame happened
    rfl
  entries := by
    intro thread input program data entered backed _
    match thread, input, entered with
    | .monitor, some line, entered =>
        obtain rfl := Option.some.inj entered
        have lines : (handLine settings line).Within (fun _ => SilentStep) [] [] :=
          within_bind (within_change fun _ => silentStep_of_same rfl rfl) fun _ =>
            (processCommand_within _).mono fun _ _ _ => silentStep_of_command
        exact rests_of_within lines (fun _ _ _ => id) backed
    | .worker own, none, entered =>
        obtain ⟨_, rfl⟩ : settings.threadEnabled own = true ∧
            threadFunction settings own = program := by
          simpa [launcher, entry] using entered
        exact rests_of_within (threadFunction_within settings)
          (fun _ _ _ => silentStep_of_worker) backed

private theorem successContract_initial : successContract.Holds initial fun _ => [] where
  invariant := fun _ _ member => by simp [initial, Data.empty] at member
  free := fun _ _ => trivial
  owns := ⟨by simp [initial], by simp⟩
  safe := fun thread => by
    have backed : Backed initial.shared.data := fun _ _ member => by
      simp [initial, Data.empty] at member
    cases thread with
    | tool number => exact run_backs _ backed trivial
    | _ => exact ⟨rfl, fun _ _ _ => trivial⟩

/-- Every success entry is that of a launched tool for this address that returned 0. -/
theorem backed_of_reachable {config : Config Lock ThreadId Data Site}
    (reachable : (launcher settings).Reachable initial config) : Backed config.shared.data := by
  obtain ⟨_, holds⟩ := successContract_lawful.holds_of_run reachable successContract_initial
  exact holds.invariant

end Entries

/-! ## Started threads -/

section Started

variable {settings : Settings} {before after : Data}

/-- A process whose `wait` has been answered has a thread. -/
private abbrev Heard (process : Process) : Prop :=
  process.waitResult ≠ none → process.threadStarted = true

private abbrev AllHeard (data : Data) : Prop :=
  ∀ process ∈ data.processes, Heard process

private theorem heard_of_modify {number : Nat} {update : Process → Process} (heard : AllHeard before)
    (keeps : ∀ process, before.processes[number]? = some process → Heard process →
      Heard (update process))
    (changed : after.processes = before.processes.modify number update) : AllHeard after := by
  intro process member
  rw [changed] at member
  obtain ⟨place, found⟩ := List.mem_iff_getElem?.mp member
  rw [List.getElem?_modify] at found
  obtain ⟨earlier, there, same⟩ := Option.map_eq_some_iff.mp found
  have held := heard earlier (List.mem_of_getElem? there)
  by_cases here : number = place
  · subst here
    simp only [if_true] at same
    exact same ▸ keeps earlier there held
  · simp only [here, if_false] at same
    exact same ▸ held

private theorem heard_of_same (heard : AllHeard before) (same : after.processes = before.processes) :
    AllHeard after := by
  unfold AllHeard
  rwa [same]

private theorem heard_of_launch {infoType : InfoType} {bdaddr : Text} (heard : AllHeard before)
    (step : LaunchStep infoType bdaddr before after) : AllHeard after := by
  cases step with
  | launch =>
      intro process member
      rcases List.mem_append.mp member with old | new
      · exact heard process old
      · obtain rfl := List.mem_singleton.mp new
        exact fun answered => absurd rfl answered
  | startThread => exact heard_of_modify heard (fun _ _ _ _ => rfl) rfl
  | _ => exact heard_of_same heard rfl

private theorem heard_of_worker {radio : Radio} {held : List Lock} (heard : AllHeard before)
    (step : WorkerStep radio held before after) : AllHeard after := by
  cases step with
  | sort step => cases step <;> exact heard_of_same heard rfl
  | loop step =>
      cases step with
      | delete step => cases step <;> exact heard_of_same heard rfl
      | _ => exact heard_of_same heard rfl
  | collect step =>
      cases step with
      | stage _ step =>
          cases step with
          | delete step => cases step <;> exact heard_of_same heard rfl
          | attempt => exact heard_of_same heard rfl
          | launch step => exact heard_of_launch heard step
      | _ => exact heard_of_same heard rfl
  | _ => exact heard_of_same heard rfl

private theorem heard_of_anyStep (heard : AllHeard before) (step : AnyStep settings before after) :
    AllHeard after := by
  rcases step with ⟨thread, held, step⟩ | ⟨event, happened⟩
  · cases thread with
    | monitor =>
        rcases step with ⟨line, rfl⟩ | ⟨asked, step⟩
        · exact heard_of_same heard rfl
        · cases step <;> exact heard_of_same heard rfl
    | worker radio => exact heard_of_worker heard step.1
    | tool number =>
        obtain ⟨process, step⟩ := step
        cases step with
        | kill =>
            have keeps : ∀ process : Process, Heard process → Heard process.kill := fun _ => id
            exact heard_of_modify heard (fun process _ => keeps process) rfl
        | delete step => cases step <;> exact heard_of_same heard rfl
        | _ => exact heard_of_same heard rfl
  · rcases environment_cases happened with ⟨_, _, _, _, _, _, _, rfl⟩ |
      ⟨number, process, changed, found, answered, rfl⟩ | ⟨_, _, _, rfl⟩
    · exact heard_of_same heard rfl
    · have keeps : ∀ other, before.processes[number]? = some other → Heard other →
          Heard changed := by
        intro other there held
        obtain rfl : process = other := Option.some.inj (found.symm.trans there)
        rcases changed_cases answered with ⟨_, _, rfl⟩ | ⟨runs, _, _, _, rfl⟩
        · exact held
        · exact fun _ => runs
      exact heard_of_modify heard keeps rfl
    · exact heard_of_same heard rfl

private theorem heard_of_reachable {config : Config Lock ThreadId Data Site}
    (reachable : (launcher settings).Reachable initial config) : AllHeard config.shared.data := by
  induction reachable with
  | refl => exact fun _ member => absurd member List.not_mem_nil
  | tail earlier stepped inductionHypothesis =>
      exact heard_of_anyStep inductionHypothesis (anyStep_of_steps earlier stepped.1)

end Started

/-! ## What happens to an address -/

section Runs

variable {settings : Settings} {radio : Radio} {bdaddr : Text}
variable {execution : Execution (launcher settings)} {first last moment : Nat}

/-- The handler of a tool that has succeeded for the address has not come to its end. -/
def HandlerAtWork (radio : Radio) (bdaddr : Text) (config : Config Lock ThreadId Data Site) : Prop :=
  ∃ infoType number, infoType.radio = radio ∧
    ToolSucceeded infoType bdaddr number config.shared.data ∧ config.ended (.tool number) = false

/-- All prints of the radio have succeeded for the address, and it is not tracked. -/
def Removed (radio : Radio) (bdaddr : Text) (data : Data) : Prop :=
  AllSucceeded radio bdaddr data ∧ bdaddr ∉ data.bdaddrs radio

/-- The worker counts an attempt for the address. -/
def Selects (execution : Execution (launcher settings)) (radio : Radio) (bdaddr : Text)
    (moment : Nat) : Prop :=
  (execution.state (moment + 1)).shared.data.ghost.trace =
    (execution.state moment).shared.data.ghost.trace ++ [.selected radio bdaddr]

/-- The address becomes tracked: on a [NEW] line for it, or because the worker moves it
back from the deprioritized dictionary. -/
def Retracked (execution : Execution (launcher settings)) (radio : Radio) (bdaddr : Text)
    (moment : Nat) : Prop :=
  TracksNew execution radio bdaddr moment ∨ (execution.Moves (.worker radio) moment ∧
    (execution.state moment).shared.data.ghost.reprioritizing radio = some bdaddr)

end Runs

/-! ## A run with three selections -/

/-- The shipped settings with the second BLE print turned on. -/
private def bothPrints : Settings := { Settings.shipped with ble2thprintEnabled := true }

private def deviceAnnounced : Schedule := Schedule.handed (deviceLine newWord "AA BLE public A".toList) 5

/-- The worker launches both tools, and both succeed. -/
private def toolsSucceed : Schedule :=
  Schedule.pass .ble 25 ++
    [.environment (.processExits 0 0), .environment (.processExits 1 0),
      .environment (.waitReturns 0), .environment (.waitReturns 1)] ++
    Schedule.resume (.tool 0) 9 ++ Schedule.resume (.tool 1) 12 ++
    Schedule.resume (.worker .ble) 3

/-- The device is announced again, and the worker selects and removes it. -/
private def deviceReturns : Schedule :=
  deviceAnnounced ++ Schedule.resume (.worker .ble) 1 ++ Schedule.pass .ble 26

private def threeSelections : Schedule := deviceAnnounced ++ toolsSucceed ++ deviceReturns ++ deviceReturns

private def withThreeSelections : Execution (launcher bothPrints) :=
  Execution.following initial threeSelections (.run .monitor)

private def afterChoices (count : Nat) : Option (Config Lock ThreadId Data Site) :=
  (launcher bothPrints).exec (fun _ _ => true) (threeSelections.take count) initial

private theorem holds_afterChoices {moment : Nat} {wanted : Config Lock ThreadId Data Site → Bool}
    (within : moment ≤ threeSelections.length) (found : (afterChoices moment).any wanted = true) :
    wanted (withThreeSelections.state moment) = true := by
  obtain ⟨config, executed, wants⟩ := (Option.any_eq_true _ _).mp found
  have reached : withThreeSelections.state moment = config :=
    Execution.state_following_take within executed
  rwa [reached]

private theorem selects_afterChoices {moment : Nat} (within : moment < threeSelections.length)
    (counted : (afterChoices (moment + 1)).any (fun next => (afterChoices moment).any fun config =>
      decide (next.shared.data.ghost.trace =
        config.shared.data.ghost.trace ++ [.selected .ble "aa".toList])) = true) :
    Selects withThreeSelections .ble "aa".toList moment := by
  have later := holds_afterChoices within counted
  have both := holds_afterChoices (Nat.le_of_lt within) later
  exact (decide_eq_true_iff.mp both : _ = _)

set_option maxRecDepth 4000 in
private theorem selects_second : Selects withThreeSelections .ble "aa".toList 73 :=
  selects_afterChoices (by decide +kernel) (by decide +kernel)

set_option maxRecDepth 4000 in
private theorem selects_third : Selects withThreeSelections .ble "aa".toList 107 :=
  selects_afterChoices (by decide +kernel) (by decide +kernel)

private def bothWritten (config : Config Lock ThreadId Data Site) : Bool :=
  decide ("aa".toList ∈ config.shared.data.successBdaddrs .gatt ∧
    "aa".toList ∈ config.shared.data.successBdaddrs .ll2thprint)

set_option maxRecDepth 4000 in
private theorem allSucceeded_second :
    AllSucceeded .ble "aa".toList (withThreeSelections.state 73).shared.data := by
  have both : bothWritten (withThreeSelections.state 73) = true :=
    holds_afterChoices (by decide +kernel) (by decide +kernel)
  obtain ⟨gatt, ll2thprint⟩ := of_decide_eq_true both
  intro infoType own
  cases infoType with
  | gatt => exact gatt
  | ll2thprint => exact ll2thprint
  | _ => cases own

/-! ## Removals -/

section Removals

variable {settings : Settings} {radio : Radio} {bdaddr : Text}
variable {execution : Execution (launcher settings)} {first last moment : Nat}

/-- While a handler of the radio is at work, the worker leaves its address alone. -/
theorem clear_of_handler {config : Config Lock ThreadId Data Site}
    (reachable : (launcher settings).Reachable initial config)
    (atWork : HandlerAtWork radio bdaddr config) :
    bdaddr ∉ config.shared.data.ghost.unvisited radio ∧
      Clear settings radio bdaddr (config.thread (.worker radio))
        (config.shared.data.ghost.unvisited radio) := by
  obtain ⟨infoType, number, own, ⟨process, found, ofType, rfl, returned⟩, unended⟩ := atWork
  have runs : process.threadStarted = true :=
    heard_of_reachable reachable process (List.mem_of_getElem? found) (by simp [returned])
  obtain ⟨apart, clear⟩ := clear_of_atWork reachable found runs (by rw [ofType, own]) unended
  exact ⟨apart, clear _⟩

/-- The worker is neither about to select the address nor to take it from its snapshot. -/
structure Rested (settings : Settings) (radio : Radio) (bdaddr : Text)
    (config : Config Lock ThreadId Data Site) : Prop where
  visited : bdaddr ∉ config.shared.data.ghost.unvisited radio
  stands : Clear settings radio bdaddr (config.thread (.worker radio))
    (config.shared.data.ghost.unvisited radio)

/-- A tool thread that moves has been started. -/
private theorem started_of_moves_tool {number : Nat} (begins : execution.start = initial)
    (moves : execution.Moves (.tool number) moment) :
    Started number (execution.state moment).shared.data ∧
      (execution.state moment).ended (.tool number) = false := by
  rcases Execution.step_of_moves moves with ⟨_, stepped⟩ | ⟨input, starting⟩
  · have unended : (execution.state moment).ended (.tool number) = false := by
      unfold Config.ended
      cases program : (execution.state moment).thread (.tool number) with
      | done value => simp [program] at stepped
      | raised => simp [program] at stepped
      | _ => rfl
    refine ⟨?_, unended⟩
    apply ((waits_of_reachable (reachable_of_initial begins moment)).tools number).elim _ id
    intro runs
    rw [runs] at stepped
    obtain ⟨enabled, _, _⟩ := step_act.mp stepped
    obtain ⟨process, found, started⟩ := (Option.any_eq_true _ _).mp enabled
    exact ⟨process, found, started⟩
  · have entered := (Execution.started_of_moves starting moves).2.1
    cases input <;> cases entered

/-- After a step of a tool thread of the radio for the address, the worker still leaves
the address alone. -/
private theorem rested_of_tool {infoType : InfoType} {number : Nat}
    (begins : execution.start = initial) (moves : execution.Moves (.tool number) moment)
    (before : moment < last) (own : infoType.radio = radio)
    (succeeded : ToolSucceeded infoType bdaddr number (execution.state last).shared.data) :
    Rested settings radio bdaddr (execution.state (moment + 1)) := by
  have reachable := reachable_of_initial begins moment
  obtain ⟨⟨process, found, runs⟩, unended⟩ := started_of_moves_tool begins moves
  obtain ⟨final, there, ofType, ofAddress, _⟩ := succeeded
  obtain ⟨later, still, continues⟩ :=
    (lasting_of_le begins (Nat.le_of_lt before)).processes found
  obtain rfl : final = later := Option.some.inj (there.symm.trans still)
  have address : process.bdaddr = bdaddr := by rw [← continues.bdaddr, ofAddress]
  have ofRadio : process.infoType.radio = radio := by rw [← continues.infoType, ofType, own]
  obtain ⟨apart, clear⟩ := clear_of_atWork reachable found runs ofRadio unended
  have chosen : execution.schedule moment = .run (.tool number) := by
    rcases Execution.step_of_moves moves with ⟨chosen, _⟩ | ⟨input, starting⟩
    · exact chosen
    · have entered := (Execution.started_of_moves starting moves).2.1
      cases input <;> cases entered
  have thread : (execution.state (moment + 1)).thread (.worker radio) =
      (execution.state moment).thread (.worker radio) := by
    apply Execution.thread_of_not_moves
    rintro ⟨mover, _⟩
    rw [chosen] at mover
    cases mover
  rcases execution.state_succ moment with same | stepped
  · rw [same]
    exact ⟨address ▸ apart, clear bdaddr⟩
  · rw [chosen] at stepped
    obtain ⟨_, _, step⟩ := threadStep_of_run reachable stepped
    have still : Still radio bdaddr _ _ := still_of_others step (by simp)
    apply Rested.mk
    · rw [still.unvisited]
      exact address ▸ apart
    · rw [thread, still.unvisited]
      exact clear bdaddr

/-- Once all prints of the radio have succeeded for an address, a handler is still at
work for it, or one of them has left it untracked by its last step on it. -/
theorem handled_or_atWork (begins : execution.start = initial)
    (all : AllSucceeded radio bdaddr (execution.state last).shared.data) :
    HandlerAtWork radio bdaddr (execution.state last) ∨ ∃ removal, removal ≤ last ∧
      Removed radio bdaddr (execution.state removal).shared.data ∧
      Rested settings radio bdaddr (execution.state removal) := by
  by_cases atWork : HandlerAtWork radio bdaddr (execution.state last)
  · exact .inl atWork
  apply Or.inr
  have handled : ∀ infoType, ∃ moment, infoType.radio = radio → moment < last ∧
      Rested settings radio bdaddr (execution.state (moment + 1)) ∧
      (handlerAim infoType bdaddr).attained (execution.state (moment + 1)).shared.data := by
    intro infoType
    by_cases own : infoType.radio = radio
    swap
    · exact ⟨0, fun same => absurd same own⟩
    obtain ⟨number, succeeded⟩ :=
      backed_of_reachable (reachable_of_initial begins last) infoType bdaddr (all infoType own)
    have ended : (execution.state last).ended (.tool number) = true := by
      by_contra unended
      exact atWork ⟨infoType, number, own, succeeded, by simpa using unended⟩
    have unstarted : (execution.state 0).thread (.tool number) = ApplicationThread.run number := by
      show execution.start.thread _ = _
      rw [begins]
      rfl
    obtain ⟨moment, _, before, moves, attained⟩ :=
      handled_of_ended begins unstarted (Nat.zero_le last) succeeded ended
    exact ⟨moment, fun _ => ⟨before, rested_of_tool begins moves before own succeeded, attained⟩⟩
  choose moments facts using handled
  obtain ⟨latest, own, later⟩ := exists_latest radio moments
  obtain ⟨before, rested, attained⟩ := facts latest own
  have written : AllSucceeded radio bdaddr (execution.state (moments latest + 1)).shared.data := by
    intro infoType ownToo
    apply (lasting_of_le begins (Nat.succ_le_succ (later infoType ownToo))).succeeded
    exact (facts infoType ownToo).2.2.1
  refine ⟨moments latest + 1, before, ⟨written, ?_⟩, rested⟩
  rw [← own] at written ⊢
  exact attained.2 written

/-! ## Selections -/

theorem Selects.counts (selects : Selects execution radio bdaddr moment) :
    selections radio bdaddr (execution.state (moment + 1)).shared.data =
      selections radio bdaddr (execution.state moment).shared.data + 1 := by
  unfold selections
  rw [show _ = _ from selects, List.count_append, List.count_singleton_self]

theorem Rested.not_selects (begins : execution.start = initial)
    (rested : Rested settings radio bdaddr (execution.state moment)) :
    ¬ Selects execution radio bdaddr moment := by
  intro selects
  have counts := selects.counts
  rcases execution.state_succ moment with same | stepped
  · rw [same] at counts
    omega
  · rcases worker_or_still bdaddr (reachable_of_initial begins moment) ⟨_, stepped⟩ with
      own | ⟨_, same⟩ | ⟨_, still⟩
    · have unselected := (rested.stands.step own).1
      omega
    · rw [same] at counts
      omega
    · have unselected := still.selections
      omega

/-- A step that neither finds nor makes the address tracked. -/
private theorem Rested.succ (begins : execution.start = initial)
    (rested : Rested settings radio bdaddr (execution.state moment))
    (untracked : bdaddr ∉ (execution.state moment).shared.data.bdaddrs radio) :
    Rested settings radio bdaddr (execution.state (moment + 1)) := by
  rcases execution.state_succ moment with same | stepped
  · rwa [same]
  · rcases worker_or_still bdaddr (reachable_of_initial begins moment) ⟨_, stepped⟩ with
      own | ⟨starts, same⟩ | ⟨thread, still⟩
    · obtain ⟨_, listed, stands⟩ := rested.stands.step own
      apply Rested.mk
      · exact fun member => (listed member).elim rested.visited untracked
      · exact stands.resolve_right fun taken => rested.visited taken.1
    · apply Rested.mk
      · rw [same]
        exact rested.visited
      · rw [starts]
        exact clear_threadFunction
    · apply Rested.mk
      · rw [still.unvisited]
        exact rested.visited
      · rw [thread, still.unvisited]
        exact rested.stands

/-- An address that the worker leaves alone and that is not tracked stays so until it is
tracked anew. -/
private theorem rested_until {removal : Nat} (begins : execution.start = initial)
    (rested : Rested settings radio bdaddr (execution.state removal))
    (untracked : bdaddr ∉ (execution.state removal).shared.data.bdaddrs radio)
    (later : removal ≤ moment)
    (nothing : ∀ between, removal ≤ between → between < moment →
      ¬ Retracked execution radio bdaddr between) :
    Rested settings radio bdaddr (execution.state moment) ∧
      bdaddr ∉ (execution.state moment).shared.data.bdaddrs radio := by
  induction moment, later using Nat.le_induction with
  | base => exact ⟨rested, untracked⟩
  | succ moment later inductionHypothesis =>
      obtain ⟨rests, missing⟩ := inductionHypothesis fun between after before =>
        nothing between after (by omega)
      apply And.intro (rests.succ begins missing)
      intro tracked
      exact nothing moment later (Nat.lt_succ_self moment) (tracked_cases begins missing tracked)

/-- A worker selects an address whose prints have all succeeded only after it has been
untracked by then, and tracked anew since. -/
theorem selected_after_removal (begins : execution.start = initial)
    (all : AllSucceeded radio bdaddr (execution.state moment).shared.data)
    (selects : Selects execution radio bdaddr moment) :
    ∃ removal tracking, removal ≤ tracking ∧ tracking < moment ∧
      Removed radio bdaddr (execution.state removal).shared.data ∧
      Retracked execution radio bdaddr tracking := by
  rcases handled_or_atWork begins all with atWork | ⟨removal, before, removed, rested⟩
  · obtain ⟨apart, clear⟩ := clear_of_handler (reachable_of_initial begins moment) atWork
    have rested : Rested settings radio bdaddr (execution.state moment) := ⟨apart, clear⟩
    exact absurd selects (rested.not_selects begins)
  · by_contra nothing
    have rests : Rested settings radio bdaddr (execution.state moment) := by
      apply (rested_until begins rested removed.2 before _).1
      exact fun between after sooner retracked =>
        nothing ⟨removal, between, after, sooner, removed, retracked⟩
    exact rests.not_selects begins selects

theorem selected_after_removal_second : ∃ (execution : Execution (launcher bothPrints))
    (removal tracking : Nat), removal ≤ tracking ∧ tracking < 73 ∧
    Removed .ble "aa".toList (execution.state removal).shared.data ∧
    Retracked execution .ble "aa".toList tracking :=
  ⟨withThreeSelections, selected_after_removal rfl allSucceeded_second selects_second⟩

/-- While a tool thread of the radio is at work, the worker selects no address. -/
theorem not_selects_of_atWork {number : Nat} {process : Process} (begins : execution.start = initial)
    (found : (execution.state moment).shared.data.processes[number]? = some process)
    (started : process.threadStarted = true) (own : process.infoType.radio = radio)
    (atWork : (execution.state moment).ended (.tool number) = false) :
    ¬ Selects execution radio bdaddr moment := by
  intro selects
  have counts := selects.counts
  have reachable := reachable_of_initial begins moment
  obtain ⟨_, clear⟩ := clear_of_atWork reachable found started own atWork
  rcases execution.state_succ moment with same | stepped
  · rw [same] at counts
    omega
  · rcases worker_or_still bdaddr reachable ⟨_, stepped⟩ with ownStep | ⟨_, same⟩ | ⟨_, still⟩
    · have unselected := ((clear bdaddr).step ownStep).1
      omega
    · rw [same] at counts
      omega
    · have unselected := still.selections
      omega

private def toolAtWork (config : Config Lock ThreadId Data Site) : Bool :=
  (config.shared.data.processes[0]?.any fun process =>
    process.threadStarted && decide (process.infoType.radio = .ble)) && !config.ended (.tool 0)

set_option maxRecDepth 4000 in
theorem not_selects_of_atWork_answered : ∃ execution : Execution (launcher bothPrints),
    ¬ Selects execution .ble "aa".toList 36 := by
  have working : toolAtWork (withThreeSelections.state 36) = true :=
    holds_afterChoices (by decide +kernel) (by decide +kernel)
  obtain ⟨found, unended⟩ := Bool.and_eq_true_iff.mp working
  obtain ⟨process, there, facts⟩ := (Option.any_eq_true _ _).mp found
  obtain ⟨started, own⟩ := Bool.and_eq_true_iff.mp facts
  exact ⟨withThreeSelections, not_selects_of_atWork rfl there started (of_decide_eq_true own)
    (by simpa using unended)⟩

end Removals

/-! ## The next selection -/

section Stages

variable {settings : Settings} {radio : Radio} {bdaddr : Text} {enabled : InfoType} {data : Data}

/-- With all entries written, an enabled stage finds the address untracked or
untracks it. -/
private theorem attains_runStage {launch : Code Unit} {failed : Data → Prop}
    (runs : settings.printEnabled enabled = true)
    (invariant : (handlerAim enabled bdaddr).inv data)
    (all : AllSucceeded enabled.radio bdaddr data) :
    (runStage settings enabled bdaddr launch).Attains (handlerAim enabled bdaddr)
      (fun _ _ => False) failed data := by
  unfold runStage
  rw [if_pos runs]
  apply attains_bind (fun _ _ => False) invariant
  · apply attains_withLock
    apply attains_bind (fun found now => found = true ∧ AllSucceeded enabled.radio bdaddr now)
      invariant
    · apply attains_look
      exact fun now later _ relied further _ =>
        ⟨decide_eq_true (relied.all all enabled rfl), further.all (relied.all all)⟩
    · rintro found now holds ⟨rfl, written⟩
      exact attains_bind (fun _ _ => False) holds (attains_deleteIfAllDone holds written)
        fun _ _ _ impossible => impossible.elim
  · exact fun _ _ _ impossible => impossible.elim

/-- The stages of a radio do not come to their end. -/
private theorem attains_stagesOf (own : enabled.radio = radio)
    (runs : settings.printEnabled enabled = true)
    (invariant : (handlerAim enabled bdaddr).inv data) (all : AllSucceeded radio bdaddr data) :
    (stagesOf settings radio bdaddr).Attains (handlerAim enabled bdaddr) (fun _ _ => False)
      (AllSucceeded radio bdaddr) data := by
  subst own
  let stage : InfoType → Code Unit := fun infoType =>
    runStage settings infoType bdaddr (launchOf infoType bdaddr)
  have first : ∀ next : Code Unit, (stage enabled >>= fun _ => next).Attains
      (handlerAim enabled bdaddr) (fun _ _ => False) (AllSucceeded enabled.radio bdaddr) data :=
    fun _ => attains_bind _ invariant (attains_runStage runs invariant all)
      fun _ _ _ impossible => impossible.elim
  have second : ∀ other : InfoType, other.radio = enabled.radio →
      (stage other >>= fun _ => stage enabled).Attains
      (handlerAim enabled bdaddr) (fun _ _ => False) (AllSucceeded enabled.radio bdaddr) data := by
    intro other same
    have within : (stage other).Within (StageStep other bdaddr) [] [] :=
      runStage_within settings launchOf_within
    have lasting : ∀ held before after, StageStep other bdaddr held before after →
        Lasting before after := fun _ _ _ step => lasting_of_worker (.collect (.stage same step))
    apply attains_bind _ invariant (attains_of_within within lasting fun _ relied _ => relied.all all)
    exact fun _ _ holds written => attains_runStage runs holds written
  cases enabled with
  | gatt => exact first (stage .ll2thprint)
  | ll2thprint => exact second .gatt rfl
  | lmp2thprint => exact first (stage .sdp)
  | sdp => exact second .lmp2thprint rfl

end Stages

section Again

variable {settings : Settings} {radio : Radio} {bdaddr : Text}
variable {execution : Execution (launcher settings)} {first second moment : Nat}

/-- Where the worker stands after it has selected the address. -/
structure Selected (settings : Settings) (radio : Radio) (bdaddr : Text)
    (config : Config Lock ThreadId Data Site) : Prop where
  rested : Rested settings radio bdaddr config
  stands : ∃ rest, config.thread (.worker radio) = stagesOf settings radio bdaddr >>= rest

private theorem selected_of_selects (begins : execution.start = initial)
    (selects : Selects execution radio bdaddr moment) :
    Selected settings radio bdaddr (execution.state (moment + 1)) := by
  have counts := selects.counts
  have reachable := reachable_of_initial begins moment
  rcases execution.state_succ moment with same | stepped
  · rw [same] at counts
    omega
  rcases worker_or_still bdaddr reachable ⟨_, stepped⟩ with own | ⟨_, same⟩ | ⟨_, still⟩
  · obtain ⟨running, supervised⟩ := supervised_of_reachable reachable radio
    have visited := (supervised.worker.step own).1.selected bdaddr selects
    have position : Position settings radio bdaddr (execution.state moment) :=
      position_of_reachable reachable
    cases position with
    | clear stands =>
        have unselected := (stands.step own).1
        omega
    | visiting stands =>
        have unselected := (stands.step own).1
        omega
    | counting stands =>
        refine ⟨⟨visited, (stands.step own).2.1⟩, ?_⟩
        obtain ⟨total, skipCount, standsBefore⟩ := stands
        rw [standsBefore] at own
        unfold collectFrom collectBdaddr countAttempt at own
        rw [bind_bind] at own
        obtain ⟨_, left, changed⟩ := step_act.mp own
        rw [← changed] at counts
        rw [← left]
        simp only [Shared.setData_data] at counts ⊢
        cases present : (execution.state moment).shared.data.deviceConnectAttempts.lookup bdaddr with
        | none =>
            simp only [present] at counts
            omega
        | some attempts => exact ⟨_, bind_bind _ _ _⟩
  · rw [same] at counts
    omega
  · have unselected := still.selections
    omega

/-- A step of a stage leaves the snapshot alone. -/
private theorem unvisited_of_collect {held : List Lock} {before after : Data}
    (step : CollectStep radio bdaddr held before after) :
    after.ghost.unvisited = before.ghost.unvisited := by
  cases step with
  | stage _ step =>
      cases step with
      | delete step => cases step <;> rfl
      | attempt => rfl
      | launch step => cases step <;> rfl
  | _ => rfl

/-- While the worker does not move, the others leave the address alone. -/
private theorem still_of_not_moves (begins : execution.start = initial)
    (waits : ¬ execution.Moves (.worker radio) moment) :
    Still radio bdaddr (execution.state moment).shared.data
      (execution.state (moment + 1)).shared.data := by
  rcases execution.state_succ moment with same | stepped
  · rw [same]
    exact .of_same rfl rfl
  · rcases worker_or_still bdaddr (reachable_of_initial begins moment) ⟨_, stepped⟩ with
      own | ⟨_, same⟩ | ⟨_, still⟩
    · have follows := follows_of_step own
      rw [Execution.thread_of_not_moves waits] at follows
      exact absurd follows (follows_wellFounded.asymmetric _ _ follows)
    · rw [same]
      exact .of_same rfl rfl
    · exact still

/-- While the worker is at the stages, it leaves the address alone. -/
private theorem rested_of_works {rest : Unit → Code Unit} {left : Code Unit}
    (begins : execution.start = initial)
    (works : execution.Works (.worker radio) (stagesOf settings radio bdaddr) rest first left second)
    (rested : Rested settings radio bdaddr (execution.state first)) (after : first ≤ moment)
    (before : moment ≤ second) : Rested settings radio bdaddr (execution.state moment) := by
  induction moment, after using Nat.le_induction with
  | base => exact rested
  | succ moment after inductionHypothesis =>
      have rests := inductionHypothesis (by omega)
      have same : (execution.state (moment + 1)).shared.data.ghost.unvisited radio =
          (execution.state moment).shared.data.ghost.unvisited radio := by
        by_cases moves : execution.Moves (.worker radio) moment
        · obtain ⟨held, step⟩ := works.shape_of_moves (fun _ _ => .same) (stagesOf_within settings)
            after before moves
          rw [unvisited_of_collect step]
        · exact (still_of_not_moves begins moves : Still radio bdaddr _ _).unvisited
      apply Rested.mk
      · rw [same]
        exact rests.visited
      · rcases execution.state_succ moment with unchanged | stepped
        · rw [unchanged]
          exact rests.stands
        · rcases worker_or_still bdaddr (reachable_of_initial begins moment) ⟨_, stepped⟩ with
            own | ⟨starts, _⟩ | ⟨thread, _⟩
          · exact (rests.stands.step own).2.2.resolve_right fun taken => rests.visited taken.1
          · rw [starts]
            exact clear_threadFunction
          · rw [thread, same]
            exact rests.stands

/-- Once all prints of the radio have succeeded for the address, two selections by the
worker have between them a removal of the address and, after it, a new tracking. -/
theorem selected_again (begins : execution.start = initial)
    (runs : ∃ infoType, infoType.radio = radio ∧ settings.printEnabled infoType = true)
    (all : AllSucceeded radio bdaddr (execution.state first).shared.data)
    (selects : Selects execution radio bdaddr first)
    (again : Selects execution radio bdaddr second) (later : first < second) :
    ∃ removal tracking, first < removal ∧ removal ≤ tracking ∧ tracking < second ∧
      Removed radio bdaddr (execution.state removal).shared.data ∧
      Retracked execution radio bdaddr tracking := by
  obtain ⟨enabled, own, runs⟩ := runs
  obtain ⟨rested, rest, stands⟩ := selected_of_selects begins selects
  have waited : ∀ moment, (handlerAim enabled bdaddr).inv (execution.state moment).shared.data :=
    fun moment => waited_of_reachable (reachable_of_initial begins moment)
  have written : ∀ moment, first ≤ moment →
      AllSucceeded radio bdaddr (execution.state moment).shared.data :=
    fun moment after => (lasting_of_le begins after).all all
  have attains := attains_stagesOf own runs (waited (first + 1)) (written _ (Nat.le_succ first))
  have aim : ∀ {left : Code Unit} {last : Nat}, execution.Works (.worker radio)
      (stagesOf settings radio bdaddr) rest (first + 1) left last → last ≤ second →
      (∃ removal, first < removal ∧ removal ≤ last ∧
        Removed radio bdaddr (execution.state removal).shared.data ∧
        Rested settings radio bdaddr (execution.state removal)) ∨
      (left.Attains (handlerAim enabled bdaddr) (fun _ _ => False) (AllSucceeded radio bdaddr)
        (execution.state last).shared.data ∧ Rested settings radio bdaddr (execution.state last)) := by
    intro left last works before
    have rests : ∀ moment, first + 1 ≤ moment → moment ≤ last →
        Rested settings radio bdaddr (execution.state moment) :=
      fun moment after early => rested_of_works begins works rested after early
    rcases works.attained_or_attains waited (lasting_succ begins) attains with
      ⟨moment, after, sooner, attained⟩ | onward
    · apply Or.inl
      refine ⟨moment + 1, by omega, by omega, ⟨written _ (by omega), ?_⟩,
        rests (moment + 1) (by omega) (by omega)⟩
      have removed := attained.2
      rw [own] at removed
      exact removed (written _ (by omega))
    · exact .inr ⟨onward, rests last works.first_le (Nat.le_refl last)⟩
  have removes : ∃ removal, first < removal ∧ removal ≤ second ∧
      Removed radio bdaddr (execution.state removal).shared.data ∧
      Rested settings radio bdaddr (execution.state removal) := by
    rcases Execution.Works.left_or_done stands (Nat.succ_le_of_lt later) with
      ⟨left, works⟩ | ⟨value, moment, before, works⟩
    · apply (aim works (Nat.le_refl second)).elim id
      exact fun onward => absurd again (onward.2.not_selects begins)
    · rcases aim works before with ⟨removal, after, sooner, removed⟩ | ⟨finished, _⟩
      · exact ⟨removal, after, sooner.trans before, removed⟩
      · exact (finished _ ((handlerAim enabled bdaddr).relyRefl _) (waited moment)).elim
  obtain ⟨removal, after, before, removed, rests⟩ := removes
  by_contra nothing
  have still : Rested settings radio bdaddr (execution.state second) := by
    apply (rested_until begins rests removed.2 before _).1
    exact fun between late sooner retracked =>
      nothing ⟨removal, between, after, late, sooner, removed, retracked⟩
  exact still.not_selects begins again

theorem selected_again_three : ∃ (execution : Execution (launcher bothPrints))
    (removal tracking : Nat), 73 < removal ∧ removal ≤ tracking ∧ tracking < 107 ∧
    Removed .ble "aa".toList (execution.state removal).shared.data ∧
    Retracked execution .ble "aa".toList tracking := by
  have runs : ∃ infoType : InfoType, infoType.radio = .ble ∧
      bothPrints.printEnabled infoType = true := ⟨.gatt, rfl, rfl⟩
  exact ⟨withThreeSelections, selected_again rfl runs allSucceeded_second selects_second
    selects_third (by decide)⟩

end Again

end NaiveBTSniffing.Launcher
