import NaiveBTSniffing.Library.Interleaving.LockOrder
import NaiveBTSniffing.Launcher.Main

/-!
Contract: the launcher never deadlocks on its eight locks.

Every program takes a success lock before a tracked lock and a tracked lock
before a deprioritized lock, so the ranks of the locks exclude a cycle. Owns
the rank and one lemma for each program; the consequences come from
`Library.Interleaving.LockOrder`.
-/

namespace NaiveBTSniffing.Launcher

open NaiveBTSniffing.Library
open NaiveBTSniffing.Library.Interleaving
open NaiveBTSniffing.Library.Interleaving.Prog

/-- The order in which the launcher nests its locks. -/
def Lock.rank : Lock → Nat
  | .success _ => 0
  | .bdaddrs _ => 1
  | .deprioritized _ => 2

/-- A program that gives back every lock it takes, in the order of the ranks,
when it starts with `start` taken. -/
abbrev Ordered (start : List Lock) (program : Code α) : Prop :=
  program.LockOrdered Lock.rank start start

variable {α β : Type} {start : List Lock}

/-! ## Steps -/

private theorem ordered_bind {first : Code α} {rest : α → Code β} (ordered : Ordered start first)
    (remaining : ∀ value, Ordered start (rest value)) : Ordered start (first >>= rest) :=
  lockOrdered_bind first rest ordered remaining

@[simp] private theorem ordered_look (view : Data → α) : Ordered start (Code.look view) :=
  fun _ => rfl

@[simp] private theorem ordered_change (update : Data → Data) :
    Ordered start (Code.change update) :=
  fun _ => rfl

@[simp] private theorem ordered_exchange (update : Data → Data) (view : Data → α) :
    Ordered start (Code.exchange update view) :=
  fun _ => rfl

@[simp] private theorem ordered_demand (update : Data → Data) (view : Data → Option α) :
    Ordered start (Code.demand update view) := by
  intro data
  simp only
  split <;> rfl

private theorem ordered_ite {condition : Prop} [Decidable condition] {yes no : Code α}
    (orderedYes : Ordered start yes) (orderedNo : Ordered start no) :
    Ordered start (if condition then yes else no) := by
  split <;> assumption

/-! ## Shared operations -/

/-- The lock of a tracked dictionary may be taken inside success locks. -/
private theorem whenTracked_ordered (radio : Radio) (bdaddr : Text) {body : Code Unit}
    (below : ∀ other ∈ start, other.rank < 1) (ordered : Ordered (.bdaddrs radio :: start) body) :
    Ordered start (whenTracked radio bdaddr body) :=
  lockOrdered_withLock _ _ below <|
    ordered_bind (ordered_look _) fun _ => ordered_ite ordered (lockOrdered_done _)

private theorem lockedDeleteFromDict_ordered (radio : Radio) (bdaddr : Text)
    (below : ∀ other ∈ start, other.rank < 1) :
    Ordered start (lockedDeleteFromDict radio bdaddr) :=
  whenTracked_ordered _ _ below (ordered_demand _ _)

private theorem deleteIfAllDone_ordered (radio : Radio) (bdaddr : Text)
    (below : ∀ other ∈ start, other.rank < 1) :
    Ordered start (deleteIfAllDone radio bdaddr) := by
  have both : ∀ first second, Ordered start (all2thprintsDone.both bdaddr first second) :=
    fun _ _ => ordered_bind (ordered_look _) fun _ =>
      ordered_ite (ordered_look _) (lockOrdered_done _)
  refine ordered_bind ?_ fun _ =>
    ordered_ite (lockedDeleteFromDict_ordered radio bdaddr below) (lockOrdered_done _)
  cases radio
  · exact both _ _
  · exact both _ _

private theorem externalLogWrite_ordered (infoType : InfoType) (line : LogLine) :
    Ordered start (externalLogWrite infoType line) := by
  unfold externalLogWrite
  split
  · exact ordered_change _
  · exact lockOrdered_done _

private theorem launchTool_ordered (infoType : InfoType) (bdaddr : Text) (arguments : List Text) :
    Ordered start (launchTool infoType bdaddr arguments) := by
  refine ordered_bind (ordered_exchange _ _) fun launched => ?_
  cases launched with
  | none => exact lockOrdered_done _
  | some number =>
      exact ordered_bind (ordered_exchange _ _) fun _ =>
        ordered_ite (ordered_change _) (lockOrdered_done _)

/-! ## The monitor -/

private theorem updateRssi_ordered (radio : Radio) (bdaddr rssiWord : Text) :
    Ordered [] (updateRssi radio bdaddr rssiWord) := by
  refine whenTracked_ordered _ _ (by simp) (ordered_bind (ordered_demand _ _) fun stored => ?_)
  cases Text.parseInt 10 rssiWord with
  | none => exact lockOrdered_raised
  | some rssi =>
      have granted : Ordered [Lock.bdaddrs radio] (grantOneMoreTry bdaddr) :=
        ordered_bind (ordered_demand _ _) fun _ =>
          ordered_ite (ordered_demand _ _) (lockOrdered_done _)
      exact ordered_bind (ordered_ite granted (lockOrdered_done _)) fun _ => ordered_change _

private theorem deprioritize_ordered (radio : Radio) (bdaddr vendor : Text) :
    Ordered [] (deprioritize radio bdaddr vendor) := by
  refine whenTracked_ordered _ _ (by simp) ?_
  refine ordered_bind (ordered_demand _ _) fun _ => ordered_bind ?_ fun _ => ordered_demand _ _
  exact lockOrdered_withLock _ _ (by simp [Lock.rank]) (ordered_change _)

private theorem processCommand_ordered (asked : Command) : Ordered [] (processCommand asked) := by
  cases asked with
  | new bdaddr type addressType =>
      exact ordered_bind (ordered_change _) fun _ =>
        lockOrdered_withLock _ _ (by simp) (ordered_change _)
  | rssi bdaddr rssiWord =>
      exact ordered_bind (updateRssi_ordered _ _ _) fun _ => updateRssi_ordered _ _ _
  | manufacturerData bdaddr more =>
      cases more with
      | nil => exact lockOrdered_raised
      | cons vendor rest =>
          exact ordered_ite
            (ordered_bind (deprioritize_ordered _ _ _) fun _ => deprioritize_ordered _ _ _)
            (lockOrdered_done _)
  | del bdaddr type =>
      simp only [processCommand, processDel]
      split
      · exact lockedDeleteFromDict_ordered _ _ (by simp)
      · exact lockOrdered_raised
  | ignored => exact lockOrdered_done _

/-! ## The tool threads -/

private theorem report_ordered (infoType : InfoType) (bdaddr : Text) (retCode : Int) :
    Ordered [] (ApplicationThread.report infoType bdaddr retCode) := by
  refine ordered_ite (ordered_bind (externalLogWrite_ordered _ _) fun _ => ?_)
    (externalLogWrite_ordered _ _)
  exact lockOrdered_withLock _ _ (by simp) <|
    ordered_bind (ordered_change _) fun _ => deleteIfAllDone_ordered _ _ (by simp [Lock.rank])

private theorem run_ordered (number : Nat) : Ordered [] (ApplicationThread.run number) := by
  refine ordered_bind (lockOrdered_await _ _ _) fun started => ?_
  cases started with
  | none => exact lockOrdered_done _
  | some process =>
      refine ordered_bind (lockOrdered_await _ _ _) fun waited => ?_
      match waited with
      | some (.returned retCode) =>
          exact ordered_bind (ordered_look _) fun _ =>
            ordered_ite (ordered_change _) (report_ordered _ _ _)
      | some .timeoutExpired =>
          exact ordered_bind (ordered_change _) fun _ => externalLogWrite_ordered _ _
      | none => exact lockOrdered_done _

/-! ## The workers -/

private theorem reprioritize_ordered (lockRadio radio : Radio) (bdaddr : Text) :
    Ordered [] (reprioritize lockRadio radio bdaddr) := by
  refine lockOrdered_withLock _ _ (by simp) <|
    lockOrdered_withLock _ _ (by simp [Lock.rank]) ?_
  refine ordered_bind (ordered_look _) fun _ => ordered_ite ?_ (lockOrdered_done _)
  exact ordered_bind (ordered_demand _ _) fun _ => ordered_bind (ordered_demand _ _) fun _ =>
    ordered_change _

private theorem readRssis_ordered (radio : Radio) (bdaddrs : List Text) :
    Ordered [] (readRssis radio bdaddrs) := by
  induction bdaddrs with
  | nil => exact lockOrdered_done _
  | cons bdaddr rest inductionHypothesis =>
      exact ordered_bind (ordered_demand _ _) fun _ =>
        ordered_bind inductionHypothesis fun _ => lockOrdered_done _

private theorem runStage_ordered (settings : Settings) (infoType : InfoType) (bdaddr : Text)
    {launch : Code Unit} (ordered : Ordered [] launch) :
    Ordered [] (runStage settings infoType bdaddr launch) := by
  refine ordered_ite (ordered_bind ?_ fun _ => ?_) (lockOrdered_done _)
  · refine lockOrdered_withLock _ _ (by simp) <| ordered_bind (ordered_look _) fun _ => ?_
    exact ordered_ite
      (ordered_bind (deleteIfAllDone_ordered _ _ (by simp [Lock.rank])) fun _ =>
        lockOrdered_done _)
      (lockOrdered_done _)
  · exact ordered_ite (lockOrdered_done _) <|
      ordered_bind (ordered_look _) fun _ => ordered_ite ordered (lockOrdered_done _)

private theorem launchGatt_ordered (bdaddr : Text) : Ordered [] (launchGatt bdaddr) :=
  whenTracked_ordered _ _ (by simp) <|
    ordered_bind (externalLogWrite_ordered _ _) fun _ =>
      ordered_bind (ordered_demand _ _) fun _ => launchTool_ordered _ _ _

private theorem shouldSkip_ordered (settings : Settings) (radio : Radio) (bdaddr : Text) :
    Ordered [] (shouldSkip settings radio bdaddr) :=
  ordered_ite (lockOrdered_done _) <| ordered_bind (ordered_demand _ _) fun _ => lockOrdered_done _

private theorem skipBdaddr_ordered (radio : Radio) {reprioritizeBdaddr : Text → Code Unit}
    (ordered : ∀ bdaddr, Ordered [] (reprioritizeBdaddr bdaddr)) (bdaddr : Text)
    (allSkipped : Bool) : Ordered [] (skipBdaddr radio reprioritizeBdaddr bdaddr allSkipped) := by
  refine ordered_bind (lockedDeleteFromDict_ordered _ _ (by simp)) fun _ =>
    ordered_ite (ordered_bind (ordered_look _) fun _ => ?_) (lockOrdered_done _)
  exact ordered_ite (ordered_bind (ordered_demand _ _) fun _ => ordered _) (lockOrdered_done _)

private theorem collectBdaddr_ordered (radio : Radio) {stages : Text → Code Unit}
    (ordered : ∀ bdaddr, Ordered [] (stages bdaddr)) (bdaddr : Text) :
    Ordered [] (collectBdaddr radio stages bdaddr) :=
  ordered_bind (ordered_demand _ _) fun _ => ordered_bind (ordered bdaddr) fun _ =>
    ordered_bind (ordered_look _) fun _ =>
      lockOrdered_forEach _ _ fun _ => lockOrdered_joinThread _

private theorem visit_ordered (settings : Settings) (radio : Radio)
    {stages reprioritizeBdaddr : Text → Code Unit} (total : Nat)
    (orderedStages : ∀ bdaddr, Ordered [] (stages bdaddr))
    (orderedReprioritize : ∀ bdaddr, Ordered [] (reprioritizeBdaddr bdaddr))
    (bdaddrs : List Text) : ∀ skipCount,
    Ordered [] (visit settings radio stages reprioritizeBdaddr total skipCount bdaddrs) := by
  induction bdaddrs with
  | nil => exact fun _ => lockOrdered_done _
  | cons bdaddr rest inductionHypothesis =>
      intro skipCount
      refine ordered_bind (ordered_change _) fun _ =>
        ordered_bind (shouldSkip_ordered _ _ _) fun _ => ordered_ite ?_ ?_
      · exact ordered_bind (skipBdaddr_ordered _ orderedReprioritize _ _) fun _ =>
          inductionHypothesis _
      · exact ordered_bind (collectBdaddr_ordered _ orderedStages _) fun _ =>
          inductionHypothesis _

private theorem passOf_ordered (settings : Settings) (radio : Radio)
    {stages reprioritizeBdaddr : Text → Code Unit}
    (orderedStages : ∀ bdaddr, Ordered [] (stages bdaddr))
    (orderedReprioritize : ∀ bdaddr, Ordered [] (reprioritizeBdaddr bdaddr)) :
    Ordered [] (passOf settings radio stages reprioritizeBdaddr) := by
  refine ordered_bind ?_ fun sorted => ordered_bind ?_ fun _ => lockOrdered_await _ _ _
  · exact ordered_bind (ordered_exchange _ _) fun _ =>
      ordered_bind (readRssis_ordered _ _) fun _ =>
        ordered_bind (ordered_change _) fun _ => lockOrdered_done _
  · exact visit_ordered _ _ _ orderedStages orderedReprioritize _ _

private theorem threadFunction_ordered (settings : Settings) (radio : Radio) :
    Ordered [] (threadFunction settings radio) := by
  cases radio with
  | ble =>
      refine passOf_ordered _ _ (fun bdaddr => ?_) fun _ => reprioritize_ordered _ _ _
      exact ordered_bind (runStage_ordered _ _ _ (launchGatt_ordered _)) fun _ =>
        runStage_ordered _ _ _ (launchTool_ordered _ _ _)
  | btc =>
      refine passOf_ordered _ _ (fun bdaddr => ?_) fun _ => reprioritize_ordered _ _ _
      exact ordered_bind
        (runStage_ordered _ _ _
          (ordered_bind (externalLogWrite_ordered _ _) fun _ => launchTool_ordered _ _ _))
        fun _ => runStage_ordered _ _ _
          (ordered_bind (externalLogWrite_ordered _ _) fun _ =>
            ordered_bind (ordered_demand _ _) fun _ => launchTool_ordered _ _ _)

/-! ## The system -/

theorem entry_ordered {settings : Settings} {thread : ThreadId} {input : Option Text}
    {program : Code Unit} (entered : (launcher settings).entry thread input = some program) :
    Ordered [] program := by
  match thread, input, entered with
  | .monitor, some line, entered =>
      obtain rfl := Option.some.inj entered
      exact ordered_bind (ordered_change _) fun _ => processCommand_ordered _
  | .worker radio, none, entered =>
      obtain ⟨_, rfl⟩ : settings.threadEnabled radio = true ∧
          threadFunction settings radio = program := by
        simpa [launcher, entry] using entered
      exact threadFunction_ordered settings radio

theorem initial_disciplined : Disciplined Lock.rank initial fun _ => [] where
  ordered := fun thread => by
    cases thread with
    | tool number => exact run_ordered number
    | _ => rfl
  owns := ⟨by simp [initial], by simp⟩

/-- No threads wait for each other's locks in a cycle, no thread waits for a lock
of its own, and no thread joins another while it holds a lock. -/
theorem no_deadlock (settings : Settings) {config : Config Lock ThreadId Data Site}
    (reachable : (launcher settings).Reachable initial config) :
    (∀ thread, ¬ Relation.TransGen config.WaitsFor thread thread) ∧
      (∀ thread lock next, config.thread thread = .acquire lock next →
        config.shared.holder lock ≠ some thread) ∧
      (∀ thread other next, config.thread thread = .join other next →
        ∀ lock, config.shared.holder lock ≠ some thread) := by
  obtain ⟨held, disciplined⟩ := Disciplined.of_reachable entry_ordered reachable
    initial_disciplined
  refine ⟨disciplined.no_cycle, fun thread lock next waiting holds => ?_,
    fun thread other next joining lock => disciplined.free_of_join joining lock⟩
  exact Nat.lt_irrefl _ (disciplined.lower waiting holds)

/-- The monitor holds `ble_bdaddrs_lock` and the BLE worker waits for it. -/
theorem no_deadlock_waiting : ∃ config, (launcher { Settings.shipped with skipTheseAddresses := ["aa".toList] }).Reachable initial config ∧
    config.shared.holder (.bdaddrs .ble) = some .monitor ∧
    ∀ thread, ¬ Relation.TransGen config.WaitsFor thread thread := by
  have holds : leads { Settings.shipped with skipTheseAddresses := ["aa".toList] }
      (fun _ _ => True)
      (Schedule.handed (deviceLine newWord "AA BLE public A".toList) 5 ++ Schedule.pass .ble 4 ++
        Schedule.handed (deviceLine newWord "BB BLE public B".toList) 3)
      initial (fun config =>
        decide (config.shared.holder (.bdaddrs .ble) = some .monitor)) = true := by
    decide
  obtain ⟨config, reachable, held⟩ := run_of_leads holds
  exact ⟨config, reachable, of_decide_eq_true held, (no_deadlock _ reachable).1⟩

end NaiveBTSniffing.Launcher
