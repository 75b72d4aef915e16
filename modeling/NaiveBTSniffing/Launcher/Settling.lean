import Mathlib.Order.Filter.Finite
import NaiveBTSniffing.Library.Interleaving.Fairness
import NaiveBTSniffing.Launcher.Deadlock
import NaiveBTSniffing.Launcher.Progress
import NaiveBTSniffing.Launcher.Refill
import NaiveBTSniffing.Launcher.Selections
import NaiveBTSniffing.Launcher.Snapshot
import NaiveBTSniffing.Launcher.Waits

/-!
Contract: a worker without new lines comes to an end of its work.

Once the monitor rests, every pass of a worker lowers the work left (`pass_owes`),
so from some moment on no worker starts another pass. The workers then stop for
good, the tool threads end, no lock is held any more, and all that a living worker
can stop at is its busy wait with nothing tracked.

`worker_settles` says so for runs in which no worker's sort misses an address and no
open of an output file is refused, and bounds the selections that are still to come.
`worker_unsettled` is the run of a worker that its sort has ended.
-/

namespace NaiveBTSniffing.Launcher

open NaiveBTSniffing.Library
open NaiveBTSniffing.Library.Interleaving
open NaiveBTSniffing.Library.Interleaving.Prog
open Filter

/-- No further line of the log reaches the monitor. -/
def NoFurtherLine {settings : Settings} (execution : Execution (launcher settings)) : Prop :=
  ∀ moment line, execution.schedule moment ≠ .start .monitor (some line)

/-- No thread is passed over for ever, and no worker's next pass. -/
structure FairlyScheduled {settings : Settings} (execution : Execution (launcher settings)) :
    Prop where
  runs : ∀ thread, execution.Fair (.run thread)
  passes : ∀ radio, execution.Fair (.start (.worker radio) none)

/-- Every tool thread that has been started ends. -/
def ToolsEnd {settings : Settings} (execution : Execution (launcher settings)) : Prop :=
  ∀ number moment, Started number (execution.state moment).shared.data →
    ∃ later ≥ moment, (execution.state later).ended (.tool number) = true

section Calm

variable {settings : Settings} {execution : Execution (launcher settings)} {first : Nat}

/-- A thread that cannot start a program comes to a stop. -/
private theorem eventually_still_of_never {thread : ThreadId}
    (never : ∀ moment input, execution.schedule moment = .start thread input →
      (launcher settings).entry thread input = none) :
    ∀ᶠ moment in atTop, ¬ execution.Moves thread moment := by
  apply Execution.eventually_still
  apply Eventually.of_forall
  intro moment input starts moves
  have entered := (Execution.started_of_moves starts moves).2.1
  rw [never moment input starts] at entered
  simp at entered

theorem monitor_stops (silent : NoFurtherLine execution) :
    ∀ᶠ moment in atTop, ¬ execution.Moves .monitor moment := by
  apply eventually_still_of_never
  intro moment input starts
  cases input with
  | none => rfl
  | some line => exact absurd starts (silent moment line)

theorem tool_stops (number : Nat) :
    ∀ᶠ moment in atTop, ¬ execution.Moves (.tool number) moment := by
  apply eventually_still_of_never
  intro moment input starts
  cases input <;> rfl

/-- From this moment on the monitor rests, and the work left does not change. -/
structure CalmFrom (execution : Execution (launcher settings)) (first : Nat) : Prop where
  monitor : ∀ moment ≥ first, ¬ execution.Moves .monitor moment
  workLeft : ∀ radio, ∀ moment ≥ first, workLeft settings radio (execution.state moment).shared.data =
    workLeft settings radio (execution.state first).shared.data

private theorem quiet_of_not_moves {moment : Nat} (rests : ¬ execution.Moves .monitor moment)
    (stepped : (launcher settings).step (execution.schedule moment) (execution.state moment) =
      some (execution.state (moment + 1))) : execution.schedule moment ≠ .run .monitor := by
  intro chosen
  apply rests
  exact ⟨by rw [chosen]; rfl, by rw [stepped]; rfl⟩

variable (reachable : (launcher settings).Reachable initial execution.start)

include reachable in
theorem state_reachable (moment : Nat) :
    (launcher settings).Reachable initial (execution.state moment) :=
  reachable.trans (Execution.reachable (Nat.zero_le moment))

include reachable in
theorem exists_calm (silent : NoFurtherLine execution) : ∃ first, CalmFrom execution first := by
  obtain ⟨first, rests⟩ := eventually_atTop.mp (monitor_stops silent)
  have sinks : ∀ moment ≥ first, (launcher settings).step (execution.schedule moment)
      (execution.state moment) = some (execution.state (moment + 1)) → ∀ radio,
      workLeft settings radio (execution.state (moment + 1)).shared.data ≤
        workLeft settings radio (execution.state moment).shared.data := by
    intro moment after stepped radio
    exact (quiet_of_choice (state_reachable reachable moment) stepped
      (quiet_of_not_moves (rests moment after) stepped) radio).workLeft_le
  have constant : ∀ radio, ∃ last ≥ first, ∀ later ≥ last,
      workLeft settings radio (execution.state later).shared.data =
        workLeft settings radio (execution.state last).shared.data :=
    fun radio => execution.eventually_constant
      (fun config => workLeft settings radio config.shared.data)
      fun moment after stepped => sinks moment after stepped radio
  obtain ⟨lastBle, afterBle, ble⟩ := constant .ble
  obtain ⟨lastBtc, afterBtc, btc⟩ := constant .btc
  apply Exists.intro (max lastBle lastBtc)
  constructor
  · intro moment after
    apply rests
    omega
  · intro radio moment after
    cases radio with
    | ble => exact (ble moment (by omega)).trans (ble _ (by omega)).symm
    | btc => exact (btc moment (by omega)).trans (btc _ (by omega)).symm

/-! ## No more passes -/

variable {radio : Radio}

/-- A worker in a pass that has done nothing yet goes on with it, as long as nothing
is done. -/
private theorem owes_from (calm : CalmFrom execution first)
    (reached : ∀ moment, (launcher settings).Reachable initial (execution.state moment))
    {start : Nat} (after : first ≤ start)
    (owes : ((execution.state start).thread (.worker radio)).Owes
      (progressDebt settings radio (workLeft settings radio (execution.state first).shared.data))
      (fun _ _ => False) (execution.state start).shared.data) {later : Nat} (late : start ≤ later) :
    ((execution.state later).thread (.worker radio)).Owes
      (progressDebt settings radio (workLeft settings radio (execution.state first).shared.data))
      (fun _ _ => False) (execution.state later).shared.data := by
  have unsettled : ∀ moment ≥ first, ¬ (progressDebt settings radio
      (workLeft settings radio (execution.state first).shared.data)).settled
      (execution.state moment).shared.data := by
    intro moment afterFirst
    show ¬ workLeft settings radio (execution.state moment).shared.data < _
    rw [calm.workLeft radio moment afterFirst]
    exact Nat.lt_irrefl _
  induction later, late using Nat.le_induction with
  | base => exact owes
  | succ moment late inductionHypothesis =>
      have afterFirst : first ≤ moment := after.trans late
      rcases execution.state_succ moment with same | stepped
      · rw [same]
        exact inductionHypothesis
      · have quiet := quiet_of_choice (reached moment) stepped
          (quiet_of_not_moves (calm.monitor moment afterFirst) stepped) radio
        have covered : Debt.Covered _ (fun thread => thread = .worker radio)
            (execution.state moment) := .inr ⟨_, rfl, inductionHypothesis⟩
        obtain settled | ⟨_, rfl, still⟩ := covered.step stepped
          (fun _ _ _ => quiet.progressRely)
          fun settled _ => absurd settled (unsettled moment afterFirst)
        · exact absurd settled (unsettled _ (afterFirst.trans (Nat.le_succ moment)))
        · exact still

/-- From some moment on the worker starts no more passes. -/
private theorem passes_stop (calm : CalmFrom execution first)
    (reached : ∀ moment, (launcher settings).Reachable initial (execution.state moment))
    (counted : ∀ moment, Counted (execution.state moment).shared.data) :
    ∀ᶠ moment in atTop, ∀ input, execution.schedule moment = .start (.worker radio) input →
      ¬ execution.Moves (.worker radio) moment := by
  by_cases again : ∃ moment ≥ first, ∃ input,
      execution.schedule moment = .start (.worker radio) input ∧
        execution.Moves (.worker radio) moment
  · obtain ⟨start, after, input, starts, moves⟩ := again
    obtain ⟨_, entered, same⟩ := Execution.started_of_moves starts moves
    have pass : threadFunction settings radio =
        (execution.state (start + 1)).thread (.worker radio) := by
      cases input with
      | none => exact (by simpa [launcher, entry] using entered : _ ∧ _).2
      | some line => simp [launcher, entry] at entered
    have owes : ((execution.state (start + 1)).thread (.worker radio)).Owes (progressDebt settings
        radio (workLeft settings radio (execution.state first).shared.data)) (fun _ _ => False)
        (execution.state (start + 1)).shared.data := by
      rw [← pass]
      apply pass_owes
      · exact (calm.workLeft radio (start + 1) (by omega)).le
      · exact fun bdaddr member => counted (start + 1) radio bdaddr (.inl member)
    apply eventually_atTop.mpr
    apply Exists.intro (start + 1)
    intro later late input restarts moves
    have resting := (Execution.started_of_moves restarts moves).1
    have unpaid := owes_from calm reached (by omega) owes late
    rw [resting] at unpaid
    exact unpaid _ ((progressDebt settings radio _).relyRefl _)
  · apply eventually_atTop.mpr
    apply Exists.intro first
    intro moment after input starts moves
    exact again ⟨moment, after, input, starts, moves⟩

/-! ## No more steps -/

/-- Only a worker launches a process. -/
private theorem processes_length {before after : Config Lock ThreadId Data Site}
    (reached : (launcher settings).Reachable initial before)
    {choice : Choice ThreadId Outside (Option Text)}
    (stepped : (launcher settings).step choice before = some after)
    (other : ∀ radio, choice ≠ .run (.worker radio)) :
    after.shared.data.processes.length = before.shared.data.processes.length := by
  rcases System.steps_of_choice stepped with ⟨thread, _, _, rfl, _, _⟩ |
    ⟨_, _, _, _, _, _, rfl⟩ | ⟨event, data, _, happened, rfl⟩
  · obtain ⟨held, _, step⟩ := threadStep_of_run reached stepped
    generalize after.shared.data = changed at step ⊢
    cases thread with
    | monitor =>
        rcases step with ⟨line, recorded⟩ | ⟨asked, command⟩
        · rw [recorded]
          rfl
        · cases command <;> rfl
    | worker radio => exact absurd rfl (other radio)
    | tool number =>
        obtain ⟨process, tool⟩ := step
        cases tool with
        | kill => simp
        | delete step => cases step <;> rfl
        | _ => rfl
  · rfl
  · rcases environment_cases happened with ⟨_, _, _, _, _, _, _, rfl⟩ | ⟨_, _, _, _, _, rfl⟩ |
      ⟨_, _, _, rfl⟩ <;> simp

/-- A tool thread moves only after its start. -/
private theorem started_of_tool_moves {moment number : Nat}
    (reached : (launcher settings).Reachable initial (execution.state moment))
    (moves : execution.Moves (.tool number) moment) :
    Started number (execution.state moment).shared.data := by
  apply ((waits_of_reachable reached).tools number).elim _ id
  intro runs
  obtain ⟨chosen, possible⟩ := moves
  obtain ⟨after, stepped⟩ := Option.isSome_iff_exists.mp possible
  rcases System.steps_of_choice stepped with ⟨mover, _, _, same, threadStep, _⟩ |
    ⟨mover, input, program, same, resting, _, _⟩ | ⟨event, data, same, _, _⟩
  · rw [same] at chosen
    obtain rfl : mover = .tool number := Option.some.inj chosen
    rw [runs] at threadStep
    obtain ⟨enabled, _, _⟩ := step_act.mp threadStep
    obtain ⟨process, found, started⟩ := (Option.any_eq_true _ _).mp enabled
    exact ⟨process, found, started⟩
  · rw [same] at chosen
    obtain rfl : mover = .tool number := Option.some.inj chosen
    rw [runs] at resting
    exact absurd resting (by simp [ApplicationThread.run, await])
  · simp [same, Choice.mover] at chosen

/-- From some moment on no thread moves any more. -/
private theorem exists_frozen (reached : ∀ moment, (launcher settings).Reachable initial
      (execution.state moment)) (silent : NoFurtherLine execution)
    (workers : ∀ radio, ∀ᶠ moment in atTop, ¬ execution.Moves (.worker radio) moment) :
    ∃ last, ∀ moment ≥ last, ∀ thread, ¬ execution.Moves thread moment := by
  have listeners : ∀ᶠ moment in atTop, ¬ execution.Moves .monitor moment ∧
      ∀ radio, ¬ execution.Moves (.worker radio) moment := by
    filter_upwards [monitor_stops silent, workers .ble, workers .btc] with moment monitor ble btc
    apply And.intro monitor
    intro radio
    cases radio with
    | ble => exact ble
    | btc => exact btc
  obtain ⟨first, rests⟩ := eventually_atTop.mp listeners
  have count : ∀ moment ≥ first, (execution.state moment).shared.data.processes.length =
      (execution.state first).shared.data.processes.length := by
    intro moment after
    induction moment, after using Nat.le_induction with
    | base => rfl
    | succ moment after inductionHypothesis =>
        rcases execution.state_succ moment with same | stepped
        · rw [same]
          exact inductionHypothesis
        · rw [← inductionHypothesis]
          apply processes_length (reached moment) stepped
          intro radio chosen
          apply (rests moment after).2 radio
          exact ⟨by rw [chosen]; rfl, by rw [stepped]; rfl⟩
  have tools : ∀ᶠ moment in atTop, ∀ number ∈ Finset.range
      (execution.state first).shared.data.processes.length,
      ¬ execution.Moves (.tool number) moment := by
    apply (eventually_all_finset _).mpr
    exact fun number _ => tool_stops number
  obtain ⟨last, stopped⟩ := eventually_atTop.mp tools
  apply Exists.intro (max first last)
  intro moment after thread moves
  cases thread with
  | monitor => exact (rests moment (by omega)).1 moves
  | worker radio => exact (rests moment (by omega)).2 radio moves
  | tool number =>
      obtain ⟨process, found, _⟩ := started_of_tool_moves (reached moment) moves
      apply stopped moment (by omega) number _ moves
      rw [Finset.mem_range, ← count moment (by omega)]
      exact (List.getElem?_eq_some_iff.mp found).1

end Calm

/-! ## Where a worker stops -/

section Frozen

variable {settings : Settings} {execution : Execution (launcher settings)} {last : Nat}
variable (frozen : ∀ moment ≥ last, ∀ thread, ¬ execution.Moves thread moment)
variable (reached : ∀ moment, (launcher settings).Reachable initial (execution.state moment))

include frozen in
/-- The tool threads that have been started have ended. -/
private theorem tool_ended (toolsEnd : ToolsEnd execution) {number : Nat}
    (started : Started number (execution.state last).shared.data) :
    (execution.state last).ended (.tool number) = true := by
  obtain ⟨later, after, ended⟩ := toolsEnd number last started
  unfold Config.ended at ended ⊢
  rwa [(execution.kept_of_still after frozen).1] at ended

include frozen reached in
/-- No lock is held. -/
private theorem locks_free (fair : FairlyScheduled execution) (toolsEnd : ToolsEnd execution)
    (lock : Lock) : (execution.state last).shared.holder lock = none := by
  obtain ⟨held, disciplined⟩ := Disciplined.of_reachable entry_ordered (reached last)
    initial_disciplined
  have awaits := waits_of_reachable (reached last)
  have noTool : ∀ number lock, (execution.state last).shared.holder lock ≠ some (.tool number) := by
    intro number lock
    rcases awaits.tools number with runs | started
    · -- Without a process of its number, the thread would be over with its next step.
      exact disciplined.free_of_last runs Data.empty rfl lock
    · exact disciplined.free_of_ended (tool_ended frozen toolsEnd started) lock
  have bounded : ∀ lock : Lock, Lock.rank lock ≤ 2 := by
    intro lock
    cases lock <;> simp [Lock.rank]
  apply disciplined.free_of_stuck bounded
  · intro thread lock _
    obtain ⟨moment, _, stuck⟩ := Execution.stuck_of_still frozen (fair.runs thread)
    exact ⟨_, stuck⟩
  · intro thread lock holds site guard update next stands data
    cases thread with
    | monitor =>
        have waits := awaits.monitor
        rw [stands] at waits
        exact waits.1.elim (fun always => always data) fun never => never.1.elim
    | worker radio =>
        have waits := awaits.workers radio
        rw [stands] at waits
        apply waits.1.elim fun always => always data
        rintro ⟨_, _, _, ends⟩
        exact absurd holds (disciplined.free_of_last stands data (ends data) lock)
    | tool number => exact absurd holds (noTool number lock)

include frozen reached in
/-- A living worker stops in its busy wait, with nothing tracked. -/
private theorem worker_waits (fair : FairlyScheduled execution) (toolsEnd : ToolsEnd execution)
    {radio : Radio} (enabled : settings.threadEnabled radio = true)
    (alive : (execution.state last).thread (.worker radio) ≠ .raised) :
    InBusyWait radio (execution.state last) ∧
      ∃ moment ≥ last, ((execution.state moment).shared.data.bdaddrs radio).keys = [] := by
  obtain ⟨held, disciplined⟩ := Disciplined.of_reachable entry_ordered (reached last)
    initial_disciplined
  have free := locks_free frozen reached fair toolsEnd
  have waits := (waits_of_reachable (reached last)).workers radio
  obtain ⟨moment, after, stuck⟩ := Execution.stuck_of_still frozen (fair.runs (.worker radio))
  unfold Config.StuckOn at stuck
  cases program : (execution.state last).thread (.worker radio) with
  | done value =>
      have still : ∀ moment ≥ last, ¬ execution.Moves (.worker radio) moment :=
        fun moment after => frozen moment after _
      obtain ⟨later, late, unable⟩ := Execution.unable_of_still still rfl (fair.passes radio)
      have resting : (execution.state later).thread (.worker radio) = .done () := by
        rw [(execution.kept_of_still late frozen).1, program]
      rw [System.step_start resting] at unable
      simp [launcher, entry, enabled] at unable
  | raised => exact absurd program alive
  | acquire lock next => simp [program, Prog.step, free lock] at stuck
  | release lock next =>
      have ordered := disciplined.ordered (.worker radio)
      rw [program] at ordered
      obtain ⟨below, mine, _⟩ := ordered
      have owned := (disciplined.owns.iff lock (.worker radio)).mpr (by simp [mine])
      simp [free lock] at owned
  | join other next =>
      rw [program] at waits
      obtain ⟨number, rfl, started⟩ := waits.1
      simp [program, Prog.step, tool_ended frozen toolsEnd started] at stuck
  | act site guard update next =>
      rw [program] at waits
      rcases waits.1 with always | ⟨_, rfl, rfl, _⟩
      · simp [program, Prog.step, always] at stuck
      · apply And.intro
        · unfold InBusyWait
          rw [program]
          rfl
        · apply Exists.intro moment
          apply And.intro after
          simpa [program, Prog.step, launchWaiting] using stuck

end Frozen

/-! ## Results -/

section Results

variable {settings : Settings} {radio : Radio} {execution : Execution (launcher settings)}

/-- As long as the work left does not change, neither does what is tracked. -/
private theorem tracked_same {first : Nat} (calm : CalmFrom execution first)
    (reached : ∀ moment, (launcher settings).Reachable initial (execution.state moment))
    {moment later : Nat} (after : first ≤ moment) (late : moment ≤ later) (bdaddr : Text) :
    bdaddr ∈ (execution.state later).shared.data.bdaddrs radio ↔
      bdaddr ∈ (execution.state moment).shared.data.bdaddrs radio := by
  induction later, late using Nat.le_induction with
  | base => rfl
  | succ later late inductionHypothesis =>
      rw [← inductionHypothesis]
      rcases execution.state_succ later with same | stepped
      · rw [same]
      · have quiet := quiet_of_choice (reached later) stepped
          (quiet_of_not_moves (calm.monitor later (by omega)) stepped) radio
        apply (quiet.progressRely.kept _).1
        rw [calm.workLeft radio later (by omega), calm.workLeft radio (later + 1) (by omega)]

/-- A monitor that has ended does not move any more. -/
private theorem not_moves_of_ended (silent : NoFurtherLine execution) {moment : Nat}
    (ended : (execution.state moment).ended .monitor = true) : ¬ execution.Moves .monitor moment := by
  intro moves
  rcases Execution.follows_of_moves moves with follows | ⟨input, starts⟩
  · have running := follows.not_ended
    unfold Config.ended at ended
    simp [running] at ended
  · cases input with
    | none =>
        have entered := (Execution.started_of_moves starts moves).2.1
        simp [launcher, entry] at entered
    | some line => exact silent moment line starts

private theorem quietRun_of_ended (silent : NoFurtherLine execution)
    (ended : execution.start.ended .monitor = true) (moment : Nat) :
    QuietRun settings execution.start (execution.state moment) := by
  have rests : ∀ moment, (execution.state moment).ended .monitor = true := by
    intro moment
    induction moment with
    | zero => exact ended
    | succ moment inductionHypothesis =>
        unfold Config.ended at inductionHypothesis ⊢
        rwa [Execution.thread_of_not_moves (not_moves_of_ended silent inductionHypothesis)]
  induction moment with
  | zero => exact Relation.ReflTransGen.refl
  | succ moment inductionHypothesis =>
      rcases execution.state_succ moment with same | stepped
      · rw [same]
        exact inductionHypothesis
      · apply inductionHypothesis.tail
        exact ⟨_, stepped, quiet_of_not_moves (not_moves_of_ended silent (rests moment)) stepped⟩

/-- Runs in which no worker's sort misses an address and no open of an output file is
refused, continued without further lines: a fairly scheduled worker whose tool threads
all end comes to its busy wait with nothing tracked and stays there, and it selects no
more addresses than the remaining attempts allow. -/
theorem worker_settles (enabled : settings.threadEnabled radio = true)
    (run : (launcher settings).Run SparesWorkers initial execution.start)
    (spares : ∀ moment, SparesWorkers (execution.state moment).shared.data
      (execution.state (moment + 1)).shared.data)
    (silent : NoFurtherLine execution) :
    (FairlyScheduled execution → ToolsEnd execution → ∀ᶠ moment in atTop,
      InBusyWait radio (execution.state moment) ∧
        ((execution.state moment).shared.data.bdaddrs radio).keys = []) ∧
    (execution.start.ended .monitor = true → NotOverdrawn settings radio execution.start →
      ∀ moment, (selectedBy radio (execution.state moment).shared.data).length ≤
        (selectedBy radio execution.start.shared.data).length +
          ∑ bdaddr ∈ available radio execution.start,
            remaining settings execution.start.shared.data bdaddr) := by
  have reached : ∀ moment, (launcher settings).Reachable initial (execution.state moment) :=
    state_reachable run.reachable
  constructor
  · intro fair toolsEnd
    have sound : ∀ moment, Counted (execution.state moment).shared.data ∧
        (execution.state moment).thread (.worker radio) ≠ .raised := by
      intro moment
      have whole := run.trans (execution.run spares (Nat.zero_le moment))
      obtain ⟨held, holds⟩ := (snapshotContract_lawful settings).holds_of_run whole
        snapshotContract_initial
      exact ⟨holds.invariant, holds.not_raised fun _ free => free radio rfl⟩
    obtain ⟨first, calm⟩ := exists_calm run.reachable silent
    obtain ⟨last, frozen⟩ := exists_frozen reached silent fun own =>
      Execution.eventually_still (passes_stop calm reached fun moment => (sound moment).1)
    have rests : ∀ moment ≥ max first last, ∀ thread, ¬ execution.Moves thread moment :=
      fun moment after => frozen moment (by omega)
    obtain ⟨waits, moment, after, nothing⟩ := worker_waits rests reached fair toolsEnd enabled
      (sound _).2
    apply eventually_atTop.mpr
    apply Exists.intro moment
    intro later late
    constructor
    · unfold InBusyWait at waits ⊢
      rwa [(execution.kept_of_still (after.trans late) rests).1]
    · apply List.eq_nil_iff_forall_not_mem.mpr
      intro bdaddr member
      have before := (tracked_same calm reached (by omega) late bdaddr).mp (AList.mem_keys.mpr member)
      have there := AList.mem_keys.mp before
      rw [nothing] at there
      exact List.not_mem_nil there
  · intro rests affords moment
    apply selectedBy_length_le run.reachable _ affords
    exact quietRun_of_ended silent rests moment

end Results

/-! ## Executions that end -/

/-- The monitor has no line in hand, the thread of every process has ended, and no
worker can take a step or start a pass. -/
private def AtEnd (settings : Settings) (config : Config Lock ThreadId Data Site) : Bool :=
  config.ended .monitor &&
    (List.range config.shared.data.processes.length).all (fun number =>
      config.ended (.tool number)) &&
    [Radio.ble, .btc].all fun radio =>
      ((launcher settings).step (.run (.worker radio)) config).isNone &&
        ((launcher settings).step (.start (.worker radio) none) config).isNone

section Ended

variable {settings : Settings} {config start final : Config Lock ThreadId Data Site}

private theorem step_none_of_ended {thread : ThreadId} (ended : config.ended thread = true) :
    (launcher settings).step (.run thread) config = none := by
  unfold Config.ended at ended
  apply Option.map_eq_none_iff.mpr
  cases program : config.thread thread with
  | done value => rfl
  | raised => rfl
  | _ => simp [program, Prog.ended] at ended

private theorem tool_ended_at_end (ends : AtEnd settings config = true) (number : Nat)
    (there : number < config.shared.data.processes.length) :
    config.ended (.tool number) = true := by
  simp only [AtEnd, Bool.and_eq_true, List.all_eq_true, List.mem_range] at ends
  exact ends.1.2 number there

/-- The choices that are impossible at the end. -/
private theorem stuck_at_end (reachable : (launcher settings).Reachable initial config)
    (ends : AtEnd settings config = true) :
    (∀ thread, (launcher settings).step (.run thread) config = none) ∧
      ∀ radio, (launcher settings).step (.start (.worker radio) none) config = none := by
  have ended := tool_ended_at_end ends
  simp only [AtEnd, Bool.and_eq_true, List.all_cons, List.all_nil, Option.isNone_iff_eq_none,
    and_true] at ends
  obtain ⟨⟨rests, _⟩, ⟨runBle, startBle⟩, runBtc, startBtc⟩ := ends
  constructor
  · intro thread
    cases thread with
    | monitor => exact step_none_of_ended rests
    | worker radio =>
        cases radio with
        | ble => exact runBle
        | btc => exact runBtc
    | tool number =>
        by_cases there : number < config.shared.data.processes.length
        · exact step_none_of_ended (ended number there)
        · have nothing : config.shared.data.processes[number]? = none :=
            List.getElem?_eq_none (Nat.le_of_not_lt there)
          have runs := ((waits_of_reachable reachable).tools number).resolve_right (by
            rintro ⟨process, found, _⟩
            simp [nothing] at found)
          apply Option.map_eq_none_iff.mpr
          rw [runs]
          simp [ApplicationThread.run, await, Prog.step, nothing]
  · intro radio
    cases radio with
    | ble => exact startBle
    | btc => exact startBtc

/-- The tool threads of an execution that comes to an end have ended there. -/
private theorem toolsEnd_following {test : Data → Data → Bool} {choices : Schedule}
    (executed : (launcher settings).exec test choices start = some final)
    (reachable : (launcher settings).Reachable initial final) (ends : AtEnd settings final = true)
    (grows : ∀ before after, test before after = true →
      before.processes.length ≤ after.processes.length) :
    ToolsEnd (Execution.following start choices (.run .monitor) :
      Execution (launcher settings)) := by
  have pauses := (stuck_at_end reachable ends).1 .monitor
  rintro number moment ⟨process, found, _⟩
  have atEnd := Execution.state_following executed pauses (le_max_right moment choices.length)
  have grown : Monotone fun moment => ((Execution.following start choices (.run .monitor) :
      Execution (launcher settings)).state moment).shared.data.processes.length := by
    apply monotone_nat_of_le_succ
    intro moment
    rcases Execution.tested_following executed pauses moment with same | passed
    · exact (congrArg (fun config => config.shared.data.processes.length) same).ge
    · exact grows _ _ passed
  have there : number < final.shared.data.processes.length := by
    rw [← atEnd]
    exact (List.getElem?_eq_some_iff.mp found).1.trans_le (grown (le_max_left _ _))
  refine ⟨max moment choices.length, le_max_left _ _, ?_⟩
  rw [atEnd]
  exact tool_ended_at_end ends number there

private theorem fairlyScheduled_following {test : Data → Data → Bool} {choices : Schedule}
    (executed : (launcher settings).exec test choices start = some final)
    (reachable : (launcher settings).Reachable initial final) (ends : AtEnd settings final = true) :
    FairlyScheduled (Execution.following start choices (.run .monitor) :
      Execution (launcher settings)) := by
  obtain ⟨runs, passes⟩ := stuck_at_end reachable ends
  constructor
  · exact fun thread => Execution.fair_following executed (runs .monitor) (runs thread)
  · exact fun radio => Execution.fair_following executed (runs .monitor) (passes radio)

/-- An execution spares the workers if its choices do, from a state in which output files
can be opened. -/
private theorem sparesWorkers_following {test : Data → Data → Bool} {choices : Schedule}
    (executed : (launcher settings).exec test choices start = some final)
    (reachable : (launcher settings).Reachable initial final) (ends : AtEnd settings final = true)
    (opens : start.shared.data.openFails = false)
    (spares : ∀ before after, test before after = true → SparesWorkers before after)
    (moment : Nat) :
    SparesWorkers
      ((Execution.following start choices (.run .monitor) :
        Execution (launcher settings)).state moment).shared.data
      ((Execution.following start choices (.run .monitor) :
        Execution (launcher settings)).state (moment + 1)).shared.data := by
  have tested := Execution.tested_following executed ((stuck_at_end reachable ends).1 .monitor)
  have openFrom : ∀ moment, ((Execution.following start choices (.run .monitor) :
      Execution (launcher settings)).state moment).shared.data.openFails = false := by
    intro moment
    induction moment with
    | zero => exact opens
    | succ moment inductionHypothesis =>
        rcases tested moment with same | passed
        · rw [same]
          exact inductionHypothesis
        · exact (spares _ _ passed).2
  rcases tested moment with same | passed
  · rw [same]
    exact ⟨fun _ _ _ member => member, openFrom moment⟩
  · exact spares _ _ passed

end Ended

/-- The gatttool that the BLE worker launches for the only device succeeds. -/
private def gattSucceeds : Schedule :=
  Schedule.pass .ble 19 ++ .environment (.processExits 0 0) :: Schedule.resume (.tool 0) 1 ++
    .environment (.waitReturns 0) :: Schedule.resume (.tool 0) 8 ++ Schedule.resume (.worker .ble) 2

/-- The BLE worker tries the only device three times: the first time its tool
succeeds, the other two times there is nothing left to launch. -/
theorem worker_settles_succeeded : ∃ execution : Execution (launcher .shipped),
    (∀ᶠ moment in atTop, InBusyWait .ble (execution.state moment) ∧
      ((execution.state moment).shared.data.bdaddrs .ble).keys = []) ∧
    (∀ moment, (selectedBy .ble (execution.state moment).shared.data).length ≤ 3) ∧
    ∃ moment, (execution.state moment).shared.data.logs .gattprint =
      [.attempt "aa".toList, .success "aa".toList] := by
  let passes : Schedule := gattSucceeds ++ Schedule.pass .ble 14 ++ Schedule.pass .ble 14 ++
    Schedule.pass .ble 10 ++ Schedule.pass .btc 2
  have settles : leads .shipped SparesWorkers
      (Schedule.handed (deviceLine newWord "AA BLE public A".toList) 5) initial
      (fun start => decide (start.ended .monitor = true ∧ NotOverdrawn .shipped .ble start ∧
          start.shared.data.openFails = false ∧ (selectedBy .ble start.shared.data).length = 0 ∧
          ∑ bdaddr ∈ available .ble start, remaining .shipped start.shared.data bdaddr = 3) &&
        leads .shipped (fun before after =>
            SparesWorkers before after ∧ before.processes.length ≤ after.processes.length)
          passes start fun final => AtEnd .shipped final &&
            decide (final.shared.data.logs .gattprint =
              [.attempt "aa".toList, .success "aa".toList])) = true := by
    decide +kernel
  obtain ⟨start, run, holds⟩ := run_of_leads settles
  obtain ⟨facts, onward⟩ := Bool.and_eq_true_iff.mp holds
  obtain ⟨rests, affords, opens, unselected, three⟩ := of_decide_eq_true facts
  obtain ⟨final, executed, reached⟩ := (Option.any_eq_true _ _).mp onward
  obtain ⟨ends, logged⟩ := Bool.and_eq_true_iff.mp reached
  have reachable : (launcher .shipped).Reachable initial final :=
    run.reachable.trans ((launcher .shipped).run_of_executed (fun _ _ _ => trivial) executed)
  have pauses := (stuck_at_end reachable ends).1 .monitor
  let execution : Execution (launcher .shipped) := Execution.following start passes (.run .monitor)
  have spares := sparesWorkers_following executed reachable ends opens fun _ _ passed =>
    (of_decide_eq_true passed).1
  have silent : NoFurtherLine execution := by
    intro moment line starts
    rcases Execution.schedule_following start passes (.run .monitor) moment with member | paused
    · rw [starts] at member
      simp [passes, gattSucceeds, Schedule.pass, Schedule.resume] at member
    · rw [starts] at paused
      simp at paused
  obtain ⟨settled, bounded⟩ := @worker_settles .shipped .ble execution rfl run spares silent
  refine ⟨execution, ?_, fun moment => ?_, passes.length, ?_⟩
  · exact settled (fairlyScheduled_following executed reachable ends)
      (toolsEnd_following executed reachable ends fun _ _ passed => (of_decide_eq_true passed).2)
  · have total := bounded rests affords moment
    have first : execution.start = start := rfl
    rw [first, unselected, three] at total
    omega
  · rw [Execution.state_following executed pauses le_rfl]
    exact of_decide_eq_true logged

/-- A device disappears while the BLE worker sorts two of them. The worker has ended,
and the other device stays tracked for ever. -/
theorem worker_unsettled : ¬ ∀ (settings : Settings) (radio : Radio)
    (execution : Execution (launcher settings)), settings.threadEnabled radio = true →
    (launcher settings).Reachable initial execution.start →
    execution.start.ended .monitor = true → NoFurtherLine execution →
    FairlyScheduled execution → ToolsEnd execution →
    (∃ moment, InBusyWait radio (execution.state moment) ∧
      ((execution.state moment).shared.data.bdaddrs radio).keys = []) ∧
    ∀ moment, (selectedBy radio (execution.state moment).shared.data).length ≤
      (selectedBy radio execution.start.shared.data).length +
        ∑ bdaddr ∈ available radio execution.start,
          remaining settings execution.start.shared.data bdaddr := by
  intro settles
  have dies : leads .shipped (fun _ _ => True)
      (Schedule.handed (deviceLine newWord "AA BLE public A".toList) 5 ++
        Schedule.handed (deviceLine newWord "BB BLE public B".toList) 5 ++ Schedule.pass .ble 1 ++
        Schedule.handed (deviceLine delWord "AA BLE public A".toList) 5 ++
        Schedule.resume (.worker .ble) 1 ++ Schedule.pass .btc 2)
      initial (fun config => AtEnd .shipped config &&
        decide (¬ InBusyWait .ble config)) = true := by
    decide +kernel
  obtain ⟨config, reachable, holds⟩ := run_of_leads dies
  obtain ⟨ends, dead⟩ := Bool.and_eq_true_iff.mp holds
  let execution : Execution (launcher .shipped) := Execution.following config [] (.run .monitor)
  have executed : (launcher .shipped).exec (fun before after =>
      decide (before.processes.length ≤ after.processes.length)) [] config = some config := rfl
  have pauses := (stuck_at_end reachable ends).1 .monitor
  have constant : ∀ moment, execution.state moment = config :=
    fun moment => Execution.state_following executed pauses (Nat.zero_le moment)
  have rests : config.ended .monitor = true := by
    simp only [AtEnd, Bool.and_eq_true] at ends
    exact ends.1.1
  have silent : NoFurtherLine execution := fun _ _ starts => by
    simp [execution, Execution.following] at starts
  obtain ⟨⟨moment, waits, _⟩, _⟩ := settles .shipped .ble execution rfl reachable rests silent
    (fairlyScheduled_following executed reachable ends)
    (toolsEnd_following executed reachable ends fun _ _ => of_decide_eq_true)
  rw [constant moment] at waits
  exact of_decide_eq_true dead waits

end NaiveBTSniffing.Launcher
