import NaiveBTSniffing.Launcher.ConnectAttempts
import NaiveBTSniffing.Launcher.Steps

/-!
Contract: one counter for both radios.

`device_connect_attempts` has one entry for each address, whichever radio it is
tracked on. `exceeded_paid` says what a worker's verdict on an address that is
tracked on both radios rests on: the selections of both workers together.
`exceeded_unpaid` is a run in which a worker gives up an address that it has
never selected itself.

Does not own a bound on the counter: the check of one worker and its increment
are two steps, and the other worker may come in between.
-/

namespace NaiveBTSniffing.Launcher

open NaiveBTSniffing.Library
open NaiveBTSniffing.Library.Interleaving
open NaiveBTSniffing.Library.Interleaving.Prog

/-- Attempts that both workers together have counted for the address. -/
def allSelections (bdaddr : Text) (data : Data) : Nat :=
  selections .ble bdaddr data + selections .btc bdaddr data

/-! ## What a step does to a counter -/

/-- The counter of the address across a step. -/
inductive CounterStep (bdaddr : Text) (before after : Data) : Prop where
  | kept (same : after.deviceConnectAttempts.lookup bdaddr =
      before.deviceConnectAttempts.lookup bdaddr)
  | reset (zero : after.deviceConnectAttempts.lookup bdaddr = some 0)
  | granted {attempts} (found : before.deviceConnectAttempts.lookup bdaddr = some attempts)
      (lowered : after.deviceConnectAttempts.lookup bdaddr = some (attempts - 1))
  | selected {attempts radio} (found : before.deviceConnectAttempts.lookup bdaddr = some attempts)
      (raised : after.deviceConnectAttempts.lookup bdaddr = some (attempts + 1))
      (recorded : after.ghost.trace = before.ghost.trace ++ [.selected radio bdaddr])

/-- A step on the counter of some address, as the owner of one of them sees it. -/
private theorem counterStep_of_setAttempts {bdaddr other : Text} {before : Data} {attempts : Int}
    (own : other = bdaddr → CounterStep bdaddr before (before.setAttempts other attempts)) :
    CounterStep bdaddr before (before.setAttempts other attempts) := by
  by_cases same : other = bdaddr
  · exact own same
  · exact .kept (Dict.lookup_setItem_ne _ _ (Ne.symm same))

private theorem counterStep_of_command {bdaddr : Text} {held : List Lock} {asked : Command}
    {before after : Data} (step : CommandStep held asked before after) :
    CounterStep bdaddr before after := by
  cases step with
  | resetAttempts =>
      apply counterStep_of_setAttempts
      rintro rfl
      exact .reset (Dict.lookup_setItem_self _ _ _)
  | grantOneMoreTry present =>
      apply counterStep_of_setAttempts
      rintro rfl
      exact .granted present (Dict.lookup_setItem_self _ _ _)
  | _ => exact .kept rfl

private theorem counterStep_of_collect {bdaddr other : Text} {radio : Radio} {held : List Lock}
    {before after : Data} (step : CollectStep radio other held before after) :
    CounterStep bdaddr before after := by
  cases step with
  | same => exact .kept rfl
  | countAttempt present =>
      by_cases same : bdaddr = other
      · subst same
        exact .selected present (Dict.lookup_setItem_self _ _ _) rfl
      · exact .kept (Dict.lookup_setItem_ne _ _ same)
  | stage _ step => exact .kept (by rw [(OnlyDeletes.of_stage step).deviceConnectAttempts])

private theorem counterStep_of_worker {bdaddr : Text} {radio : Radio} {held : List Lock}
    {before after : Data} (step : WorkerStep radio held before after) :
    CounterStep bdaddr before after := by
  cases step with
  | sort step => exact .kept (by rw [step.deviceConnectAttempts])
  | loop step => exact .kept (by rw [(OnlyDeletes.of_loop step).deviceConnectAttempts])
  | collect step => exact counterStep_of_collect step
  | unpark => exact .kept rfl
  | retrack => exact .kept rfl

theorem counterStep_of_anyStep {settings : Settings} (bdaddr : Text) {before after : Data}
    (step : AnyStep settings before after) : CounterStep bdaddr before after := by
  rcases step with ⟨thread, held, step⟩ | ⟨event, happened⟩
  · cases thread with
    | monitor =>
        rcases step with ⟨line, rfl⟩ | ⟨asked, step⟩
        · exact .kept rfl
        · exact counterStep_of_command step
    | worker radio => exact counterStep_of_worker step.1
    | tool number =>
        obtain ⟨process, step⟩ := step
        exact .kept (by rw [(OnlyDeletes.of_tool step).deviceConnectAttempts])
  · rcases environment_cases happened with ⟨_, _, _, _, _, _, _, rfl⟩ | ⟨_, _, _, _, _, rfl⟩ |
      ⟨_, _, _, rfl⟩ <;> exact .kept rfl

/-! ## The record of a run only grows -/

private theorem recorded_of_delete {radio : Radio} {bdaddr : Text} {held : List Lock}
    {before after : Data} (step : DeleteStep radio bdaddr held before after) :
    before.ghost.trace <+: after.ghost.trace := by
  cases step with
  | same => exact List.prefix_rfl
  | delete => exact List.prefix_append _ _

theorem recorded_of_anyStep {settings : Settings} {before after : Data}
    (step : AnyStep settings before after) : before.ghost.trace <+: after.ghost.trace := by
  rcases step with ⟨thread, held, step⟩ | ⟨event, happened⟩
  · cases thread with
    | monitor =>
        rcases step with ⟨line, rfl⟩ | ⟨asked, step⟩
        · exact List.prefix_append _ _
        · cases step with
          | raiseRssi => exact List.prefix_append _ _
          | delete => exact List.prefix_append _ _
          | _ => exact List.prefix_rfl
    | worker radio =>
        cases step.1 with
        | sort step => cases step <;> exact List.prefix_rfl
        | loop step =>
            cases step with
            | delete step => exact recorded_of_delete step
            | next => exact List.prefix_rfl
            | exceeded => exact List.prefix_append _ _
        | collect step =>
            cases step with
            | same => exact List.prefix_rfl
            | countAttempt => exact List.prefix_append _ _
            | stage _ step =>
                cases step with
                | delete step => exact recorded_of_delete step
                | attempt => exact List.prefix_rfl
                | launch step => cases step <;> exact List.prefix_rfl
        | unpark => exact List.prefix_rfl
        | retrack => exact List.prefix_rfl
    | tool number =>
        obtain ⟨process, step⟩ := step
        cases step with
        | delete step => exact recorded_of_delete step
        | _ => exact List.prefix_rfl
  · rcases environment_cases happened with ⟨_, _, _, _, _, _, _, rfl⟩ | ⟨_, _, _, _, _, rfl⟩ |
      ⟨_, _, _, rfl⟩ <;> exact List.prefix_rfl

private theorem allSelections_mono (bdaddr : Text) {before after : Data}
    (recorded : before.ghost.trace <+: after.ghost.trace) :
    allSelections bdaddr before ≤ allSelections bdaddr after :=
  Nat.add_le_add (recorded.sublist.count_le _) (recorded.sublist.count_le _)

private theorem allSelections_selected {radio : Radio} {bdaddr : Text} {before after : Data}
    (recorded : after.ghost.trace = before.ghost.trace ++ [.selected radio bdaddr]) :
    allSelections bdaddr after = allSelections bdaddr before + 1 := by
  cases radio <;> simp [allSelections, selections, recorded] <;> omega

/-! ## The counter and the selections -/

/-- What bounded the counter before bounds it afterwards, together with the
selections in between. -/
def PaidFor (bdaddr : Text) (before after : Data) : Prop :=
  allSelections bdaddr before ≤ allSelections bdaddr after ∧
    ∀ bound : Nat, (∀ attempts, before.deviceConnectAttempts.lookup bdaddr = some attempts →
      attempts ≤ bound) →
    ∀ attempts, after.deviceConnectAttempts.lookup bdaddr = some attempts →
      attempts ≤ bound + (allSelections bdaddr after - allSelections bdaddr before : Nat)

theorem PaidFor.refl (bdaddr : Text) (data : Data) : PaidFor bdaddr data data :=
  ⟨Nat.le_refl _, fun bound bounded attempts found => by
    have below := bounded attempts found
    omega⟩

theorem PaidFor.trans {bdaddr : Text} {first second third : Data}
    (earlier : PaidFor bdaddr first second) (later : PaidFor bdaddr second third) :
    PaidFor bdaddr first third := by
  obtain ⟨grows, paid⟩ := earlier
  obtain ⟨growsAgain, paidAgain⟩ := later
  refine ⟨Nat.le_trans grows growsAgain, fun bound bounded attempts found => ?_⟩
  have between := paidAgain (bound + (allSelections bdaddr second - allSelections bdaddr first))
    (fun attempts found => by exact_mod_cast paid bound bounded attempts found) attempts found
  omega

theorem paidFor_of_anyStep {settings : Settings} {bdaddr : Text} {before after : Data}
    (step : AnyStep settings before after) : PaidFor bdaddr before after := by
  have grows := allSelections_mono bdaddr (recorded_of_anyStep step)
  refine ⟨grows, fun bound bounded attempts found => ?_⟩
  cases counterStep_of_anyStep bdaddr step with
  | kept same =>
      have below := bounded attempts (same ▸ found)
      omega
  | reset zero =>
      obtain rfl : 0 = attempts := Option.some.inj (zero.symm.trans found)
      omega
  | granted present lowered =>
      obtain rfl := Option.some.inj (lowered.symm.trans found)
      have below := bounded _ present
      omega
  | selected present raised recorded =>
      obtain rfl := Option.some.inj (raised.symm.trans found)
      have below := bounded _ present
      have counted := allSelections_selected recorded
      omega

/-- From a state in which the counter of an address is 0, as a [NEW] line on
either radio leaves it, the counter never exceeds the selections of both workers
together, and a worker finds the attempts of the address used up only after the
two have selected it as often as the limit says. -/
theorem exceeded_paid (settings : Settings) (bdaddr : Text)
    {start config : Config Lock ThreadId Data Site}
    (reachable : (launcher settings).Reachable initial start)
    (renewed : start.shared.data.deviceConnectAttempts.lookup bdaddr = some 0)
    (run : (launcher settings).Reachable start config) :
    (∀ attempts, config.shared.data.deviceConnectAttempts.lookup bdaddr = some attempts →
      attempts + allSelections bdaddr start.shared.data ≤
        allSelections bdaddr config.shared.data) ∧
    ∀ next, (launcher settings).Steps config next → ∀ radio,
      next.shared.data.ghost.trace = config.shared.data.ghost.trace ++ [.exceeded radio bdaddr] →
        settings.maxConnectAttempts + allSelections bdaddr start.shared.data ≤
          allSelections bdaddr config.shared.data := by
  obtain ⟨grows, paid⟩ : PaidFor bdaddr start.shared.data config.shared.data :=
    related_of_run (PaidFor.refl bdaddr) PaidFor.trans paidFor_of_anyStep reachable run
  have counted : ∀ attempts, config.shared.data.deviceConnectAttempts.lookup bdaddr =
      some attempts → attempts + allSelections bdaddr start.shared.data ≤
        allSelections bdaddr config.shared.data := by
    intro attempts found
    have bounded : ∀ attempts, start.shared.data.deviceConnectAttempts.lookup bdaddr =
        some attempts → attempts ≤ (0 : Nat) := by
      intro attempts zero
      obtain rfl : 0 = attempts := Option.some.inj (renewed.symm.trans zero)
      exact le_rfl
    have below := paid 0 bounded attempts found
    omega
  refine ⟨counted, fun next stepped radio exceeded => ?_⟩
  have reached : (launcher settings).Reachable initial config := reachable.trans run
  obtain ⟨attempts, found, limit⟩ :=
    usedUp_of_exceeded (anyStep_of_steps reached stepped) radio bdaddr exceeded
  have below := counted attempts found
  omega

/-- What the worker itself has selected since the last line that announces the
address on its radio. -/
def ownSelectionsSince (settings : Settings) (radio : Radio) (bdaddr : Text) (data : Data) : Nat :=
  (data.ghost.trace.reverse.takeWhile fun event =>
    decide (announcement settings event ≠ some (bdaddr, radio))).count (.selected radio bdaddr)

/-- The BTC worker's turn on the one device, from the start of its pass to the
busy wait: the tool that it launches, its `process`-th one, times out. -/
private def btcTurn (process : Nat) : Schedule :=
  Schedule.pass .btc 16 ++ .environment (.waitTimesOut process) ::
    Schedule.resume (.tool process) 4 ++ Schedule.resume (.worker .btc) (process + 2)

/-- The device is announced on both radios. -/
private def bothRadios : Schedule :=
  Schedule.handed (deviceLine newWord "AA BLE public A".toList) 5 ++
    Schedule.handed (deviceLine newWord "AA BTC public A".toList) 5

private def threeTurns : Schedule := btcTurn 0 ++ btcTurn 1 ++ btcTurn 2

/-- The two workers use one counter up together: after three turns of the BTC
worker the BLE worker finds the attempts used up. -/
theorem exceeded_paid_three : ∃ start config,
    (launcher .shipped).Reachable initial start ∧ (launcher .shipped).Reachable start config ∧
      selections .btc "aa".toList config.shared.data = 3 ∧
      ∀ attempts, config.shared.data.deviceConnectAttempts.lookup "aa".toList = some attempts →
        attempts + allSelections "aa".toList start.shared.data ≤
          allSelections "aa".toList config.shared.data := by
  have turns : leads .shipped (fun _ _ => True) bothRadios initial (fun start =>
      decide (start.shared.data.deviceConnectAttempts.lookup "aa".toList = some 0) &&
        leads .shipped (fun _ _ => True) threeTurns start fun config =>
          decide (selections .btc "aa".toList config.shared.data = 3)) = true := by
    decide
  obtain ⟨start, reachable, holds⟩ := run_of_leads turns
  obtain ⟨renewed, later⟩ := Bool.and_eq_true_iff.mp holds
  obtain ⟨config, run, three⟩ := run_of_leads later
  exact ⟨start, config, reachable, run, of_decide_eq_true three,
    (exceeded_paid .shipped _ reachable (of_decide_eq_true renewed) run).1⟩

set_option maxRecDepth 4000 in
/-- The BLE worker gives an address up that it has never selected: the BTC worker
has used its attempts up. -/
theorem exceeded_unpaid : ¬ ∀ (settings : Settings) (radio : Radio) (bdaddr : Text)
    (before after : Config Lock ThreadId Data Site),
    (launcher settings).Reachable initial before → (launcher settings).Steps before after →
    (∀ own, bdaddr ∈ before.shared.data.bdaddrs own) →
    after.shared.data.ghost.trace = before.shared.data.ghost.trace ++ [.exceeded radio bdaddr] →
    settings.maxConnectAttempts ≤ ownSelectionsSince settings radio bdaddr before.shared.data := by
  intro paid
  have gives : leads .shipped (fun _ _ => True)
      (bothRadios ++ threeTurns ++ Schedule.pass .ble 4) initial (fun before =>
        decide ((∀ own, "aa".toList ∈ before.shared.data.bdaddrs own) ∧
          ownSelectionsSince .shipped .ble "aa".toList before.shared.data = 0) &&
        ((launcher .shipped).step (.run (.worker .ble)) before).any fun after =>
          decide (after.shared.data.ghost.trace =
            before.shared.data.ghost.trace ++ [.exceeded .ble "aa".toList])) = true := by
    decide
  obtain ⟨before, reachable, holds⟩ := run_of_leads gives
  obtain ⟨now, later⟩ := Bool.and_eq_true_iff.mp holds
  obtain ⟨tracked, never⟩ := of_decide_eq_true now
  obtain ⟨after, stepped, recorded⟩ := (Option.any_eq_true _ _).mp later
  have limit := paid .shipped .ble _ before after reachable ⟨_, stepped⟩ tracked
    (of_decide_eq_true recorded)
  rw [never] at limit
  exact absurd limit (by decide)

end NaiveBTSniffing.Launcher
