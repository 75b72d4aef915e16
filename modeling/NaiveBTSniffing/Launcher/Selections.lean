import Mathlib.Algebra.BigOperators.Group.Finset.Piecewise
import NaiveBTSniffing.Launcher.Counters
import NaiveBTSniffing.Launcher.Remaining

/-!
Contract: which addresses a worker selects, and how often.

A worker selects an address only after it has taken it from its snapshot and found
an attempt left for it. While no line comes in, it therefore selects only addresses
that it already has somewhere, and each of them at most as often as the counter
allows (`selectedBy_length_le`). The counter is shared with the other worker, which can use
the last attempt up between the check and the selection.

Does not own that the worker comes to an end (`Settling`).
-/

namespace NaiveBTSniffing.Launcher

open NaiveBTSniffing.Library
open NaiveBTSniffing.Library.Interleaving
open NaiveBTSniffing.Library.Interleaving.Prog

/-! ## Where a worker stands with respect to an address -/

/-- The end of a pass. -/
def waitForBdaddrs (radio : Radio) : Code Unit :=
  await (.busyWait radio) (fun data => !(data.bdaddrs radio).keys.isEmpty) fun _ => ()

/-- The rest of a pass from the loop on. -/
def visitFrom (settings : Settings) (radio : Radio) (total skipCount : Nat)
    (pending : List Text) : Code Unit := do
  visit settings radio (stagesOf settings radio) (reprioritize .ble radio) total skipCount pending
  waitForBdaddrs radio

/-- An address that is skipped, and the rest of the pass. -/
def skipFrom (settings : Settings) (radio : Radio) (total skipCount : Nat) (bdaddr : Text)
    (pending : List Text) : Code Unit := do
  skipBdaddr radio (reprioritize .ble radio) bdaddr (skipCount + 1 == total)
  visitFrom settings radio total (skipCount + 1) pending

/-- An address that is not skipped, and the rest of the pass. -/
def collectFrom (settings : Settings) (radio : Radio) (total skipCount : Nat) (bdaddr : Text)
    (pending : List Text) : Code Unit := do
  collectBdaddr radio (stagesOf settings radio) bdaddr
  visitFrom settings radio total skipCount pending

/-- The rest of a pass from the test on an address on. -/
def decideFrom (settings : Settings) (radio : Radio) (total skipCount : Nat) (bdaddr : Text)
    (pending : List Text) : Code Unit := do
  if ← shouldSkip settings radio bdaddr then
    skipFrom settings radio total skipCount bdaddr pending
  else
    collectFrom settings radio total skipCount bdaddr pending

theorem visitFrom_cons (settings : Settings) (radio : Radio) (total skipCount : Nat)
    (bdaddr : Text) (pending : List Text) :
    visitFrom settings radio total skipCount (bdaddr :: pending) = (do
      Code.change fun data => data.setUnvisited radio pending
      decideFrom settings radio total skipCount bdaddr pending) := by
  unfold visitFrom visit
  rw [bind_bind]
  congr 1
  funext _
  unfold decideFrom
  rw [bind_bind]
  congr 1
  funext skipped
  cases skipped with
  | true => exact bind_bind _ _ _
  | false => exact bind_bind _ _ _

theorem threadFunction_eq_from (settings : Settings) (radio : Radio) :
    threadFunction settings radio = (do
      let sorted ← sortedBdaddrs radio
      visitFrom settings radio sorted.length 0 sorted) :=
  threadFunction_eq settings radio

/-- The worker has taken the address from its snapshot and has not yet looked at its
counter. The list is what is left of the snapshot. -/
def Visiting (settings : Settings) (radio : Radio) (bdaddr : Text) (program : Code Unit)
    (pending : List Text) : Prop :=
  settings.lower bdaddr ∉ settings.skipTheseAddresses ∧ ∃ total skipCount,
    program = decideFrom settings radio total skipCount bdaddr pending

/-- The worker has found an attempt left for the address and has not yet counted it. -/
def Counting (settings : Settings) (radio : Radio) (bdaddr : Text) (program : Code Unit)
    (pending : List Text) : Prop :=
  ∃ total skipCount, program = collectFrom settings radio total skipCount bdaddr pending

/-- A step that neither selects the address nor changes the snapshot. -/
structure Still (radio : Radio) (bdaddr : Text) (before after : Data) : Prop where
  unvisited : after.ghost.unvisited radio = before.ghost.unvisited radio
  selections : selections radio bdaddr after = selections radio bdaddr before

/-- The worker selects the address only after taking it from its snapshot. -/
def Clear (settings : Settings) (radio : Radio) (bdaddr : Text) : Code Unit → List Text → Prop
  | .done _, _ => True
  | .raised, _ => True
  | .acquire _ next, pending => Clear settings radio bdaddr next pending
  | .release _ next, pending => Clear settings radio bdaddr next pending
  | .join _ next, pending => Clear settings radio bdaddr next pending
  | .act _ guard update next, pending => ∀ now, now.ghost.unvisited radio = pending →
      guard now = true →
      selections radio bdaddr (update now) = selections radio bdaddr now ∧
        (bdaddr ∈ (update now).ghost.unvisited radio → bdaddr ∈ pending ∨ bdaddr ∈ now.bdaddrs radio) ∧
        (Clear settings radio bdaddr (next now) ((update now).ghost.unvisited radio) ∨
          (bdaddr ∈ pending ∧
            Visiting settings radio bdaddr (next now) ((update now).ghost.unvisited radio)))

section Clear

variable {settings : Settings} {radio : Radio} {bdaddr other : Text} {α : Type}
variable {pending : List Text} {before after : Data} {held : List Lock}

/-! ## Steps that leave the address alone -/

theorem Still.of_same (unvisited : after.ghost.unvisited = before.ghost.unvisited)
    (trace : after.ghost.trace = before.ghost.trace) : Still radio bdaddr before after :=
  ⟨by rw [unvisited], by simp [Launcher.selections, trace]⟩

theorem Still.of_event {event : Event} (unvisited : after.ghost.unvisited = before.ghost.unvisited)
    (recorded : after.ghost.trace = before.ghost.trace ++ [event])
    (different : event ≠ .selected radio bdaddr) : Still radio bdaddr before after :=
  ⟨by rw [unvisited], by
    rw [Launcher.selections, Launcher.selections, recorded]
    simp [List.count_append, different]⟩

theorem Still.of_delete {own : Radio} (step : DeleteStep own other held before after) :
    Still radio bdaddr before after := by
  cases step with
  | same => exact .of_same rfl rfl
  | delete => exact .of_event rfl rfl (by simp)

theorem Still.of_stage {infoType : InfoType} (step : StageStep infoType other held before after) :
    Still radio bdaddr before after := by
  cases step with
  | delete step => exact .of_delete step
  | attempt => exact .of_same rfl rfl
  | launch step => cases step <;> exact .of_same rfl rfl

theorem still_within_shouldSkip :
    (shouldSkip settings radio other).Within (fun _ => Still radio bdaddr) [] [] := by
  refine within_ite (fun _ => rfl) fun _ => within_bind (within_demand fun data => ?_) fun _ => rfl
  split
  · split
    · exact .of_event rfl rfl (by simp)
    · exact .of_same rfl rfl
  · exact .of_same rfl rfl

theorem still_within_skip {allSkipped : Bool} :
    (skipBdaddr radio (reprioritize .ble radio) other allSkipped).Within
      (fun _ => Still radio bdaddr) [] [] := by
  have same : ∀ (held : List Lock) data, Still radio bdaddr data data := fun _ _ => .of_same rfl rfl
  refine within_bind (lockedDeleteFromDict_within.mono fun _ _ _ step => .of_delete step) fun _ =>
    within_ite (fun _ => ?_) fun _ => rfl
  apply reprioritizeFirst_within_of same
  exact fun _ => reprioritize_within_of same (fun _ _ => .of_same rfl rfl) fun _ _ =>
    .of_same rfl rfl

/-- Collecting from another address. -/
theorem still_within_collect (different : other ≠ bdaddr) :
    (collectBdaddr radio (stagesOf settings radio) other).Within (fun _ => Still radio bdaddr)
      [] [] := by
  refine (collectBdaddr_within settings).mono fun _ _ _ step => ?_
  cases step with
  | same => exact .of_same rfl rfl
  | countAttempt => exact .of_event rfl rfl (by simp [different])
  | stage _ step => exact .of_stage step

/-! ## A pass selects only what it has taken -/

theorem clear_bind {start : List Lock} {first : Code α} {rest : α → Code Unit}
    (still : first.Within (fun _ => Still radio bdaddr) start held)
    (later : ∀ value, Clear settings radio bdaddr (rest value) pending) :
    Clear settings radio bdaddr (first >>= rest) pending := by
  induction first generalizing held with
  | done value => exact later value
  | raised => trivial
  | acquire lock next inductionHypothesis => exact inductionHypothesis still
  | release lock next inductionHypothesis =>
      obtain ⟨_, _, _, remaining⟩ := still
      exact inductionHypothesis remaining
  | join thread next inductionHypothesis => exact inductionHypothesis still
  | act site guard update next inductionHypothesis =>
      intro now same enabled
      obtain ⟨shaped, remaining⟩ := still now
      have kept := shaped enabled
      rw [kept.unvisited, same]
      exact ⟨kept.selections, .inl, .inl (inductionHypothesis now remaining)⟩

/-- The rest of a pass from the decision on another address on. -/
private theorem clear_decideFrom {total : Nat}
    (continues : ∀ skipCount, Clear settings radio bdaddr
      (visitFrom settings radio total skipCount pending) pending)
    (different : ¬ (other = bdaddr ∧ settings.lower other ∉ settings.skipTheseAddresses))
    (skipCount : Nat) :
    Clear settings radio bdaddr (decideFrom settings radio total skipCount other pending) pending := by
  have skips : Clear settings radio bdaddr (skipFrom settings radio total skipCount other pending)
      pending := clear_bind still_within_skip fun _ => continues (skipCount + 1)
  by_cases listed : settings.lower other ∈ settings.skipTheseAddresses
  · have decided : shouldSkip settings radio other = pure true := if_pos listed
    unfold decideFrom
    rw [decided]
    exact skips
  · have another : other ≠ bdaddr := fun same => different ⟨same, listed⟩
    apply clear_bind still_within_shouldSkip
    intro skipped
    cases skipped with
    | true => exact skips
    | false => exact clear_bind (still_within_collect another) fun _ => continues skipCount

theorem clear_visitFrom (total skipCount : Nat) (pending : List Text) :
    Clear settings radio bdaddr (visitFrom settings radio total skipCount pending) pending := by
  induction pending generalizing skipCount with
  | nil =>
      intro now same _
      rw [← same]
      exact ⟨rfl, .inl, .inl trivial⟩
  | cons other rest inductionHypothesis =>
      rw [visitFrom_cons]
      intro now same _
      have left : (now.setUnvisited radio rest).ghost.unvisited radio = rest := by simp
      rw [left]
      refine ⟨rfl, fun member => .inl (List.mem_cons_of_mem _ member), ?_⟩
      by_cases here : other = bdaddr ∧ settings.lower other ∉ settings.skipTheseAddresses
      · obtain ⟨rfl, unlisted⟩ := here
        exact .inr ⟨List.mem_cons_self, unlisted, total, skipCount, rfl⟩
      · exact .inl (clear_decideFrom inductionHypothesis here skipCount)

private theorem clear_readRssis {bdaddrs : List Text} {rest : List (Text × Int) → Code Unit}
    (later : ∀ rssis, rssis.map Prod.fst = bdaddrs →
      Clear settings radio bdaddr (rest rssis) pending) :
    Clear settings radio bdaddr (readRssis radio bdaddrs >>= rest) pending := by
  induction bdaddrs generalizing rest with
  | nil => exact later [] rfl
  | cons first others inductionHypothesis =>
      unfold readRssis
      rw [bind_bind]
      intro now same _
      refine ⟨rfl, fun member => .inl (same ▸ member), .inl ?_⟩
      simp only
      cases (now.bdaddrs radio).lookup first with
      | none => trivial
      | some stored =>
          show Clear settings radio bdaddr ((readRssis radio others >>= fun rssis =>
            pure ((first, stored.2) :: rssis)) >>= rest) _
          have kept : (now.setSortPending radio others).ghost.unvisited radio = pending := same
          rw [bind_bind, kept]
          exact inductionHypothesis fun rssis names => later _ (by simp [names])

/-- A pass selects the address only after taking it from its snapshot. -/
theorem clear_threadFunction :
    Clear settings radio bdaddr (threadFunction settings radio) pending := by
  rw [threadFunction_eq_from]
  unfold sortedBdaddrs
  rw [bind_bind]
  intro now same _
  have listed : ((now.setSortPending radio (now.bdaddrs radio).keys).setUnvisited radio
      (now.bdaddrs radio).keys).ghost.unvisited radio = (now.bdaddrs radio).keys := by simp
  rw [listed]
  refine ⟨rfl, fun member => .inr (AList.mem_keys.mpr member), .inl ?_⟩
  show Clear settings radio bdaddr ((readRssis radio (now.bdaddrs radio).keys >>= _) >>= _) _
  rw [bind_bind]
  apply clear_readRssis
  intro rssis names later unvisited _
  have left : (later.setUnvisited radio (sortByRssi rssis)).ghost.unvisited radio =
      sortByRssi rssis := by simp
  rw [left]
  refine ⟨rfl, fun member => .inl ?_, .inl (clear_visitFrom _ _ _)⟩
  rw [← names]
  exact mem_sortByRssi member

/-- What follows the selection of an address. -/
private theorem still_within_stages :
    (stagesOf settings radio other >>= fun _ => joinExternalToolThreads radio).Within
      (fun _ => Still radio bdaddr) [] [] := by
  have stage : ∀ infoType, (runStage settings infoType other (launchOf infoType other)).Within
      (fun _ => Still radio bdaddr) [] [] := fun infoType =>
    (runStage_within settings launchOf_within).mono fun _ _ _ step => .of_stage step
  have joins : (joinExternalToolThreads radio).Within (fun _ => Still radio bdaddr) [] [] :=
    within_bind (within_look (fun _ _ => .of_same rfl rfl) _) fun _ =>
      within_forEach _ _ fun _ _ => within_joinThread _
  refine within_bind ?_ fun _ => joins
  cases radio with
  | ble => exact within_bind (stage .gatt) fun _ => stage .ll2thprint
  | btc => exact within_bind (stage .lmp2thprint) fun _ => stage .sdp

end Clear

/-! ## The worker's own steps -/

section Own

variable {settings : Settings} {radio : Radio} {bdaddr : Text} {self : ThreadId}
variable {ended : ThreadId → Bool} {program left : Code Unit} {shared later : Shared Lock ThreadId Data}

theorem Clear.step (clear : Clear settings radio bdaddr program (shared.data.ghost.unvisited radio))
    (stepped : program.step self ended shared = some (left, later)) :
    selections radio bdaddr later.data = selections radio bdaddr shared.data ∧
      (bdaddr ∈ later.data.ghost.unvisited radio →
        bdaddr ∈ shared.data.ghost.unvisited radio ∨ bdaddr ∈ shared.data.bdaddrs radio) ∧
      (Clear settings radio bdaddr left (later.data.ghost.unvisited radio) ∨
        (bdaddr ∈ shared.data.ghost.unvisited radio ∧
          Visiting settings radio bdaddr left (later.data.ghost.unvisited radio))) := by
  cases program with
  | done value => simp at stepped
  | raised => simp at stepped
  | acquire lock next =>
      obtain ⟨_, rfl, rfl⟩ := step_acquire.mp stepped
      exact ⟨rfl, .inl, .inl clear⟩
  | release lock next =>
      obtain ⟨_, rfl, rfl⟩ := step_release.mp stepped
      exact ⟨rfl, .inl, .inl clear⟩
  | join thread next =>
      obtain ⟨_, rfl, rfl⟩ := step_join.mp stepped
      exact ⟨rfl, .inl, .inl clear⟩
  | act site guard update next =>
      obtain ⟨enabled, rfl, rfl⟩ := step_act.mp stepped
      exact clear shared.data rfl enabled

/-- The check of the address: it is skipped, or it has an attempt left. -/
theorem Visiting.step
    (visiting : Visiting settings radio bdaddr program (shared.data.ghost.unvisited radio))
    (stepped : program.step self ended shared = some (left, later)) :
    selections radio bdaddr later.data = selections radio bdaddr shared.data ∧
      later.data.ghost.unvisited = shared.data.ghost.unvisited ∧
      (Clear settings radio bdaddr left (later.data.ghost.unvisited radio) ∨
        (Counting settings radio bdaddr left (later.data.ghost.unvisited radio) ∧
          0 < remaining settings later.data bdaddr)) := by
  obtain ⟨unlisted, total, skipCount, rfl⟩ := visiting
  unfold decideFrom shouldSkip at stepped
  rw [if_neg unlisted, bind_bind] at stepped
  obtain ⟨_, rfl, rfl⟩ := step_act.mp stepped
  simp only [Shared.setData_data]
  cases present : shared.data.deviceConnectAttempts.lookup bdaddr with
  | none => exact ⟨rfl, rfl, .inl trivial⟩
  | some attempts =>
      by_cases exceeded : attempts ≥ settings.maxConnectAttempts
      · have skipped : decide (attempts ≥ (settings.maxConnectAttempts : Int)) = true :=
          decide_eq_true exceeded
        have still : Still radio bdaddr shared.data (shared.data.record (.exceeded radio bdaddr)) :=
          .of_event rfl rfl (by simp)
        simp only [exceeded, if_true]
        refine ⟨still.selections, rfl, .inl ?_⟩
        show Clear settings radio bdaddr (if decide (attempts ≥ (settings.maxConnectAttempts : Int))
          then skipFrom settings radio total skipCount bdaddr _
          else collectFrom settings radio total skipCount bdaddr _) _
        rw [if_pos skipped]
        exact clear_bind still_within_skip fun _ => clear_visitFrom _ _ _
      · have visited : ¬ decide (attempts ≥ (settings.maxConnectAttempts : Int)) = true := by
          simpa using exceeded
        simp only [exceeded, if_false]
        refine ⟨trivial, trivial, .inr ⟨⟨total, skipCount, if_neg visited⟩, ?_⟩⟩
        simp only [remaining, present, attemptsLeft]
        omega

/-- The selection of the address. -/
theorem Counting.step
    (counting : Counting settings radio bdaddr program (shared.data.ghost.unvisited radio))
    (stepped : program.step self ended shared = some (left, later)) :
    later.data.ghost.unvisited = shared.data.ghost.unvisited ∧
      Clear settings radio bdaddr left (later.data.ghost.unvisited radio) ∧
      (selections radio bdaddr later.data = selections radio bdaddr shared.data ∨
        (selections radio bdaddr later.data = selections radio bdaddr shared.data + 1 ∧
          remaining settings later.data bdaddr = remaining settings shared.data bdaddr - 1)) := by
  obtain ⟨total, skipCount, rfl⟩ := counting
  unfold collectFrom collectBdaddr countAttempt at stepped
  rw [bind_bind] at stepped
  obtain ⟨_, rfl, rfl⟩ := step_act.mp stepped
  simp only [Shared.setData_data]
  cases present : shared.data.deviceConnectAttempts.lookup bdaddr with
  | none => exact ⟨rfl, trivial, .inl rfl⟩
  | some attempts =>
      have clear : Clear settings radio bdaddr
          ((stagesOf settings radio bdaddr >>= fun _ => joinExternalToolThreads radio) >>= fun _ =>
            visitFrom settings radio total skipCount (shared.data.ghost.unvisited radio))
          (shared.data.ghost.unvisited radio) :=
        clear_bind still_within_stages fun _ => clear_visitFrom _ _ _
      refine ⟨rfl, clear, .inr ⟨?_, ?_⟩⟩
      · simp [Launcher.selections, List.count_append]
      · simp only [remaining, present, attemptsLeft, Data.record, Data.setAttempts,
          Dict.lookup_setItem_self]
        omega

end Own

/-! ## Along a run -/

section Runs

variable {settings : Settings} {radio : Radio} {bdaddr : Text}
variable {before after : Config Lock ThreadId Data Site}

/-- A step of another thread. -/
theorem still_of_others {thread : ThreadId} {held : List Lock} {data changed : Data}
    (step : ThreadStep settings thread held data changed) (other : thread ≠ .worker radio) :
    Still radio bdaddr data changed := by
  cases thread with
  | monitor =>
      rcases step with ⟨line, rfl⟩ | ⟨asked, step⟩
      · exact .of_event rfl rfl (by simp)
      · cases step with
        | raiseRssi => exact .of_event rfl rfl (by simp)
        | delete => exact .of_event rfl rfl (by simp)
        | _ => exact .of_same rfl rfl
  | tool number =>
      obtain ⟨process, step⟩ := step
      cases step with
      | delete step => exact .of_delete step
      | _ => exact .of_same rfl rfl
  | worker own =>
      have different : own ≠ radio := fun same => other (by rw [same])
      obtain ⟨step, _⟩ := step
      cases step with
      | sort step =>
          cases step with
          | readRssi => exact .of_same rfl rfl
          | _ => exact ⟨by simp [Ne.symm different], rfl⟩
      | loop step =>
          cases step with
          | delete step => exact .of_delete step
          | next => exact ⟨by simp [Ne.symm different], rfl⟩
          | exceeded => exact .of_event rfl rfl (by simp)
      | collect step =>
          cases step with
          | same => exact .of_same rfl rfl
          | countAttempt => exact .of_event rfl rfl (by simp [different])
          | stage _ step => exact .of_stage step
      | unpark => exact .of_same rfl rfl
      | retrack => exact .of_same rfl rfl

/-- A step of the system is the worker's own, starts its next pass, or leaves both the
worker and the address alone. -/
theorem worker_or_still (bdaddr : Text) (reachable : (launcher settings).Reachable initial before)
    (stepped : (launcher settings).Steps before after) :
    (before.thread (.worker radio)).step (.worker radio) before.ended before.shared =
        some (after.thread (.worker radio), after.shared) ∨
      (after.thread (.worker radio) = threadFunction settings radio ∧
        after.shared = before.shared) ∨
      (after.thread (.worker radio) = before.thread (.worker radio) ∧
        Still radio bdaddr before.shared.data after.shared.data) := by
  obtain ⟨choice, chosen⟩ := stepped
  rcases System.steps_of_choice chosen with ⟨thread, left, shared, rfl, threadStep, same⟩ |
    ⟨thread, input, program, rfl, resting, entered, same⟩ | ⟨event, data, rfl, happened, same⟩
  · by_cases own : thread = .worker radio
    · subst own
      subst same
      exact .inl (by simpa using threadStep)
    · obtain ⟨held, _, step⟩ := threadStep_of_run reachable chosen
      refine .inr (.inr ⟨?_, still_of_others step own⟩)
      rw [same]
      exact Function.update_of_ne (Ne.symm own) _ _
  · by_cases own : thread = .worker radio
    · subst own
      subst same
      match input, entered with
      | none, entered =>
          obtain ⟨_, rfl⟩ : settings.threadEnabled radio = true ∧
              threadFunction settings radio = program := by
            simpa [launcher, entry] using entered
          exact .inr (.inl ⟨by simp, rfl⟩)
    · subst same
      exact .inr (.inr ⟨Function.update_of_ne (Ne.symm own) _ _, .of_same rfl rfl⟩)
  · subst same
    obtain ⟨_, _, _, _, _, rfl⟩ := environment_frame happened
    exact .inr (.inr ⟨rfl, .of_same rfl rfl⟩)

/-- Where the worker stands with respect to the address. An address that it is about
to select has a counter. -/
inductive Position (settings : Settings) (radio : Radio) (bdaddr : Text)
    (config : Config Lock ThreadId Data Site) : Prop where
  | clear
      (stands : Clear settings radio bdaddr (config.thread (.worker radio))
        (config.shared.data.ghost.unvisited radio))
  | visiting
      (stands : Visiting settings radio bdaddr (config.thread (.worker radio))
        (config.shared.data.ghost.unvisited radio))
  | counting
      (stands : Counting settings radio bdaddr (config.thread (.worker radio))
        (config.shared.data.ghost.unvisited radio))
      (counted : bdaddr ∈ config.shared.data.deviceConnectAttempts)

private theorem counted_of_remaining {data : Data} (left : 0 < remaining settings data bdaddr) :
    bdaddr ∈ data.deviceConnectAttempts := by
  apply (Dict.mem_iff_lookup _ _).mpr
  cases found : data.deviceConnectAttempts.lookup bdaddr with
  | none => simp [remaining, found, attemptsLeft] at left
  | some attempts => exact ⟨attempts, rfl⟩

theorem position_of_reachable {config : Config Lock ThreadId Data Site}
    (reachable : (launcher settings).Reachable initial config) :
    Position settings radio bdaddr config := by
  induction reachable with
  | refl => exact .clear trivial
  | tail earlier stepped inductionHypothesis =>
      rcases worker_or_still bdaddr earlier stepped.1 with own | ⟨starts, _⟩ | ⟨same, still⟩
      · cases inductionHypothesis with
        | clear stands => exact (stands.step own).2.2.elim .clear fun taken => .visiting taken.2
        | visiting stands =>
            exact (stands.step own).2.2.elim .clear fun counts =>
              .counting counts.1 (counted_of_remaining counts.2)
        | counting stands _ => exact .clear (stands.step own).2.1
      · apply Position.clear
        rw [starts]
        exact clear_threadFunction
      · cases inductionHypothesis with
        | clear stands =>
            rw [← same, ← still.unvisited] at stands
            exact .clear stands
        | visiting stands =>
            rw [← same, ← still.unvisited] at stands
            exact .visiting stands
        | counting stands counted =>
            rw [← same, ← still.unvisited] at stands
            apply Position.counting stands
            exact keepsCounters_of_anyStep (anyStep_of_steps earlier stepped.1) counted

/-! ## While no line comes in -/

/-- The selections so far and those that the worker may still make stay below the
bound. An attempt that the worker has found left is its own. -/
inductive Afforded (settings : Settings) (radio : Radio) (bdaddr : Text) (bound : Nat)
    (config : Config Lock ThreadId Data Site) : Prop where
  | clear
      (stands : Clear settings radio bdaddr (config.thread (.worker radio))
        (config.shared.data.ghost.unvisited radio))
      (enough : selections radio bdaddr config.shared.data +
        remaining settings config.shared.data bdaddr ≤ bound)
  | visiting
      (stands : Visiting settings radio bdaddr (config.thread (.worker radio))
        (config.shared.data.ghost.unvisited radio))
      (enough : selections radio bdaddr config.shared.data +
        remaining settings config.shared.data bdaddr ≤ bound)
  | counting
      (stands : Counting settings radio bdaddr (config.thread (.worker radio))
        (config.shared.data.ghost.unvisited radio))
      (enough : selections radio bdaddr config.shared.data +
        max (remaining settings config.shared.data bdaddr) 1 ≤ bound)

theorem Afforded.le {bound : Nat} {config : Config Lock ThreadId Data Site}
    (afforded : Afforded settings radio bdaddr bound config) :
    selections radio bdaddr config.shared.data ≤ bound := by
  cases afforded <;> omega

theorem Afforded.step {bound : Nat} (afforded : Afforded settings radio bdaddr bound before)
    (reachable : (launcher settings).Reachable initial before)
    {choice : Choice ThreadId Outside (Option Text)}
    (stepped : (launcher settings).step choice before = some after)
    (quiet : choice ≠ .run .monitor) : Afforded settings radio bdaddr bound after := by
  have fewer := (quiet_of_choice reachable stepped quiet radio).spends.fewer bdaddr
  rcases worker_or_still bdaddr reachable ⟨choice, stepped⟩ with own | ⟨starts, same⟩ | ⟨same, still⟩
  · cases afforded with
    | clear stands enough =>
        obtain ⟨selected, _, stands | ⟨_, stands⟩⟩ := stands.step own
        · exact .clear stands (by omega)
        · exact .visiting stands (by omega)
    | visiting stands enough =>
        obtain ⟨selected, _, stands | ⟨stands, left⟩⟩ := stands.step own
        · exact .clear stands (by omega)
        · exact .counting stands (by omega)
    | counting stands enough =>
        obtain ⟨_, stands, selected | ⟨selected, left⟩⟩ := stands.step own
        · exact .clear stands (by omega)
        · exact .clear stands (by omega)
  · have bounded := afforded.le
    cases afforded with
    | clear stands enough =>
        apply Afforded.clear
        · rw [starts]
          exact clear_threadFunction
        · rw [same]
          exact enough
    | visiting stands enough =>
        apply Afforded.clear
        · rw [starts]
          exact clear_threadFunction
        · rw [same]
          exact enough
    | counting stands enough =>
        apply Afforded.clear
        · rw [starts]
          exact clear_threadFunction
        · rw [same]
          omega
  · cases afforded with
    | clear stands enough =>
        rw [← same, ← still.unvisited] at stands
        exact .clear stands (by have := still.selections; omega)
    | visiting stands enough =>
        rw [← same, ← still.unvisited] at stands
        exact .visiting stands (by have := still.selections; omega)
    | counting stands enough =>
        rw [← same, ← still.unvisited] at stands
        exact .counting stands (by have := still.selections; omega)

/-- The address is nowhere, and the worker has nothing to do with it. -/
structure Absent (settings : Settings) (radio : Radio) (bdaddr : Text) (count : Nat)
    (config : Config Lock ThreadId Data Site) : Prop where
  stands : Clear settings radio bdaddr (config.thread (.worker radio))
    (config.shared.data.ghost.unvisited radio)
  selected : selections radio bdaddr config.shared.data = count
  untracked : bdaddr ∉ config.shared.data.bdaddrs radio
  unparked : bdaddr ∉ config.shared.data.deprioritizedBdaddrs radio
  unmoved : config.shared.data.ghost.reprioritizing radio ≠ some bdaddr
  visited : bdaddr ∉ config.shared.data.ghost.unvisited radio

theorem Absent.step {count : Nat} (absent : Absent settings radio bdaddr count before)
    (reachable : (launcher settings).Reachable initial before)
    {choice : Choice ThreadId Outside (Option Text)}
    (stepped : (launcher settings).step choice before = some after)
    (quiet : choice ≠ .run .monitor) : Absent settings radio bdaddr count after := by
  obtain ⟨_, lightens⟩ := quiet_of_choice reachable stepped quiet radio
  have untracked : bdaddr ∉ after.shared.data.bdaddrs radio := fun member =>
    (lightens.tracked bdaddr (mem_keySet.mpr member)).elim
      (fun old => absent.untracked (mem_keySet.mp old)) fun moved => absent.unmoved moved.1
  have unparked : bdaddr ∉ after.shared.data.deprioritizedBdaddrs radio := fun member =>
    absent.unparked (mem_keySet.mp (lightens.parked (mem_keySet.mpr member)))
  have unmoved : after.shared.data.ghost.reprioritizing radio ≠ some bdaddr := fun moving =>
    (lightens.moving bdaddr moving).elim absent.unmoved
      fun taken => absent.unparked (mem_keySet.mp taken.1)
  rcases worker_or_still bdaddr reachable ⟨choice, stepped⟩ with own | ⟨starts, same⟩ | ⟨same, still⟩
  · obtain ⟨selected, listed, stands⟩ := absent.stands.step own
    have visited : bdaddr ∉ after.shared.data.ghost.unvisited radio := fun member =>
      (listed member).elim absent.visited absent.untracked
    exact
      { stands := stands.resolve_right fun taken => absent.visited taken.1
        selected := selected.trans absent.selected
        untracked, unparked, unmoved, visited }
  · refine ⟨?_, by rw [same]; exact absent.selected, untracked, unparked, unmoved,
      by rw [same]; exact absent.visited⟩
    rw [starts]
    exact clear_threadFunction
  · refine ⟨?_, still.selections.trans absent.selected, untracked, unparked, unmoved, ?_⟩
    · rw [same, still.unvisited]
      exact absent.stands
    · rw [still.unvisited]
      exact absent.visited

end Runs

/-! ## All addresses together -/

/-- The address that the event selects for the worker of the radio. -/
def Event.selectedBy (radio : Radio) : Event → Option Text
  | .selected own bdaddr => if own = radio then some bdaddr else none
  | _ => none

/-- The addresses that the worker of the radio has selected, in order. -/
def selectedBy (radio : Radio) (data : Data) : List Text :=
  data.ghost.trace.filterMap (Event.selectedBy radio)

/-- The address that a program selects in its next steps, if the others rest. -/
def nextSelected (radio : Radio) : Nat → Code Unit → Data → Option Text
  | steps + 1, .act _ guard update next, data =>
      if guard data then
        (((update data).ghost.trace.drop data.ghost.trace.length).findSome?
          (Event.selectedBy radio)).or (nextSelected radio steps (next data) (update data))
      else none
  | _, _, _ => none

/-- The addresses that the worker of the radio has not dealt with: those in its two
dictionaries or on the way from one to the other, those of its snapshot that it has
not come to, and the one that it has in hand but has neither skipped nor counted. -/
def available (radio : Radio) (config : Config Lock ThreadId Data Site) : Finset Text :=
  keySet (config.shared.data.bdaddrs radio) ∪
    keySet (config.shared.data.deprioritizedBdaddrs radio) ∪
    (config.shared.data.ghost.reprioritizing radio).toFinset ∪
    (config.shared.data.ghost.unvisited radio).toFinset ∪
    (nextSelected radio 2 (config.thread (.worker radio)) config.shared.data).toFinset

/-- The worker is not just about to select an address whose last attempt the other
worker has used up since the check. -/
def NotOverdrawn (settings : Settings) (radio : Radio) (config : Config Lock ThreadId Data Site) :
    Prop :=
  ∀ bdaddr ∈ nextSelected radio 1 (config.thread (.worker radio)) config.shared.data,
    0 < remaining settings config.shared.data bdaddr

instance (settings : Settings) (radio : Radio) : DecidablePred (NotOverdrawn settings radio) :=
  fun config => inferInstanceAs (Decidable (∀ bdaddr ∈
    nextSelected radio 1 (config.thread (.worker radio)) config.shared.data,
      0 < remaining settings config.shared.data bdaddr))

section Bound

variable {settings : Settings} {radio : Radio} {bdaddr : Text} {program : Code Unit}
variable {pending : List Text} {data : Data}

theorem nextSelected_of_counting (counting : Counting settings radio bdaddr program pending)
    (counted : bdaddr ∈ data.deviceConnectAttempts) (steps : Nat) :
    nextSelected radio (steps + 1) program data = some bdaddr := by
  obtain ⟨total, skipCount, rfl⟩ := counting
  obtain ⟨attempts, present⟩ := (Dict.mem_iff_lookup _ _).mp counted
  unfold collectFrom collectBdaddr countAttempt
  rw [bind_bind]
  simp [Code.demand, nextSelected, present, Event.selectedBy]

theorem nextSelected_of_visiting (visiting : Visiting settings radio bdaddr program pending)
    (left : 0 < remaining settings data bdaddr) :
    nextSelected radio 2 program data = some bdaddr := by
  obtain ⟨unlisted, total, skipCount, rfl⟩ := visiting
  have counted := counted_of_remaining left
  obtain ⟨attempts, present⟩ := (Dict.mem_iff_lookup _ _).mp counted
  have below : ¬ (settings.maxConnectAttempts : Int) ≤ attempts :=
    not_le.mpr ((remaining_pos present).mp left)
  have counts : nextSelected radio 1 (collectFrom settings radio total skipCount bdaddr pending)
      data = some bdaddr :=
    nextSelected_of_counting ⟨total, skipCount, rfl⟩ counted 0
  unfold decideFrom shouldSkip
  rw [if_neg unlisted, bind_bind]
  simp [Code.demand, nextSelected, present, below, counts]

theorem count_selectedBy : (selectedBy radio data).count bdaddr = selections radio bdaddr data := by
  unfold selectedBy selections
  rw [List.count_filterMap, List.count_eq_countP]
  congr 1
  funext event
  cases event with
  | selected own other => by_cases same : own = radio <;> simp [Event.selectedBy, same]
  | _ => simp [Event.selectedBy]

/-- The selections of all addresses together. -/
theorem selectedBy_length {all : Finset Text} (within : (selectedBy radio data).toFinset ⊆ all) :
    (selectedBy radio data).length = ∑ bdaddr ∈ all, selections radio bdaddr data := by
  have each : ∀ bdaddr, (selectedBy radio data).count bdaddr = selections radio bdaddr data :=
    fun _ => count_selectedBy
  calc (selectedBy radio data).length
      = ∑ bdaddr ∈ (selectedBy radio data).toFinset, (selectedBy radio data).count bdaddr := by
        symm
        convert List.sum_toFinset_count_eq_length (selectedBy radio data)
    _ = ∑ bdaddr ∈ (selectedBy radio data).toFinset, selections radio bdaddr data :=
        Finset.sum_congr rfl fun bdaddr _ => each bdaddr
    _ = ∑ bdaddr ∈ all, selections radio bdaddr data := by
        apply Finset.sum_subset within
        intro bdaddr _ missing
        rw [← each, List.count_eq_zero]
        exact fun member => missing (List.mem_toFinset.mpr member)

end Bound

section QuietRuns

variable {settings : Settings} {radio : Radio} {before after : Config Lock ThreadId Data Site}

/-- Steps of any thread but the monitor. -/
def QuietSteps (settings : Settings) (before after : Config Lock ThreadId Data Site) : Prop :=
  ∃ choice, (launcher settings).step choice before = some after ∧ choice ≠ .run .monitor

/-- Runs in which the monitor does nothing. -/
def QuietRun (settings : Settings) :
    Config Lock ThreadId Data Site → Config Lock ThreadId Data Site → Prop :=
  Relation.ReflTransGen (QuietSteps settings)

theorem QuietRun.reachable (run : QuietRun settings before after) :
    (launcher settings).Reachable before after :=
  Relation.ReflTransGen.mono (fun _ _ ⟨choice, stepped, _⟩ => ⟨⟨choice, stepped⟩, trivial⟩) _ _ run

/-- What the steps of a quiet run keep. -/
private theorem QuietRun.kept {kept : Config Lock ThreadId Data Site → Prop}
    (reachable : (launcher settings).Reachable initial before) (run : QuietRun settings before after)
    (holds : kept before)
    (keeps : ∀ {first second choice}, (launcher settings).Reachable initial first →
      (launcher settings).step choice first = some second → choice ≠ .run .monitor →
      kept first → kept second) : kept after := by
  induction run with
  | refl => exact holds
  | tail earlier stepped inductionHypothesis =>
      obtain ⟨choice, chosen, quiet⟩ := stepped
      exact keeps (reachable.trans (QuietRun.reachable earlier)) chosen quiet inductionHypothesis

/-- The selections of one address in a quiet run. -/
private theorem selections_le (reachable : (launcher settings).Reachable initial before)
    (run : QuietRun settings before after) (affords : NotOverdrawn settings radio before)
    (bdaddr : Text) :
    selections radio bdaddr after.shared.data ≤ selections radio bdaddr before.shared.data +
      if bdaddr ∈ available radio before then remaining settings before.shared.data bdaddr else 0 := by
  have afforded : ∀ bound, Afforded settings radio bdaddr bound before →
      selections radio bdaddr after.shared.data ≤ bound := by
    intro bound afforded
    have kept : Afforded settings radio bdaddr bound after :=
      run.kept reachable afforded fun reached stepped quiet kept => kept.step reached stepped quiet
    exact kept.le
  have inHand : ∀ missing : bdaddr ∉ available radio before,
      nextSelected radio 2 (before.thread (.worker radio)) before.shared.data ≠ some bdaddr := by
    intro missing same
    apply missing
    simp [available, same]
  have position : Position settings radio bdaddr before := position_of_reachable reachable
  cases position with
  | clear stands =>
      split
      · next there => exact afforded _ (.clear stands (Nat.le_refl _))
      · next missing =>
          have absent : Absent settings radio bdaddr (selections radio bdaddr before.shared.data)
              before := by
            simp only [available, Finset.mem_union, not_or, List.mem_toFinset, Option.mem_toFinset]
              at missing
            obtain ⟨⟨⟨⟨untracked, unparked⟩, unmoved⟩, visited⟩, _⟩ := missing
            exact { stands, selected := rfl, untracked, unparked, unmoved, visited }
          have kept : Absent settings radio bdaddr (selections radio bdaddr before.shared.data)
              after :=
            run.kept reachable absent fun reached stepped quiet kept => kept.step reached stepped quiet
          exact kept.selected.le
  | visiting stands =>
      apply afforded
      apply Afforded.visiting stands
      split
      · next there => exact Nat.le_refl _
      · next missing =>
          have used : ¬ 0 < remaining settings before.shared.data bdaddr :=
            fun left => inHand missing (nextSelected_of_visiting stands left)
          omega
  | counting stands counted =>
      have next := nextSelected_of_counting stands counted
      have left := affords bdaddr (next 0)
      have there : bdaddr ∈ available radio before := by
        by_contra missing
        exact inHand missing (next 1)
      rw [if_pos there]
      apply afforded
      apply Afforded.counting stands
      omega

/-- In a quiet run, a worker selects addresses at most as often as the attempts of
those that it has not dealt with allow. -/
theorem selectedBy_length_le (reachable : (launcher settings).Reachable initial before)
    (run : QuietRun settings before after) (affords : NotOverdrawn settings radio before) :
    (selectedBy radio after.shared.data).length ≤ (selectedBy radio before.shared.data).length +
      ∑ bdaddr ∈ available radio before, remaining settings before.shared.data bdaddr := by
  let all : Finset Text := (selectedBy radio after.shared.data).toFinset ∪
    (selectedBy radio before.shared.data).toFinset ∪ available radio before
  calc (selectedBy radio after.shared.data).length
      = ∑ bdaddr ∈ all, selections radio bdaddr after.shared.data := by
        apply selectedBy_length
        intro bdaddr member
        simp only [all, Finset.mem_union, member, true_or]
    _ ≤ ∑ bdaddr ∈ all, (selections radio bdaddr before.shared.data +
          if bdaddr ∈ available radio before then remaining settings before.shared.data bdaddr
          else 0) := Finset.sum_le_sum fun bdaddr _ => selections_le reachable run affords bdaddr
    _ = (selectedBy radio before.shared.data).length +
          ∑ bdaddr ∈ available radio before, remaining settings before.shared.data bdaddr := by
        have early : (selectedBy radio before.shared.data).toFinset ⊆ all := by
          intro bdaddr member
          simp only [all, Finset.mem_union, member, true_or, or_true]
        have there : all ∩ available radio before = available radio before :=
          Finset.inter_eq_right.mpr Finset.subset_union_right
        rw [Finset.sum_add_distrib, selectedBy_length early, Finset.sum_ite_mem, there]

end QuietRuns

end NaiveBTSniffing.Launcher
