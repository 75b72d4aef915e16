import NaiveBTSniffing.Launcher.Rules

/-!
Contract: every step of the launcher, as a change of the shared data.

`threadStep_of_run` says, for every reachable state, what the next step of each
thread can do and that it is taken under locks that the thread holds. Facts that
do not depend on the order in which a thread takes its steps follow from this by
a case distinction (`related_of_run`).

Owns no assumption about runs: every interleaving is considered.
-/

namespace NaiveBTSniffing.Launcher

open NaiveBTSniffing.Library
open NaiveBTSniffing.Library.Interleaving
open NaiveBTSniffing.Library.Interleaving.Prog

/-- The counter of the address has reached the limit. -/
def UsedUp (settings : Settings) (bdaddr : Text) (data : Data) : Prop :=
  ∃ attempts, data.deviceConnectAttempts.lookup bdaddr = some attempts ∧
    settings.maxConnectAttempts ≤ attempts

/-- Attempts are found used up only where they are. -/
def ExceedsRightly (settings : Settings) (before after : Data) : Prop :=
  ∀ radio bdaddr, after.ghost.trace = before.ghost.trace ++ [.exceeded radio bdaddr] →
    UsedUp settings bdaddr before

/-- The steps of each thread, with the locks then taken. -/
def ThreadStep (settings : Settings) : ThreadId → List Lock → Data → Data → Prop
  | .monitor, held, before, after =>
      (∃ line, after = before.record (.line line)) ∨ ∃ asked, CommandStep held asked before after
  | .worker radio, held, before, after =>
      WorkerStep radio held before after ∧ ExceedsRightly settings before after
  | .tool number, held, before, after => ∃ process, ToolStep number process held before after

theorem ThreadStep.refl (settings : Settings) (thread : ThreadId) (held : List Lock)
    (data : Data) : ThreadStep settings thread held data data := by
  cases thread with
  | monitor => exact .inr ⟨.ignored, .same⟩
  | worker radio =>
      exact ⟨.collect (.same : CollectStep radio [] held data data), fun _ _ recorded => by
        simp at recorded⟩
  | tool number =>
      exact ⟨⟨[], .gatt, [], .running, none, false⟩, .delete .same⟩

def stepsContract (settings : Settings) : LauncherContract where
  inv := fun _ => True
  lockInv := fun _ _ => True
  rely := fun _ _ _ _ => True
  guar := ThreadStep settings
  rest := fun _ _ => True
  dead := fun _ _ => True
  allowed := fun _ _ => True
  relyRefl := fun _ _ _ => trivial
  relyTrans := fun _ _ => trivial
  relyLock := fun _ => trivial
  relyFree := fun _ _ _ => trivial
  guarRefl := ThreadStep.refl settings

/-! ## Where attempts are found used up -/

section Worker

variable {settings : Settings} {radio : Radio} {held : List Lock} {before after : Data}

private theorem exceedsRightly_of_trace (same : after.ghost.trace = before.ghost.trace) :
    ExceedsRightly settings before after := by
  intro radio bdaddr recorded
  rw [same] at recorded
  simp at recorded

/-- A step that records something else. -/
private theorem exceedsRightly_of_event {event : Event}
    (recorded : after.ghost.trace = before.ghost.trace ++ [event])
    (other : ∀ radio bdaddr, event ≠ .exceeded radio bdaddr) :
    ExceedsRightly settings before after := by
  intro radio bdaddr exceeded
  rw [recorded] at exceeded
  have same : [event] = [Event.exceeded radio bdaddr] := List.append_cancel_left exceeded
  exact absurd (List.cons.inj same).1 (other radio bdaddr)

private theorem exceedsRightly_of_delete {own : Radio} {bdaddr : Text}
    (step : DeleteStep own bdaddr held before after) :
    ExceedsRightly settings before after := by
  cases step with
  | same => exact exceedsRightly_of_trace rfl
  | delete => exact exceedsRightly_of_event rfl fun _ _ => by simp

private theorem exceedsRightly_of_collect {own : Radio} {bdaddr : Text}
    (step : CollectStep own bdaddr held before after) :
    ExceedsRightly settings before after := by
  cases step with
  | same => exact exceedsRightly_of_trace rfl
  | countAttempt => exact exceedsRightly_of_event rfl fun _ _ => by simp
  | stage _ step =>
      cases step with
      | delete step => exact exceedsRightly_of_delete step
      | attempt => exact exceedsRightly_of_trace rfl
      | launch step => cases step <;> exact exceedsRightly_of_trace rfl

/-- A worker's own steps. -/
private abbrev OwnStep (settings : Settings) (radio : Radio) (held : List Lock)
    (before after : Data) : Prop :=
  ThreadStep settings (.worker radio) held before after

private theorem shouldSkip_own (bdaddr : Text) :
    (shouldSkip settings radio bdaddr).Within (OwnStep settings radio) held held := by
  refine within_ite (fun _ => rfl) fun _ => within_bind (within_demand fun data => ?_) fun _ => rfl
  cases found : data.deviceConnectAttempts.lookup bdaddr with
  | none => exact ThreadStep.refl settings _ _ _
  | some attempts =>
      by_cases exceeded : attempts ≥ settings.maxConnectAttempts
      · simp only [exceeded, if_true]
        refine ⟨.loop (.exceeded : LoopStep radio bdaddr held _ _), fun own other recorded => ?_⟩
        have same := List.append_cancel_left (show data.ghost.trace ++
          [Event.exceeded radio bdaddr] = data.ghost.trace ++ [Event.exceeded own other]
          from recorded)
        obtain rfl : bdaddr = other := (Event.exceeded.inj (List.cons.inj same).1).2
        exact ⟨attempts, found, exceeded⟩
      · simp only [exceeded, if_false]
        exact ThreadStep.refl settings _ _ _

private theorem turn_own :
    (reprioritizeFirst radio (reprioritize .ble radio)).Within (OwnStep settings radio)
      held held := by
  have nothing : ∀ held data, OwnStep settings radio held data data :=
    fun _ _ => ThreadStep.refl settings _ _ _
  apply reprioritizeFirst_within_of nothing
  intro bdaddr
  apply reprioritize_within_of nothing
  · exact fun locked lockedToo => ⟨.unpark locked lockedToo, exceedsRightly_of_trace rfl⟩
  · exact fun locked lockedToo => ⟨.retrack locked lockedToo, exceedsRightly_of_trace rfl⟩

private theorem threadFunction_own :
    (threadFunction settings radio).Within (OwnStep settings radio) held held := by
  apply threadFunction_within_of settings fun _ _ => ThreadStep.refl settings _ _ _
  · refine sortedBdaddrs_within.mono fun _ _ _ step => ⟨.sort step, ?_⟩
    cases step <;> exact exceedsRightly_of_trace rfl
  · exact fun _ _ => ⟨.loop (.next : LoopStep radio [] _ _ _), exceedsRightly_of_trace rfl⟩
  · exact shouldSkip_own
  · exact fun _ => lockedDeleteFromDict_within.mono fun _ _ _ step =>
      ⟨.loop (.delete step), exceedsRightly_of_delete step⟩
  · exact fun _ => (collectBdaddr_within settings).mono fun _ _ _ step =>
      ⟨.collect step, exceedsRightly_of_collect step⟩
  · exact turn_own

end Worker

/-! ## The system -/

section System

variable {settings : Settings}

private theorem steps_of_within {α : Type} {thread : ThreadId} {program : Code α}
    (within : program.Within (ThreadStep settings thread) [] []) (data : Data) :
    program.Safe (stepsContract settings) thread [] (fun _ _ => True) (fun _ => True) [] data := by
  have framed : Triple (stepsContract settings) thread [] (fun _ => True) (fun _ => True) program
      fun _ _ => True :=
    Triple.frame within (Contract.stable_const _ _ _ _)
      (fun _ _ _ _ _ _ step _ => ⟨trivial, step, trivial⟩) (fun _ _ _ _ _ free => free)
      fun _ _ _ => trivial
  exact framed data trivial trivial

private theorem stepsContract_lawful : (stepsContract settings).Lawful (launcher settings) where
  guarRely := fun _ _ _ _ _ => trivial
  guarFree := fun _ _ _ _ free => free
  outside := fun _ _ _ => ⟨trivial, fun _ free => free, fun _ _ => trivial⟩
  entries := by
    intro thread input program data entered _ _
    match thread, input, entered with
    | .monitor, some line, entered =>
        obtain rfl := Option.some.inj entered
        apply steps_of_within
        exact within_bind (within_change fun _ => .inl ⟨_, rfl⟩) fun _ =>
          (processCommand_within _).mono fun _ _ _ step => .inr ⟨_, step⟩
    | .worker own, none, entered =>
        obtain ⟨_, rfl⟩ : settings.threadEnabled own = true ∧
            threadFunction settings own = program := by
          simpa [launcher, entry] using entered
        exact steps_of_within threadFunction_own data

private theorem stepsContract_initial : (stepsContract settings).Holds initial fun _ => [] where
  invariant := trivial
  free := fun _ _ => trivial
  owns := ⟨by simp [initial], by simp⟩
  safe := fun thread => by
    cases thread with
    | tool number =>
        apply steps_of_within
        refine within_bind (within_await (fun _ => ThreadStep.refl settings _ _ _) _ _ _)
          fun started => ?_
        cases started with
        | none => rfl
        | some process => exact runProcess_within.mono fun _ _ _ step => ⟨process, step⟩
    | _ => exact ⟨rfl, fun _ _ _ => trivial⟩

/-- What a thread can do in its next step, and the locks that it then holds. -/
theorem threadStep_of_run {before after : Config Lock ThreadId Data Site}
    (reachable : (launcher settings).Reachable initial before) {thread : ThreadId}
    (stepped : (launcher settings).step (.run thread) before = some after) :
    ∃ held, (∀ lock ∈ held, before.shared.holder lock = some thread) ∧
      ThreadStep settings thread held before.shared.data after.shared.data := by
  obtain ⟨held, holds⟩ := stepsContract_lawful.holds_of_run reachable stepsContract_initial
  exact ⟨held thread, fun lock member => (holds.owns.iff lock thread).mpr member,
    stepsContract_lawful.promise holds stepped trivial⟩

/-- A step of any thread or of the outside world. -/
def AnyStep (settings : Settings) (before after : Data) : Prop :=
  (∃ thread held, ThreadStep settings thread held before after) ∨
    ∃ event, environment event before = some after

theorem anyStep_of_steps {before after : Config Lock ThreadId Data Site}
    (reachable : (launcher settings).Reachable initial before)
    (stepped : (launcher settings).Steps before after) :
    AnyStep settings before.shared.data after.shared.data := by
  obtain ⟨held, holds⟩ := stepsContract_lawful.holds_of_run reachable stepsContract_initial
  obtain ⟨_, _, _, promise | happened⟩ := (stepsContract_lawful.step holds stepped trivial).2
  · exact .inl promise
  · exact .inr happened

/-- What holds across every step holds across every run. -/
theorem related_of_run {relation : Data → Data → Prop} (reflexive : ∀ data, relation data data)
    (transitive : ∀ {first second third}, relation first second → relation second third →
      relation first third)
    (keeps : ∀ {before after}, AnyStep settings before after → relation before after)
    {before after : Config Lock ThreadId Data Site}
    (reachable : (launcher settings).Reachable initial before)
    (run : (launcher settings).Reachable before after) :
    relation before.shared.data after.shared.data := by
  obtain ⟨held, holds⟩ := stepsContract_lawful.holds_of_run reachable stepsContract_initial
  refine stepsContract_lawful.related_of_run reflexive transitive (fun moves => ?_) run holds
  exact keeps moves.2.2.2

/-- Attempts are found used up only by a worker that looks at the counter. -/
theorem usedUp_of_exceeded {before after : Data} (step : AnyStep settings before after) :
    ExceedsRightly settings before after := by
  rcases step with ⟨thread, held, step⟩ | ⟨event, happened⟩
  · cases thread with
    | monitor =>
        rcases step with ⟨line, rfl⟩ | ⟨asked, step⟩
        · exact exceedsRightly_of_event rfl fun _ _ => by simp
        · cases step with
          | raiseRssi => exact exceedsRightly_of_event rfl fun _ _ => by simp
          | delete => exact exceedsRightly_of_event rfl fun _ _ => by simp
          | _ => exact exceedsRightly_of_trace rfl
    | worker radio => exact step.2
    | tool number =>
        obtain ⟨process, step⟩ := step
        cases step with
        | delete step => exact exceedsRightly_of_delete step
        | _ => exact exceedsRightly_of_trace rfl
  · rcases environment_cases happened with ⟨_, _, _, _, _, _, _, rfl⟩ | ⟨_, _, _, _, _, rfl⟩ |
      ⟨_, _, _, rfl⟩ <;> exact exceedsRightly_of_trace rfl

end System

end NaiveBTSniffing.Launcher
