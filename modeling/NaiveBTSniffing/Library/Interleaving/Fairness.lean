import Mathlib.Order.Filter.AtTopBot.Basic
import Mathlib.Order.OrderIsoNat
import NaiveBTSniffing.Library.Interleaving.LockOrder

/-!
Contract: infinite executions, weak fairness, and what is still from some moment
on.

An execution is a schedule, the scheduler's choice at every moment, together with
the configuration it starts from. A choice that is not possible changes nothing,
so finite runs and pauses are executions too. Owns the two facts that termination
arguments rest on: a thread that no longer starts programs stops moving
(`Execution.eventually_still`), and where nothing can move, no lock is held
(`Disciplined.free_of_stuck`).

Names no program and no measure.
-/

namespace NaiveBTSniffing.Library.Interleaving

open Filter

variable {K T D L E I α : Type}

/-- The thread that a choice lets move. -/
def Choice.mover : Choice T E I → Option T
  | .run thread => some thread
  | .start thread _ => some thread
  | .environment _ => none

namespace Prog

/-- What a program may have become after one step. -/
inductive Follows : Prog K T D L α → Prog K T D L α → Prop where
  | acquire {lock next} : Follows next (.acquire lock next)
  | release {lock next} : Follows next (.release lock next)
  | join {thread next} : Follows next (.join thread next)
  | act {site guard update next} (data : D) : Follows (next data) (.act site guard update next)

theorem Follows.not_ended {left program : Prog K T D L α} (follows : left.Follows program) :
    program.ended = false := by
  cases follows <;> rfl

theorem follows_wellFounded : WellFounded (Follows : Prog K T D L α → Prog K T D L α → Prop) := by
  refine ⟨fun program => ?_⟩
  induction program with
  | done value => exact ⟨_, fun _ step => nomatch step⟩
  | raised => exact ⟨_, fun _ step => nomatch step⟩
  | acquire lock next inductionHypothesis =>
      exact ⟨_, fun _ step => match step with | .acquire => inductionHypothesis⟩
  | release lock next inductionHypothesis =>
      exact ⟨_, fun _ step => match step with | .release => inductionHypothesis⟩
  | join thread next inductionHypothesis =>
      exact ⟨_, fun _ step => match step with | .join => inductionHypothesis⟩
  | act site guard update next inductionHypothesis =>
      exact ⟨_, fun _ step => match step with | .act data => inductionHypothesis data⟩

theorem follows_of_step [DecidableEq K] [DecidableEq T] {self : T} {ended : T → Bool}
    {program left : Prog K T D L α} {shared later : Shared K T D}
    (stepped : program.step self ended shared = some (left, later)) : left.Follows program := by
  cases program with
  | done value => simp at stepped
  | raised => simp at stepped
  | acquire lock next =>
      obtain ⟨_, rfl, _⟩ := step_acquire.mp stepped
      exact .acquire
  | release lock next =>
      obtain ⟨_, rfl, _⟩ := step_release.mp stepped
      exact .release
  | join thread next =>
      obtain ⟨_, rfl, _⟩ := step_join.mp stepped
      exact .join
  | act site guard update next =>
      obtain ⟨_, rfl, _⟩ := step_act.mp stepped
      exact .act _

end Prog

/-! ## Nothing can move -/

/-- The thread cannot take a step from here, were the data as given. -/
def Config.StuckOn [DecidableEq K] [DecidableEq T] (config : Config K T D L) (thread : T)
    (data : D) : Prop :=
  (config.thread thread).step thread config.ended (config.shared.setData data) = none

section Stuck

variable {rank : K → Nat} {config : Config K T D L} {held : T → List K} {thread : T}

/-- A thread that has ended holds no lock. -/
theorem Disciplined.free_of_ended (disciplined : Disciplined rank config held)
    (ended : config.ended thread = true) (lock : K) :
    config.shared.holder lock ≠ some thread := by
  have ordered := disciplined.ordered thread
  intro holds
  have member := (disciplined.owns.iff lock thread).mp holds
  unfold Config.ended at ended
  cases program : config.thread thread with
  | done value =>
      rw [program] at ordered
      exact List.not_mem_nil (ordered ▸ member)
  | raised =>
      rw [program] at ordered
      exact List.not_mem_nil (ordered ▸ member)
  | _ => simp [program, Prog.ended] at ended

/-- A thread that ends with its next step holds no lock. -/
theorem Disciplined.free_of_last (disciplined : Disciplined rank config held) {site : L}
    {guard : D → Bool} {update : D → D} {next : D → Prog K T D L Unit}
    (stands : config.thread thread = .act site guard update next) (data : D)
    (last : (next data).ended = true) (lock : K) : config.shared.holder lock ≠ some thread := by
  have ordered := disciplined.ordered thread
  rw [stands] at ordered
  have remaining := ordered data
  intro holds
  have member := (disciplined.owns.iff lock thread).mp holds
  cases program : next data with
  | done value =>
      rw [program] at remaining
      exact List.not_mem_nil (remaining ▸ member)
  | raised =>
      rw [program] at remaining
      exact List.not_mem_nil (remaining ▸ member)
  | _ => simp [program, Prog.ended] at last

variable [DecidableEq K] [DecidableEq T]

/-- The holder of a lock can only wait for a lock of higher rank. -/
private theorem higher_of_stuck (disciplined : Disciplined rank config held) {lock : K}
    (holds : config.shared.holder lock = some thread) {data : D}
    (stuck : config.StuckOn thread data)
    (prompt : ∀ {site guard update next}, config.thread thread = .act site guard update next →
      ∀ data, guard data = true) :
    ∃ higher, rank lock < rank higher ∧ config.shared.holder higher ≠ none := by
  have running : config.ended thread ≠ true := fun ended =>
    disciplined.free_of_ended ended lock holds
  unfold Config.StuckOn at stuck
  cases program : config.thread thread with
  | done value => simp [Config.ended, program, Prog.ended] at running
  | raised => simp [Config.ended, program, Prog.ended] at running
  | join other next => exact absurd holds (disciplined.free_of_join program lock)
  | release other next =>
      have ordered := disciplined.ordered thread
      rw [program] at ordered
      obtain ⟨below, mine, _⟩ := ordered
      have owned : config.shared.holder other = some thread :=
        (disciplined.owns.iff other thread).mpr (by rw [mine]; exact List.mem_cons_self)
      simp [program, Prog.step, owned] at stuck
  | act site guard update next =>
      simp [program, Prog.step, prompt program data] at stuck
  | acquire higher next =>
      apply Exists.intro higher
      apply And.intro (disciplined.lower program holds)
      intro free
      simp [program, Prog.step, free] at stuck

/-- If every thread that holds a lock is stuck, and none of them waits for the
data, then no lock is held. -/
theorem Disciplined.free_of_stuck (disciplined : Disciplined rank config held) {bound : Nat}
    (bounded : ∀ lock, rank lock ≤ bound)
    (stuck : ∀ thread lock, config.shared.holder lock = some thread →
      ∃ data, config.StuckOn thread data)
    (prompt : ∀ thread lock, config.shared.holder lock = some thread →
      ∀ {site guard update next}, config.thread thread = .act site guard update next →
        ∀ data, guard data = true) (lock : K) : config.shared.holder lock = none := by
  induction distance : bound - rank lock using Nat.strong_induction_on generalizing lock with
  | h distance inductionHypothesis =>
      by_contra taken
      obtain ⟨thread, holds⟩ := Option.ne_none_iff_exists'.mp taken
      obtain ⟨data, stands⟩ := stuck thread lock holds
      obtain ⟨higher, above, takenToo⟩ :=
        higher_of_stuck disciplined holds stands (prompt thread lock holds)
      have limit := bounded higher
      apply takenToo
      apply inductionHypothesis (bound - rank higher) (by omega) higher rfl

end Stuck

/-! ## Executions -/

/-- A start and the scheduler's choice at every moment. -/
structure Execution (system : System K T D L E I) where
  start : Config K T D L
  schedule : Nat → Choice T E I

namespace Execution

variable [DecidableEq K] [DecidableEq T] {system : System K T D L E I}

/-- The configuration at a moment. A choice that is not possible changes nothing. -/
def state (execution : Execution system) : Nat → Config K T D L
  | 0 => execution.start
  | moment + 1 =>
      (system.step (execution.schedule moment) (execution.state moment)).getD
        (execution.state moment)

/-- The thread takes a step at the moment. -/
def Moves (execution : Execution system) (thread : T) (moment : Nat) : Prop :=
  (execution.schedule moment).mover = some thread ∧
    (system.step (execution.schedule moment) (execution.state moment)).isSome

/-- Weak fairness: again and again the choice is made or is not possible. -/
def Fair (execution : Execution system) (choice : Choice T E I) : Prop :=
  ∃ᶠ moment in atTop, execution.schedule moment = choice ∨
    system.step choice (execution.state moment) = none

/-- Nothing happens, or the scheduler's choice does. -/
theorem state_succ (execution : Execution system) (moment : Nat) :
    execution.state (moment + 1) = execution.state moment ∨
      system.step (execution.schedule moment) (execution.state moment) =
        some (execution.state (moment + 1)) := by
  show (system.step _ _).getD _ = _ ∨ _ = some ((system.step _ _).getD _)
  cases system.step (execution.schedule moment) (execution.state moment) with
  | none => exact .inl rfl
  | some after => exact .inr rfl

/-- What every step and every pause keeps holds from a moment on. -/
theorem kept_from {kept : Config K T D L → Prop} {execution : Execution system} {first : Nat}
    (holds : kept (execution.state first))
    (keeps : ∀ moment, first ≤ moment → kept (execution.state moment) →
      system.step (execution.schedule moment) (execution.state moment) =
        some (execution.state (moment + 1)) → kept (execution.state (moment + 1)))
    {later : Nat} (after : first ≤ later) : kept (execution.state later) := by
  induction later, after using Nat.le_induction with
  | base => exact holds
  | succ moment after inductionHypothesis =>
      rcases execution.state_succ moment with same | stepped
      · rw [same]
        exact inductionHypothesis
      · exact keeps moment after inductionHypothesis stepped

/-- The steps between two moments are a run. -/
theorem run {execution : Execution system} {allowed : D → D → Prop}
    (admitted : ∀ moment, allowed (execution.state moment).shared.data
      (execution.state (moment + 1)).shared.data) {first later : Nat} (after : first ≤ later) :
    system.Run allowed (execution.state first) (execution.state later) := by
  refine kept_from Relation.ReflTransGen.refl (fun moment _ run stepped => ?_) after
  exact run.tail ⟨⟨_, stepped⟩, admitted moment⟩

theorem reachable {execution : Execution system} {first later : Nat} (after : first ≤ later) :
    system.Reachable (execution.state first) (execution.state later) :=
  execution.run (fun _ => trivial) after

/-- What no step raises from some moment on becomes constant. -/
theorem eventually_constant {execution : Execution system} (measure : Config K T D L → Nat)
    {first : Nat} (sinks : ∀ moment ≥ first,
      system.step (execution.schedule moment) (execution.state moment) =
        some (execution.state (moment + 1)) →
      measure (execution.state (moment + 1)) ≤ measure (execution.state moment)) :
    ∃ last ≥ first, ∀ later ≥ last,
      measure (execution.state later) = measure (execution.state last) := by
  have falls : Antitone fun steps => measure (execution.state (first + steps)) := by
    apply antitone_nat_of_succ_le
    intro steps
    rcases execution.state_succ (first + steps) with same | stepped
    · exact (congrArg measure same).le
    · exact sinks _ (Nat.le_add_right _ _) stepped
  obtain ⟨steps, constant⟩ := WellFoundedLT.antitone_chain_condition falls
  apply Exists.intro (first + steps)
  apply And.intro (Nat.le_add_right _ _)
  intro later after
  have same := constant (later - first) (by omega)
  rw [show first + (later - first) = later by omega] at same
  exact same.symm

/-- A thread that does not move stands where it stood. -/
theorem thread_of_not_moves {execution : Execution system} {thread : T} {moment : Nat}
    (still : ¬ execution.Moves thread moment) :
    (execution.state (moment + 1)).thread thread = (execution.state moment).thread thread := by
  rcases execution.state_succ moment with same | stepped
  · rw [same]
  · have moved : ∀ mover, (execution.schedule moment).mover = some mover → thread ≠ mover := by
      rintro mover chosen rfl
      exact still ⟨chosen, by rw [stepped]; rfl⟩
    rcases System.steps_of_choice stepped with ⟨mover, left, shared, chosen, _, after⟩ |
      ⟨mover, input, program, chosen, _, _, after⟩ | ⟨event, data, _, _, after⟩
    · rw [after]
      exact Function.update_of_ne (moved mover (by rw [chosen]; rfl)) _ _
    · rw [after]
      exact Function.update_of_ne (moved mover (by rw [chosen]; rfl)) _ _
    · rw [after]

/-- A thread that moves follows its program, or starts one. -/
theorem follows_of_moves {execution : Execution system} {thread : T} {moment : Nat}
    (moves : execution.Moves thread moment) :
    ((execution.state (moment + 1)).thread thread).Follows
        ((execution.state moment).thread thread) ∨
      ∃ input, execution.schedule moment = .start thread input := by
  obtain ⟨chosen, possible⟩ := moves
  obtain ⟨after, stepped⟩ := Option.isSome_iff_exists.mp possible
  have reached : execution.state (moment + 1) = after := by
    show (system.step _ _).getD _ = after
    rw [stepped]
    rfl
  rcases System.steps_of_choice stepped with ⟨mover, left, shared, same, threadStep, rfl⟩ |
    ⟨mover, input, program, same, _, _, _⟩ | ⟨event, data, same, _, _⟩
  · rw [same] at chosen
    obtain rfl : mover = thread := Option.some.inj chosen
    apply Or.inl
    rw [reached]
    simpa using Prog.follows_of_step threadStep
  · rw [same] at chosen
    obtain rfl : mover = thread := Option.some.inj chosen
    exact .inr ⟨input, same⟩
  · simp [same, Choice.mover] at chosen

/-- A thread that starts was at rest, and has its program from then on. -/
theorem started_of_moves {execution : Execution system} {thread : T} {input : I} {moment : Nat}
    (starts : execution.schedule moment = .start thread input)
    (moves : execution.Moves thread moment) :
    (execution.state moment).thread thread = .done () ∧
      system.entry thread input = some ((execution.state (moment + 1)).thread thread) ∧
      (execution.state (moment + 1)).shared = (execution.state moment).shared := by
  obtain ⟨after, stepped⟩ := Option.isSome_iff_exists.mp moves.2
  have reached : execution.state (moment + 1) = after := by
    show (system.step _ _).getD _ = after
    rw [stepped]
    rfl
  rw [reached]
  rw [starts] at stepped
  rcases System.steps_of_choice stepped with ⟨_, _, _, impossible, _⟩ |
    ⟨other, given, program, same, resting, entered, rfl⟩ | ⟨_, _, impossible, _⟩
  · simp at impossible
  · obtain ⟨rfl, rfl⟩ := Choice.start.inj same
    exact ⟨resting, by simpa using entered, rfl⟩
  · simp at impossible

/-- A thread that does not move for a while stands where it stood. -/
theorem thread_of_still {execution : Execution system} {thread : T} {first later : Nat}
    (after : first ≤ later)
    (still : ∀ moment, first ≤ moment → moment < later → ¬ execution.Moves thread moment) :
    (execution.state later).thread thread = (execution.state first).thread thread := by
  induction later, after using Nat.le_induction with
  | base => rfl
  | succ moment after inductionHypothesis =>
      rw [thread_of_not_moves (still moment after (Nat.lt_succ_self moment))]
      apply inductionHypothesis
      exact fun other afterFirst before => still other afterFirst (Nat.lt_succ_of_lt before)

/-- A thread that starts no more programs comes to a stop. -/
theorem eventually_still {execution : Execution system} {thread : T}
    (settled : ∀ᶠ moment in atTop, ∀ input, execution.schedule moment = .start thread input →
      ¬ execution.Moves thread moment) :
    ∀ᶠ moment in atTop, ¬ execution.Moves thread moment := by
  obtain ⟨first, never⟩ := eventually_atTop.mp settled
  suffices stops : ∀ program, ∀ moment ≥ first, (execution.state moment).thread thread = program →
      ∃ last, ∀ later ≥ last, ¬ execution.Moves thread later from
    eventually_atTop.mpr (stops _ first (Nat.le_refl _) rfl)
  intro program
  induction program using Prog.follows_wellFounded.induction with
  | h program inductionHypothesis =>
      intro moment after stands
      by_cases again : ∃ later, moment ≤ later ∧ execution.Moves thread later
      · -- The first step of the thread leads to a smaller program.
        classical
        obtain ⟨late, moves⟩ := Nat.find_spec again
        have same : (execution.state (Nat.find again)).thread thread = program := by
          rw [← stands]
          apply thread_of_still late
          exact fun other afterMoment before moved =>
            Nat.find_min again before ⟨afterMoment, moved⟩
        rcases follows_of_moves moves with follows | ⟨input, starts⟩
        · rw [same] at follows
          exact inductionHypothesis _ follows _ (by omega) rfl
        · exact absurd moves (never _ (by omega) input starts)
      · exact ⟨moment, fun later afterMoment moved => again ⟨later, afterMoment, moved⟩⟩

/-- From the moment on at which no thread moves any more, nothing but the data
changes. -/
theorem kept_of_still {execution : Execution system} {first later : Nat} (after : first ≤ later)
    (still : ∀ moment ≥ first, ∀ thread, ¬ execution.Moves thread moment) :
    (execution.state later).thread = (execution.state first).thread ∧
      (execution.state later).shared.holder = (execution.state first).shared.holder := by
  induction later, after using Nat.le_induction with
  | base => exact ⟨rfl, rfl⟩
  | succ moment after inductionHypothesis =>
      rcases execution.state_succ moment with same | stepped
      · rw [same]
        exact inductionHypothesis
      · have unmoved : ∀ mover, (execution.schedule moment).mover ≠ some mover :=
          fun mover chosen => still moment after mover ⟨chosen, by rw [stepped]; rfl⟩
        rcases System.steps_of_choice stepped with ⟨mover, _, _, chosen, _, _⟩ |
          ⟨mover, _, _, chosen, _, _, _⟩ | ⟨_, _, _, _, reached⟩
        · exact absurd (by rw [chosen]; rfl) (unmoved mover)
        · exact absurd (by rw [chosen]; rfl) (unmoved mover)
        · rw [reached]
          exact inductionHypothesis

/-- A thread that does not move any more is unable to make a choice that it would be
fair to make. -/
theorem unable_of_still {execution : Execution system} {thread : T} {first : Nat}
    (still : ∀ moment ≥ first, ¬ execution.Moves thread moment) {choice : Choice T E I}
    (mover : choice.mover = some thread) (fair : execution.Fair choice) :
    ∃ moment ≥ first, system.step choice (execution.state moment) = none := by
  obtain ⟨moment, after, chosen | unable⟩ := frequently_atTop.mp fair first
  · apply Exists.intro moment
    apply And.intro after
    by_contra possible
    apply still moment after
    rw [← chosen] at mover possible
    exact ⟨mover, Option.isSome_iff_ne_none.mpr possible⟩
  · exact ⟨moment, after, unable⟩

/-- When no thread moves any more, each one that is scheduled fairly is stuck. -/
theorem stuck_of_still {execution : Execution system} {thread : T} {first : Nat}
    (still : ∀ moment ≥ first, ∀ thread, ¬ execution.Moves thread moment)
    (fair : execution.Fair (.run thread)) :
    ∃ moment ≥ first,
      (execution.state first).StuckOn thread (execution.state moment).shared.data := by
  have rests : ∀ moment ≥ first, ¬ execution.Moves thread moment :=
    fun moment after => still moment after thread
  obtain ⟨moment, after, unable⟩ := unable_of_still rests rfl fair
  apply Exists.intro moment
  apply And.intro after
  obtain ⟨sameThread, sameHolder⟩ := execution.kept_of_still after still
  have sameShared : (execution.state first).shared.setData
      (execution.state moment).shared.data = (execution.state moment).shared := by
    show Shared.mk _ _ = _
    rw [← sameHolder]
  have sameEnded : (execution.state first).ended = (execution.state moment).ended := by
    unfold Config.ended
    rw [sameThread]
  unfold Config.StuckOn
  rw [sameShared, sameEnded, ← sameThread]
  exact Option.map_eq_none_iff.mp unable

/-! ## Executions that come to a stop -/

/-- Some choices one after the other, and then the same one for ever. -/
def following (start : Config K T D L) (choices : List (Choice T E I)) (pause : Choice T E I) :
    Execution system where
  start
  schedule := fun moment => choices.getD moment pause

omit [DecidableEq K] [DecidableEq T] in
theorem schedule_following (start : Config K T D L) (choices : List (Choice T E I))
    (pause : Choice T E I) (moment : Nat) :
    (following start choices pause : Execution system).schedule moment ∈ choices ∨
      (following start choices pause : Execution system).schedule moment = pause := by
  show choices.getD moment pause ∈ choices ∨ choices.getD moment pause = pause
  rw [List.getD_eq_getElem?_getD]
  cases found : choices[moment]? with
  | none => exact .inr rfl
  | some choice => exact .inl (List.mem_of_getElem? found)

section Following

variable {start next final : Config K T D L} {pause : Choice T E I} {choices : List (Choice T E I)}

private theorem state_following_cons {choice : Choice T E I}
    (stepped : system.step choice start = some next) (moment : Nat) :
    (following start (choice :: choices) pause : Execution system).state (moment + 1) =
      (following next choices pause : Execution system).state moment := by
  induction moment with
  | zero =>
      show (system.step choice start).getD start = next
      rw [stepped]
      rfl
  | succ moment inductionHypothesis =>
      show (system.step _ _).getD _ = (system.step _ _).getD _
      rw [inductionHypothesis]
      rfl

private theorem state_following_nil (unable : system.step pause start = none) (moment : Nat) :
    (following start [] pause : Execution system).state moment = start := by
  induction moment with
  | zero => rfl
  | succ moment inductionHypothesis =>
      show (system.step pause _).getD _ = start
      rw [inductionHypothesis, unable]
      rfl

variable {test : D → D → Bool}

/-- After its first choices, such an execution goes on with the others. -/
theorem state_following_append {early : List (Choice T E I)}
    (executed : system.exec test early start = some next) (moment : Nat) :
    (following start (early ++ choices) pause : Execution system).state (early.length + moment) =
      (following next choices pause : Execution system).state moment := by
  induction early generalizing start with
  | nil =>
      obtain rfl : start = next := by simpa [System.exec] using executed
      rw [List.length_nil, Nat.zero_add]
      rfl
  | cons choice rest inductionHypothesis =>
      obtain ⟨second, stepped, remaining⟩ := Option.bind_eq_some_iff.mp executed
      split at remaining
      · rw [List.length_cons, Nat.add_right_comm, List.cons_append, state_following_cons stepped]
        exact inductionHypothesis remaining
      · simp at remaining

/-- Where the first choices of such an execution lead. -/
theorem state_following_take {moment : Nat} (within : moment ≤ choices.length)
    (executed : system.exec test (choices.take moment) start = some next) :
    (following start choices pause : Execution system).state moment = next := by
  have reached : (following start (choices.take moment ++ choices.drop moment) pause :
      Execution system).state ((choices.take moment).length + 0) = next :=
    state_following_append executed 0
  rwa [List.take_append_drop, List.length_take_of_le within] at reached

omit [DecidableEq K] [DecidableEq T] in
theorem schedule_following_append {early : List (Choice T E I)} {later : Nat}
    {choice : Choice T E I} (found : choices[later]? = some choice) :
    (following start (early ++ choices) pause : Execution system).schedule (early.length + later) =
      choice := by
  show (early ++ choices).getD (early.length + later) pause = choice
  rw [List.getD_eq_getElem?_getD, List.getElem?_append_right (Nat.le_add_right _ _),
    Nat.add_sub_cancel_left, found, Option.getD_some]

/-- Such an execution ends where its choices lead. -/
theorem state_following (executed : system.exec test choices start = some final)
    (unable : system.step pause final = none) {moment : Nat} (after : choices.length ≤ moment) :
    (following start choices pause : Execution system).state moment = final := by
  induction choices generalizing start moment with
  | nil =>
      obtain rfl : start = final := by simpa [System.exec] using executed
      exact state_following_nil unable moment
  | cons choice rest inductionHypothesis =>
      obtain ⟨next, stepped, remaining⟩ := Option.bind_eq_some_iff.mp executed
      split at remaining
      · obtain ⟨earlier, rfl⟩ : ∃ earlier, moment = earlier + 1 :=
          ⟨moment - 1, by simp at after; omega⟩
        rw [state_following_cons stepped]
        exact inductionHypothesis remaining (by simpa using after)
      · simp at remaining

/-- Its steps pass the test that the choices pass. -/
theorem tested_following (executed : system.exec test choices start = some final)
    (unable : system.step pause final = none) (moment : Nat) :
    (following start choices pause : Execution system).state (moment + 1) =
        (following start choices pause : Execution system).state moment ∨
      test ((following start choices pause : Execution system).state moment).shared.data
        ((following start choices pause : Execution system).state (moment + 1)).shared.data = true := by
  induction choices generalizing start moment with
  | nil =>
      obtain rfl : start = final := by simpa [System.exec] using executed
      rw [state_following_nil unable, state_following_nil unable]
      exact .inl rfl
  | cons choice rest inductionHypothesis =>
      obtain ⟨next, stepped, remaining⟩ := Option.bind_eq_some_iff.mp executed
      split at remaining
      · next passed =>
          cases moment with
          | zero =>
              rw [state_following_cons stepped]
              exact .inr passed
          | succ moment =>
              rw [state_following_cons stepped, state_following_cons stepped]
              exact inductionHypothesis remaining moment
      · simp at remaining

/-- A choice that is not possible at the end is made fairly. -/
theorem fair_following (executed : system.exec test choices start = some final)
    (unable : system.step pause final = none) {choice : Choice T E I}
    (stuck : system.step choice final = none) :
    (following start choices pause : Execution system).Fair choice := by
  apply frequently_atTop.mpr
  intro first
  apply Exists.intro (max first choices.length)
  apply And.intro (le_max_left _ _)
  rw [state_following executed unable (le_max_right _ _)]
  exact .inr stuck

end Following

end Execution

end NaiveBTSniffing.Library.Interleaving
