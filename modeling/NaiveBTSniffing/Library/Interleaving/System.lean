import Mathlib.Logic.Relation
import NaiveBTSniffing.Library.Interleaving.Program

/-!
Contract: interleaved runs of threads and their environment.

A system says which program a resting thread may start on which input, and
which events of the outside world may change the shared data. A scheduler's
choice picks the thread that moves, the input a resting thread receives, or an
outside event; every choice is one step. `System.Run` is the set of runs whose
steps all satisfy a side condition on the shared data before and after.

Does not own fairness: a run is a finite sequence of steps.
-/

namespace NaiveBTSniffing.Library.Interleaving

variable {K T D L E I : Type}

/-- Threads at rest, their inputs, and the outside world. -/
structure System (K T D L E I : Type) where
  /-- The program that a thread at rest starts on an input. -/
  entry : T → I → Option (Prog K T D L Unit)
  /-- What an event of the outside world does to the shared data. -/
  environment : E → D → Option D

/-- One moment of a run. -/
structure Config (K T D L : Type) where
  shared : Shared K T D
  thread : T → Prog K T D L Unit

/-- What the scheduler lets happen next. -/
inductive Choice (T E I : Type) where
  | run (thread : T)
  | start (thread : T) (input : I)
  | environment (event : E)

/-- The threads that have ended. A resting thread counts as ended. -/
def Config.ended (config : Config K T D L) (thread : T) : Bool :=
  (config.thread thread).ended

namespace System

variable [DecidableEq K] [DecidableEq T]

/-- One step of the system, or `none` when the choice is not possible. -/
def step (system : System K T D L E I) :
    Choice T E I → Config K T D L → Option (Config K T D L)
  | .run thread, config =>
      ((config.thread thread).step thread config.ended config.shared).map fun result =>
        { shared := result.2, thread := Function.update config.thread thread result.1 }
  | .start thread input, config =>
      match config.thread thread with
      | .done () => (system.entry thread input).map fun program =>
          { config with thread := Function.update config.thread thread program }
      | _ => none
  | .environment event, config =>
      (system.environment event config.shared.data).map fun data =>
        { config with shared := config.shared.setData data }

/-- Some choice leads from one configuration to the other. -/
def Steps (system : System K T D L E I) (before after : Config K T D L) : Prop :=
  ∃ choice, system.step choice before = some after

/-- Runs whose steps all satisfy `allowed`. -/
def Run (system : System K T D L E I) (allowed : D → D → Prop) :
    Config K T D L → Config K T D L → Prop :=
  Relation.ReflTransGen fun before after =>
    system.Steps before after ∧ allowed before.shared.data after.shared.data

/-- Every run: no side condition. -/
def Reachable (system : System K T D L E I) : Config K T D L → Config K T D L → Prop :=
  system.Run fun _ _ => True

/-- A step moves one thread, lets a resting thread start, or is the outside
world's. -/
theorem steps_of_choice {system : System K T D L E I} {before after : Config K T D L}
    {choice : Choice T E I} (stepped : system.step choice before = some after) :
    (∃ thread left shared, choice = .run thread ∧
      (before.thread thread).step thread before.ended before.shared = some (left, shared) ∧
      after = { shared := shared, thread := Function.update before.thread thread left }) ∨
    (∃ thread input program, choice = .start thread input ∧ before.thread thread = .done () ∧
      system.entry thread input = some program ∧
      after = { before with thread := Function.update before.thread thread program }) ∨
    ∃ event data, choice = .environment event ∧
      system.environment event before.shared.data = some data ∧
      after = { before with shared := before.shared.setData data } := by
  cases choice with
  | run thread =>
      obtain ⟨⟨left, shared⟩, threadStep, same⟩ := Option.map_eq_some_iff.mp stepped
      exact .inl ⟨thread, left, shared, rfl, threadStep, same.symm⟩
  | start thread input =>
      simp only [step] at stepped
      split at stepped
      · next resting =>
          obtain ⟨program, entered, same⟩ := Option.map_eq_some_iff.mp stepped
          exact .inr (.inl ⟨thread, input, program, rfl, resting, entered, same.symm⟩)
      · simp at stepped
  | environment event =>
      obtain ⟨data, happened, same⟩ := Option.map_eq_some_iff.mp stepped
      exact .inr (.inr ⟨event, data, rfl, happened, same.symm⟩)

/-- A thread at rest may start what its input asks for. -/
theorem step_start {system : System K T D L E I} {config : Config K T D L} {thread : T}
    (resting : config.thread thread = .done ()) (input : I) :
    system.step (.start thread input) config = (system.entry thread input).map fun program =>
      { config with thread := Function.update config.thread thread program } := by
  simp only [step, resting]

/-- A lock changes its holder only by being taken or given back. -/
theorem holder_of_steps {system : System K T D L E I} {before after : Config K T D L}
    (stepped : system.Steps before after) (lock : K) :
    after.shared.holder lock = before.shared.holder lock ∨ before.shared.holder lock = none ∨
      after.shared.holder lock = none := by
  obtain ⟨choice, chosen⟩ := stepped
  rcases steps_of_choice chosen with ⟨thread, left, shared, _, threadStep, rfl⟩ |
    ⟨_, _, _, _, _, _, rfl⟩ | ⟨_, _, _, _, rfl⟩
  · cases program : before.thread thread with
    | acquire other next =>
        rw [program, Prog.step_acquire] at threadStep
        obtain ⟨free, _, rfl⟩ := threadStep
        by_cases same : lock = other
        · exact .inr (.inl (same ▸ free))
        · exact .inl (by simp [same])
    | release other next =>
        rw [program, Prog.step_release] at threadStep
        obtain ⟨_, _, rfl⟩ := threadStep
        by_cases same : lock = other
        · exact .inr (.inr (by simp [same]))
        · exact .inl (by simp [same])
    | join thread next =>
        rw [program, Prog.step_join] at threadStep
        exact .inl (by rw [← threadStep.2.2])
    | act site guard update next =>
        rw [program, Prog.step_act] at threadStep
        exact .inl (by rw [← threadStep.2.2]; rfl)
    | _ => simp [program] at threadStep
  · exact .inl rfl
  · exact .inl rfl

/-- A thread that may not start again stays ended. -/
theorem ended_of_steps {system : System K T D L E I} {before after : Config K T D L} {thread : T}
    (never : ∀ input, system.entry thread input = none) (stepped : system.Steps before after)
    (ended : before.ended thread = true) : after.ended thread = true := by
  obtain ⟨choice, chosen⟩ := stepped
  have unmoved : ∀ {other : T} {left : Prog K T D L Unit}, thread ≠ other →
      (Function.update before.thread other left thread).ended = true := by
    intro other left different
    rw [Function.update_of_ne different]
    exact ended
  rcases steps_of_choice chosen with ⟨other, left, shared, _, threadStep, rfl⟩ |
    ⟨other, input, program, _, _, entered, rfl⟩ | ⟨_, _, _, _, rfl⟩
  · by_cases same : thread = other
    · subst same
      unfold Config.ended at ended
      cases finished : before.thread thread <;> simp [finished, Prog.ended] at ended threadStep
    · exact unmoved same
  · by_cases same : thread = other
    · subst same
      simp [never input] at entered
    · exact unmoved same
  · exact ended

/-- Follow a list of choices, as long as each step passes a test. -/
def exec (system : System K T D L E I) (test : D → D → Bool) :
    List (Choice T E I) → Config K T D L → Option (Config K T D L)
  | [], config => some config
  | choice :: rest, config =>
      (system.step choice config).bind fun next =>
        if test config.shared.data next.shared.data then exec system test rest next else none

/-- A list of choices is a run to the state that it ends in. -/
theorem run_of_executed (system : System K T D L E I) {test : D → D → Bool}
    {allowed : D → D → Prop} (sound : ∀ before after, test before after = true →
      allowed before after) {choices : List (Choice T E I)} {before after : Config K T D L}
    (executed : system.exec test choices before = some after) : system.Run allowed before after := by
  induction choices generalizing before with
  | nil =>
      obtain rfl : before = after := by simpa [exec] using executed
      exact Relation.ReflTransGen.refl
  | cons choice rest inductionHypothesis =>
      obtain ⟨next, stepped, remaining⟩ := Option.bind_eq_some_iff.mp executed
      split at remaining
      · next passed =>
          apply Relation.ReflTransGen.head _ (inductionHypothesis remaining)
          exact ⟨⟨choice, stepped⟩, sound _ _ passed⟩
      · simp at remaining

/-- A list of choices that ends in a state with a wanted property is a run to
such a state. -/
theorem run_of_exec (system : System K T D L E I) {test : D → D → Bool}
    {allowed : D → D → Prop} (sound : ∀ before after, test before after = true →
      allowed before after) {choices : List (Choice T E I)} {before : Config K T D L}
    {wanted : Config K T D L → Bool}
    (executed : (system.exec test choices before).any wanted = true) :
    ∃ after, system.Run allowed before after ∧ wanted after = true := by
  obtain ⟨last, followed, holds⟩ := (Option.any_eq_true _ _).mp executed
  exact ⟨last, system.run_of_executed sound followed, holds⟩

theorem Run.reachable {system : System K T D L E I} {allowed : D → D → Prop}
    {before after : Config K T D L} (run : system.Run allowed before after) : system.Reachable before after :=
  Relation.ReflTransGen.mono (fun _ _ stepped => ⟨stepped.1, trivial⟩) _ _ run

end System

end NaiveBTSniffing.Library.Interleaving
