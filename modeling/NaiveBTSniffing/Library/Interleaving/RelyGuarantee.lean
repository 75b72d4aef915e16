import NaiveBTSniffing.Library.Interleaving.Locks

/-!
Contract: rely-guarantee reasoning about interleaved programs with locks.

A `Contract` fixes one invariant of the shared data, what each thread may assume
about the steps of all others (`rely`), what it promises about its own steps
(`guar`), what holds whenever it is at rest (`rest`), what holds while a lock is
free (`lockInv`), and a side condition on the runs considered (`allowed`).
Assumptions and promises depend on the locks that the thread holds: that a lock
has one holder is what makes the promises of one thread meet the assumptions of
another. `Prog.Safe` is the weakest precondition of a program under a contract.
`Lawful.holds_of_run` and `Lawful.related_of_run` are the soundness theorems:
what is proved about each program alone holds along every interleaved run.

Owns: the weakest precondition with its sequencing laws, and soundness. The
proof rules for assertions are in `Triple`. Names no program.
-/

namespace NaiveBTSniffing.Library.Interleaving

variable {K T D L E I α β γ : Type}

/-- The terms on which threads share the data. -/
structure Contract (K T D : Type) where
  /-- Holds in every state. -/
  inv : D → Prop
  /-- Holds in every state in which the lock is free. -/
  lockInv : K → D → Prop
  /-- Any number of steps of the other threads and of the outside world, while
  the thread holds the given locks. -/
  rely : T → List K → D → D → Prop
  /-- One step of the thread itself, with the given locks taken. -/
  guar : T → List K → D → D → Prop
  /-- Holds whenever the thread rests or has ended. -/
  rest : T → D → Prop
  /-- Holds from the moment an uncaught exception has ended the thread. -/
  dead : T → D → Prop
  /-- The runs considered: every step satisfies this. -/
  allowed : D → D → Prop
  relyRefl : ∀ thread held data, rely thread held data data
  relyTrans : ∀ {thread held first second third}, rely thread held first second →
    rely thread held second third → rely thread held first third
  /-- With one lock more, at least as much is known. -/
  relyLock : ∀ {thread lock held before after}, rely thread (lock :: held) before after →
    rely thread held before after
  /-- The others leave alone what belongs to a lock that the thread holds. -/
  relyFree : ∀ {thread lock held before after}, lock ∈ held → rely thread held before after →
    lockInv lock before → lockInv lock after
  guarRefl : ∀ thread held data, guar thread held data data

/-- A step of another thread or of the outside world, as seen by a thread. -/
def Interference (inv : D → Prop) (steps : T → D → D → Prop) (outside : D → D → Prop)
    (thread : T) (before after : D) : Prop :=
  inv before ∧ inv after ∧ (outside before after ∨ ∃ other, other ≠ thread ∧ steps other before after)

/-- The contract in which every thread relies on exactly what the others promise,
and no assertion belongs to a lock. -/
def Contract.ofSteps (inv : D → Prop) (steps : T → D → D → Prop) (outside : D → D → Prop)
    (rest dead : T → D → Prop) (allowed : D → D → Prop)
    (refl : ∀ thread data, steps thread data data) : Contract K T D where
  inv := inv
  lockInv := fun _ _ => True
  rely := fun thread _ => Relation.ReflTransGen (Interference inv steps outside thread)
  guar := fun thread _ => steps thread
  rest := rest
  dead := dead
  allowed := allowed
  relyRefl := fun _ _ _ => Relation.ReflTransGen.refl
  relyTrans := fun first second => first.trans second
  relyLock := fun relied => relied
  relyFree := fun _ _ _ => trivial
  guarRefl := fun thread _ data => refl thread data

/-- The program is safe to run as thread `self` from this state and these locks:
whatever the other threads do in between, each of its steps keeps the invariant
and the promise, it ends with the locks `start`, `post` holds from its end on,
and `failed` holds from the moment an exception leaves it. -/
def Prog.Safe (contract : Contract K T D) (self : T) (start : List K) (post : α → D → Prop)
    (failed : D → Prop) : List K → Prog K T D L α → D → Prop
  | held, .done value, data => held = start ∧
      ∀ now, contract.rely self held data now → contract.inv now → post value now
  | held, .raised, data => held = start ∧
      ∀ now, contract.rely self held data now → contract.inv now → failed now
  | held, .acquire lock next, data =>
      ∀ now, contract.rely self held data now → contract.inv now → contract.lockInv lock now →
        Safe contract self start post failed (lock :: held) next now
  | held, .release lock next, data =>
      ∃ below, held = lock :: below ∧
        ∀ now, contract.rely self held data now → contract.inv now →
          contract.lockInv lock now ∧ Safe contract self start post failed below next now
  | held, .join thread next, data =>
      ∀ now, contract.rely self held data now → contract.inv now →
        (contract.rest thread now ∨ contract.dead thread now) →
        Safe contract self start post failed held next now
  | held, .act _ guard update next, data =>
      ∀ now, contract.rely self held data now → contract.inv now → guard now = true →
        contract.allowed now (update now) →
        (contract.inv (update now) ∧ contract.guar self held now (update now)) ∧
          Safe contract self start post failed held (next now) (update now)

namespace Prog

variable {contract : Contract K T D} {self : T} {start held : List K} {failed : D → Prop}

/-- Sequencing law: what `first` establishes is what `rest` starts from. -/
theorem safe_bind (first : Prog K T D L α) (rest : α → Prog K T D L β) (post : β → D → Prop)
    {data : D} (invariant : contract.inv data)
    (safe : first.Safe contract self start
      (fun value => (rest value).Safe contract self start post failed start) failed held data) :
    (first >>= rest).Safe contract self start post failed held data := by
  induction first generalizing held data with
  | done value =>
      obtain ⟨rfl, reached⟩ := safe
      exact reached data (contract.relyRefl self held data) invariant
  | raised => exact safe
  | acquire lock next inductionHypothesis =>
      exact fun now relied holds free => inductionHypothesis holds (safe now relied holds free)
  | release lock next inductionHypothesis =>
      obtain ⟨below, same, remaining⟩ := safe
      exact ⟨below, same, fun now relied holds => ⟨(remaining now relied holds).1,
        inductionHypothesis holds (remaining now relied holds).2⟩⟩
  | join thread next inductionHypothesis =>
      exact fun now relied holds finished => inductionHypothesis holds (safe now relied holds finished)
  | act site guard update next inductionHypothesis =>
      intro now relied holds enabled admitted
      obtain ⟨ok, remaining⟩ := safe now relied holds enabled admitted
      exact ⟨ok, inductionHypothesis now ok.1 remaining⟩

/-- A lock block is safe when its body is. The lock is given back after a normal
end and after an exception. -/
theorem safe_releasing (lock : K) (body : Prog K T D L α) (post : α → D → Prop) {data : D}
    (invariant : contract.inv data)
    (safe : body.Safe contract self (lock :: start)
      (fun value now => contract.lockInv lock now ∧
        (Prog.done value : Prog K T D L α).Safe contract self start post failed start now)
      (fun now => contract.lockInv lock now ∧
        (Prog.raised : Prog K T D L α).Safe contract self start post failed start now)
      held data) :
    (body.releasing lock).Safe contract self start post failed held data := by
  induction body generalizing held data with
  | done value => exact ⟨start, safe.1, safe.2⟩
  | raised => exact ⟨start, safe.1, safe.2⟩
  | acquire other next inductionHypothesis =>
      exact fun now relied holds free => inductionHypothesis holds (safe now relied holds free)
  | release other next inductionHypothesis =>
      obtain ⟨below, same, remaining⟩ := safe
      exact ⟨below, same, fun now relied holds => ⟨(remaining now relied holds).1,
        inductionHypothesis holds (remaining now relied holds).2⟩⟩
  | join thread next inductionHypothesis =>
      exact fun now relied holds finished => inductionHypothesis holds (safe now relied holds finished)
  | act site guard update next inductionHypothesis =>
      intro now relied holds enabled admitted
      obtain ⟨ok, remaining⟩ := safe now relied holds enabled admitted
      exact ⟨ok, inductionHypothesis now ok.1 remaining⟩

/-- Weaken what holds after the program. -/
theorem Safe.mono {post weaker : α → D → Prop} {weakerFailed : D → Prop}
    (weakens : ∀ value now, contract.inv now → post value now → weaker value now)
    (weakensFailed : ∀ now, contract.inv now → failed now → weakerFailed now)
    (program : Prog K T D L α) {data : D}
    (safe : program.Safe contract self start post failed held data) :
    program.Safe contract self start weaker weakerFailed held data := by
  induction program generalizing held data with
  | done value =>
      exact ⟨safe.1, fun now relied holds => weakens value now holds (safe.2 now relied holds)⟩
  | raised =>
      exact ⟨safe.1, fun now relied holds => weakensFailed now holds (safe.2 now relied holds)⟩
  | acquire lock next inductionHypothesis =>
      exact fun now relied holds free => inductionHypothesis (safe now relied holds free)
  | release lock next inductionHypothesis =>
      obtain ⟨below, same, remaining⟩ := safe
      exact ⟨below, same, fun now relied holds => ⟨(remaining now relied holds).1,
        inductionHypothesis (remaining now relied holds).2⟩⟩
  | join thread next inductionHypothesis =>
      exact fun now relied holds finished => inductionHypothesis (safe now relied holds finished)
  | act site guard update next inductionHypothesis =>
      intro now relied holds enabled admitted
      obtain ⟨ok, remaining⟩ := safe now relied holds enabled admitted
      exact ⟨ok, inductionHypothesis now remaining⟩

/-- Safety survives the steps of the other threads. -/
theorem Safe.rely {post : α → D → Prop} {program : Prog K T D L α} {before after : D}
    (safe : program.Safe contract self start post failed held before)
    (relied : contract.rely self held before after) :
    program.Safe contract self start post failed held after := by
  cases program with
  | done value => exact ⟨safe.1, fun now later => safe.2 now (contract.relyTrans relied later)⟩
  | raised => exact ⟨safe.1, fun now later => safe.2 now (contract.relyTrans relied later)⟩
  | release lock next =>
      obtain ⟨below, same, remaining⟩ := safe
      exact ⟨below, same, fun now later => remaining now (contract.relyTrans relied later)⟩
  | acquire lock next => exact fun now later => safe now (contract.relyTrans relied later)
  | join thread next => exact fun now later => safe now (contract.relyTrans relied later)
  | act site guard update next =>
      exact fun now later => safe now (contract.relyTrans relied later)

end Prog

/-! ## Soundness -/

namespace Contract

/-- The program of a thread between two rests, as the contract sees it. -/
def SafeThread (contract : Contract K T D) (thread : T) (held : List K)
    (program : Prog K T D L Unit) (data : D) : Prop :=
  program.Safe contract thread [] (fun _ => contract.rest thread) (contract.dead thread) held data

/-- The contract holds now: the invariant, and every thread is safe. -/
structure Holds (contract : Contract K T D) (config : Config K T D L) (held : T → List K) :
    Prop where
  invariant : contract.inv config.shared.data
  free : ∀ lock, config.shared.holder lock = none → contract.lockInv lock config.shared.data
  owns : Owns config.shared.holder held
  safe : ∀ thread,
    contract.SafeThread thread (held thread) (config.thread thread) config.shared.data

/-- A system that keeps a contract: promises meet assumptions, the outside
world keeps the invariant, and every program a thread may start is safe. -/
structure Lawful (contract : Contract K T D) (system : System K T D L E I) : Prop where
  guarRely : ∀ {thread other mine yours before after}, thread ≠ other →
    (∀ lock ∈ mine, lock ∉ yours) → contract.inv before → contract.inv after →
    contract.guar thread mine before after → contract.rely other yours before after
  guarFree : ∀ {thread mine before after lock}, lock ∉ mine → contract.inv before →
    contract.inv after → contract.guar thread mine before after →
    contract.lockInv lock before → contract.lockInv lock after
  outside : ∀ {event before after}, system.environment event before = some after →
    contract.inv before → contract.allowed before after →
    contract.inv after ∧
      (∀ lock, contract.lockInv lock before → contract.lockInv lock after) ∧
      ∀ thread held, contract.rely thread held before after
  entries : ∀ {thread input program data}, system.entry thread input = some program →
    contract.inv data → contract.rest thread data →
    contract.SafeThread thread [] program data

namespace Holds

variable {contract : Contract K T D} {config : Config K T D L} {held : T → List K}

theorem ended (holds : contract.Holds config held) {thread : T}
    (finished : config.ended thread = true) :
    contract.rest thread config.shared.data ∨ contract.dead thread config.shared.data := by
  have safe := holds.safe thread
  unfold SafeThread at safe
  unfold Config.ended at finished
  cases program : config.thread thread with
  | done value =>
      rw [program] at safe
      exact Or.inl (safe.2 _ (contract.relyRefl thread _ _) holds.invariant)
  | raised =>
      rw [program] at safe
      exact Or.inr (safe.2 _ (contract.relyRefl thread _ _) holds.invariant)
  | _ => simp [program, Prog.ended] at finished

/-- A thread whose death is excluded has not raised. -/
theorem not_raised (holds : contract.Holds config held) {thread : T}
    (never : ∀ data, ¬ contract.dead thread data) : config.thread thread ≠ .raised := by
  intro raised
  have safe := holds.safe thread
  unfold SafeThread at safe
  rw [raised] at safe
  exact never _ (safe.2 _ (contract.relyRefl thread _ _) holds.invariant)

variable [DecidableEq T]

/-- A step of `thread` that the others can rely on leaves a safe configuration,
if what is left of `thread` is safe. -/
theorem update (holds : contract.Holds config held) {thread : T} {mine : List K}
    {shared : Shared K T D} {next : Prog K T D L Unit} (invariant : contract.inv shared.data)
    (free : ∀ lock, shared.holder lock = none → contract.lockInv lock shared.data)
    (owns : Owns shared.holder (Function.update held thread mine))
    (relied : ∀ other, other ≠ thread →
      contract.rely other (held other) config.shared.data shared.data)
    (remaining : contract.SafeThread thread mine next shared.data) :
    contract.Holds { shared := shared, thread := Function.update config.thread thread next }
      (Function.update held thread mine) where
  invariant := invariant
  free := free
  owns := owns
  safe := fun other => by
    by_cases same : other = thread
    · subst same; simpa using remaining
    · simp only [Function.update_of_ne same]
      exact (holds.safe other).rely (relied other same)

end Holds

variable [DecidableEq K] [DecidableEq T]
variable {contract : Contract K T D} {system : System K T D L E I}

/-- A step that a system keeping the contract can make on the data. -/
def Moves (contract : Contract K T D) (system : System K T D L E I) (before after : D) : Prop :=
  contract.inv before ∧ contract.inv after ∧ contract.allowed before after ∧
    ((∃ thread mine, contract.guar thread mine before after) ∨
      ∃ event, system.environment event before = some after)

private theorem Lawful.step_run (lawful : contract.Lawful system) {before : Config K T D L}
    {held : T → List K} (holds : contract.Holds before held) {thread : T}
    {next : Prog K T D L Unit} {shared : Shared K T D}
    (stepped : (before.thread thread).step thread before.ended before.shared =
      some (next, shared))
    (admitted : contract.allowed before.shared.data shared.data) :
    (∃ mine, contract.Holds
      { shared := shared, thread := Function.update before.thread thread next }
      (Function.update held thread mine)) ∧
      contract.guar thread (held thread) before.shared.data shared.data := by
  have safe := holds.safe thread
  have nothing := fun other (_ : other ≠ thread) =>
    contract.relyRefl other (held other) before.shared.data
  have now := contract.relyRefl thread (held thread) before.shared.data
  have silent := contract.guarRefl thread (held thread) before.shared.data
  unfold SafeThread at safe
  cases program : before.thread thread with
  | done value => simp [program, Prog.step] at stepped
  | raised => simp [program, Prog.step] at stepped
  | acquire lock rest =>
      rw [program] at safe
      obtain ⟨unheld, rfl, rfl⟩ : before.shared.holder lock = none ∧ rest = next ∧
          before.shared.setHolder lock (some thread) = shared := by
        simpa [program, Prog.step, Option.isNone_iff_eq_none] using stepped
      refine ⟨⟨_, holds.update holds.invariant (fun other isFree => ?_)
        (holds.owns.acquire unheld) nothing
        (safe _ now holds.invariant (holds.free lock unheld))⟩, silent⟩
      by_cases same : other = lock
      · subst same; simp at isFree
      · exact holds.free other (by simpa [Function.update_of_ne same] using isFree)
  | release lock rest =>
      rw [program] at safe
      obtain ⟨_, rfl, rfl⟩ : before.shared.holder lock = some thread ∧ rest = next ∧
          before.shared.setHolder lock none = shared := by
        simpa [program, Prog.step] using stepped
      obtain ⟨below, same, remaining⟩ := safe
      obtain ⟨restored, remaining⟩ := remaining _ now holds.invariant
      refine ⟨⟨below, holds.update holds.invariant (fun other isFree => ?_)
        (holds.owns.release same) nothing remaining⟩, silent⟩
      by_cases sameLock : other = lock
      · subst sameLock; exact restored
      · exact holds.free other (by simpa [Function.update_of_ne sameLock] using isFree)
  | join other rest =>
      rw [program] at safe
      obtain ⟨finished, rfl, rfl⟩ : before.ended other = true ∧ rest = next ∧
          before.shared = shared := by
        simpa [program, Prog.step] using stepped
      exact ⟨⟨held thread, holds.update holds.invariant holds.free (by simpa using holds.owns)
        nothing (safe _ now holds.invariant (holds.ended finished))⟩, silent⟩
  | act site guard update rest =>
      rw [program] at safe
      obtain ⟨enabled, rfl, rfl⟩ : guard before.shared.data = true ∧
          rest before.shared.data = next ∧
          before.shared.setData (update before.shared.data) = shared := by
        simpa [program, Prog.step] using stepped
      obtain ⟨⟨invariant, promise⟩, remaining⟩ := safe _ now holds.invariant enabled admitted
      refine ⟨⟨held thread, holds.update invariant (fun lock isFree => ?_)
        (by simpa using holds.owns) (fun other different => ?_) remaining⟩, promise⟩
      · refine lawful.guarFree (fun member => ?_) holds.invariant invariant promise
          (holds.free lock isFree)
        have owned := (holds.owns.iff lock thread).mpr member
        simp [show before.shared.holder lock = none from isFree] at owned
      · exact lawful.guarRely (Ne.symm different)
          (fun lock => holds.owns.disjoint (Ne.symm different)) holds.invariant invariant promise

/-- A thread keeps its promise in each of its steps. -/
theorem Lawful.promise (lawful : contract.Lawful system) {before after : Config K T D L}
    {held : T → List K} (holds : contract.Holds before held) {thread : T}
    (stepped : system.step (.run thread) before = some after)
    (admitted : contract.allowed before.shared.data after.shared.data) :
    contract.guar thread (held thread) before.shared.data after.shared.data := by
  obtain ⟨⟨next, shared⟩, threadStep, rfl⟩ := Option.map_eq_some_iff.mp stepped
  exact (lawful.step_run holds threadStep admitted).2

theorem Lawful.step (lawful : contract.Lawful system) {before after : Config K T D L}
    {held : T → List K} (holds : contract.Holds before held)
    (stepped : system.Steps before after)
    (admitted : contract.allowed before.shared.data after.shared.data) :
    (∃ held, contract.Holds after held) ∧
      contract.Moves system before.shared.data after.shared.data := by
  obtain ⟨choice, chosen⟩ := stepped
  cases choice with
  | run thread =>
      obtain ⟨⟨next, shared⟩, threadStep, rfl⟩ := Option.map_eq_some_iff.mp chosen
      obtain ⟨⟨_, kept⟩, promise⟩ := lawful.step_run holds threadStep admitted
      exact ⟨⟨_, kept⟩, holds.invariant, kept.invariant, admitted, .inl ⟨_, _, promise⟩⟩
  | start thread input =>
      have atRest : before.thread thread = .done () := by
        revert chosen
        simp only [System.step]
        split
        · next resting => exact fun _ => resting
        · exact fun impossible => by simp at impossible
      simp only [System.step, atRest] at chosen
      obtain ⟨program, entered, rfl⟩ := Option.map_eq_some_iff.mp chosen
      have safe := holds.safe thread
      rw [atRest] at safe
      have rests := safe.2 _ (contract.relyRefl thread _ _) holds.invariant
      have entrySafe := lawful.entries entered holds.invariant rests
      rw [← safe.1] at entrySafe
      exact ⟨⟨_, holds.update holds.invariant holds.free (by simpa using holds.owns)
        (fun other _ => contract.relyRefl other _ _) entrySafe⟩, holds.invariant,
        holds.invariant, admitted, .inl ⟨thread, [], contract.guarRefl _ _ _⟩⟩
  | environment event =>
      obtain ⟨data, happened, rfl⟩ := Option.map_eq_some_iff.mp chosen
      obtain ⟨invariant, free, relied⟩ := lawful.outside happened holds.invariant admitted
      exact ⟨⟨held, invariant, fun lock isFree => free lock (holds.free lock isFree),
        holds.owns, fun other => (holds.safe other).rely (relied other _)⟩,
        holds.invariant, invariant, admitted, .inr ⟨event, happened⟩⟩

/-- Soundness: the contract holds in every state that an admitted run reaches
from a state where it holds. -/
theorem Lawful.holds_of_run (lawful : contract.Lawful system) {before after : Config K T D L}
    (run : system.Run contract.allowed before after) {held : T → List K}
    (holds : contract.Holds before held) : ∃ held, contract.Holds after held := by
  induction run with
  | refl => exact ⟨held, holds⟩
  | tail _ stepped inductionHypothesis =>
      obtain ⟨_, kept⟩ := inductionHypothesis
      exact (lawful.step kept stepped.1 stepped.2).1

/-- A reflexive and transitive relation that every single step keeps relates the
two ends of every admitted run. -/
theorem Lawful.related_of_run (lawful : contract.Lawful system) {relation : D → D → Prop}
    (reflexive : ∀ data, relation data data)
    (transitive : ∀ {first second third}, relation first second → relation second third →
      relation first third)
    (keeps : ∀ {before after}, contract.Moves system before after → relation before after)
    {before after : Config K T D L} (run : system.Run contract.allowed before after)
    {held : T → List K} (holds : contract.Holds before held) :
    relation before.shared.data after.shared.data := by
  induction run with
  | refl => exact reflexive _
  | tail earlier stepped inductionHypothesis =>
      obtain ⟨_, kept⟩ := lawful.holds_of_run earlier holds
      exact transitive inductionHypothesis (keeps (lawful.step kept stepped.1 stepped.2).2)

end Contract

end NaiveBTSniffing.Library.Interleaving
