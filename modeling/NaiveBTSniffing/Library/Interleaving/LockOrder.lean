import NaiveBTSniffing.Library.Interleaving.Locks

/-!
Contract: lock ranks exclude deadlock.

`Prog.LockOrdered` is the discipline of one program: it takes a lock only above
all locks it holds, gives locks back in the opposite order, ends with the locks
it started with, and joins other threads without a lock. `Disciplined` lifts it
to a configuration; it is kept by every step (`Disciplined.step`). In such a
configuration no thread waits for a lock it holds itself, no threads wait for
each other in a cycle, and a thread that joins another holds nothing.

Names no program.
-/

namespace NaiveBTSniffing.Library.Interleaving

variable {K T D L E I α β γ : Type}

/-- The lock discipline of a program that now holds `held` and has to end with
exactly `start`. -/
def Prog.LockOrdered (rank : K → Nat) (start : List K) : List K → Prog K T D L α → Prop
  | held, .done _ => held = start
  | held, .raised => held = start
  | held, .acquire lock next =>
      (∀ other ∈ held, rank other < rank lock) ∧ LockOrdered rank start (lock :: held) next
  | held, .release lock next =>
      ∃ below, held = lock :: below ∧ LockOrdered rank start below next
  | held, .join _ next => held = [] ∧ LockOrdered rank start held next
  | held, .act _ _ _ next => ∀ data, LockOrdered rank start held (next data)

namespace Prog

variable {rank : K → Nat} {start held : List K}

theorem lockOrdered_bind (first : Prog K T D L α) (rest : α → Prog K T D L β)
    (firstOrdered : first.LockOrdered rank start held)
    (restOrdered : ∀ value, (rest value).LockOrdered rank start start) :
    (first >>= rest).LockOrdered rank start held := by
  induction first generalizing held with
  | done value =>
      obtain rfl : held = start := firstOrdered
      exact restOrdered value
  | raised => exact firstOrdered
  | acquire lock next inductionHypothesis =>
      exact ⟨firstOrdered.1, inductionHypothesis firstOrdered.2⟩
  | release lock next inductionHypothesis =>
      obtain ⟨below, rfl, remaining⟩ := firstOrdered
      exact ⟨below, rfl, inductionHypothesis remaining⟩
  | join thread next inductionHypothesis =>
      exact ⟨firstOrdered.1, inductionHypothesis firstOrdered.2⟩
  | act site guard update next inductionHypothesis =>
      exact fun data => inductionHypothesis data (firstOrdered data)

theorem lockOrdered_releasing (lock : K) (body : Prog K T D L α)
    (ordered : body.LockOrdered rank (lock :: start) held) :
    (body.releasing lock).LockOrdered rank start held := by
  induction body generalizing held with
  | done value => exact ⟨start, ordered, rfl⟩
  | raised => exact ⟨start, ordered, rfl⟩
  | acquire other next inductionHypothesis =>
      exact ⟨ordered.1, inductionHypothesis ordered.2⟩
  | release other next inductionHypothesis =>
      obtain ⟨below, rfl, remaining⟩ := ordered
      exact ⟨below, rfl, inductionHypothesis remaining⟩
  | join thread next inductionHypothesis =>
      exact ⟨ordered.1, inductionHypothesis ordered.2⟩
  | act site guard update next inductionHypothesis =>
      exact fun data => inductionHypothesis data (ordered data)

/-- A lock block nested inside locks of lower rank. -/
theorem lockOrdered_withLock (lock : K) (body : Prog K T D L α)
    (above : ∀ other ∈ start, rank other < rank lock)
    (ordered : body.LockOrdered rank (lock :: start) (lock :: start)) :
    (withLock lock body).LockOrdered rank start start :=
  ⟨above, lockOrdered_releasing lock body ordered⟩

@[simp] theorem lockOrdered_done (value : α) :
    (Prog.done value : Prog K T D L α).LockOrdered rank start start := rfl

@[simp] theorem lockOrdered_raised :
    (Prog.raised : Prog K T D L α).LockOrdered rank start start := rfl

@[simp] theorem lockOrdered_read (site : L) (view : D → α) :
    (read site view : Prog K T D L α).LockOrdered rank start start := fun _ => rfl

@[simp] theorem lockOrdered_modify (site : L) (update : D → D) :
    (modify site update : Prog K T D L Unit).LockOrdered rank start start := fun _ => rfl

@[simp] theorem lockOrdered_await (site : L) (guard : D → Bool) (view : D → α) :
    (await site guard view : Prog K T D L α).LockOrdered rank start start := fun _ => rfl

@[simp] theorem lockOrdered_joinThread (thread : T) :
    (joinThread thread : Prog K T D L Unit).LockOrdered rank [] [] := ⟨rfl, rfl⟩

theorem lockOrdered_forEach (body : γ → Prog K T D L Unit) (items : List γ)
    (each : ∀ item, (body item).LockOrdered rank start start) :
    (forEach body items).LockOrdered rank start start := by
  induction items with
  | nil => rfl
  | cons item rest inductionHypothesis =>
      exact lockOrdered_bind _ _ (each item) fun _ => inductionHypothesis

end Prog

/-- Every thread follows the discipline from the locks it holds, and the lock
table says exactly who holds what. -/
structure Disciplined (rank : K → Nat) (config : Config K T D L) (held : T → List K) :
    Prop where
  ordered : ∀ thread, (config.thread thread).LockOrdered rank [] (held thread)
  owns : Owns config.shared.holder held

namespace Disciplined

variable {rank : K → Nat} {config : Config K T D L} {held : T → List K}

theorem lower (disciplined : Disciplined rank config held) {thread : T} {lock other : K}
    {next : Prog K T D L Unit} (waiting : config.thread thread = .acquire lock next)
    (holds : config.shared.holder other = some thread) : rank other < rank lock := by
  have ordered := disciplined.ordered thread
  rw [waiting] at ordered
  exact ordered.1 other ((disciplined.owns.iff other thread).mp holds)

/-- A thread about to join another holds no lock. -/
theorem free_of_join (disciplined : Disciplined rank config held) {thread other : T}
    {next : Prog K T D L Unit} (joining : config.thread thread = .join other next) (lock : K) :
    config.shared.holder lock ≠ some thread := by
  have ordered := disciplined.ordered thread
  rw [joining] at ordered
  intro holds
  have member := (disciplined.owns.iff lock thread).mp holds
  simp [ordered.1] at member

section Steps

variable [DecidableEq K] [DecidableEq T]

omit [DecidableEq K] in
/-- A step of `thread` leaves a disciplined configuration, if what is left of
`thread` follows the discipline. -/
private theorem update (disciplined : Disciplined rank config held) {thread : T} {mine : List K}
    {shared : Shared K T D} {next : Prog K T D L Unit}
    (owns : Owns shared.holder (Function.update held thread mine))
    (ordered : next.LockOrdered rank [] mine) :
    Disciplined rank
      { shared := shared, thread := Function.update config.thread thread next }
      (Function.update held thread mine) where
  ordered := fun other => by
    by_cases same : other = thread
    · subst same; simpa using ordered
    · simpa [Function.update_of_ne same] using disciplined.ordered other
  owns := owns

/-- Every step keeps the discipline, if the programs that threads start follow
it. -/
theorem step {system : System K T D L E I}
    (entries : ∀ {thread input program}, system.entry thread input = some program →
      program.LockOrdered rank [] [])
    (disciplined : Disciplined rank config held) {after : Config K T D L}
    (stepped : system.Steps config after) : ∃ held, Disciplined rank after held := by
  obtain ⟨choice, chosen⟩ := stepped
  cases choice with
  | run thread =>
      obtain ⟨⟨next, shared⟩, threadStep, rfl⟩ := Option.map_eq_some_iff.mp chosen
      have ordered := disciplined.ordered thread
      cases program : config.thread thread with
      | done value => simp [program, Prog.step] at threadStep
      | raised => simp [program, Prog.step] at threadStep
      | acquire lock rest =>
          rw [program] at ordered
          obtain ⟨free, rfl, rfl⟩ : config.shared.holder lock = none ∧ rest = next ∧
              config.shared.setHolder lock (some thread) = shared := by
            simpa [program, Prog.step, Option.isNone_iff_eq_none] using threadStep
          exact ⟨_, disciplined.update (disciplined.owns.acquire free) ordered.2⟩
      | release lock rest =>
          rw [program] at ordered
          obtain ⟨_, rfl, rfl⟩ : config.shared.holder lock = some thread ∧ rest = next ∧
              config.shared.setHolder lock none = shared := by
            simpa [program, Prog.step] using threadStep
          obtain ⟨below, holds, remaining⟩ := ordered
          exact ⟨_, disciplined.update (disciplined.owns.release holds) remaining⟩
      | join other rest =>
          rw [program] at ordered
          obtain ⟨_, rfl, rfl⟩ : config.ended other = true ∧ rest = next ∧
              config.shared = shared := by
            simpa [program, Prog.step] using threadStep
          exact ⟨_, disciplined.update (by simpa using disciplined.owns) ordered.2⟩
      | act site guard update rest =>
          rw [program] at ordered
          obtain ⟨_, rfl, rfl⟩ : guard config.shared.data = true ∧
              rest config.shared.data = next ∧
              config.shared.setData (update config.shared.data) = shared := by
            simpa [program, Prog.step] using threadStep
          exact ⟨_, disciplined.update (by simpa using disciplined.owns) (ordered _)⟩
  | start thread input =>
      have atRest : config.thread thread = .done () := by
        revert chosen
        simp only [System.step]
        split
        · next resting => exact fun _ => resting
        · exact fun impossible => by simp at impossible
      have ordered := disciplined.ordered thread
      rw [atRest] at ordered
      simp only [System.step, atRest] at chosen
      obtain ⟨program, entered, rfl⟩ := Option.map_eq_some_iff.mp chosen
      have nothing : held thread = [] := ordered
      have entryOrdered : program.LockOrdered rank [] (held thread) := by
        rw [nothing]
        exact entries entered
      exact ⟨_, disciplined.update (by simpa using disciplined.owns) entryOrdered⟩
  | environment event =>
      obtain ⟨data, _, rfl⟩ := Option.map_eq_some_iff.mp chosen
      exact ⟨held, disciplined.ordered, disciplined.owns⟩

/-- The discipline holds along every run. -/
theorem of_reachable {system : System K T D L E I}
    (entries : ∀ {thread input program}, system.entry thread input = some program →
      program.LockOrdered rank [] [])
    {after : Config K T D L} (reachable : system.Reachable config after)
    (disciplined : Disciplined rank config held) : ∃ held, Disciplined rank after held := by
  induction reachable with
  | refl => exact ⟨held, disciplined⟩
  | tail _ stepped inductionHypothesis =>
      obtain ⟨_, kept⟩ := inductionHypothesis
      exact kept.step entries stepped.1

end Steps

end Disciplined

/-- One thread is about to take a lock that the other holds. -/
def Config.WaitsFor (config : Config K T D L) (waiting holding : T) : Prop :=
  ∃ lock next, config.thread waiting = .acquire lock next ∧
    config.shared.holder lock = some holding

/-- Along a chain of waiting threads the ranks of the locks waited for rise. -/
theorem Disciplined.rank_le_of_chain {rank : K → Nat} {config : Config K T D L}
    {held : T → List K} (disciplined : Disciplined rank config held) {first last : T}
    (chain : Relation.TransGen config.WaitsFor first last) :
    ∃ lock next wanted, config.thread first = .acquire lock next ∧
      config.shared.holder wanted = some last ∧ rank lock ≤ rank wanted := by
  induction chain with
  | single waits =>
      obtain ⟨lock, next, program, holds⟩ := waits
      exact ⟨lock, next, lock, program, holds, Nat.le_refl _⟩
  | tail _ waits inductionHypothesis =>
      obtain ⟨lock, next, wanted, program, holds, below⟩ := inductionHypothesis
      obtain ⟨higher, _, waiting, heldByLast⟩ := waits
      exact ⟨lock, next, higher, program, heldByLast,
        Nat.le_trans below (Nat.le_of_lt (disciplined.lower waiting holds))⟩

/-- No threads wait for each other in a cycle. -/
theorem Disciplined.no_cycle {rank : K → Nat} {config : Config K T D L} {held : T → List K}
    (disciplined : Disciplined rank config held) (thread : T) :
    ¬ Relation.TransGen config.WaitsFor thread thread := by
  intro cycle
  obtain ⟨lock, next, wanted, waiting, holds, below⟩ := disciplined.rank_le_of_chain cycle
  exact absurd (disciplined.lower waiting holds) (Nat.not_lt.mpr below)

end NaiveBTSniffing.Library.Interleaving
