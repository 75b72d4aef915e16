import Mathlib.Logic.Function.Basic

/-!
Contract: programs of threads that share memory and locks.

A program is a free monad over the six things one thread can do in one
indivisible step: take a lock, give a lock back, wait for another thread to
end, act on the shared data, end with a value, end with an uncaught exception.
`Prog.step` is the meaning of one such step; which thread moves next is not
decided here.

Owns: the syntax, `bind`, the exception-safe lock block `Prog.withLock`, and
the one-step semantics. Does not own the scheduler (`System`) or any logic.
-/

namespace NaiveBTSniffing.Library.Interleaving

/-- Lock table and data that all threads share. -/
structure Shared (K T D : Type) where
  holder : K → Option T
  data : D

/-- What one thread may still do. `K` names the locks, `T` the threads, `D` the
shared data and `L` the program points that a specification may want to name. -/
inductive Prog (K T D L : Type) (α : Type) : Type where
  | done (value : α)
  | raised
  | acquire (lock : K) (next : Prog K T D L α)
  | release (lock : K) (next : Prog K T D L α)
  | join (thread : T) (next : Prog K T D L α)
  | act (site : L) (guard : D → Bool) (update : D → D) (next : D → Prog K T D L α)

variable {K T D L α β γ : Type}

namespace Shared

/-- Only the data changes. -/
def setData (shared : Shared K T D) (data : D) : Shared K T D :=
  { shared with data := data }

/-- The lock table after `lock` got the given holder. -/
def setHolder [DecidableEq K] (shared : Shared K T D) (lock : K) (holder : Option T) :
    Shared K T D :=
  { shared with holder := Function.update shared.holder lock holder }

@[simp] theorem setData_data (shared : Shared K T D) (data : D) :
    (shared.setData data).data = data := rfl

@[simp] theorem setData_holder (shared : Shared K T D) (data : D) :
    (shared.setData data).holder = shared.holder := rfl

@[simp] theorem setHolder_data [DecidableEq K] (shared : Shared K T D) (lock : K)
    (holder : Option T) : (shared.setHolder lock holder).data = shared.data := rfl

@[simp] theorem setHolder_holder [DecidableEq K] (shared : Shared K T D) (lock : K)
    (holder : Option T) :
    (shared.setHolder lock holder).holder = Function.update shared.holder lock holder := rfl

@[simp] theorem setData_self (shared : Shared K T D) :
    shared.setData shared.data = shared := rfl

end Shared

namespace Prog

/-- Sequencing. An exception skips the rest. -/
protected def bind : Prog K T D L α → (α → Prog K T D L β) → Prog K T D L β
  | .done value, rest => rest value
  | .raised, _ => .raised
  | .acquire lock next, rest => .acquire lock (next.bind rest)
  | .release lock next, rest => .release lock (next.bind rest)
  | .join thread next, rest => .join thread (next.bind rest)
  | .act site guard update next, rest =>
      .act site guard update (fun data => (next data).bind rest)

instance : Monad (Prog K T D L) where
  pure := .done
  bind := Prog.bind

@[simp] theorem pure_eq (value : α) : (pure value : Prog K T D L α) = .done value := rfl

@[simp] theorem done_bind (value : α) (rest : α → Prog K T D L β) :
    (Prog.done value >>= rest) = rest value := rfl

@[simp] theorem raised_bind (rest : α → Prog K T D L β) :
    ((Prog.raised : Prog K T D L α) >>= rest) = .raised := rfl

@[simp] theorem acquire_bind (lock : K) (next : Prog K T D L α) (rest : α → Prog K T D L β) :
    (Prog.acquire lock next >>= rest) = .acquire lock (next >>= rest) := rfl

@[simp] theorem release_bind (lock : K) (next : Prog K T D L α) (rest : α → Prog K T D L β) :
    (Prog.release lock next >>= rest) = .release lock (next >>= rest) := rfl

@[simp] theorem join_bind (thread : T) (next : Prog K T D L α) (rest : α → Prog K T D L β) :
    (Prog.join thread next >>= rest) = .join thread (next >>= rest) := rfl

@[simp] theorem act_bind (site : L) (guard : D → Bool) (update : D → D)
    (next : D → Prog K T D L α) (rest : α → Prog K T D L β) :
    (Prog.act site guard update next >>= rest) =
      .act site guard update (fun data => next data >>= rest) := rfl

/-- Sequencing does not depend on how it is nested. -/
theorem bind_bind (first : Prog K T D L α) (second : α → Prog K T D L β)
    (third : β → Prog K T D L γ) :
    ((first >>= second) >>= third) = (first >>= fun value => second value >>= third) := by
  induction first with
  | done value => rfl
  | raised => rfl
  | acquire lock next inductionHypothesis => exact congrArg (acquire lock) inductionHypothesis
  | release lock next inductionHypothesis => exact congrArg (release lock) inductionHypothesis
  | join thread next inductionHypothesis => exact congrArg (join thread) inductionHypothesis
  | act site guard update next inductionHypothesis =>
      exact congrArg (act site guard update) (funext inductionHypothesis)

/-- One indivisible read of the shared data. -/
def read (site : L) (view : D → α) : Prog K T D L α :=
  .act site (fun _ => true) id (fun data => .done (view data))

/-- One indivisible update of the shared data. -/
def modify (site : L) (update : D → D) : Prog K T D L Unit :=
  .act site (fun _ => true) update (fun _ => .done ())

/-- Wait, without changing anything, until the data satisfies `guard`; the
answer is read in the same step. -/
def await (site : L) (guard : D → Bool) (view : D → α) : Prog K T D L α :=
  .act site guard id (fun data => .done (view data))

/-- Wait for the end of a thread. -/
def joinThread (thread : T) : Prog K T D L Unit :=
  .join thread (.done ())

/-- Give `lock` back at the end of `body`, whether it returns or raises. -/
def releasing (lock : K) : Prog K T D L α → Prog K T D L α
  | .done value => .release lock (.done value)
  | .raised => .release lock .raised
  | .acquire other next => .acquire other (releasing lock next)
  | .release other next => .release other (releasing lock next)
  | .join thread next => .join thread (releasing lock next)
  | .act site guard update next =>
      .act site guard update (fun data => releasing lock (next data))

/-- A block that runs with `lock` taken: Python's `with lock:`. -/
def withLock (lock : K) (body : Prog K T D L α) : Prog K T D L α :=
  .acquire lock (releasing lock body)

/-- Run `body` on every element of a list, in order. -/
def forEach (body : γ → Prog K T D L Unit) : List γ → Prog K T D L Unit
  | [] => .done ()
  | item :: rest => do
      body item
      forEach body rest

@[simp] theorem forEach_nil (body : γ → Prog K T D L Unit) :
    forEach body [] = .done () := rfl

@[simp] theorem forEach_cons (body : γ → Prog K T D L Unit) (item : γ) (rest : List γ) :
    forEach body (item :: rest) = body item >>= fun _ => forEach body rest := rfl

/-- The thread has ended with an exception. -/
def isRaised : Prog K T D L α → Bool
  | .raised => true
  | _ => false

theorem eq_raised {program : Prog K T D L α} (raised : program.isRaised = true) :
    program = .raised := by
  cases program <;> simp_all [isRaised]

/-- The thread has ended, by a value or by an exception. -/
def ended : Prog K T D L α → Bool
  | .done _ => true
  | .raised => true
  | _ => false

/-- The program point at which the thread stands. -/
def standsAt : Prog K T D L α → Option L
  | .act site _ _ _ => some site
  | _ => none

/-- One step of thread `self`, or `none` when it has ended or has to wait.
`ended` tells which threads have ended. A lock is given back by its holder. -/
def step [DecidableEq K] [DecidableEq T] (self : T) (ended : T → Bool) :
    Prog K T D L α → Shared K T D → Option (Prog K T D L α × Shared K T D)
  | .done _, _ => none
  | .raised, _ => none
  | .acquire lock next, shared =>
      if (shared.holder lock).isNone then some (next, shared.setHolder lock (some self))
      else none
  | .release lock next, shared =>
      if shared.holder lock = some self then some (next, shared.setHolder lock none) else none
  | .join thread next, shared => if ended thread then some (next, shared) else none
  | .act _ guard update next, shared =>
      if guard shared.data then some (next shared.data, shared.setData (update shared.data))
      else none

section Step

variable [DecidableEq K] [DecidableEq T] {self : T} {ended : T → Bool}
variable {left next : Prog K T D L α} {shared later : Shared K T D}

@[simp] theorem step_done (value : α) :
    (Prog.done value : Prog K T D L α).step self ended shared = none := rfl

@[simp] theorem step_raised :
    (Prog.raised : Prog K T D L α).step self ended shared = none := rfl

@[simp] theorem step_acquire {lock : K} :
    (Prog.acquire lock next).step self ended shared = some (left, later) ↔
      shared.holder lock = none ∧ next = left ∧ shared.setHolder lock (some self) = later := by
  simp [step, Option.isNone_iff_eq_none]

@[simp] theorem step_release {lock : K} :
    (Prog.release lock next).step self ended shared = some (left, later) ↔
      shared.holder lock = some self ∧ next = left ∧ shared.setHolder lock none = later := by
  simp [step]

@[simp] theorem step_join {thread : T} :
    (Prog.join thread next).step self ended shared = some (left, later) ↔
      ended thread = true ∧ next = left ∧ shared = later := by
  simp [step]

@[simp] theorem step_act {site : L} {guard : D → Bool} {update : D → D}
    {next : D → Prog K T D L α} :
    (Prog.act site guard update next).step self ended shared = some (left, later) ↔
      guard shared.data = true ∧ next shared.data = left ∧
        shared.setData (update shared.data) = later := by
  simp [step]

end Step

end Prog

end NaiveBTSniffing.Library.Interleaving
