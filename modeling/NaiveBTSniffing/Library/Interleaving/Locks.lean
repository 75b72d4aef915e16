import Mathlib.Data.List.Nodup
import NaiveBTSniffing.Library.Interleaving.System

/-!
Contract: the lock table against the locks that each thread has on its stack.

`Owns` relates the holder of each lock to one list of locks for each thread. It
is what `LockOrder` and `RelyGuarantee` carry along a run; both use its two
update laws.
-/

namespace NaiveBTSniffing.Library.Interleaving

variable {K T : Type}

/-- The lock table says exactly who holds what. -/
structure Owns (holder : K → Option T) (held : T → List K) : Prop where
  iff : ∀ lock thread, holder lock = some thread ↔ lock ∈ held thread
  nodup : ∀ thread, (held thread).Nodup

namespace Owns

variable {holder : K → Option T} {held : T → List K}

/-- Two threads never hold the same lock. -/
theorem disjoint (owns : Owns holder held) {thread other : T} (different : thread ≠ other)
    {lock : K} (member : lock ∈ held thread) : lock ∉ held other := by
  intro memberOther
  have first := (owns.iff lock thread).mpr member
  have second := (owns.iff lock other).mpr memberOther
  exact different (Option.some.inj (first.symm.trans second))

variable [DecidableEq K] [DecidableEq T]

theorem acquire (owns : Owns holder held) {thread : T} {lock : K} (free : holder lock = none) :
    Owns (Function.update holder lock (some thread))
      (Function.update held thread (lock :: held thread)) := by
  have unheld : ∀ other, lock ∉ held other := by
    intro other member
    have holds := (owns.iff lock other).mpr member
    simp [free] at holds
  refine ⟨fun query other => ?_, fun other => ?_⟩
  · have before := owns.iff query other
    by_cases same : other = thread
    · subst same
      by_cases sameLock : query = lock
      · subst sameLock; simp
      · simp [sameLock, before]
    · by_cases sameLock : query = lock
      · subst sameLock
        simp [Function.update_of_ne same, Ne.symm same, unheld other]
      · simp [Function.update_of_ne sameLock, Function.update_of_ne same, before]
  · by_cases same : other = thread
    · subst same; simpa using ⟨unheld other, owns.nodup other⟩
    · simpa [Function.update_of_ne same] using owns.nodup other

theorem release (owns : Owns holder held) {thread : T} {lock : K} {below : List K}
    (holds : held thread = lock :: below) :
    Owns (Function.update holder lock none) (Function.update held thread below) := by
  have distinct := owns.nodup thread
  rw [holds] at distinct
  have owned : holder lock = some thread := (owns.iff lock thread).mpr (by simp [holds])
  refine ⟨fun query other => ?_, fun other => ?_⟩
  · have before := owns.iff query other
    by_cases sameLock : query = lock
    · subst sameLock
      by_cases same : other = thread
      · subst same; simpa using (List.nodup_cons.mp distinct).1
      · simp only [Function.update_self, Function.update_of_ne same, reduceCtorEq, false_iff]
        rw [← before, owned]
        exact fun equal => same (Option.some.inj equal).symm
    · by_cases same : other = thread
      · subst same
        simp [before, holds, sameLock]
      · simp [Function.update_of_ne sameLock, Function.update_of_ne same, before]
  · by_cases same : other = thread
    · subst same; simpa using (List.nodup_cons.mp distinct).2
    · simpa [Function.update_of_ne same] using owns.nodup other

end Owns

end NaiveBTSniffing.Library.Interleaving
