import Mathlib.Init

/-!
Contract: computations that return or raise an exception.

A statement after another, a loop and a call whose result is dropped return
exactly when each of their parts returns. Names no program.
-/

namespace NaiveBTSniffing.Library.Raising

variable {Fault Result Member : Type}

theorem andThen_eq_ok_iff {first : Except Fault Unit} {next : Except Fault Result}
    {result : Result} :
    (first >>= fun _ => next) = .ok result ↔ first = .ok () ∧ next = .ok result := by
  cases first with
  | error fault => simp [Bind.bind, Except.bind]
  | ok nothing => simp [Bind.bind, Except.bind]

theorem discard_eq_ok_iff {computation : Except Fault Result} :
    discard computation = .ok () ↔ ∃ result, computation = .ok result := by
  cases computation with
  | error fault => simp [discard, Functor.discard, Functor.mapConst, Except.map]
  | ok result => simp [discard, Functor.discard, Functor.mapConst, Except.map]

theorem forM_eq_ok_iff {members : List Member} {body : Member → Except Fault Unit} :
    members.forM body = .ok () ↔ ∀ member ∈ members, body member = .ok () := by
  induction members with
  | nil => simp [pure, Except.pure]
  | cons member members inductionHypothesis =>
      show (body member >>= fun _ => members.forM body) = .ok () ↔ _
      rw [andThen_eq_ok_iff, inductionHypothesis, List.forall_mem_cons]

end NaiveBTSniffing.Library.Raising
