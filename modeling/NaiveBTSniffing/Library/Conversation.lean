import Mathlib.Data.Nat.Basic

/-!
Contract: a client that asks until it has its result.

`Next` is what the client does with one answer: it asks again from a new state,
or it ends with a result. `Converses` counts the answers up to the end; it
determines both their number and the result. `Settles` is the conversation with a
given list of answers. Names no program.
-/

namespace NaiveBTSniffing.Library

variable {σ ρ α γ : Type}

/-- What a client does with an answer. -/
inductive Next (σ ρ : Type) where
  | more (state : σ)
  | ended (result : ρ)
deriving DecidableEq, Repr

/-- From this state the client ends after so many answers with this result. -/
inductive Converses (answered : σ → Next σ ρ) : σ → Nat → ρ → Prop
  | last {state : σ} {result : ρ} (ends : answered state = .ended result) :
      Converses answered state 1 result
  | more {state next : σ} {count : Nat} {result : ρ} (asks : answered state = .more next)
      (rest : Converses answered next count result) :
      Converses answered state (count + 1) result

/-- So many answers lead from one state to the other, each to a further
request. -/
inductive Asks (answered : σ → Next σ ρ) (start : σ) : Nat → σ → Prop
  | zero : Asks answered start 0 start
  | succ {count : Nat} {state next : σ} (before : Asks answered start count state)
      (asks : answered state = .more next) : Asks answered start (count + 1) next

variable {answered : σ → Next σ ρ} {start state next : σ} {count other : Nat} {result otherResult : ρ}

namespace Converses

theorem pos (converses : Converses answered state count result) : 0 < count := by
  cases converses <;> omega

/-- One answer less is needed from the next state on. -/
theorem next_iff (asks : answered state = .more next) :
    Converses answered state (count + 1) result ↔ Converses answered next count result := by
  constructor
  · intro converses
    cases converses with
    | last ends => simp [asks] at ends
    | more asksAgain rest =>
        rw [asks, Next.more.injEq] at asksAgain
        exact asksAgain ▸ rest
  · exact fun rest => .more asks rest

theorem of_ended (ends : answered state = .ended otherResult)
    (converses : Converses answered state count result) : count = 1 ∧ result = otherResult := by
  cases converses with
  | last endsToo =>
      rw [ends, Next.ended.injEq] at endsToo
      exact ⟨rfl, endsToo.symm⟩
  | more asks rest => simp [ends] at asks

theorem of_more (asks : answered state = .more next)
    (converses : Converses answered state count result) :
    ∃ fewer, count = fewer + 1 ∧ Converses answered next fewer result := by
  have some := converses.pos
  obtain ⟨fewer, rfl⟩ : ∃ fewer, count = fewer + 1 := ⟨count - 1, by omega⟩
  exact ⟨fewer, rfl, (next_iff asks).mp converses⟩

/-- The number of answers and the result are determined. -/
theorem unique (first : Converses answered state count result)
    (second : Converses answered state other otherResult) :
    count = other ∧ result = otherResult := by
  induction first generalizing other with
  | last ends =>
      obtain ⟨one, same⟩ := second.of_ended ends
      exact ⟨one.symm, same.symm⟩
  | more asks rest inductionHypothesis =>
      cases second with
      | last ends => simp [asks] at ends
      | more asksAgain restToo =>
          rw [asks, Next.more.injEq] at asksAgain
          subst asksAgain
          obtain ⟨sameCount, same⟩ := inductionHypothesis restToo
          exact ⟨by omega, same⟩

/-- After fewer answers the client still asks. -/
theorem of_asks (asked : Asks answered start other state)
    (converses : Converses answered start count result) :
    ∃ rest, count = other + rest ∧ Converses answered state rest result := by
  induction asked with
  | zero => exact ⟨count, by omega, converses⟩
  | succ before asks inductionHypothesis =>
      obtain ⟨rest, total, remaining⟩ := inductionHypothesis
      cases remaining with
      | last ends => simp [asks] at ends
      | more asksAgain rest =>
          rw [asks, Next.more.injEq] at asksAgain
          subst asksAgain
          exact ⟨_, by omega, rest⟩

theorem lt_of_asks (asked : Asks answered start other state)
    (converses : Converses answered start count result) : other < count := by
  obtain ⟨rest, total, remaining⟩ := converses.of_asks asked
  have some := remaining.pos
  omega

end Converses

theorem Asks.converses (asked : Asks answered start other state)
    (rest : Converses answered state count result) :
    Converses answered start (other + count) result := by
  induction asked generalizing count with
  | zero => simpa using rest
  | succ before asks inductionHypothesis =>
      have longer := inductionHypothesis (.more asks rest)
      rw [Nat.add_assoc, Nat.add_comm 1 count]
      exact longer

/-- The answer after the last request. -/
theorem Asks.ends (asked : Asks answered start count state)
    (ends : answered state = .ended result) : Converses answered start (count + 1) result :=
  asked.converses (.last ends)

/-! ## A list of answers -/

/-- The client hears these answers, and the last one ends the conversation with
this result. -/
inductive Settles (answered : α → σ → Next σ ρ) : σ → List α → ρ → Prop
  | last {state : σ} {answer : α} {result : ρ} (ends : answered answer state = .ended result) :
      Settles answered state [answer] result
  | more {state next : σ} {answer : α} {answers : List α} {result : ρ}
      (asks : answered answer state = .more next) (rest : Settles answered next answers result) :
      Settles answered state (answer :: answers) result

/-- A client that keeps what each answer brings ends with what all answers have
brought. -/
theorem Settles.collects {answered : α → σ → Next σ ρ} {state : σ} {answers : List α} {result : ρ}
    (settles : Settles answered state answers result)
    (held : σ → List γ) (kept : ρ → List γ) (brings : α → List γ)
    (more : ∀ state next answer, answered answer state = .more next →
      held next = held state ++ brings answer)
    (ended : ∀ state result answer, answered answer state = .ended result →
      kept result = held state ++ brings answer) :
    kept result = held state ++ answers.flatMap brings := by
  induction settles with
  | last ends =>
      rw [List.flatMap_singleton]
      exact ended _ _ _ ends
  | more asks rest inductionHypothesis =>
      rw [inductionHypothesis, more _ _ _ asks, List.flatMap_cons, List.append_assoc]

end NaiveBTSniffing.Library
