import NaiveBTSniffing.Library.Interleaving.System

/-!
Contract: what a program may wait for, besides locks.

`Prog.WaitsFor` says that a program joins only threads that may be joined, that
it waits for the data only in its last step, at one program point and for one
condition, and that its own steps keep the invariant on which the joins rest.
`Waiting.Keeps` is what the steps of all others have to do.

Names no program, and does not own when a wait ends (`Fairness`).
-/

namespace NaiveBTSniffing.Library.Interleaving

variable {K T D L α β γ : Type}

/-- The terms on which threads wait. -/
structure Waiting (T D L : Type) where
  inv : D → Prop
  /-- What lasts: any number of steps of any thread. -/
  grows : D → D → Prop
  /-- The threads that may be joined. -/
  joins : D → T → Prop
  /-- The program point at which a thread may wait for the data, and for what. -/
  site : L
  guard : D → Bool
  growsRefl : ∀ data, grows data data
  growsTrans : ∀ {first second third}, grows first second → grows second third → grows first third
  joinsGrows : ∀ {before after thread}, grows before after → joins before thread →
    joins after thread

/-- A step keeps the terms. -/
structure Waiting.Keeps (terms : Waiting T D L) (before after : D) : Prop where
  inv : terms.inv before → terms.inv after
  grows : terms.grows before after

namespace Prog

/-- The program waits on the given terms only, and ends in `post`. Whether its last
step may wait for the data is up to `idles`. -/
def WaitsFor (terms : Waiting T D L) (idles : Prop) (post : α → D → Prop) :
    Prog K T D L α → D → Prop
  | .done value, data => post value data
  | .raised, _ => True
  | .acquire _ next, data => WaitsFor terms idles post next data
  | .release _ next, data => WaitsFor terms idles post next data
  | .join thread next, data => terms.joins data thread ∧ WaitsFor terms idles post next data
  | .act site guard update next, data =>
      ((∀ now, guard now = true) ∨
          (idles ∧ site = terms.site ∧ guard = terms.guard ∧ ∀ now, (next now).ended = true)) ∧
        ∀ now, terms.grows data now → terms.inv now →
          terms.Keeps now (update now) ∧ WaitsFor terms idles post (next now) (update now)

variable {terms : Waiting T D L} {idles : Prop} {post : α → D → Prop} {data : D}

/-- Sequencing law. -/
theorem waitsFor_bind (middle : α → D → Prop) {post : β → D → Prop} {first : Prog K T D L α}
    {rest : α → Prog K T D L β} (waits : first.WaitsFor terms False middle data)
    (later : ∀ value now, middle value now → (rest value).WaitsFor terms idles post now) :
    (first >>= rest).WaitsFor terms idles post data := by
  induction first generalizing data with
  | done value => exact later value data waits
  | raised => trivial
  | acquire lock next inductionHypothesis => exact inductionHypothesis waits
  | release lock next inductionHypothesis => exact inductionHypothesis waits
  | join thread next inductionHypothesis => exact ⟨waits.1, inductionHypothesis waits.2⟩
  | act site guard update next inductionHypothesis =>
      refine ⟨waits.1.imp id fun never => never.1.elim, fun now grown holds => ?_⟩
      obtain ⟨keeps, remaining⟩ := waits.2 now grown holds
      exact ⟨keeps, inductionHypothesis now remaining⟩

theorem waitsFor_withLock (lock : K) {body : Prog K T D L α}
    (waits : body.WaitsFor terms False post data) :
    (withLock lock body).WaitsFor terms False post data := by
  show (body.releasing lock).WaitsFor terms False post data
  induction body generalizing data with
  | done value => exact waits
  | raised => trivial
  | acquire other next inductionHypothesis => exact inductionHypothesis waits
  | release other next inductionHypothesis => exact inductionHypothesis waits
  | join thread next inductionHypothesis => exact ⟨waits.1, inductionHypothesis waits.2⟩
  | act site guard update next inductionHypothesis =>
      refine ⟨waits.1.imp id fun never => never.1.elim, fun now grown holds => ?_⟩
      obtain ⟨keeps, remaining⟩ := waits.2 now grown holds
      exact ⟨keeps, inductionHypothesis now remaining⟩

theorem waitsFor_ite {condition : Prop} [Decidable condition] {yes no : Prog K T D L α}
    (waitsYes : condition → yes.WaitsFor terms idles post data)
    (waitsNo : ¬ condition → no.WaitsFor terms idles post data) :
    (if condition then yes else no).WaitsFor terms idles post data := by
  split
  · next holds => exact waitsYes holds
  · next fails => exact waitsNo fails

/-- Joining one thread after the other, all of which may be joined. -/
theorem waitsFor_joinAll {thread : γ → T} {items : List γ}
    (joinable : ∀ item ∈ items, terms.joins data (thread item)) :
    (forEach (fun item => joinThread (thread item)) items : Prog K T D L Unit).WaitsFor terms
      idles (fun _ _ => True) data := by
  induction items with
  | nil => trivial
  | cons item rest inductionHypothesis =>
      exact ⟨joinable item (by simp), inductionHypothesis fun other member =>
        joinable other (by simp [member])⟩

/-- The steps of the others change nothing about the terms. -/
theorem WaitsFor.grows {program : Prog K T D L α} {later : D}
    (waits : program.WaitsFor terms idles (fun _ _ => True) data) (grown : terms.grows data later) :
    program.WaitsFor terms idles (fun _ _ => True) later := by
  induction program with
  | done value => trivial
  | raised => trivial
  | acquire lock next inductionHypothesis => exact inductionHypothesis waits
  | release lock next inductionHypothesis => exact inductionHypothesis waits
  | join thread next inductionHypothesis =>
      exact ⟨terms.joinsGrows grown waits.1, inductionHypothesis waits.2⟩
  | act site guard update next =>
      exact ⟨waits.1, fun now further => waits.2 now (terms.growsTrans grown further)⟩

/-- A step of the thread itself keeps the terms, and it goes on waiting on them only. -/
theorem WaitsFor.step [DecidableEq K] [DecidableEq T] {self : T} {ended : T → Bool}
    {program left : Prog K T D L α} {shared later : Shared K T D}
    (waits : program.WaitsFor terms idles post shared.data) (holds : terms.inv shared.data)
    (stepped : program.step self ended shared = some (left, later)) :
    terms.Keeps shared.data later.data ∧ left.WaitsFor terms idles post later.data := by
  have same : terms.Keeps shared.data shared.data := ⟨id, terms.growsRefl _⟩
  cases program with
  | done value => simp at stepped
  | raised => simp at stepped
  | acquire lock next =>
      obtain ⟨_, rfl, rfl⟩ := step_acquire.mp stepped
      exact ⟨same, waits⟩
  | release lock next =>
      obtain ⟨_, rfl, rfl⟩ := step_release.mp stepped
      exact ⟨same, waits⟩
  | join thread next =>
      obtain ⟨_, rfl, rfl⟩ := step_join.mp stepped
      exact ⟨same, waits.2⟩
  | act site guard update next =>
      obtain ⟨_, rfl, rfl⟩ := step_act.mp stepped
      exact waits.2 shared.data (terms.growsRefl _) holds

end Prog

end NaiveBTSniffing.Library.Interleaving
