import Mathlib.Data.Set.Basic
import NaiveBTSniffing.Library.Interleaving.Triple

/-!
Contract: programs that start other threads and join them.

`Prog.Supervises` carries the set of the threads that the program has started and not
yet joined. Every one of its steps keeps to the terms, and while there are any threads
left to join it takes only `calm` ones. `Supervises.step` is the step law.

Names no program. Does not own which threads have ended: a join passes only when its
thread has.
-/

namespace NaiveBTSniffing.Library.Interleaving

variable {K T D L α β γ : Type}

/-- The terms on which a thread starts others and joins them. -/
structure Supervision (T D : Type) where
  /-- Any number of steps of the other threads. -/
  rely : D → D → Prop
  started : D → T → Prop
  /-- What every step of the program keeps to. -/
  keeps : D → D → Prop
  /-- A step that may be taken while threads run. -/
  calm : D → D → Prop
  relyRefl : ∀ data, rely data data
  relyTrans : ∀ {first second third}, rely first second → rely second third → rely first third
  keepsRefl : ∀ data, keeps data data
  calmRefl : ∀ data, calm data data

/-- The threads that a step starts. -/
def Supervision.newly (terms : Supervision T D) (before after : D) : Set T :=
  { child | terms.started after child ∧ ¬ terms.started before child }

namespace Prog

/-- The program starts and joins on the given terms, with the threads `running` that
it has started before, and ends in `post`. -/
def Supervises (terms : Supervision T D) (post : α → Set T → D → Prop) :
    Prog K T D L α → Set T → D → Prop
  | .done value, running, data => ∀ now, terms.rely data now → post value running now
  | .raised, _, _ => True
  | .acquire _ next, running, data => Supervises terms post next running data
  | .release _ next, running, data => Supervises terms post next running data
  | .join thread next, running, data => Supervises terms post next (running \ {thread}) data
  | .act _ guard update next, running, data =>
      ∀ now, terms.rely data now → guard now = true →
        terms.keeps now (update now) ∧ (running.Nonempty → terms.calm now (update now)) ∧
        Supervises terms post (next now) (running ∪ terms.newly now (update now)) (update now)

variable {terms : Supervision T D} {post : α → Set T → D → Prop} {running : Set T} {data : D}

/-- What others do in between changes nothing. -/
theorem Supervises.rely {program : Prog K T D L α} {later : D}
    (supervises : program.Supervises terms post running data) (relied : terms.rely data later) :
    program.Supervises terms post running later := by
  induction program generalizing running with
  | done value => exact fun now further => supervises now (terms.relyTrans relied further)
  | raised => trivial
  | acquire lock next inductionHypothesis => exact inductionHypothesis supervises
  | release lock next inductionHypothesis => exact inductionHypothesis supervises
  | join thread next inductionHypothesis => exact inductionHypothesis supervises
  | act site guard update next =>
      exact fun now further => supervises now (terms.relyTrans relied further)

/-- Weaken what holds after the program. -/
theorem Supervises.mono {weaker : α → Set T → D → Prop} {program : Prog K T D L α}
    (weakens : ∀ value remaining now, post value remaining now → weaker value remaining now)
    (supervises : program.Supervises terms post running data) :
    program.Supervises terms weaker running data := by
  induction program generalizing running data with
  | done value => exact fun now relied => weakens value running now (supervises now relied)
  | raised => trivial
  | acquire lock next inductionHypothesis => exact inductionHypothesis supervises
  | release lock next inductionHypothesis => exact inductionHypothesis supervises
  | join thread next inductionHypothesis => exact inductionHypothesis supervises
  | act site guard update next inductionHypothesis =>
      intro now relied enabled
      obtain ⟨keeps, calm, remaining⟩ := supervises now relied enabled
      exact ⟨keeps, calm, inductionHypothesis now remaining⟩

/-- A step that starts nothing. -/
theorem supervises_act {site : L} {guard : D → Bool} {update : D → D} {next : D → Prog K T D L α}
    (silent : ∀ now, terms.rely data now → guard now = true →
      terms.newly now (update now) = ∅ ∧ terms.keeps now (update now) ∧
        (running.Nonempty → terms.calm now (update now)) ∧
        (next now).Supervises terms post running (update now)) :
    (Prog.act site guard update next).Supervises terms post running data := by
  intro now relied enabled
  obtain ⟨nothing, keeps, calm, remaining⟩ := silent now relied enabled
  rw [nothing, Set.union_empty]
  exact ⟨keeps, calm, remaining⟩

/-- Sequencing law. -/
theorem supervises_bind (middle : α → Set T → D → Prop) {post : β → Set T → D → Prop}
    {first : Prog K T D L α} {rest : α → Prog K T D L β}
    (supervises : first.Supervises terms middle running data)
    (later : ∀ value remaining now, middle value remaining now →
      (rest value).Supervises terms post remaining now) :
    (first >>= rest).Supervises terms post running data := by
  induction first generalizing running data with
  | done value => exact later value running data (supervises data (terms.relyRefl data))
  | raised => trivial
  | acquire lock next inductionHypothesis => exact inductionHypothesis supervises
  | release lock next inductionHypothesis => exact inductionHypothesis supervises
  | join thread next inductionHypothesis => exact inductionHypothesis supervises
  | act site guard update next inductionHypothesis =>
      intro now relied enabled
      obtain ⟨keeps, calm, remaining⟩ := supervises now relied enabled
      exact ⟨keeps, calm, inductionHypothesis now remaining⟩

theorem supervises_withLock (lock : K) {body : Prog K T D L α}
    (supervises : body.Supervises terms post running data) :
    (withLock lock body).Supervises terms post running data := by
  show (body.releasing lock).Supervises terms post running data
  induction body generalizing running data with
  | done value => exact supervises
  | raised => trivial
  | acquire other next inductionHypothesis => exact inductionHypothesis supervises
  | release other next inductionHypothesis => exact inductionHypothesis supervises
  | join thread next inductionHypothesis => exact inductionHypothesis supervises
  | act site guard update next inductionHypothesis =>
      intro now relied enabled
      obtain ⟨keeps, calm, remaining⟩ := supervises now relied enabled
      exact ⟨keeps, calm, inductionHypothesis now remaining⟩

theorem supervises_ite {condition : Prop} [Decidable condition] {yes no : Prog K T D L α}
    (supervisesYes : condition → yes.Supervises terms post running data)
    (supervisesNo : ¬ condition → no.Supervises terms post running data) :
    (if condition then yes else no).Supervises terms post running data := by
  split
  · next holds => exact supervisesYes holds
  · next fails => exact supervisesNo fails

/-- A program that starts nothing, and whose steps keep a fact that lasts. The fact may
be used about each step. -/
theorem supervises_of_within {shape : List K → D → D → Prop} {start held : List K}
    {fact : D → Prop} {program : Prog K T D L α} (within : program.Within shape start held)
    (nothing : ∀ held before after, shape held before after → terms.newly before after = ∅)
    (kept : ∀ held before after, shape held before after → fact before → terms.keeps before after)
    (calm : running.Nonempty → ∀ held before after, shape held before after →
      terms.calm before after)
    (keeps : ∀ held before after, shape held before after → fact before → fact after)
    (lasts : ∀ before after, terms.rely before after → fact before → fact after)
    (holds : fact data) :
    program.Supervises terms (fun _ remaining now => remaining ⊆ running ∧ fact now) running
      data := by
  suffices fewer : ∀ {remaining : Set T}, remaining ⊆ running → ∀ {before : D}, fact before →
      program.Supervises terms (fun _ remaining now => remaining ⊆ running ∧ fact now) remaining
        before from fewer subset_rfl holds
  clear holds
  induction program generalizing held with
  | done value => exact fun fewer _ holds now relied => ⟨fewer, lasts _ now relied holds⟩
  | raised => exact fun _ _ _ => trivial
  | acquire lock next inductionHypothesis => exact inductionHypothesis within
  | release lock next inductionHypothesis =>
      obtain ⟨_, _, _, onward⟩ := within
      exact inductionHypothesis onward
  | join thread next inductionHypothesis =>
      exact fun fewer => inductionHypothesis within fun _ member => fewer member.1
  | act site guard update next inductionHypothesis =>
      intro remaining fewer before holds now relied enabled
      have shaped := (within now).1 enabled
      have stillHolds := lasts _ _ relied holds
      rw [nothing _ _ _ shaped, Set.union_empty]
      refine ⟨kept _ _ _ shaped stillHolds, fun some => calm (some.mono fewer) _ _ _ shaped, ?_⟩
      exact inductionHypothesis now (within now).2 fewer (keeps _ _ _ shaped stillHolds)

/-- Joining one thread after the other, all those that run among them. -/
theorem supervises_joinAll {thread : γ → T} {items : List γ} {fact : D → Prop}
    (all : ∀ child ∈ running, ∃ item ∈ items, thread item = child)
    (lasts : ∀ before after, terms.rely before after → fact before → fact after)
    (holds : fact data) :
    (forEach (fun item => joinThread (thread item)) items : Prog K T D L Unit).Supervises terms
      (fun _ remaining now => remaining = ∅ ∧ fact now) running data := by
  induction items generalizing running with
  | nil =>
      intro now relied
      refine ⟨Set.eq_empty_of_forall_notMem fun child member => ?_, lasts _ _ relied holds⟩
      obtain ⟨_, impossible, _⟩ := all child member
      exact absurd impossible List.not_mem_nil
  | cons item rest inductionHypothesis =>
      apply inductionHypothesis
      intro child member
      obtain ⟨other, listed, same⟩ := all child member.1
      rcases List.mem_cons.mp listed with rfl | later
      · exact absurd same.symm member.2
      · exact ⟨other, later, same⟩

/-- Step law: what a step starts and what it takes the place of. -/
theorem Supervises.step [DecidableEq K] [DecidableEq T] {self : T} {ended : T → Bool}
    {program left : Prog K T D L α} {shared later : Shared K T D}
    (supervises : program.Supervises terms post running shared.data)
    (stepped : program.step self ended shared = some (left, later)) :
    terms.keeps shared.data later.data ∧
      (running.Nonempty → terms.calm shared.data later.data) ∧
      ∃ remaining, left.Supervises terms post remaining later.data ∧
        terms.newly shared.data later.data ⊆ remaining ∧
        ∀ child ∈ running, ended child = true ∨ child ∈ remaining := by
  have nothing : terms.newly shared.data shared.data ⊆ ∅ := fun child member =>
    absurd member.1 member.2
  have silent : ∀ remaining : Set T, terms.newly shared.data shared.data ⊆ remaining :=
    fun _ => nothing.trans (Set.empty_subset _)
  cases program with
  | done value => simp at stepped
  | raised => simp at stepped
  | acquire lock next =>
      obtain ⟨_, rfl, rfl⟩ := step_acquire.mp stepped
      exact ⟨terms.keepsRefl _, fun _ => terms.calmRefl _, running, supervises, silent _,
        fun _ => .inr⟩
  | release lock next =>
      obtain ⟨_, rfl, rfl⟩ := step_release.mp stepped
      exact ⟨terms.keepsRefl _, fun _ => terms.calmRefl _, running, supervises, silent _,
        fun _ => .inr⟩
  | join thread next =>
      obtain ⟨finished, rfl, rfl⟩ := step_join.mp stepped
      refine ⟨terms.keepsRefl _, fun _ => terms.calmRefl _, running \ {thread}, supervises,
        silent _, ?_⟩
      intro child member
      by_cases joined : child = thread
      · exact .inl (joined ▸ finished)
      · exact .inr ⟨member, joined⟩
  | act site guard update next =>
      obtain ⟨enabled, rfl, rfl⟩ := step_act.mp stepped
      obtain ⟨keeps, calm, remaining⟩ := supervises shared.data (terms.relyRefl _) enabled
      exact ⟨keeps, calm, _, remaining, fun _ member => .inr member,
        fun _ member => .inr (.inl member)⟩

end Prog

end NaiveBTSniffing.Library.Interleaving
