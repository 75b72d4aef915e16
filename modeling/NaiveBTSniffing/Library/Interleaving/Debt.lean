import NaiveBTSniffing.Library.Interleaving.System

/-!
Contract: programs that owe a settled state.

A `Debt` names the settled states, what the other threads leave alone while the
state is unsettled, and the program points at which a thread in debt may stand.
`Prog.Owes` is the weakest precondition of a program that settles the state in
one of its next steps, before it ends and before it comes to any other point,
or else reaches `post`. `Debt.kept` is the step law: whenever the state is
unsettled, some thread is in debt, provided that each step that unsettles the
state leaves a thread in debt behind.

Names no program.
-/

namespace NaiveBTSniffing.Library.Interleaving

variable {K T D L E I α β γ : Type}

/-- Which states are settled, and what a thread in debt relies on. -/
structure Debt (D L : Type) where
  settled : D → Prop
  /-- Any number of steps of the others while the state is unsettled. -/
  rely : D → D → Prop
  /-- Where a thread in debt may stand. -/
  passes : L → Prop
  relyRefl : ∀ data, rely data data
  relyTrans : ∀ {first second third}, rely first second → rely second third → rely first third

namespace Prog

/-- Whatever the others do, the program settles the state before it ends, or
ends in `post`. -/
def Owes (debt : Debt D L) (post : α → D → Prop) : Prog K T D L α → D → Prop
  | .done value, data => ∀ now, debt.rely data now → post value now
  | .raised, _ => False
  | .acquire _ next, data => Owes debt post next data
  | .release _ next, data => Owes debt post next data
  | .join _ next, data => Owes debt post next data
  | .act site guard update next, data => debt.passes site ∧
      ∀ now, debt.rely data now → ¬ debt.settled now → guard now = true →
        debt.settled (update now) ∨ Owes debt post (next now) (update now)

variable {debt : Debt D L} {post : α → D → Prop} {data : D}

/-- A debt survives the steps of the others. -/
theorem Owes.rely {program : Prog K T D L α} {later : D} (owes : program.Owes debt post data)
    (relied : debt.rely data later) : program.Owes debt post later := by
  induction program with
  | done value => exact fun now further => owes now (debt.relyTrans relied further)
  | raised => exact owes
  | acquire lock next inductionHypothesis => exact inductionHypothesis owes
  | release lock next inductionHypothesis => exact inductionHypothesis owes
  | join thread next inductionHypothesis => exact inductionHypothesis owes
  | act site guard update next =>
      exact ⟨owes.1, fun now further => owes.2 now (debt.relyTrans relied further)⟩

/-- Sequencing law. -/
theorem owes_bind (middle : α → D → Prop) {post : β → D → Prop} {first : Prog K T D L α}
    {rest : α → Prog K T D L β} (owes : first.Owes debt middle data)
    (later : ∀ value now, middle value now → (rest value).Owes debt post now) :
    (first >>= rest).Owes debt post data := by
  induction first generalizing data with
  | done value => exact later value data (owes data (debt.relyRefl data))
  | raised => exact owes
  | acquire lock next inductionHypothesis => exact inductionHypothesis owes
  | release lock next inductionHypothesis => exact inductionHypothesis owes
  | join thread next inductionHypothesis => exact inductionHypothesis owes
  | act site guard update next inductionHypothesis =>
      refine ⟨owes.1, fun now relied unsettled enabled => ?_⟩
      exact (owes.2 now relied unsettled enabled).imp id (inductionHypothesis now)

/-- Nothing has to follow a program that settles the state itself. -/
theorem owes_bind_of_never {post : β → D → Prop} {first : Prog K T D L α}
    {rest : α → Prog K T D L β} (owes : first.Owes debt (fun _ _ => False) data) :
    (first >>= rest).Owes debt post data :=
  owes_bind _ owes fun _ _ impossible => impossible.elim

theorem owes_releasing (lock : K) {body : Prog K T D L α} (owes : body.Owes debt post data) :
    (body.releasing lock).Owes debt post data := by
  induction body generalizing data with
  | done value => exact owes
  | raised => exact owes
  | acquire other next inductionHypothesis => exact inductionHypothesis owes
  | release other next inductionHypothesis => exact inductionHypothesis owes
  | join thread next inductionHypothesis => exact inductionHypothesis owes
  | act site guard update next inductionHypothesis =>
      refine ⟨owes.1, fun now relied unsettled enabled => ?_⟩
      exact (owes.2 now relied unsettled enabled).imp id (inductionHypothesis now)

theorem owes_withLock (lock : K) {body : Prog K T D L α} (owes : body.Owes debt post data) :
    (withLock lock body).Owes debt post data :=
  owes_releasing lock owes

theorem owes_ite {condition : Prop} [Decidable condition] {yes no : Prog K T D L α}
    (owesYes : condition → yes.Owes debt post data)
    (owesNo : ¬ condition → no.Owes debt post data) :
    (if condition then yes else no).Owes debt post data := by
  split
  · next holds => exact owesYes holds
  · next fails => exact owesNo fails

/-- A read: what it tells has to last. -/
theorem owes_await {site : L} {guard : D → Bool} {view : D → α} (passes : debt.passes site)
    (seen : ∀ now later, debt.rely data now → ¬ debt.settled now → debt.rely now later →
      post (view now) later) : (await site guard view : Prog K T D L α).Owes debt post data :=
  ⟨passes, fun now relied unsettled _ => .inr fun later further =>
    seen now later relied unsettled further⟩

end Prog

/-! ## Runs -/

namespace Debt

variable [DecidableEq K] [DecidableEq T] {system : System K T D L E I} {debt : Debt D L}

/-- The state is settled, or one of the debtors has to settle it. -/
def Covered (debt : Debt D L) (debtor : T → Prop) (config : Config K T D L) : Prop :=
  debt.settled config.shared.data ∨ ∃ thread, debtor thread ∧
    (config.thread thread).Owes debt (fun _ _ => False) config.shared.data

private theorem owes_of_own {program left : Prog K T D L Unit} {thread : T} {ended : T → Bool}
    {shared later : Shared K T D}
    (owes : program.Owes debt (fun _ _ => False) shared.data) (unsettled : ¬ debt.settled shared.data)
    (stepped : program.step thread ended shared = some (left, later)) :
    debt.settled later.data ∨ left.Owes debt (fun _ _ => False) later.data := by
  cases program with
  | done value => simp at stepped
  | raised => simp at stepped
  | acquire lock next =>
      obtain ⟨_, rfl, rfl⟩ := Prog.step_acquire.mp stepped
      exact .inr owes
  | release lock next =>
      obtain ⟨_, rfl, rfl⟩ := Prog.step_release.mp stepped
      exact .inr owes
  | join other next =>
      obtain ⟨_, rfl, rfl⟩ := Prog.step_join.mp stepped
      exact .inr owes
  | act site guard update next =>
      obtain ⟨enabled, rfl, rfl⟩ := Prog.step_act.mp stepped
      exact owes.2 shared.data (debt.relyRefl _) unsettled enabled

/-- Step law. -/
theorem Covered.step {debtor : T → Prop} {before after : Config K T D L}
    (covered : debt.Covered debtor before) {choice : Choice T E I}
    (stepped : system.step choice before = some after)
    (relied : ∀ thread, debtor thread → choice ≠ .run thread →
      debt.rely before.shared.data after.shared.data)
    (incurs : debt.settled before.shared.data → ¬ debt.settled after.shared.data →
      ∃ thread, debtor thread ∧
        (after.thread thread).Owes debt (fun _ _ => False) after.shared.data) :
    debt.Covered debtor after := by
  by_cases settled : debt.settled before.shared.data
  · by_cases still : debt.settled after.shared.data
    · exact .inl still
    · exact .inr (incurs settled still)
  · obtain ⟨thread, isDebtor, owes⟩ := covered.resolve_left settled
    by_cases own : choice = .run thread
    · subst own
      obtain ⟨⟨left, shared⟩, threadStep, rfl⟩ := Option.map_eq_some_iff.mp stepped
      refine (owes_of_own owes settled threadStep).imp id fun later => ⟨thread, isDebtor, ?_⟩
      simpa using later
    · have lasting := owes.rely (relied thread isDebtor own)
      refine .inr ⟨thread, isDebtor, ?_⟩
      suffices same : after.thread thread = before.thread thread by rwa [same]
      rcases System.steps_of_choice stepped with ⟨mover, left, shared, rfl, _, rfl⟩ |
        ⟨starter, input, program, rfl, resting, _, rfl⟩ | ⟨event, data, rfl, _, rfl⟩
      · have different : thread ≠ mover := fun same => own (by rw [same])
        simp [different]
      · have different : thread ≠ starter := by
          rintro rfl
          rw [resting] at owes
          exact owes _ (debt.relyRefl _)
        simp [different]
      · rfl

end Debt

end NaiveBTSniffing.Library.Interleaving
