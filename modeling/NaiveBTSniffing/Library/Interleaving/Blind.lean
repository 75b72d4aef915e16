import NaiveBTSniffing.Library.Interleaving.System

/-!
Contract: programs that a change of the data makes no difference to.

`Veil` names a change of the shared data, an invariant, and the states that a
run is considered to stay in. A program is `Blind` when none of its steps goes
on differently after the change and every step keeps the invariant as long as
the run stays in the considered states. `System.blind_of_run` is the soundness
theorem. The other threads need no assumptions: what a program knows of the
values that it has read is pure.

Names no program.
-/

namespace NaiveBTSniffing.Library.Interleaving

variable {K T D L E I α β γ : Type}

/-- A change of the data that goes unnoticed, and where. -/
structure Veil (D : Type) where
  /-- Holds in every state of the runs considered. -/
  inv : D → Prop
  /-- The states that the runs considered stay in. -/
  stays : D → Prop
  /-- The change. -/
  change : D → D

namespace Prog

variable {veil : Veil D}

/-- No step of the program sees the change, each keeps the invariant, and the
value at its end satisfies `post`. -/
def Blind (veil : Veil D) (post : α → Prop) : Prog K T D L α → Prop
  | .done value => post value
  | .raised => True
  | .acquire _ next => Blind veil post next
  | .release _ next => Blind veil post next
  | .join _ next => Blind veil post next
  | .act _ guard update next => ∀ data, veil.inv data →
      next (veil.change data) = next data ∧
        (guard data = true → veil.stays (update data) →
          veil.inv (update data) ∧ Blind veil post (next data))

/-- Sequencing law. -/
theorem blind_bind (middle : α → Prop) {post : β → Prop} {first : Prog K T D L α}
    {rest : α → Prog K T D L β} (blind : first.Blind veil middle)
    (remaining : ∀ value, middle value → (rest value).Blind veil post) :
    (first >>= rest).Blind veil post := by
  induction first with
  | done value => exact remaining value blind
  | raised => trivial
  | acquire lock next inductionHypothesis => exact inductionHypothesis blind
  | release lock next inductionHypothesis => exact inductionHypothesis blind
  | join thread next inductionHypothesis => exact inductionHypothesis blind
  | act site guard update next inductionHypothesis =>
      intro data invariant
      obtain ⟨unseen, later⟩ := blind data invariant
      refine ⟨?_, fun enabled stays => ?_⟩
      · show (next (veil.change data) >>= rest) = (next data >>= rest)
        rw [unseen]
      · obtain ⟨kept, blindLater⟩ := later enabled stays
        exact ⟨kept, inductionHypothesis data blindLater⟩

theorem blind_releasing {post : α → Prop} (lock : K) {body : Prog K T D L α}
    (blind : body.Blind veil post) : (body.releasing lock).Blind veil post := by
  induction body with
  | done value => exact blind
  | raised => trivial
  | acquire other next inductionHypothesis => exact inductionHypothesis blind
  | release other next inductionHypothesis => exact inductionHypothesis blind
  | join thread next inductionHypothesis => exact inductionHypothesis blind
  | act site guard update next inductionHypothesis =>
      intro data invariant
      obtain ⟨unseen, later⟩ := blind data invariant
      refine ⟨?_, fun enabled stays => ?_⟩
      · show (next (veil.change data)).releasing lock = (next data).releasing lock
        rw [unseen]
      · obtain ⟨kept, blindLater⟩ := later enabled stays
        exact ⟨kept, inductionHypothesis data blindLater⟩

theorem blind_withLock {post : α → Prop} (lock : K) {body : Prog K T D L α}
    (blind : body.Blind veil post) : (withLock lock body).Blind veil post :=
  blind_releasing lock blind

theorem blind_ite {post : α → Prop} {condition : Prop} [Decidable condition]
    {yes no : Prog K T D L α} (blindYes : condition → yes.Blind veil post)
    (blindNo : ¬ condition → no.Blind veil post) :
    (if condition then yes else no).Blind veil post := by
  split
  · next holds => exact blindYes holds
  · next fails => exact blindNo fails

/-- Reading something that the change leaves alone. -/
theorem blind_await {post : α → Prop} (site : L) (guard : D → Bool) {view : D → α}
    (unseen : ∀ data, veil.inv data → view (veil.change data) = view data)
    (seen : ∀ data, veil.inv data → post (view data)) :
    (await site guard view : Prog K T D L α).Blind veil post := by
  intro data invariant
  refine ⟨?_, fun _ _ => ⟨invariant, seen data invariant⟩⟩
  show Prog.done (view (veil.change data)) = Prog.done (view data)
  rw [unseen data invariant]

theorem blind_forEach {body : γ → Prog K T D L Unit} {items : List γ}
    (each : ∀ item ∈ items, (body item).Blind veil fun _ => True) :
    (forEach body items).Blind veil fun _ => True := by
  induction items with
  | nil => trivial
  | cons item rest inductionHypothesis =>
      apply blind_bind (fun _ => True) (each item List.mem_cons_self)
      exact fun _ _ => inductionHypothesis fun other member =>
        each other (List.mem_cons_of_mem _ member)

end Prog

/-! ## Soundness -/

namespace System

variable [DecidableEq K] [DecidableEq T] {system : System K T D L E I} {veil : Veil D}

/-- A system none of whose threads sees the change. -/
structure Veiled (system : System K T D L E I) (veil : Veil D) : Prop where
  entries : ∀ {thread input program}, system.entry thread input = some program →
    program.Blind veil fun _ => True
  outside : ∀ {event before after}, system.environment event before = some after →
    veil.inv before → veil.stays after → veil.inv after

/-- The invariant holds and no thread sees the change. -/
structure BlindNow (veil : Veil D) (config : Config K T D L) : Prop where
  invariant : veil.inv config.shared.data
  threads : ∀ thread, (config.thread thread).Blind veil fun _ => True

omit [DecidableEq K] in
private theorem BlindNow.update {config : Config K T D L} (blind : BlindNow veil config)
    {thread : T} {shared : Shared K T D} {next : Prog K T D L Unit}
    (invariant : veil.inv shared.data) (here : next.Blind veil fun _ => True) :
    BlindNow veil { shared := shared, thread := Function.update config.thread thread next } where
  invariant := invariant
  threads := by
    intro other
    by_cases same : other = thread
    · subst same
      simpa using here
    · simpa only [Function.update_of_ne same] using blind.threads other

private theorem blind_of_runs {before : Config K T D L} (blind : BlindNow veil before) {thread : T}
    {next : Prog K T D L Unit} {shared : Shared K T D}
    (stepped : (before.thread thread).step thread before.ended before.shared =
      some (next, shared)) (stays : veil.stays shared.data) :
    veil.inv shared.data ∧ next.Blind veil fun _ => True := by
  have here := blind.threads thread
  cases program : before.thread thread with
  | done value => simp [program, Prog.step] at stepped
  | raised => simp [program, Prog.step] at stepped
  | acquire lock rest =>
      rw [program] at here
      obtain ⟨_, rfl, rfl⟩ : before.shared.holder lock = none ∧ rest = next ∧
          before.shared.setHolder lock (some thread) = shared := by
        simpa [program, Prog.step, Option.isNone_iff_eq_none] using stepped
      exact ⟨blind.invariant, here⟩
  | release lock rest =>
      rw [program] at here
      obtain ⟨_, rfl, rfl⟩ : before.shared.holder lock = some thread ∧ rest = next ∧
          before.shared.setHolder lock none = shared := by
        simpa [program, Prog.step] using stepped
      exact ⟨blind.invariant, here⟩
  | join other rest =>
      rw [program] at here
      obtain ⟨_, rfl, rfl⟩ : before.ended other = true ∧ rest = next ∧
          before.shared = shared := by
        simpa [program, Prog.step] using stepped
      exact ⟨blind.invariant, here⟩
  | act site guard update rest =>
      rw [program] at here
      obtain ⟨enabled, rfl, rfl⟩ : guard before.shared.data = true ∧
          rest before.shared.data = next ∧
          before.shared.setData (update before.shared.data) = shared := by
        simpa [program, Prog.step] using stepped
      exact (here _ blind.invariant).2 enabled stays

theorem Veiled.step (veiled : system.Veiled veil) {before after : Config K T D L}
    (blind : BlindNow veil before) (stepped : system.Steps before after)
    (stays : veil.stays after.shared.data) : BlindNow veil after := by
  obtain ⟨choice, chosen⟩ := stepped
  cases choice with
  | run thread =>
      obtain ⟨⟨next, shared⟩, threadStep, rfl⟩ := Option.map_eq_some_iff.mp chosen
      obtain ⟨invariant, here⟩ := blind_of_runs blind threadStep stays
      exact blind.update invariant here
  | start thread input =>
      simp only [System.step] at chosen
      split at chosen
      · obtain ⟨program, entered, rfl⟩ := Option.map_eq_some_iff.mp chosen
        exact blind.update blind.invariant (veiled.entries entered)
      · simp at chosen
  | environment event =>
      obtain ⟨data, happened, rfl⟩ := Option.map_eq_some_iff.mp chosen
      exact ⟨veiled.outside happened blind.invariant stays, blind.threads⟩

/-- Soundness: in a run that stays in the considered states, no thread ever sees
the change. -/
theorem Veiled.blind_of_run (veiled : system.Veiled veil) {before after : Config K T D L}
    (run : system.Run (fun _ data => veil.stays data) before after)
    (blind : BlindNow veil before) : BlindNow veil after := by
  induction run with
  | refl => exact blind
  | tail _ stepped inductionHypothesis =>
      exact veiled.step inductionHypothesis stepped.1 stepped.2

end System

end NaiveBTSniffing.Library.Interleaving
