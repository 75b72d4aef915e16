import NaiveBTSniffing.Library.Interleaving.Fairness
import NaiveBTSniffing.Library.Interleaving.Triple

/-!
Contract: what a thread attains before it ends, and the steps of one part of a
thread's program.

`Prog.Attains` is the weakest precondition of a program that comes, by a step of
its own, to a state as it is wanted, or else ends in `post`.
`Execution.attained_of_ended` finds the moment of that step. `Execution.Works`
follows a part of a thread's program through an execution: what is proved about
that part alone (`Prog.Within`) holds of every step that the thread takes meanwhile
(`Works.shape_of_moves`).

Names no program and no fairness: both speak about what has happened.
-/

namespace NaiveBTSniffing.Library.Interleaving

variable {K T D L E I α β : Type}

/-- The state that a thread is to come to, and what it may rely on. -/
structure Aim (D : Type) where
  /-- Holds in every state. -/
  inv : D → Prop
  /-- Any number of steps of any thread. -/
  rely : D → D → Prop
  attained : D → Prop
  relyRefl : ∀ data, rely data data
  relyTrans : ∀ {first second third}, rely first second → rely second third → rely first third

namespace Prog

/-- Whatever the others do, a step of the program leads to a state as it is
wanted, or the program ends in `post`, or raises into `failed`. -/
def Attains (aim : Aim D) (post : α → D → Prop) (failed : D → Prop) : Prog K T D L α → D → Prop
  | .done value, data => ∀ now, aim.rely data now → aim.inv now → post value now
  | .raised, data => ∀ now, aim.rely data now → aim.inv now → failed now
  | .acquire _ next, data => Attains aim post failed next data
  | .release _ next, data => Attains aim post failed next data
  | .join _ next, data => Attains aim post failed next data
  | .act _ guard update next, data =>
      ∀ now, aim.rely data now → aim.inv now → guard now = true →
        aim.attained (update now) ∨
          (aim.inv (update now) → Attains aim post failed (next now) (update now))

variable {aim : Aim D} {post : α → D → Prop} {failed : D → Prop} {data : D}

/-- What others do in between changes nothing. -/
theorem Attains.rely {program : Prog K T D L α} {later : D}
    (attains : program.Attains aim post failed data) (relied : aim.rely data later) :
    program.Attains aim post failed later := by
  induction program with
  | done value => exact fun now further => attains now (aim.relyTrans relied further)
  | raised => exact fun now further => attains now (aim.relyTrans relied further)
  | acquire lock next inductionHypothesis => exact inductionHypothesis attains
  | release lock next inductionHypothesis => exact inductionHypothesis attains
  | join thread next inductionHypothesis => exact inductionHypothesis attains
  | act site guard update next => exact fun now further => attains now (aim.relyTrans relied further)

/-- Sequencing law. -/
theorem attains_bind (middle : α → D → Prop) {post : β → D → Prop} {first : Prog K T D L α}
    {rest : α → Prog K T D L β} (invariant : aim.inv data)
    (attains : first.Attains aim middle failed data)
    (later : ∀ value now, aim.inv now → middle value now →
      (rest value).Attains aim post failed now) :
    (first >>= rest).Attains aim post failed data := by
  induction first generalizing data with
  | done value => exact later value data invariant (attains data (aim.relyRefl data) invariant)
  | raised => exact attains
  | acquire lock next inductionHypothesis => exact inductionHypothesis invariant attains
  | release lock next inductionHypothesis => exact inductionHypothesis invariant attains
  | join thread next inductionHypothesis => exact inductionHypothesis invariant attains
  | act site guard update next inductionHypothesis =>
      intro now relied holds enabled
      apply (attains now relied holds enabled).imp id
      exact fun remaining kept => inductionHypothesis now kept (remaining kept)

theorem attains_withLock (lock : K) {body : Prog K T D L α}
    (attains : body.Attains aim post failed data) :
    (withLock lock body).Attains aim post failed data := by
  show (body.releasing lock).Attains aim post failed data
  induction body generalizing data with
  | done value => exact attains
  | raised => exact attains
  | acquire other next inductionHypothesis => exact inductionHypothesis attains
  | release other next inductionHypothesis => exact inductionHypothesis attains
  | join thread next inductionHypothesis => exact inductionHypothesis attains
  | act site guard update next inductionHypothesis =>
      intro now relied holds enabled
      apply (attains now relied holds enabled).imp id
      exact fun remaining kept => inductionHypothesis now (remaining kept)

/-- A read: either the state is as it is wanted, or what it tells lasts. -/
theorem attains_await {site : L} {guard : D → Bool} {view : D → α}
    (seen : ∀ now later, aim.rely data now → guard now = true → ¬ aim.attained now →
      aim.rely now later → aim.inv now → aim.inv later → post (view now) later) :
    (await site guard view : Prog K T D L α).Attains aim post failed data := by
  intro now relied holds enabled
  by_cases already : aim.attained now
  · exact .inl already
  · exact .inr fun _ later further kept => seen now later relied enabled already further holds kept

/-- A program whose own steps leave alone what the others leave alone ends in every
fact that lasts. -/
theorem attains_of_within {shape : List K → D → D → Prop} {start held : List K} {fact : D → Prop}
    {program : Prog K T D L α} (within : program.Within shape start held)
    (keeps : ∀ held before after, shape held before after → aim.rely before after)
    (lasts : ∀ now, aim.rely data now → aim.inv now → fact now) :
    program.Attains aim (fun _ => fact) fact data := by
  induction program generalizing held data with
  | done value => exact lasts
  | raised => exact lasts
  | acquire lock next inductionHypothesis => exact inductionHypothesis within lasts
  | release lock next inductionHypothesis =>
      obtain ⟨_, _, _, remaining⟩ := within
      exact inductionHypothesis remaining lasts
  | join thread next inductionHypothesis => exact inductionHypothesis within lasts
  | act site guard update next inductionHypothesis =>
      intro now relied _ enabled
      apply Or.inr
      intro _
      apply inductionHypothesis now (within now).2
      intro later further
      exact lasts later (aim.relyTrans relied (aim.relyTrans (keeps _ _ _ ((within now).1 enabled)) further))

private theorem attained_or_attains {program left : Prog K T D L α} [DecidableEq K] [DecidableEq T]
    {self : T} {ended : T → Bool} {shared later : Shared K T D}
    (attains : program.Attains aim post failed shared.data) (holds : aim.inv shared.data)
    (kept : aim.inv later.data)
    (stepped : program.step self ended shared = some (left, later)) :
    aim.attained later.data ∨ left.Attains aim post failed later.data := by
  cases program with
  | done value => simp at stepped
  | raised => simp at stepped
  | acquire lock next =>
      obtain ⟨_, rfl, rfl⟩ := step_acquire.mp stepped
      exact .inr attains
  | release lock next =>
      obtain ⟨_, rfl, rfl⟩ := step_release.mp stepped
      exact .inr attains
  | join thread next =>
      obtain ⟨_, rfl, rfl⟩ := step_join.mp stepped
      exact .inr attains
  | act site guard update next =>
      obtain ⟨enabled, rfl, rfl⟩ := step_act.mp stepped
      exact (attains shared.data (aim.relyRefl _) holds enabled).imp id fun remaining => remaining kept

/-! ## One step of a program -/

section Step

variable [DecidableEq K] [DecidableEq T] {self : T} {ended : T → Bool}
variable {program left : Prog K T D L α} {shared later : Shared K T D}

/-- What follows a program does not disturb its steps. -/
theorem step_bind (rest : α → Prog K T D L β)
    (stepped : program.step self ended shared = some (left, later)) :
    (program >>= rest).step self ended shared = some (left >>= rest, later) := by
  cases program with
  | done value => simp at stepped
  | raised => simp at stepped
  | acquire lock next =>
      obtain ⟨free, rfl, same⟩ := step_acquire.mp stepped
      exact step_acquire.mpr ⟨free, rfl, same⟩
  | release lock next =>
      obtain ⟨owned, rfl, same⟩ := step_release.mp stepped
      exact step_release.mpr ⟨owned, rfl, same⟩
  | join thread next =>
      obtain ⟨finished, rfl, same⟩ := step_join.mp stepped
      exact step_join.mpr ⟨finished, rfl, same⟩
  | act site guard update next =>
      obtain ⟨enabled, rfl, same⟩ := step_act.mp stepped
      exact step_act.mpr ⟨enabled, rfl, same⟩

/-- As long as it has not ended, the program is what takes the steps. -/
theorem step_of_bind {rest : α → Prog K T D L β} {whole : Prog K T D L β}
    (unfinished : ∀ value, program ≠ .done value)
    (stepped : (program >>= rest).step self ended shared = some (whole, later)) :
    ∃ left after, program.step self ended shared = some (left, after) := by
  cases program with
  | done value => exact absurd rfl (unfinished value)
  | raised => simp at stepped
  | acquire lock next =>
      obtain ⟨free, _⟩ := step_acquire.mp stepped
      exact ⟨next, _, step_acquire.mpr ⟨free, rfl, rfl⟩⟩
  | release lock next =>
      obtain ⟨owned, _⟩ := step_release.mp stepped
      exact ⟨next, _, step_release.mpr ⟨owned, rfl, rfl⟩⟩
  | join thread next =>
      obtain ⟨finished, _⟩ := step_join.mp stepped
      exact ⟨next, _, step_join.mpr ⟨finished, rfl, rfl⟩⟩
  | act site guard update next =>
      obtain ⟨enabled, _⟩ := step_act.mp stepped
      exact ⟨next shared.data, _, step_act.mpr ⟨enabled, rfl, rfl⟩⟩

variable {shape : List K → D → D → Prop} {start held : List K}

theorem within_of_step (within : program.Within shape start held)
    (stepped : program.step self ended shared = some (left, later)) :
    ∃ held, left.Within shape start held := by
  cases program with
  | done value => simp at stepped
  | raised => simp at stepped
  | acquire lock next =>
      obtain ⟨_, rfl, _⟩ := step_acquire.mp stepped
      exact ⟨_, within⟩
  | release lock next =>
      obtain ⟨_, rfl, _⟩ := step_release.mp stepped
      obtain ⟨below, _, _, remaining⟩ := within
      exact ⟨below, remaining⟩
  | join thread next =>
      obtain ⟨_, rfl, _⟩ := step_join.mp stepped
      exact ⟨held, within⟩
  | act site guard update next =>
      obtain ⟨_, rfl, _⟩ := step_act.mp stepped
      exact ⟨held, (within shared.data).2⟩

theorem shape_of_step (reflexive : ∀ held data, shape held data data)
    (within : program.Within shape start held)
    (stepped : program.step self ended shared = some (left, later)) :
    shape held shared.data later.data := by
  cases program with
  | done value => simp at stepped
  | raised => simp at stepped
  | acquire lock next =>
      obtain ⟨_, _, rfl⟩ := step_acquire.mp stepped
      exact reflexive _ _
  | release lock next =>
      obtain ⟨_, _, rfl⟩ := step_release.mp stepped
      exact reflexive _ _
  | join thread next =>
      obtain ⟨_, _, rfl⟩ := step_join.mp stepped
      exact reflexive _ _
  | act site guard update next =>
      obtain ⟨enabled, _, rfl⟩ := step_act.mp stepped
      exact (within shared.data).1 enabled

end Step

end Prog

namespace Execution

variable [DecidableEq K] [DecidableEq T] {system : System K T D L E I}
variable {execution : Execution system} {thread : T} {first last moment : Nat}

/-- A thread that moves takes a step of its program, or starts one. -/
theorem step_of_moves (moves : execution.Moves thread moment) :
    (execution.schedule moment = .run thread ∧
      ((execution.state moment).thread thread).step thread (execution.state moment).ended
          (execution.state moment).shared =
        some ((execution.state (moment + 1)).thread thread, (execution.state (moment + 1)).shared)) ∨
      ∃ input, execution.schedule moment = .start thread input := by
  obtain ⟨chosen, possible⟩ := moves
  obtain ⟨after, stepped⟩ := Option.isSome_iff_exists.mp possible
  have reached : execution.state (moment + 1) = after := by
    show (system.step _ _).getD _ = after
    rw [stepped]
    rfl
  rcases System.steps_of_choice stepped with ⟨mover, left, shared, same, threadStep, rfl⟩ |
    ⟨mover, input, program, same, _, _, _⟩ | ⟨event, data, same, _, _⟩
  · rw [same] at chosen
    obtain rfl : mover = thread := Option.some.inj chosen
    apply Or.inl
    rw [reached]
    exact ⟨same, by simpa using threadStep⟩
  · rw [same] at chosen
    obtain rfl : mover = thread := Option.some.inj chosen
    exact .inr ⟨input, same⟩
  · simp [same, Choice.mover] at chosen

/-- A thread that has ended otherwise than in `post` has attained its aim by one of
its steps. -/
theorem attained_of_ended {aim : Aim D} {post : D → Prop}
    (starts : ∀ input, system.entry thread input = none)
    (holds : ∀ moment, aim.inv (execution.state moment).shared.data)
    (relied : ∀ moment, aim.rely (execution.state moment).shared.data
      (execution.state (moment + 1)).shared.data)
    (attains : ((execution.state first).thread thread).Attains aim (fun _ => post) post
      (execution.state first).shared.data) (after : first ≤ last)
    (ended : (execution.state last).ended thread = true)
    (fails : ¬ post (execution.state last).shared.data) :
    ∃ moment, first ≤ moment ∧ moment < last ∧ execution.Moves thread moment ∧
      aim.attained (execution.state (moment + 1)).shared.data := by
  have onTheWay : (∃ moment, first ≤ moment ∧ moment < last ∧ execution.Moves thread moment ∧
        aim.attained (execution.state (moment + 1)).shared.data) ∨
      ((execution.state last).thread thread).Attains aim (fun _ => post) post
        (execution.state last).shared.data := by
    clear ended fails
    induction last, after using Nat.le_induction with
    | base => exact .inr attains
    | succ moment after inductionHypothesis =>
        rcases inductionHypothesis with ⟨early, afterFirst, before, moves, attained⟩ | waits
        · exact .inl ⟨early, afterFirst, Nat.lt_succ_of_lt before, moves, attained⟩
        · by_cases moves : execution.Moves thread moment
          · rcases step_of_moves moves with ⟨_, stepped⟩ | ⟨input, starting⟩
            · apply (Prog.attained_or_attains waits (holds _) (holds _) stepped).imp _ id
              exact fun attained => ⟨moment, after, Nat.lt_succ_self moment, moves, attained⟩
            · have entered := (started_of_moves starting moves).2.1
              rw [starts] at entered
              cases entered
          · apply Or.inr
            rw [thread_of_not_moves moves]
            exact waits.rely (relied moment)
  apply onTheWay.elim id
  intro waits
  apply absurd _ fails
  unfold Config.ended at ended
  cases program : (execution.state last).thread thread with
  | done value =>
      rw [program] at waits
      exact waits _ (aim.relyRefl _) (holds _)
  | raised =>
      rw [program] at waits
      exact waits _ (aim.relyRefl _) (holds _)
  | _ => simp [program, Prog.ended] at ended

/-! ## A part of a program -/

/-- The thread stands before `program` and `rest` at the moment `first`. At the
moment given last, `left` of the program remains. -/
inductive Works (execution : Execution system) (thread : T) (program : Prog K T D L α)
    (rest : α → Prog K T D L Unit) (first : Nat) : Prog K T D L α → Nat → Prop where
  | begins (stands : (execution.state first).thread thread = program >>= rest) :
      Works execution thread program rest first program first
  | pauses {left : Prog K T D L α} {moment : Nat}
      (works : Works execution thread program rest first left moment)
      (still : ¬ execution.Moves thread moment) :
      Works execution thread program rest first left (moment + 1)
  | steps {left next : Prog K T D L α} {moment : Nat} {shared : Shared K T D}
      (works : Works execution thread program rest first left moment)
      (chosen : execution.schedule moment = .run thread)
      (stepped : left.step thread (execution.state moment).ended (execution.state moment).shared =
        some (next, shared)) :
      Works execution thread program rest first next (moment + 1)

namespace Works

variable {program left : Prog K T D L α} {rest : α → Prog K T D L Unit}

theorem first_le (works : execution.Works thread program rest first left last) : first ≤ last := by
  induction works with
  | begins => exact Nat.le_refl _
  | pauses _ _ inductionHypothesis => omega
  | steps _ _ _ inductionHypothesis => omega

/-- A step within the program leads to what is left of it. -/
private theorem state_of_step {next : Prog K T D L α} {shared : Shared K T D}
    (stands : (execution.state moment).thread thread = left >>= rest)
    (chosen : execution.schedule moment = .run thread)
    (stepped : left.step thread (execution.state moment).ended (execution.state moment).shared =
      some (next, shared)) :
    (execution.state (moment + 1)).thread thread = next >>= rest ∧
      (execution.state (moment + 1)).shared = shared := by
  have whole := Prog.step_bind rest stepped
  rw [← stands] at whole
  have reached : execution.state (moment + 1) =
      { shared := shared
        thread := Function.update (execution.state moment).thread thread (next >>= rest) } := by
    show (system.step (execution.schedule moment) _).getD _ = _
    rw [chosen]
    show (Option.map _ _).getD _ = _
    rw [whole]
    rfl
  rw [reached]
  exact ⟨by simp, rfl⟩

theorem stands (works : execution.Works thread program rest first left last) :
    (execution.state last).thread thread = left >>= rest := by
  induction works with
  | begins stands => exact stands
  | pauses _ still inductionHypothesis => exact (thread_of_not_moves still).trans inductionHypothesis
  | steps _ chosen stepped inductionHypothesis =>
      exact (state_of_step inductionHypothesis chosen stepped).1

/-- What remains of a program whose steps have a shape. -/
theorem within {shape : List K → D → D → Prop}
    (works : execution.Works thread program rest first left last)
    (within : program.Within shape [] []) : ∃ held, left.Within shape [] held := by
  induction works with
  | begins => exact ⟨[], within⟩
  | pauses _ _ inductionHypothesis => exact inductionHypothesis
  | steps _ _ stepped inductionHypothesis =>
      obtain ⟨held, remaining⟩ := inductionHypothesis
      exact Prog.within_of_step remaining stepped

/-- Every step that the thread takes meanwhile has the shape of the program's. -/
theorem shape_of_moves {shape : List K → D → D → Prop}
    (reflexive : ∀ held data, shape held data data)
    (works : execution.Works thread program rest first left last)
    (within : program.Within shape [] []) (after : first ≤ moment) (before : moment < last)
    (moves : execution.Moves thread moment) :
    ∃ held, shape held (execution.state moment).shared.data
      (execution.state (moment + 1)).shared.data := by
  induction works with
  | begins => omega
  | pauses earlier still inductionHypothesis =>
      rcases Nat.lt_succ_iff_lt_or_eq.mp before with early | rfl
      · exact inductionHypothesis early
      · exact absurd moves still
  | steps earlier chosen stepped inductionHypothesis =>
      rcases Nat.lt_succ_iff_lt_or_eq.mp before with early | rfl
      · exact inductionHypothesis early
      · obtain ⟨held, remaining⟩ := earlier.within within
        rw [(state_of_step earlier.stands chosen stepped).2]
        exact ⟨held, Prog.shape_of_step reflexive remaining stepped⟩

/-- The part of the program attains its aim by one of its steps, or what is left of it
still does. -/
theorem attained_or_attains {aim : Aim D} {post : α → D → Prop} {failed : D → Prop}
    (works : execution.Works thread program rest first left last)
    (holds : ∀ moment, aim.inv (execution.state moment).shared.data)
    (relied : ∀ moment, aim.rely (execution.state moment).shared.data
      (execution.state (moment + 1)).shared.data)
    (attains : program.Attains aim post failed (execution.state first).shared.data) :
    (∃ moment, first ≤ moment ∧ moment < last ∧
      aim.attained (execution.state (moment + 1)).shared.data) ∨
      left.Attains aim post failed (execution.state last).shared.data := by
  induction works with
  | begins => exact .inr attains
  | @pauses left moment earlier still inductionHypothesis =>
      rcases inductionHypothesis with ⟨early, after, before, attained⟩ | remaining
      · exact .inl ⟨early, after, Nat.lt_succ_of_lt before, attained⟩
      · exact .inr (remaining.rely (relied moment))
  | @steps left next moment shared earlier chosen stepped inductionHypothesis =>
      rcases inductionHypothesis with ⟨early, after, before, attained⟩ | remaining
      · exact .inl ⟨early, after, Nat.lt_succ_of_lt before, attained⟩
      · have same := (state_of_step earlier.stands chosen stepped).2
        have kept := holds (moment + 1)
        rw [same] at kept ⊢
        rcases Prog.attained_or_attains remaining (holds moment) kept stepped with attained | onward
        · exact .inl ⟨moment, earlier.first_le, Nat.lt_succ_self moment, same ▸ attained⟩
        · exact .inr onward

/-- At any later moment the thread is still at work on the program, or it has come to
the program's end before. -/
theorem left_or_done (stands : (execution.state first).thread thread = program >>= rest)
    (after : first ≤ last) :
    (∃ left, execution.Works thread program rest first left last) ∨
      ∃ value moment, moment ≤ last ∧
        execution.Works thread program rest first (.done value) moment := by
  induction last, after using Nat.le_induction with
  | base => exact .inl ⟨program, .begins stands⟩
  | succ last after inductionHypothesis =>
      rcases inductionHypothesis with ⟨left, works⟩ | ⟨value, moment, before, works⟩
      swap
      · exact .inr ⟨value, moment, Nat.le_succ_of_le before, works⟩
      by_cases moves : execution.Moves thread last
      swap
      · exact .inl ⟨left, works.pauses moves⟩
      by_cases finished : ∃ value, left = .done value
      · obtain ⟨value, rfl⟩ := finished
        exact .inr ⟨value, last, Nat.le_succ last, works⟩
      rcases step_of_moves moves with ⟨chosen, stepped⟩ | ⟨input, starting⟩
      · rw [works.stands] at stepped
        obtain ⟨next, shared, own⟩ := Prog.step_of_bind (fun value same => finished ⟨value, same⟩)
          stepped
        exact .inl ⟨next, works.steps chosen own⟩
      · have resting := (started_of_moves starting moves).1
        rw [works.stands] at resting
        cases left with
        | done value => exact absurd ⟨value, rfl⟩ finished
        | _ => cases resting

/-- Follow a list of choices together with what remains of a program of a thread that
starts no other one meanwhile. -/
def follow (system : System K T D L E I) (thread : T) :
    List (Choice T E I) → Config K T D L → Prog K T D L α → Option (Config K T D L × Prog K T D L α)
  | [], config, left => some (config, left)
  | choice :: choices, config, left =>
      (system.step choice config).bind fun next =>
        match choice with
        | .run mover =>
            if mover = thread then
              (left.step thread config.ended config.shared).bind fun result =>
                follow system thread choices next result.1
            else follow system thread choices next left
        | .start mover _ => if mover = thread then none else follow system thread choices next left
        | .environment _ => follow system thread choices next left

/-- A list of choices that the execution makes is followed by the execution. -/
theorem of_follow {choices : List (Choice T E I)} {final : Config K T D L}
    {remaining : Prog K T D L α} (works : execution.Works thread program rest first left moment)
    (scheduled : ∀ later choice, choices[later]? = some choice →
      execution.schedule (moment + later) = choice)
    (followed : follow system thread choices (execution.state moment) left =
      some (final, remaining)) :
    execution.Works thread program rest first remaining (moment + choices.length) ∧
      execution.state (moment + choices.length) = final := by
  induction choices generalizing moment left with
  | nil =>
      obtain ⟨rfl, rfl⟩ := Prod.mk.inj (Option.some.inj followed)
      exact ⟨works, rfl⟩
  | cons choice choices inductionHypothesis =>
      have chosen : execution.schedule moment = choice := scheduled 0 choice rfl
      have onward : ∀ later next, choices[later]? = some next →
          execution.schedule (moment + 1 + later) = next := by
        intro later next found
        rw [Nat.add_right_comm]
        exact scheduled (later + 1) next found
      obtain ⟨next, stepped, continued⟩ := Option.bind_eq_some_iff.mp followed
      have reached : execution.state (moment + 1) = next := by
        show (system.step _ _).getD _ = next
        rw [chosen, stepped]
        rfl
      rw [List.length_cons, Nat.add_comm choices.length, ← Nat.add_assoc]
      have stands : ∀ mover, choice.mover = some mover → mover ≠ thread →
          ¬ execution.Moves thread moment := by
        rintro mover moved different ⟨same, _⟩
        rw [chosen, moved] at same
        exact different (Option.some.inj same)
      cases choice with
      | run mover =>
          by_cases own : mover = thread
          · subst own
            simp only [if_true] at continued
            obtain ⟨result, ownStep, further⟩ := Option.bind_eq_some_iff.mp continued
            rw [← reached] at further
            exact inductionHypothesis (works.steps chosen ownStep) onward further
          · simp only [own, if_false] at continued
            rw [← reached] at continued
            exact inductionHypothesis (works.pauses (stands mover rfl own)) onward continued
      | start mover input =>
          by_cases own : mover = thread
          · simp [own] at continued
          · simp only [own, if_false] at continued
            rw [← reached] at continued
            exact inductionHypothesis (works.pauses (stands mover rfl own)) onward continued
      | environment event =>
          have still : ¬ execution.Moves thread moment := by
            rintro ⟨same, _⟩
            rw [chosen] at same
            cases same
          simp only at continued
          rw [← reached] at continued
          exact inductionHypothesis (works.pauses still) onward continued

end Works

end Execution

end NaiveBTSniffing.Library.Interleaving
