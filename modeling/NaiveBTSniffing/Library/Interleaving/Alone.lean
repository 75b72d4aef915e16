import NaiveBTSniffing.Library.Interleaving.LockOrder
import NaiveBTSniffing.Library.Interleaving.Triple

/-!
Contract: what a program does when no other thread moves.

`Prog.alone` computes it directly. `System.reachable_of_alone` says that the
scheduler can bring it about, for a program that follows a lock discipline, from
a state in which every lock is free. Names no program.
-/

namespace NaiveBTSniffing.Library.Interleaving

variable {K T D L E I α β : Type}

namespace Prog

/-- The value and the data with which the program ends, all locks being free, or
`none` where it raises or has to wait. -/
def alone : Prog K T D L α → D → Option (α × D)
  | .done value, data => some (value, data)
  | .raised, _ => none
  | .acquire _ next, data => alone next data
  | .release _ next, data => alone next data
  | .join _ _, _ => none
  | .act _ guard update next, data =>
      if guard data then alone (next data) (update data) else none

@[simp] theorem alone_done (value : α) (data : D) :
    (Prog.done value : Prog K T D L α).alone data = some (value, data) := rfl

@[simp] theorem alone_raised (data : D) :
    (Prog.raised : Prog K T D L α).alone data = none := rfl

@[simp] theorem alone_bind (first : Prog K T D L α) (rest : α → Prog K T D L β) (data : D) :
    (first >>= rest).alone data =
      (first.alone data).bind fun ended => (rest ended.1).alone ended.2 := by
  induction first generalizing data with
  | done value => rfl
  | raised => rfl
  | acquire lock next inductionHypothesis => exact inductionHypothesis data
  | release lock next inductionHypothesis => exact inductionHypothesis data
  | join thread next => rfl
  | act site guard update next inductionHypothesis =>
      simp only [act_bind, alone]
      split
      · exact inductionHypothesis data (update data)
      · rfl

theorem alone_releasing (lock : K) (body : Prog K T D L α) (data : D) :
    (body.releasing lock).alone data = body.alone data := by
  induction body generalizing data with
  | done value => rfl
  | raised => rfl
  | acquire other next inductionHypothesis => exact inductionHypothesis data
  | release other next inductionHypothesis => exact inductionHypothesis data
  | join thread next => rfl
  | act site guard update next inductionHypothesis =>
      simp only [releasing, alone]
      split
      · exact inductionHypothesis data (update data)
      · rfl

@[simp] theorem alone_withLock (lock : K) (body : Prog K T D L α) (data : D) :
    (withLock lock body).alone data = body.alone data :=
  alone_releasing lock body data

@[simp] theorem alone_read (site : L) (view : D → α) (data : D) :
    (read site view : Prog K T D L α).alone data = some (view data, data) := rfl

@[simp] theorem alone_modify (site : L) (update : D → D) (data : D) :
    (modify site update : Prog K T D L Unit).alone data = some ((), update data) := rfl

theorem alone_ite {condition : Prop} [Decidable condition] (yes no : Prog K T D L α) (data : D) :
    (if condition then yes else no).alone data =
      if condition then yes.alone data else no.alone data := by
  split <;> rfl

/-- What every step of a program keeps holds when it has run alone. -/
theorem kept_of_alone {shape : List K → D → D → Prop} (kept : D → Prop)
    (keeps : ∀ held before after, shape held before after → kept before → kept after)
    {program : Prog K T D L α} {start held : List K} (within : program.Within shape start held)
    {data after : D} {value : α} (ended : program.alone data = some (value, after))
    (holds : kept data) : kept after := by
  induction program generalizing held data with
  | done result =>
      obtain ⟨_, rfl⟩ := Prod.ext_iff.mp (Option.some.inj ended)
      exact holds
  | raised => simp at ended
  | acquire lock next inductionHypothesis => exact inductionHypothesis within ended holds
  | release lock next inductionHypothesis =>
      obtain ⟨_, _, _, remaining⟩ := within
      exact inductionHypothesis remaining ended holds
  | join thread next => simp [alone] at ended
  | act site guard update next inductionHypothesis =>
      obtain ⟨shaped, remaining⟩ := within data
      by_cases allowed : guard data = true
      · apply inductionHypothesis data remaining
        · simpa [alone, allowed] using ended
        · exact keeps held data (update data) (shaped allowed) holds
      · simp [alone, allowed] at ended

end Prog

/-! ## The scheduler can let one thread run alone -/

section Reachable

variable [DecidableEq K] [DecidableEq T]

/-- The locks of one thread are the only ones taken. -/
def OnlyTaken (holder : K → Option T) (thread : T) (held : List K) : Prop :=
  ∀ lock, holder lock = if lock ∈ held then some thread else none

omit [DecidableEq T] in
theorem OnlyTaken.acquire {holder : K → Option T} {thread : T} {held : List K}
    (taken : OnlyTaken holder thread held) (lock : K) :
    OnlyTaken (Function.update holder lock (some thread)) thread (lock :: held) := by
  intro other
  by_cases same : other = lock
  · subst same
    simp
  · rw [Function.update_of_ne same, taken other]
    simp [same]

omit [DecidableEq T] in
theorem OnlyTaken.release {holder : K → Option T} {thread : T} {held : List K} {lock : K}
    (taken : OnlyTaken holder thread (lock :: held)) (fresh : lock ∉ held) :
    OnlyTaken (Function.update holder lock none) thread held := by
  intro other
  by_cases same : other = lock
  · subst same
    simp [fresh]
  · rw [Function.update_of_ne same, taken other]
    simp [same]

/-- Some run leads to a configuration with the given data in which the thread has
ended, the other threads stand where they stood and every lock is free. -/
def System.EndsAlone (system : System K T D L E I) (thread : T) (data : D)
    (config : Config K T D L) : Prop :=
  ∃ after, system.Reachable config after ∧ OnlyTaken after.shared.holder thread [] ∧
    after.shared.data = data ∧ after.thread = Function.update config.thread thread (.done ())

theorem System.EndsAlone.head {system : System K T D L E I} {thread : T} {data : D}
    {config : Config K T D L} {next : Prog K T D L Unit} {shared : Shared K T D}
    (stepped : (config.thread thread).step thread config.ended config.shared =
      some (next, shared))
    (rest : system.EndsAlone thread data
      { shared := shared, thread := Function.update config.thread thread next }) :
    system.EndsAlone thread data config := by
  obtain ⟨after, reaches, taken, same, threads⟩ := rest
  refine ⟨after, Relation.ReflTransGen.head ⟨⟨.run thread, ?_⟩, trivial⟩ reaches, taken, same, ?_⟩
  · simp [System.step, stepped]
  · rw [threads, Function.update_idem]

theorem System.reachable_of_alone (system : System K T D L E I) {rank : K → Nat} {thread : T}
    {program : Prog K T D L Unit} {held : List K} {config : Config K T D L} {data : D}
    (here : config.thread thread = program) (ordered : program.LockOrdered rank [] held)
    (nodup : held.Nodup) (taken : OnlyTaken config.shared.holder thread held)
    (ends : program.alone config.shared.data = some ((), data)) :
    system.EndsAlone thread data config := by
  induction program generalizing held config with
  | done value =>
      obtain rfl : held = [] := ordered
      refine ⟨config, Relation.ReflTransGen.refl, taken, ?_, ?_⟩
      · exact (Prod.ext_iff.mp (Option.some.inj ends)).2
      · rw [← here, Function.update_eq_self]
  | raised => simp at ends
  | acquire lock next inductionHypothesis =>
      have fresh : lock ∉ held := fun member =>
        absurd (ordered.1 lock member) (Nat.lt_irrefl (rank lock))
      have free : config.shared.holder lock = none := by rw [taken lock, if_neg fresh]
      have stepped : (config.thread thread).step thread config.ended config.shared =
          some (next, config.shared.setHolder lock (some thread)) := by
        rw [here]
        simp [Prog.step, free]
      apply EndsAlone.head stepped
      exact inductionHypothesis (Function.update_self ..) ordered.2
        (List.nodup_cons.mpr ⟨fresh, nodup⟩) (taken.acquire lock) ends
  | release lock next inductionHypothesis =>
      obtain ⟨below, rfl, remaining⟩ := ordered
      have mine : config.shared.holder lock = some thread := by
        rw [taken lock, if_pos List.mem_cons_self]
      have stepped : (config.thread thread).step thread config.ended config.shared =
          some (next, config.shared.setHolder lock none) := by
        rw [here]
        simp [Prog.step, mine]
      apply EndsAlone.head stepped
      exact inductionHypothesis (Function.update_self ..) remaining
        (List.nodup_cons.mp nodup).2 (taken.release (List.nodup_cons.mp nodup).1) ends
  | join other next => simp [Prog.alone] at ends
  | act site guard update next inductionHypothesis =>
      have allowed : guard config.shared.data = true := by
        by_contra refused
        simp [Prog.alone, refused] at ends
      have stepped : (config.thread thread).step thread config.ended config.shared =
          some (next config.shared.data, config.shared.setData (update config.shared.data)) := by
        rw [here]
        simp [Prog.step, allowed]
      apply EndsAlone.head stepped
      refine inductionHypothesis _ (Function.update_self ..) (ordered _) nodup taken ?_
      simpa [Prog.alone, allowed] using ends

end Reachable

end NaiveBTSniffing.Library.Interleaving
