import NaiveBTSniffing.Library.Interleaving.RelyGuarantee

/-!
Contract: proof rules for programs under a rely-guarantee contract.

A `Triple` says that a program is safe from every state that satisfies its
precondition, ends in its postcondition and fails only into `failed`. There is
one rule for each program former. `Triple.frame` covers a whole program at once
when each of its steps has a known shape (`Prog.Within`), so that a proof
follows step by step only the programs whose order of steps matters to it.

Names no program.
-/

namespace NaiveBTSniffing.Library.Interleaving

variable {K T D L α β γ : Type}

namespace Contract

variable {contract : Contract K T D} {thread : T} {held start : List K}

/-- No step of another thread makes the assertion false. -/
def Stable (contract : Contract K T D) (thread : T) (held : List K) (assertion : D → Prop) :
    Prop :=
  ∀ before after, assertion before → contract.inv before → contract.inv after →
    contract.rely thread held before after → assertion after

theorem rely_of_suffix (suffix : start <:+ held) {before after : D}
    (relied : contract.rely thread held before after) :
    contract.rely thread start before after := by
  obtain ⟨extra, rfl⟩ := suffix
  induction extra with
  | nil => exact relied
  | cons lock rest inductionHypothesis => exact inductionHypothesis (contract.relyLock relied)

theorem Stable.of_suffix {assertion : D → Prop} (suffix : start <:+ held)
    (stable : contract.Stable thread start assertion) : contract.Stable thread held assertion :=
  fun before after holds beforeInv afterInv relied =>
    stable before after holds beforeInv afterInv (rely_of_suffix suffix relied)

theorem Stable.and {left right : D → Prop} (leftStable : contract.Stable thread held left)
    (rightStable : contract.Stable thread held right) :
    contract.Stable thread held fun data => left data ∧ right data :=
  fun before after both beforeInv afterInv relied =>
    ⟨leftStable before after both.1 beforeInv afterInv relied,
      rightStable before after both.2 beforeInv afterInv relied⟩

theorem stable_const (contract : Contract K T D) (thread : T) (held : List K) (fact : Prop) :
    contract.Stable thread held fun _ => fact :=
  fun _ _ holds _ _ _ => holds

theorem lockInv_stable {lock : K} (member : lock ∈ held) :
    contract.Stable thread held (contract.lockInv lock) :=
  fun _ _ holds _ _ relied => contract.relyFree member relied holds

/-- In a contract made of steps, what every single interfering step keeps is
stable. -/
theorem stable_ofSteps {inv : D → Prop} {steps : T → D → D → Prop} {outside : D → D → Prop}
    {rest dead : T → D → Prop} {allowed : D → D → Prop}
    {refl : ∀ thread data, steps thread data data} {assertion : D → Prop}
    (kept : ∀ before after, Interference inv steps outside thread before after →
      assertion before → assertion after) :
    (ofSteps inv steps outside rest dead allowed refl : Contract K T D).Stable thread held
      assertion := by
  rintro before after holds - - relied
  induction relied with
  | refl => exact holds
  | tail _ step inductionHypothesis => exact kept _ _ step inductionHypothesis

end Contract

/-! ## Footprints -/

/-- Every step on the data has the given shape for the locks then taken. The
program starts with the locks `held` and ends with `start`. -/
def Prog.Within (shape : List K → D → D → Prop) (start : List K) :
    List K → Prog K T D L α → Prop
  | held, .done _ => held = start
  | held, .raised => held = start
  | held, .acquire lock next => Within shape start (lock :: held) next
  | held, .release lock next =>
      ∃ below, held = lock :: below ∧ start <:+ below ∧ Within shape start below next
  | held, .join _ next => Within shape start held next
  | held, .act _ guard update next =>
      ∀ data, (guard data = true → shape held data (update data)) ∧
        Within shape start held (next data)

namespace Prog

variable {shape : List K → D → D → Prop} {start held : List K}

theorem within_bind {first : Prog K T D L α} {rest : α → Prog K T D L β}
    (within : first.Within shape start held)
    (remaining : ∀ value, (rest value).Within shape start start) :
    (first >>= rest).Within shape start held := by
  induction first generalizing held with
  | done value =>
      obtain rfl : held = start := within
      exact remaining value
  | raised => exact within
  | acquire lock next inductionHypothesis => exact inductionHypothesis within
  | release lock next inductionHypothesis =>
      obtain ⟨below, same, suffix, within⟩ := within
      exact ⟨below, same, suffix, inductionHypothesis within⟩
  | join thread next inductionHypothesis => exact inductionHypothesis within
  | act site guard update next inductionHypothesis =>
      exact fun data => ⟨(within data).1, inductionHypothesis data (within data).2⟩

theorem within_releasing {lock : K} {body : Prog K T D L α}
    (within : body.Within shape (lock :: start) held) :
    (body.releasing lock).Within shape start held := by
  induction body generalizing held with
  | done value => exact ⟨start, within, List.suffix_refl start, rfl⟩
  | raised => exact ⟨start, within, List.suffix_refl start, rfl⟩
  | acquire other next inductionHypothesis => exact inductionHypothesis within
  | release other next inductionHypothesis =>
      obtain ⟨below, same, suffix, within⟩ := within
      exact ⟨below, same, (List.suffix_cons lock start).trans suffix, inductionHypothesis within⟩
  | join thread next inductionHypothesis => exact inductionHypothesis within
  | act site guard update next inductionHypothesis =>
      exact fun data => ⟨(within data).1, inductionHypothesis data (within data).2⟩

theorem within_withLock {lock : K} {body : Prog K T D L α}
    (within : body.Within shape (lock :: start) (lock :: start)) :
    (withLock lock body).Within shape start start :=
  within_releasing within

@[simp] theorem within_done (value : α) :
    (Prog.done value : Prog K T D L α).Within shape start start := rfl

@[simp] theorem within_raised : (Prog.raised : Prog K T D L α).Within shape start start := rfl

@[simp] theorem within_joinThread (thread : T) :
    (joinThread thread : Prog K T D L Unit).Within shape start start := rfl

theorem within_await (reflexive : ∀ data, shape start data data) (site : L) (guard : D → Bool)
    (view : D → α) : (await site guard view : Prog K T D L α).Within shape start start :=
  fun data => ⟨fun _ => reflexive data, rfl⟩

theorem within_ite {condition : Prop} [Decidable condition] {yes no : Prog K T D L α}
    (withinYes : condition → yes.Within shape start held)
    (withinNo : ¬ condition → no.Within shape start held) :
    (if condition then yes else no).Within shape start held := by
  split
  · next holds => exact withinYes holds
  · next fails => exact withinNo fails

theorem within_forEach (body : γ → Prog K T D L Unit) (items : List γ)
    (each : ∀ item ∈ items, (body item).Within shape start start) :
    (forEach body items).Within shape start start := by
  induction items with
  | nil => rfl
  | cons item rest inductionHypothesis =>
      exact within_bind (each item (by simp))
        fun _ => inductionHypothesis fun other member => each other (by simp [member])

theorem Within.mono {wider : List K → D → D → Prop}
    (widens : ∀ held before after, shape held before after → wider held before after)
    {program : Prog K T D L α} (within : program.Within shape start held) :
    program.Within wider start held := by
  induction program generalizing held with
  | done value => exact within
  | raised => exact within
  | acquire lock next inductionHypothesis => exact inductionHypothesis within
  | release lock next inductionHypothesis =>
      obtain ⟨below, same, suffix, within⟩ := within
      exact ⟨below, same, suffix, inductionHypothesis within⟩
  | join thread next inductionHypothesis => exact inductionHypothesis within
  | act site guard update next inductionHypothesis =>
      exact fun data => ⟨fun enabled => widens _ _ _ ((within data).1 enabled),
        inductionHypothesis data (within data).2⟩

end Prog

/-! ## Triples -/

/-- From every state with the precondition the program is safe and ends in the
postcondition. -/
def Triple (contract : Contract K T D) (thread : T) (held : List K) (failed : D → Prop)
    (pre : D → Prop) (program : Prog K T D L α) (post : α → D → Prop) : Prop :=
  ∀ data, contract.inv data → pre data →
    program.Safe contract thread held post failed held data

namespace Triple

variable {contract : Contract K T D} {thread : T} {held : List K} {failed pre : D → Prop}
variable {post : α → D → Prop}

theorem done {value : α} (stable : contract.Stable thread held (post value))
    (implies : ∀ data, contract.inv data → pre data → post value data) :
    Triple contract thread held failed pre (.done value : Prog K T D L α) post :=
  fun data invariant holds => ⟨rfl, fun now relied later =>
    stable data now (implies data invariant holds) invariant later relied⟩

theorem raised (stable : contract.Stable thread held failed)
    (implies : ∀ data, contract.inv data → pre data → failed data) :
    Triple contract thread held failed pre (.raised : Prog K T D L α) post :=
  fun data invariant holds => ⟨rfl, fun now relied later =>
    stable data now (implies data invariant holds) invariant later relied⟩

theorem bind (middle : α → D → Prop) {first : Prog K T D L α} {rest : α → Prog K T D L β}
    {post : β → D → Prop} (firstTriple : Triple contract thread held failed pre first middle)
    (restTriple : ∀ value, Triple contract thread held failed (middle value) (rest value) post) :
    Triple contract thread held failed pre (first >>= rest) post := by
  intro data invariant holds
  refine Prog.safe_bind first rest post invariant ?_
  exact Prog.Safe.mono (fun value now nowInv => restTriple value now nowInv)
    (fun _ _ reached => reached) first (firstTriple data invariant holds)

/-- The rule of consequence. -/
theorem weaken {stronger : D → Prop} {weaker : α → D → Prop} {program : Prog K T D L α}
    (triple : Triple contract thread held failed pre program post)
    (before : ∀ data, contract.inv data → stronger data → pre data)
    (after : ∀ value data, contract.inv data → post value data → weaker value data) :
    Triple contract thread held failed stronger program weaker :=
  fun data invariant holds => Prog.Safe.mono after (fun _ _ reached => reached) program
    (triple data invariant (before data invariant holds))

/-- Use a pure part of the precondition. -/
theorem of_pure {fact : Prop} {program : Prog K T D L α}
    (triple : fact → Triple contract thread held failed pre program post) :
    Triple contract thread held failed (fun data => fact ∧ pre data) program post :=
  fun data invariant holds => triple holds.1 data invariant holds.2

theorem ite {condition : Prop} [Decidable condition] {yes no : Prog K T D L α}
    (yesTriple : condition → Triple contract thread held failed pre yes post)
    (noTriple : ¬ condition → Triple contract thread held failed pre no post) :
    Triple contract thread held failed pre (if condition then yes else no) post := by
  split
  · next holds => exact yesTriple holds
  · next fails => exact noTriple fails

/-- One step on the data. -/
theorem act (middle : D → D → Prop) {site : L} {guard : D → Bool} {update : D → D}
    {next : D → Prog K T D L α} (stable : contract.Stable thread held pre)
    (ok : ∀ data, contract.inv data → pre data → guard data = true →
      contract.allowed data (update data) →
      contract.inv (update data) ∧ contract.guar thread held data (update data) ∧
        middle data (update data))
    (rest : ∀ data, Triple contract thread held failed (middle data) (next data) post) :
    Triple contract thread held failed pre (.act site guard update next) post := by
  intro data invariant holds now relied later enabled admitted
  obtain ⟨nowInv, promise, reached⟩ :=
    ok now later (stable data now holds invariant later relied) enabled admitted
  exact ⟨⟨nowInv, promise⟩, rest now _ nowInv reached⟩

/-- A read, or a wait for `guard`. -/
theorem await {site : L} {guard : D → Bool} {view : D → α}
    (stable : contract.Stable thread held pre)
    (stableAfter : ∀ value, contract.Stable thread held (post value))
    (seen : ∀ data, contract.inv data → pre data → guard data = true → post (view data) data) :
    Triple contract thread held failed pre (Prog.await site guard view) post := by
  refine act (fun data => post (view data)) stable ?_
    fun data => done (stableAfter _) fun _ _ holds => holds
  exact fun data invariant holds enabled _ =>
    ⟨invariant, contract.guarRefl thread held data, seen data invariant holds enabled⟩

theorem modify {site : L} {update : D → D} {post : D → Prop}
    (stable : contract.Stable thread held pre) (stableAfter : contract.Stable thread held post)
    (ok : ∀ data, contract.inv data → pre data → contract.allowed data (update data) →
      contract.inv (update data) ∧ contract.guar thread held data (update data) ∧
        post (update data)) :
    Triple contract thread held failed pre (Prog.modify site update) fun _ => post :=
  act (fun _ => post) stable
    (fun data invariant holds _ admitted => ok data invariant holds admitted)
    fun _ => done stableAfter fun _ _ holds => holds

/-- Waiting for a thread gives what that thread leaves behind. -/
theorem joinThread {other : T} {post : D → Prop} (stable : contract.Stable thread held pre)
    (stableAfter : contract.Stable thread held post)
    (seen : ∀ data, contract.inv data → pre data →
      (contract.rest other data ∨ contract.dead other data) → post data) :
    Triple contract thread held failed pre (Prog.joinThread other : Prog K T D L Unit)
      fun _ => post := by
  intro data invariant holds now relied later finished
  refine ⟨rfl, fun last relied' lastInv => ?_⟩
  exact stableAfter now last (seen now later (stable data now holds invariant later relied) finished)
    later lastInv relied'

/-- A lock block: its body runs with one lock more, finds what holds while the
lock is free, and leaves it so. -/
theorem withLock {lock : K} {body : Prog K T D L α} (stable : contract.Stable thread held pre)
    (bodyTriple : Triple contract thread (lock :: held)
      (fun data => contract.lockInv lock data ∧ failed data)
      (fun data => contract.lockInv lock data ∧ pre data) body
      fun value data => contract.lockInv lock data ∧ post value data)
    (stableAfter : ∀ value, contract.Stable thread held (post value))
    (stableFailed : contract.Stable thread held failed) :
    Triple contract thread held failed pre (Prog.withLock lock body) post := by
  intro data invariant holds now relied later free
  refine Prog.safe_releasing lock body post later ?_
  refine Prog.Safe.mono (fun value last lastInv reached => ?_) (fun last lastInv reached => ?_)
    body (bodyTriple now later ⟨free, stable data now holds invariant later relied⟩)
  · exact ⟨reached.1, rfl, fun final relied' finalInv =>
      stableAfter value last final reached.2 lastInv finalInv relied'⟩
  · exact ⟨reached.1, rfl, fun final relied' finalInv =>
      stableFailed last final reached.2 lastInv finalInv relied'⟩

/-- A lock block on a lock that protects no assertion. -/
theorem withBareLock {lock : K} {body : Prog K T D L α}
    (bare : ∀ data, contract.lockInv lock data) (stable : contract.Stable thread held pre)
    (bodyTriple : Triple contract thread (lock :: held) failed pre body post)
    (stableAfter : ∀ value, contract.Stable thread held (post value))
    (stableFailed : contract.Stable thread held failed) :
    Triple contract thread held failed pre (Prog.withLock lock body) post := by
  refine withLock stable (fun data invariant holds => ?_) stableAfter stableFailed
  exact Prog.Safe.mono (fun _ now _ reached => ⟨bare now, reached⟩)
    (fun now _ reached => ⟨bare now, reached⟩) body (bodyTriple data invariant holds.2)

/-- A loop over a list keeps an assertion that every round keeps. -/
theorem forEach {body : γ → Prog K T D L Unit} {items : List γ}
    (stable : contract.Stable thread held pre)
    (each : ∀ item ∈ items, Triple contract thread held failed pre (body item) fun _ => pre) :
    Triple contract thread held failed pre (Prog.forEach body items) fun _ => pre := by
  induction items with
  | nil => exact done stable fun _ _ holds => holds
  | cons item rest inductionHypothesis =>
      exact bind _ (each item (by simp)) fun _ =>
        inductionHypothesis fun other member => each other (by simp [member])

/-- A program whose steps all have a known shape keeps every assertion that
steps of this shape and the other threads keep, if these steps leave alone what
belongs to the locks. -/
theorem frame {shape : List K → D → D → Prop} {program : Prog K T D L α}
    (within : program.Within shape held held) (stable : contract.Stable thread held pre)
    (ok : ∀ now data after, held <:+ now → contract.inv data → pre data → shape now data after →
      contract.allowed data after →
      contract.inv after ∧ contract.guar thread now data after ∧ pre after)
    (keeps : ∀ now data after lock, shape now data after → contract.lockInv lock data →
      contract.lockInv lock after)
    (failing : ∀ data, contract.inv data → pre data → failed data) :
    Triple contract thread held failed pre program fun _ => pre := by
  -- Besides `pre`, what belongs to the locks taken since the start is carried along.
  suffices general : ∀ extra now, now = extra ++ held → program.Within shape held now → ∀ data,
      contract.inv data → pre data → (∀ lock ∈ extra, contract.lockInv lock data) →
        program.Safe contract thread held (fun _ => pre) failed now data from
    fun data invariant holds =>
      general [] held rfl within data invariant holds fun _ member => by simp at member
  clear within
  have rely_free : ∀ {extra now before after}, now = extra ++ held →
      contract.rely thread now before after →
      (∀ lock ∈ extra, contract.lockInv lock before) →
      ∀ lock ∈ extra, contract.lockInv lock after :=
    fun split relied free lock member =>
      contract.relyFree (by simp [split, member]) relied (free lock member)
  induction program with
  | done value =>
      intro extra now split same data invariant holds _
      exact ⟨same, fun later relied laterInv =>
        stable.of_suffix ⟨extra, split.symm⟩ data later holds invariant laterInv relied⟩
  | raised =>
      intro extra now split same data invariant holds _
      exact ⟨same, fun later relied laterInv => failing later laterInv
        (stable.of_suffix ⟨extra, split.symm⟩ data later holds invariant laterInv relied)⟩
  | acquire lock next inductionHypothesis =>
      intro extra now split within data invariant holds free later relied laterInv isFree
      refine inductionHypothesis (lock :: extra) _ (by simp [split]) within later laterInv
        (stable.of_suffix ⟨extra, split.symm⟩ data later holds invariant laterInv relied)
        fun other member => ?_
      rcases List.mem_cons.mp member with rfl | old
      · exact isFree
      · exact rely_free split relied free other old
  | release lock next inductionHypothesis =>
      intro extra now split within data invariant holds free
      obtain ⟨below, same, ⟨rest, suffix⟩, within⟩ := within
      obtain rfl : extra = lock :: rest := by
        rw [split, ← suffix, ← List.cons_append] at same
        exact List.append_cancel_right same
      exact ⟨below, same, fun later relied laterInv =>
        ⟨rely_free split relied free lock (by simp),
          inductionHypothesis rest below suffix.symm within later laterInv
            (stable.of_suffix ⟨_, split.symm⟩ data later holds invariant laterInv relied)
            fun other member => rely_free split relied free other (by simp [member])⟩⟩
  | join other next inductionHypothesis =>
      intro extra now split within data invariant holds free later relied laterInv _
      exact inductionHypothesis extra now split within later laterInv
        (stable.of_suffix ⟨extra, split.symm⟩ data later holds invariant laterInv relied)
        (rely_free split relied free)
  | act site guard update next inductionHypothesis =>
      intro extra now split within data invariant holds free later relied laterInv enabled admitted
      have step := (within later).1 enabled
      obtain ⟨afterInv, promise, kept⟩ := ok now later _ ⟨extra, split.symm⟩ laterInv
        (stable.of_suffix ⟨extra, split.symm⟩ data later holds invariant laterInv relied)
        step admitted
      exact ⟨⟨afterInv, promise⟩,
        inductionHypothesis later extra now split (within later).2 _ afterInv kept
          fun lock member =>
            keeps now later _ lock step (rely_free split relied free lock member)⟩

end Triple

end NaiveBTSniffing.Library.Interleaving
