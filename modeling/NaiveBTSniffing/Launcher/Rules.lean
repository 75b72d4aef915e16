import NaiveBTSniffing.Launcher.Footprint
import NaiveBTSniffing.Library.Interleaving.Debt

/-!
Contract: the proof rules for the steps that the launcher's programs are made of.

They are the rules of `Library.Interleaving.Triple` at the launcher's reads,
updates and dictionary lookups, and one rule for a block under the lock of a
tracked dictionary.
-/

namespace NaiveBTSniffing.Launcher

open NaiveBTSniffing.Library
open NaiveBTSniffing.Library.Interleaving

/-- Terms on which the launcher's threads share the data. -/
abbrev LauncherContract : Type := Contract Lock ThreadId Data

namespace Rule

variable {α : Type} {contract : LauncherContract} {thread : ThreadId} {held : List Lock}
variable {failed pre : Data → Prop} {post : α → Data → Prop}

theorem look {view : Data → α} (stable : contract.Stable thread held pre)
    (stableAfter : ∀ value, contract.Stable thread held (post value))
    (seen : ∀ data, contract.inv data → pre data → post (view data) data) :
    Triple contract thread held failed pre (Code.look view) post :=
  Triple.await stable stableAfter fun data invariant holds _ => seen data invariant holds

theorem change {update : Data → Data} {post : Data → Prop}
    (stable : contract.Stable thread held pre) (stableAfter : contract.Stable thread held post)
    (ok : ∀ data, contract.inv data → pre data → contract.allowed data (update data) →
      contract.inv (update data) ∧ contract.guar thread held data (update data) ∧
        post (update data)) :
    Triple contract thread held failed pre (Code.change update) fun _ => post :=
  Triple.modify stable stableAfter ok

theorem exchange {update : Data → Data} {view : Data → α}
    (stable : contract.Stable thread held pre)
    (stableAfter : ∀ value, contract.Stable thread held (post value))
    (ok : ∀ data, contract.inv data → pre data → contract.allowed data (update data) →
      contract.inv (update data) ∧ contract.guar thread held data (update data) ∧
        post (view data) (update data)) :
    Triple contract thread held failed pre (Code.exchange update view) post :=
  Triple.act (fun data => post (view data)) stable
    (fun data invariant holds _ admitted => ok data invariant holds admitted)
    fun _ => Triple.done (stableAfter _) fun _ _ holds => holds

/-- A lookup that may raise: `post` when it finds a value, `failed` when not. -/
theorem demand {update : Data → Data} {view : Data → Option α}
    (stable : contract.Stable thread held pre)
    (stableAfter : ∀ value, contract.Stable thread held (post value))
    (stableFailed : contract.Stable thread held failed)
    (ok : ∀ data, contract.inv data → pre data → contract.allowed data (update data) →
      contract.inv (update data) ∧ contract.guar thread held data (update data) ∧
        (∀ value, view data = some value → post value (update data)) ∧
        (view data = none → failed (update data))) :
    Triple contract thread held failed pre (Code.demand update view) post := by
  refine Triple.act (fun data now => (∀ value, view data = some value → post value now) ∧
    (view data = none → failed now)) stable
    (fun data invariant holds _ admitted => ok data invariant holds admitted) fun data => ?_
  cases answer : view data with
  | none => exact Triple.raised stableFailed fun _ _ holds => holds.2 rfl
  | some value => exact Triple.done (stableAfter value) fun _ _ holds => holds.1 value rfl

/-- A block under the lock of a tracked dictionary. `inside` is what the block
knows once it has found the address. -/
theorem whenTracked {radio : Radio} {bdaddr : Text} {body : Code Unit} {inside post : Data → Prop}
    (stable : contract.Stable thread held pre)
    (stableInside : contract.Stable thread (.bdaddrs radio :: held) inside)
    (stableAfter : contract.Stable thread held post)
    (stableFailed : contract.Stable thread held failed)
    (enter : ∀ data, contract.inv data → contract.lockInv (.bdaddrs radio) data → pre data →
      bdaddr ∈ data.bdaddrs radio → inside data)
    (skip : ∀ data, contract.inv data → pre data → post data)
    (bodyTriple : Triple contract thread (.bdaddrs radio :: held)
      (fun data => contract.lockInv (.bdaddrs radio) data ∧ failed data) inside body
      fun _ data => contract.lockInv (.bdaddrs radio) data ∧ post data) :
    Triple contract thread held failed pre (Launcher.whenTracked radio bdaddr body)
      fun _ => post := by
  have suffix : held <:+ Lock.bdaddrs radio :: held := List.suffix_cons _ _
  have free : contract.Stable thread (.bdaddrs radio :: held)
      (contract.lockInv (.bdaddrs radio)) := Contract.lockInv_stable (by simp)
  have skipped := free.and (stableAfter.of_suffix suffix)
  refine Triple.withLock stable ?_ (fun _ => stableAfter) stableFailed
  refine Triple.bind (fun found data => (found = true → inside data) ∧
    (found = false → contract.lockInv (.bdaddrs radio) data ∧ post data))
    (look (free.and (stable.of_suffix suffix)) (fun found => ?_) ?_) ?_
  · exact Contract.Stable.and
      (fun before after holds beforeInv afterInv relied seen =>
        stableInside before after (holds seen) beforeInv afterInv relied)
      fun before after holds beforeInv afterInv relied seen =>
        skipped before after (holds seen) beforeInv afterInv relied
  · exact fun data invariant holds =>
      ⟨fun found => enter data invariant holds.1 holds.2 (by simpa using found),
        fun _ => ⟨holds.1, skip data invariant holds.2⟩⟩
  · intro found
    cases found with
    | true => exact bodyTriple.weaken (fun _ _ holds => holds.1 rfl) fun _ _ _ holds => holds
    | false => exact Triple.done skipped fun _ _ holds => holds.2 rfl

/-- The same for a lock that protects no assertion. -/
theorem whenTrackedBare {radio : Radio} {bdaddr : Text} {body : Code Unit}
    {inside post : Data → Prop} (bare : ∀ data, contract.lockInv (.bdaddrs radio) data)
    (stable : contract.Stable thread held pre)
    (stableInside : contract.Stable thread (.bdaddrs radio :: held) inside)
    (stableAfter : contract.Stable thread held post)
    (stableFailed : contract.Stable thread held failed)
    (enter : ∀ data, contract.inv data → pre data → bdaddr ∈ data.bdaddrs radio → inside data)
    (skip : ∀ data, contract.inv data → pre data → post data)
    (bodyTriple : Triple contract thread (.bdaddrs radio :: held) failed inside body
      fun _ => post) :
    Triple contract thread held failed pre (Launcher.whenTracked radio bdaddr body)
      fun _ => post := by
  refine whenTracked stable stableInside stableAfter stableFailed
    (fun data invariant _ holds member => enter data invariant holds member) skip ?_
  exact fun data invariant holds => Prog.Safe.mono (fun _ now _ reached => ⟨bare now, reached⟩)
    (fun now _ reached => ⟨bare now, reached⟩) _ (bodyTriple data invariant holds)

/-- A pass of a worker keeps an assertion. `fits` is what is known of every
address in the sorted list, `chosen` what the decision not to skip an address
tells. -/
theorem threadFunction {radio : Radio} {settings : Settings} (fits : Text → Prop)
    (chosen : Text → Data → Prop) (stable : contract.Stable (.worker radio) [] pre)
    (sort : Triple contract (.worker radio) [] failed pre (sortedBdaddrs radio)
      fun sorted data => (∀ bdaddr ∈ sorted, fits bdaddr) ∧ pre data)
    (loop : ∀ {bdaddr : Text} {program : Code Unit}, fits bdaddr →
      program.Within (LoopStep radio bdaddr) [] [] →
      Triple contract (.worker radio) [] failed pre program fun _ => pre)
    (decide : ∀ bdaddr, fits bdaddr → Triple contract (.worker radio) [] failed pre
      (shouldSkip settings radio bdaddr)
      fun skipped data => (skipped = false → chosen bdaddr data) ∧ pre data)
    (collect : ∀ bdaddr, fits bdaddr → Triple contract (.worker radio) [] failed
      (fun data => chosen bdaddr data ∧ pre data)
      (collectBdaddr radio (stagesOf settings radio) bdaddr) fun _ => pre)
    (turn : Triple contract (.worker radio) [] failed pre
      (reprioritizeFirst radio (reprioritize .ble radio)) fun _ => pre) :
    Triple contract (.worker radio) [] failed pre (Launcher.threadFunction settings radio)
      fun _ => pre := by
  have visited : ∀ total pending, (∀ bdaddr ∈ pending, fits bdaddr) → ∀ skipCount,
      Triple contract (.worker radio) [] failed pre
        (visit settings radio (stagesOf settings radio) (reprioritize .ble radio) total skipCount
          pending) fun _ => pre := by
    intro total pending
    induction pending with
    | nil => exact fun _ _ => Triple.done stable fun _ _ holds => holds
    | cons bdaddr rest inductionHypothesis =>
        intro all skipCount
        have here := all bdaddr (by simp)
        have later := inductionHypothesis fun other member => all other (by simp [member])
        refine Triple.bind _ (loop here (within_change fun _ => .next)) fun _ =>
          Triple.bind _ (decide bdaddr here) fun skipped => Triple.ite (fun _ => ?_)
            fun visited => Triple.bind _ ((collect bdaddr here).weaken
              (fun _ _ holds => ⟨holds.1 (by simpa using visited), holds.2⟩)
              fun _ _ _ holds => holds) fun _ => later _
        have skip : Triple contract (.worker radio) [] failed pre
            (skipBdaddr radio (reprioritize .ble radio) bdaddr (skipCount + 1 == total))
            fun _ => pre :=
          Triple.bind _
            (loop here (lockedDeleteFromDict_within.mono fun _ _ _ step => .delete step)) fun _ =>
              Triple.ite (fun _ => turn) fun _ => Triple.done stable fun _ _ holds => holds
        exact Triple.bind _
          (skip.weaken (fun _ _ holds => holds.2) fun _ _ _ holds => holds) fun _ => later _
  rw [threadFunction_eq]
  exact Triple.bind _ sort fun sorted => Triple.of_pure fun all =>
    Triple.bind _ (visited _ _ all _) fun _ =>
      Triple.await stable (fun _ => stable) fun _ _ holds _ => holds

/-! ## Steps of a thread in debt -/

section Debts

variable {debt : Debt Data Site} {owed : α → Data → Prop} {data : Data}

/-- One update and its answer. -/
theorem owes_exchange {update : Data → Data} {view : Data → α} (passes : debt.passes .step)
    (seen : ∀ now later, debt.rely data now → ¬ debt.settled now → debt.rely (update now) later →
      owed (view now) later) : (Code.exchange update view).Owes debt owed data :=
  ⟨passes, fun now relied unsettled _ => .inr fun later further =>
    seen now later relied unsettled further⟩

/-- A lookup that finds something, or an update that settles the debt. -/
theorem owes_demand {update : Data → Data} {view : Data → Option α} (passes : debt.passes .step)
    (found : ∀ now, debt.rely data now → ¬ debt.settled now →
      debt.settled (update now) ∨ ∃ value, view now = some value ∧
        ∀ later, debt.rely (update now) later → owed value later) :
    (Code.demand update view).Owes debt owed data := by
  refine ⟨passes, fun now relied unsettled _ => ?_⟩
  apply (found now relied unsettled).imp id
  rintro ⟨value, seen, lasting⟩
  simp only [seen]
  exact lasting

end Debts

end Rule

/-! ## Outside events -/

/-- What an outside event can do. -/
theorem environment_cases {event : Outside} {before after : Data}
    (happened : environment event before = some after) :
    (∃ number line process file, before.processes[number]? = some process ∧
        process.infoType.logFile = some file ∧ process.status = .running ∧
        after = before.appendLog file (.output number line)) ∨
      (∃ number process changed, before.processes[number]? = some process ∧
        ((∃ retCode, process.exit retCode = some changed) ∨ process.returnWait = some changed ∨
          process.answerWait .timeoutExpired = some changed) ∧
        after = before.modifyProcess number fun _ => changed) ∨
      ∃ popenFails startFails openFails,
        after = { before with popenFails, startFails, openFails } := by
  cases event with
  | processWrites number line =>
      simp only [environment, Option.bind_eq_bind, Option.bind_eq_some_iff] at happened
      obtain ⟨process, found, file, logged, changed⟩ := happened
      split at changed
      · next running =>
          exact .inl ⟨number, line, process, file, found, logged, running,
            (Option.some.inj changed).symm⟩
      · simp at changed
  | popen _ | threadStart _ | openFile _ =>
      exact .inr (.inr ⟨_, _, _, (Option.some.inj happened).symm⟩)
  | processExits number retCode =>
      simp only [environment, onProcess, Option.bind_eq_bind, Option.bind_eq_some_iff] at happened
      obtain ⟨process, found, changed, exited, same⟩ := happened
      exact .inr (.inl ⟨number, process, changed, found, .inl ⟨retCode, exited⟩,
        (Option.some.inj same).symm⟩)
  | waitReturns number =>
      simp only [environment, onProcess, Option.bind_eq_bind, Option.bind_eq_some_iff] at happened
      obtain ⟨process, found, changed, returned, same⟩ := happened
      exact .inr (.inl ⟨number, process, changed, found, .inr (.inl returned),
        (Option.some.inj same).symm⟩)
  | waitTimesOut number =>
      simp only [environment, onProcess, Option.bind_eq_bind, Option.bind_eq_some_iff] at happened
      obtain ⟨process, found, changed, expired, same⟩ := happened
      exact .inr (.inl ⟨number, process, changed, found, .inr (.inr expired),
        (Option.some.inj same).symm⟩)

/-- What becomes of a process when it ends by itself or its `wait` is answered. -/
theorem changed_cases {process changed : Process}
    (answered : (∃ retCode, process.exit retCode = some changed) ∨
      process.returnWait = some changed ∨ process.answerWait .timeoutExpired = some changed) :
    (∃ retCode, process.status = .running ∧ changed = { process with status := .exited retCode }) ∨
      (process.threadStarted = true ∧ process.waitResult = none ∧ ∃ answer,
        (∀ retCode, answer = .returned retCode → process.status = .exited retCode) ∧
        changed = { process with waitResult := some answer }) := by
  have answers : ∀ {answer}, process.answerWait answer = some changed →
      process.threadStarted = true ∧ process.waitResult = none ∧
        changed = { process with waitResult := some answer } := by
    intro answer answered
    unfold Process.answerWait at answered
    split at answered
    · next waiting =>
        obtain ⟨started, unanswered⟩ := Bool.and_eq_true_iff.mp waiting
        exact ⟨started, Option.isNone_iff_eq_none.mp unanswered, (Option.some.inj answered).symm⟩
    · simp at answered
  rcases answered with ⟨retCode, exits⟩ | returns | expires
  · unfold Process.exit at exits
    split at exits
    · next running => exact .inl ⟨retCode, running, (Option.some.inj exits).symm⟩
    · simp at exits
  · unfold Process.returnWait at returns
    split at returns
    · next retCode exited =>
        obtain ⟨started, unanswered, changes⟩ := answers returns
        refine .inr ⟨started, unanswered, .returned retCode, fun other same => ?_, changes⟩
        obtain rfl := WaitResult.returned.inj same
        exact exited
    · simp at returns
  · obtain ⟨started, unanswered, changes⟩ := answers expires
    exact .inr ⟨started, unanswered, .timeoutExpired, fun _ same => by simp at same, changes⟩

/-- An outside event touches no dictionary and no ghost record. -/
theorem environment_frame {event : Outside} {before after : Data}
    (happened : environment event before = some after) :
    ∃ logs processes popenFails startFails openFails,
      after = { before with logs, processes, popenFails, startFails, openFails } := by
  rcases environment_cases happened with ⟨_, _, _, _, _, _, _, rfl⟩ | ⟨_, _, _, _, _, rfl⟩ |
    ⟨_, _, _, rfl⟩ <;> exact ⟨_, _, _, _, _, rfl⟩

end NaiveBTSniffing.Launcher
