import NaiveBTSniffing.Library.Interleaving.Attaining
import NaiveBTSniffing.Launcher.Transfers
import NaiveBTSniffing.Launcher.Waits

/-!
Contract: the handlers of a radio's two tools, when both of them succeed for one
address.

Each handler writes its own success entry under its own lock and then reads both
entries, the other one without its lock. `attains_run` is the argument about one
handler alone: it comes to a state in which its entry is written and, if all entries
of the radio are, the address is not tracked. Of two handlers, the later one comes to
that state with all entries written (`removed_by_handlers`).

Owns what lasts of the processes and of the success entries. Does not own when a
worker selects an address again.
-/

namespace NaiveBTSniffing.Launcher

open NaiveBTSniffing.Library
open NaiveBTSniffing.Library.Interleaving
open NaiveBTSniffing.Library.Interleaving.Prog

/-! ## What lasts -/

/-- Every tool of the radio has succeeded for the address. -/
def AllSucceeded (radio : Radio) (bdaddr : Text) (data : Data) : Prop :=
  ∀ infoType, infoType.radio = radio → bdaddr ∈ data.successBdaddrs infoType

/-- A process whose `wait` has returned a code has exited. -/
def Process.Waited (process : Process) : Prop :=
  ∀ retCode, process.waitResult = some (.returned retCode) → process.status ≠ .running

/-- What becomes of a process. -/
structure Process.Continues (before after : Process) : Prop where
  bdaddr : after.bdaddr = before.bdaddr
  infoType : after.infoType = before.infoType
  waitResult : ∀ answer, before.waitResult = some answer → after.waitResult = some answer
  waited : before.Waited → after.Waited

theorem Process.Continues.refl (process : Process) : process.Continues process :=
  ⟨rfl, rfl, fun _ same => same, id⟩

theorem Process.Continues.trans {first second third : Process} (early : first.Continues second)
    (late : second.Continues third) : first.Continues third :=
  ⟨late.bdaddr.trans early.bdaddr, late.infoType.trans early.infoType,
    fun answer same => late.waitResult answer (early.waitResult answer same),
    fun waited => late.waited (early.waited waited)⟩

theorem Process.continues_kill (process : Process) : process.Continues process.kill :=
  ⟨rfl, rfl, fun _ same => same, fun _ _ _ => process.kill_status⟩

/-- One step on the list of processes. -/
inductive ProcessesStep (before after : List Process) : Prop where
  | same (unchanged : after = before)
  | changes {number : Nat} {update : Process → Process}
      (continues : ∀ process, before[number]? = some process → process.Continues (update process))
      (changed : after = before.modify number update)
  | launches {process : Process} (fresh : process.waitResult = none)
      (launched : after = before ++ [process])

namespace ProcessesStep

variable {before after : List Process}

theorem continues (step : ProcessesStep before after) {number : Nat} {process : Process}
    (found : before[number]? = some process) :
    ∃ later, after[number]? = some later ∧ process.Continues later := by
  cases step with
  | same unchanged => exact ⟨process, by rw [unchanged, found], .refl process⟩
  | @changes changedNumber update continues changed =>
      rw [changed, List.getElem?_modify]
      by_cases same : changedNumber = number
      · subst same
        exact ⟨update process, by simp [found], continues process found⟩
      · exact ⟨process, by simp [same, found], .refl process⟩
  | launches _ launched =>
      have within := (List.getElem?_eq_some_iff.mp found).1
      exact ⟨process, by rw [launched, List.getElem?_append_left within, found], .refl process⟩

theorem waited (step : ProcessesStep before after)
    (holds : ∀ process ∈ before, process.Waited) : ∀ process ∈ after, process.Waited := by
  cases step with
  | same unchanged => rwa [unchanged]
  | @changes number update continues changed =>
      intro process member
      rw [changed] at member
      obtain ⟨place, found⟩ := List.mem_iff_getElem?.mp member
      rw [List.getElem?_modify] at found
      obtain ⟨earlier, there, same⟩ := Option.map_eq_some_iff.mp found
      have waited := holds earlier (List.mem_of_getElem? there)
      by_cases here : number = place
      · subst here
        rw [← same]
        simpa using (continues earlier there).waited waited
      · simp only [here, if_false] at same
        rwa [← same]
  | @launches process fresh launched =>
      intro other member
      rw [launched] at member
      rcases List.mem_append.mp member with old | new
      · exact holds other old
      · obtain rfl := List.mem_singleton.mp new
        exact fun retCode returned => by simp [fresh] at returned

end ProcessesStep

/-- Success entries and processes last. -/
structure Lasting (before after : Data) : Prop where
  succeeded : ∀ infoType bdaddr, bdaddr ∈ before.successBdaddrs infoType →
    bdaddr ∈ after.successBdaddrs infoType
  processes : ∀ {number : Nat} {process : Process}, before.processes[number]? = some process →
    ∃ later, after.processes[number]? = some later ∧ process.Continues later

namespace Lasting

variable {first second third : Data}

theorem refl (data : Data) : Lasting data data :=
  ⟨fun _ _ member => member, fun {_ process} found => ⟨process, found, .refl process⟩⟩

theorem trans (early : Lasting first second) (late : Lasting second third) : Lasting first third where
  succeeded := fun infoType bdaddr member =>
    late.succeeded infoType bdaddr (early.succeeded infoType bdaddr member)
  processes := fun found => by
    obtain ⟨middle, there, sooner⟩ := early.processes found
    obtain ⟨last, still, later⟩ := late.processes there
    exact ⟨last, still, sooner.trans later⟩

theorem all {radio : Radio} {bdaddr : Text} (lasting : Lasting first second)
    (all : AllSucceeded radio bdaddr first) : AllSucceeded radio bdaddr second :=
  fun infoType own => lasting.succeeded infoType bdaddr (all infoType own)

end Lasting

section Steps

variable {settings : Settings} {before after : Data}

/-- What one step does to the processes and to the success entries. -/
private abbrev Outcome (before after : Data) : Prop :=
  ProcessesStep before.processes after.processes ∧
    ∀ infoType bdaddr, bdaddr ∈ before.successBdaddrs infoType →
      bdaddr ∈ after.successBdaddrs infoType

private theorem outcome_same (processes : after.processes = before.processes)
    (success : after.successBdaddrs = before.successBdaddrs) : Outcome before after :=
  ⟨.same processes, fun _ _ member => by rwa [success]⟩

private theorem outcome_delete {radio : Radio} {bdaddr : Text} {held : List Lock}
    (step : DeleteStep radio bdaddr held before after) : Outcome before after := by
  cases step <;> exact outcome_same rfl rfl

private theorem outcome_launch {infoType : InfoType} {bdaddr : Text}
    (step : LaunchStep infoType bdaddr before after) : Outcome before after := by
  cases step with
  | launch => exact ⟨.launches rfl rfl, fun _ _ member => member⟩
  | startThread =>
      have continues : ∀ process : Process,
          process.Continues { process with threadStarted := true } :=
        fun _ => ⟨rfl, rfl, fun _ same => same, id⟩
      exact ⟨.changes (fun process _ => continues process) rfl, fun _ _ member => member⟩
  | _ => exact outcome_same rfl rfl

private theorem outcome_worker {radio : Radio} {held : List Lock}
    (step : WorkerStep radio held before after) : Outcome before after := by
  cases step with
  | sort step => cases step <;> exact outcome_same rfl rfl
  | loop step =>
      cases step with
      | delete step => exact outcome_delete step
      | _ => exact outcome_same rfl rfl
  | collect step =>
      cases step with
      | stage _ step =>
          cases step with
          | delete step => exact outcome_delete step
          | attempt => exact outcome_same rfl rfl
          | launch step => exact outcome_launch step
      | _ => exact outcome_same rfl rfl
  | _ => exact outcome_same rfl rfl

private theorem outcome_tool {number : Nat} {process : Process} {held : List Lock}
    (step : ToolStep number process held before after) : Outcome before after := by
  cases step with
  | kill =>
      exact ⟨.changes (fun process _ => process.continues_kill) rfl, fun _ _ member => member⟩
  | succeed =>
      apply And.intro (.same rfl)
      intro infoType bdaddr member
      by_cases same : infoType = process.infoType
      · subst same
        simp [member]
      · simpa [same] using member
  | delete step => exact outcome_delete step
  | outcome => exact outcome_same rfl rfl

/-- An answer of `wait` or an end of the process itself. -/
private theorem continues_of_answer {process changed : Process}
    (answered : (∃ retCode, process.exit retCode = some changed) ∨
      process.returnWait = some changed ∨ process.answerWait .timeoutExpired = some changed) :
    process.Continues changed := by
  rcases changed_cases answered with ⟨retCode, _, rfl⟩ | ⟨_, unanswered, answer, exited, rfl⟩
  · exact ⟨rfl, rfl, fun _ same => same, fun _ _ _ => by simp⟩
  · refine ⟨rfl, rfl, fun _ same => by simp [unanswered] at same, fun _ retCode same => ?_⟩
    show process.status ≠ .running
    simp [exited retCode (Option.some.inj same)]

private theorem outcome_of_anyStep (step : AnyStep settings before after) : Outcome before after := by
  rcases step with ⟨thread, held, step⟩ | ⟨event, happened⟩
  · cases thread with
    | monitor =>
        rcases step with ⟨line, rfl⟩ | ⟨asked, step⟩
        · exact outcome_same rfl rfl
        · cases step <;> exact outcome_same rfl rfl
    | worker radio => exact outcome_worker step.1
    | tool number =>
        obtain ⟨process, step⟩ := step
        exact outcome_tool step
  · rcases environment_cases happened with ⟨_, _, _, _, _, _, _, rfl⟩ |
      ⟨number, process, changed, found, answered, rfl⟩ | ⟨_, _, _, rfl⟩
    · exact outcome_same rfl rfl
    · have continues : ∀ other, before.processes[number]? = some other → other.Continues changed := by
        intro other there
        obtain rfl : process = other := Option.some.inj (found.symm.trans there)
        exact continues_of_answer answered
      exact ⟨.changes continues rfl, fun _ _ member => member⟩
    · exact outcome_same rfl rfl

theorem lasting_of_anyStep (step : AnyStep settings before after) : Lasting before after :=
  ⟨(outcome_of_anyStep step).2, fun found => (outcome_of_anyStep step).1.continues found⟩

theorem lasting_of_worker {radio : Radio} {held : List Lock}
    (step : WorkerStep radio held before after) : Lasting before after :=
  ⟨(outcome_worker step).2, fun found => (outcome_worker step).1.continues found⟩

theorem waited_of_reachable {config : Config Lock ThreadId Data Site}
    (reachable : (launcher settings).Reachable initial config) :
    ∀ process ∈ config.shared.data.processes, process.Waited := by
  induction reachable with
  | refl => exact fun _ member => absurd member List.not_mem_nil
  | tail earlier stepped inductionHypothesis =>
      exact (outcome_of_anyStep (anyStep_of_steps earlier stepped.1)).1.waited inductionHypothesis

end Steps

/-! ## One handler -/

/-- A launched process of this kind, for this address, whose `wait` has returned 0. -/
def ToolSucceeded (infoType : InfoType) (bdaddr : Text) (number : Nat) (data : Data) : Prop :=
  ∃ process, data.processes[number]? = some process ∧ process.infoType = infoType ∧
    process.bdaddr = bdaddr ∧ process.waitResult = some (.returned 0)

instance (infoType : InfoType) (bdaddr : Text) (number : Nat) :
    DecidablePred (ToolSucceeded infoType bdaddr number) := fun data =>
  decidable_of_iff ((data.processes[number]?.any fun process =>
      decide (process.infoType = infoType ∧ process.bdaddr = bdaddr ∧
        process.waitResult = some (.returned 0))) = true)
    ((Option.any_eq_true _ _).trans (exists_congr fun _ => and_congr_right fun _ => decide_eq_true_iff))

/-- What the handler of a tool is to come to: its entry is written and, if all entries
of the radio are, the address is not tracked. -/
def handlerAim (infoType : InfoType) (bdaddr : Text) : Aim Data where
  inv := fun data => ∀ process ∈ data.processes, process.Waited
  rely := Lasting
  attained := fun data => bdaddr ∈ data.successBdaddrs infoType ∧
    (AllSucceeded infoType.radio bdaddr data → bdaddr ∉ data.bdaddrs infoType.radio)
  relyRefl := Lasting.refl
  relyTrans := Lasting.trans

section Handler

variable {infoType : InfoType} {bdaddr : Text} {α : Type} {post : α → Data → Prop}
variable {failed : Data → Prop} {data : Data} {number : Nat} {process : Process}

theorem attains_look {view : Data → α}
    (seen : ∀ now later, ¬ (handlerAim infoType bdaddr).attained now → Lasting data now →
      Lasting now later → (handlerAim infoType bdaddr).inv now → post (view now) later) :
    (Code.look view).Attains (handlerAim infoType bdaddr) post failed data := by
  show (await .step (fun _ => true) view : Code α).Attains _ _ _ _
  apply attains_await
  exact fun now later relied _ fails further holds _ => seen now later fails relied further holds

/-- With all entries written, `locked_delete_from_dict` finds the address untracked or
deletes it. -/
private theorem attains_lockedDelete {post : Unit → Data → Prop}
    (invariant : (handlerAim infoType bdaddr).inv data)
    (all : AllSucceeded infoType.radio bdaddr data) :
    (lockedDeleteFromDict infoType.radio bdaddr).Attains (handlerAim infoType bdaddr) post failed
      data := by
  apply attains_withLock
  apply attains_bind (fun found now => found = true ∧ AllSucceeded infoType.radio bdaddr now)
    invariant
  · apply attains_look
    intro now later fails relied further _
    refine ⟨?_, further.all (relied.all all)⟩
    by_contra missing
    exact fails ⟨relied.all all infoType rfl, fun _ => by simpa using missing⟩
  · rintro found now _ ⟨rfl, written⟩ later relied _ _
    exact .inl ⟨relied.all written infoType rfl, fun _ => by simp⟩

theorem attains_deleteIfAllDone {post : Unit → Data → Prop}
    (invariant : (handlerAim infoType bdaddr).inv data)
    (all : AllSucceeded infoType.radio bdaddr data) :
    (deleteIfAllDone infoType.radio bdaddr).Attains (handlerAim infoType bdaddr) post failed
      data := by
  have reads : ∀ {other now}, other.radio = infoType.radio →
      AllSucceeded infoType.radio bdaddr now →
      (hasSucceeded other bdaddr).Attains (handlerAim infoType bdaddr)
        (fun found now => found = true ∧ AllSucceeded infoType.radio bdaddr now) failed now := by
    intro other now own written
    apply attains_look
    exact fun now later _ relied further _ =>
      ⟨decide_eq_true (relied.all written other own), further.all (relied.all written)⟩
  have both : ∀ {first second}, first.radio = infoType.radio → second.radio = infoType.radio →
      (all2thprintsDone.both bdaddr first second).Attains (handlerAim infoType bdaddr)
        (fun found now => found = true ∧ AllSucceeded infoType.radio bdaddr now) failed data := by
    intro first second ownFirst ownSecond
    apply attains_bind _ invariant (reads ownFirst all)
    rintro found now _ ⟨rfl, written⟩
    exact reads ownSecond written
  apply attains_bind (fun found now => found = true ∧ AllSucceeded infoType.radio bdaddr now)
    invariant
  · cases radio : infoType.radio with
    | ble => rw [radio] at both; exact both rfl rfl
    | btc => rw [radio] at both; exact both rfl rfl
  · rintro found now holds ⟨rfl, written⟩
    exact attains_lockedDelete holds written

/-- The handler of a tool that has returned 0. -/
private theorem attains_report {post : Unit → Data → Prop}
    (invariant : (handlerAim infoType bdaddr).inv data) :
    (ApplicationThread.report infoType bdaddr 0).Attains (handlerAim infoType bdaddr) post failed
      data := by
  have logs : (externalLogWrite infoType (.success bdaddr)).Attains (handlerAim infoType bdaddr)
      (fun _ _ => True) failed data := by
    unfold externalLogWrite
    cases infoType.logFile with
    | none => exact fun _ _ _ => trivial
    | some file => exact fun _ _ _ _ => .inr fun _ _ _ _ => trivial
  apply attains_bind _ invariant logs
  intro _ now holds _
  apply attains_withLock
  apply attains_bind (fun _ => AllSucceeded infoType.radio bdaddr) holds
  · intro later relied _ _
    have written : bdaddr ∈ (later.setSuccess infoType bdaddr).successBdaddrs infoType := by simp
    by_cases all : AllSucceeded infoType.radio bdaddr (later.setSuccess infoType bdaddr)
    · exact .inr fun _ _ further _ => further.all all
    · exact .inl ⟨written, fun every => absurd every all⟩
  · exact fun _ now holds all => attains_deleteIfAllDone holds all

/-- A step of a tool thread leaves alone what lasts. -/
private theorem lasting_of_tool {held : List Lock} {before after : Data}
    (step : ToolStep number process held before after) : Lasting before after :=
  ⟨(outcome_tool step).2, fun found => (outcome_tool step).1.continues found⟩

/-- The process with the number is the one that the thread was started for. -/
private abbrev Current (number : Nat) (process : Process) (data : Data) : Prop :=
  ∃ later, data.processes[number]? = some later ∧ process.Continues later

private theorem Current.lasts {later : Data} (current : Current number process data)
    (lasting : Lasting data later) : Current number process later := by
  obtain ⟨middle, there, sooner⟩ := current
  obtain ⟨last, still, further⟩ := lasting.processes there
  exact ⟨last, still, sooner.trans further⟩

/-- A process that is not for this tool and this address, or whose `wait` has another
answer, never succeeds. -/
private theorem Current.not_succeeded (current : Current number process data)
    (other : ¬ (process.infoType = infoType ∧ process.bdaddr = bdaddr ∧
      (process.waitResult = none ∨ process.waitResult = some (.returned 0)))) :
    ¬ ToolSucceeded infoType bdaddr number data := by
  rintro ⟨last, there, ofType, ofAddress, returned⟩
  obtain ⟨later, still, continues⟩ := current
  obtain rfl : last = later := Option.some.inj (there.symm.trans still)
  refine other ⟨continues.infoType.symm.trans ofType, continues.bdaddr.symm.trans ofAddress, ?_⟩
  cases answer : process.waitResult with
  | none => exact .inl rfl
  | some result =>
      have same := continues.waitResult result answer
      rw [returned] at same
      exact .inr same.symm

/-- A program of the steps of another process, or of one that has not returned 0. -/
private theorem attains_of_other {program : Code Unit} {own : Process}
    (within : program.Within (ToolStep number own) [] []) (current : Current number process data)
    (other : ¬ (process.infoType = infoType ∧ process.bdaddr = bdaddr ∧
      (process.waitResult = none ∨ process.waitResult = some (.returned 0)))) :
    program.Attains (handlerAim infoType bdaddr)
      (fun _ data => ¬ ToolSucceeded infoType bdaddr number data)
      (fun data => ¬ ToolSucceeded infoType bdaddr number data) data := by
  apply attains_of_within within fun _ _ _ step => lasting_of_tool step
  exact fun now relied _ => (current.lasts relied).not_succeeded other

private theorem attains_runProcess (invariant : (handlerAim infoType bdaddr).inv data)
    (current : Current number process data) :
    (ApplicationThread.runProcess number process).Attains (handlerAim infoType bdaddr)
      (fun _ data => ¬ ToolSucceeded infoType bdaddr number data)
      (fun data => ¬ ToolSucceeded infoType bdaddr number data) data := by
  by_cases own : process.infoType = infoType ∧ process.bdaddr = bdaddr
  swap
  · exact attains_of_other runProcess_within current fun both => own ⟨both.1, both.2.1⟩
  obtain ⟨rfl, rfl⟩ := own
  apply attains_bind (fun answer now => ∃ last, last.waitResult = answer ∧ answer ≠ none ∧
    Current number last now) invariant
  · apply attains_await
    intro now later relied enabled _ further _ _
    obtain ⟨last, there, answered⟩ := (Option.any_eq_true _ _).mp enabled
    rw [there]
    have found : Current number last now := ⟨last, there, .refl last⟩
    exact ⟨last, rfl, Option.isSome_iff_ne_none.mp answered, found.lasts further⟩
  · rintro answer now holds ⟨last, same, answered, found⟩
    have fails : ∀ {program : Code Unit}, last.waitResult ≠ some (.returned 0) →
        program.Within (ToolStep number process) [] [] →
        program.Attains (handlerAim process.infoType process.bdaddr)
          (fun _ data => ¬ ToolSucceeded process.infoType process.bdaddr number data)
          (fun data => ¬ ToolSucceeded process.infoType process.bdaddr number data) now :=
      fun different within => attains_of_other within found fun all =>
        all.2.2.elim (fun unanswered => answered (same.symm.trans unanswered)) different
    match answer with
    | none => exact absurd rfl answered
    | some .timeoutExpired =>
        apply fails (by simp [same])
        exact within_bind (within_change fun _ => .kill) fun _ =>
          externalLogWrite_outcome_within (.inr (.inr rfl))
    | some (.returned retCode) =>
        by_cases success : retCode = 0
        swap
        · apply fails (by simp [same, success])
          exact within_bind (within_look (fun _ _ => .delete .same) _) fun _ =>
            within_ite (fun _ => within_change fun _ => .kill) fun _ => report_within retCode
        · subst success
          apply attains_bind (fun running _ => running = false) holds
          · apply attains_look
            intro later _ _ relied _ kept
            obtain ⟨current, there, continues⟩ := found.lasts relied
            have exited := kept current (List.mem_of_getElem? there) 0
              (continues.waitResult _ same)
            simp [there, Process.isRunning, exited]
          · rintro running later kept rfl
            exact attains_report kept

/-- The argument about one handler: either it is for something else, or it comes to
the state that it is to come to. -/
theorem attains_run (invariant : (handlerAim infoType bdaddr).inv data) :
    (ApplicationThread.run number).Attains (handlerAim infoType bdaddr)
      (fun _ data => ¬ ToolSucceeded infoType bdaddr number data)
      (fun data => ¬ ToolSucceeded infoType bdaddr number data) data := by
  apply attains_bind (fun started now => ∃ process, started = some process ∧
    Current number process now) invariant
  · apply attains_await
    intro now later _ enabled _ further _ _
    obtain ⟨process, there, _⟩ := (Option.any_eq_true _ _).mp enabled
    have found : Current number process now := ⟨process, there, .refl process⟩
    exact ⟨process, there, found.lasts further⟩
  · rintro started now holds ⟨process, rfl, current⟩
    exact attains_runProcess holds current

end Handler

/-! ## Both handlers -/

section Runs

variable {settings : Settings} {radio : Radio} {bdaddr : Text}
variable {execution : Execution (launcher settings)} {first last moment : Nat}

/-- At the moment the monitor makes the address tracked, on a [NEW] line for it. -/
structure TracksNew (execution : Execution (launcher settings)) (radio : Radio) (bdaddr : Text)
    (moment : Nat) : Prop where
  monitor : execution.Moves .monitor moment
  announced : Announced settings radio bdaddr (execution.state moment).shared.data
  untracked : bdaddr ∉ (execution.state moment).shared.data.bdaddrs radio
  tracked : bdaddr ∈ (execution.state (moment + 1)).shared.data.bdaddrs radio

theorem reachable_of_initial (begins : execution.start = initial) (moment : Nat) :
    (launcher settings).Reachable initial (execution.state moment) := by
  rw [← begins]
  exact execution.reachable (Nat.zero_le moment)

/-- An address becomes tracked on a [NEW] line, or as the end of the worker's own
move. -/
theorem tracked_cases (begins : execution.start = initial)
    (untracked : bdaddr ∉ (execution.state moment).shared.data.bdaddrs radio)
    (tracked : bdaddr ∈ (execution.state (moment + 1)).shared.data.bdaddrs radio) :
    TracksNew execution radio bdaddr moment ∨ (execution.Moves (.worker radio) moment ∧
      (execution.state moment).shared.data.ghost.reprioritizing radio = some bdaddr) := by
  have reachable := reachable_of_initial begins moment
  rcases execution.state_succ moment with same | stepped
  · rw [same] at tracked
    exact absurd tracked untracked
  · have possible : ((launcher settings).step (execution.schedule moment)
        (execution.state moment)).isSome := by
      rw [stepped]
      rfl
    cases chosen : execution.schedule moment with
    | run thread =>
        have moves : execution.Moves thread moment := ⟨by rw [chosen]; rfl, possible⟩
        have transfer : Transfer settings thread _ _ :=
          transfer_of_choice reachable stepped (by simp [chosen])
        rcases transfer.tracked radio bdaddr untracked tracked with
          ⟨rfl, announced⟩ | ⟨rfl, moving, _⟩
        · exact .inl ⟨moves, announced, untracked, tracked⟩
        · exact .inr ⟨moves, moving⟩
    | _ =>
        have transfer : Transfer settings (.tool 0) _ _ :=
          transfer_of_choice reachable stepped (by simp [chosen])
        rcases transfer.tracked radio bdaddr untracked tracked with ⟨impossible, _⟩ |
          ⟨impossible, _⟩
        · cases impossible
        · cases impossible

/-- While the worker collects, an untracked address stays untracked up to the next
[NEW] line for it. -/
private theorem new_of_tracked {collected : Text} {left : Code Unit} {rest : Unit → Code Unit}
    (begins : execution.start = initial)
    (works : execution.Works (.worker radio)
      (collectBdaddr radio (stagesOf settings radio) collected) rest first left last)
    (after : first ≤ moment)
    (untracked : bdaddr ∉ (execution.state moment).shared.data.bdaddrs radio) {late : Nat}
    (later : moment ≤ late) (before : late ≤ last)
    (tracked : bdaddr ∈ (execution.state late).shared.data.bdaddrs radio) :
    ∃ between, moment ≤ between ∧ between < late ∧ TracksNew execution radio bdaddr between := by
  induction late, later using Nat.le_induction with
  | base => exact absurd tracked untracked
  | succ late later inductionHypothesis =>
      by_cases already : bdaddr ∈ (execution.state late).shared.data.bdaddrs radio
      · obtain ⟨between, afterwards, sooner, new⟩ := inductionHypothesis (by omega) already
        exact ⟨between, afterwards, by omega, new⟩
      · rcases tracked_cases begins already tracked with new | ⟨moves, _⟩
        · exact ⟨late, later, Nat.lt_succ_self late, new⟩
        · obtain ⟨held, step⟩ := works.shape_of_moves (fun _ _ => .same)
            (collectBdaddr_within settings) (by omega) (by omega) moves
          exact absurd (step.tracked tracked) already

theorem lasting_succ (begins : execution.start = initial) (moment : Nat) :
    Lasting (execution.state moment).shared.data (execution.state (moment + 1)).shared.data := by
  rcases execution.state_succ moment with same | stepped
  · rw [same]
    exact .refl _
  · exact lasting_of_anyStep (anyStep_of_steps (reachable_of_initial begins moment) ⟨_, stepped⟩)

theorem lasting_of_le (begins : execution.start = initial) (after : first ≤ last) :
    Lasting (execution.state first).shared.data (execution.state last).shared.data := by
  induction last, after using Nat.le_induction with
  | base => exact .refl _
  | succ last _ inductionHypothesis => exact inductionHypothesis.trans (lasting_succ begins last)

/-- The handler of a tool that has succeeded has come, by a step of its own, to the
state that it was to come to. -/
theorem handled_of_ended {infoType : InfoType} {number : Nat} (begins : execution.start = initial)
    (unstarted : (execution.state first).thread (.tool number) = ApplicationThread.run number)
    (after : first ≤ last)
    (succeeded : ToolSucceeded infoType bdaddr number (execution.state last).shared.data)
    (ended : (execution.state last).ended (.tool number) = true) :
    ∃ moment, first ≤ moment ∧ moment < last ∧ execution.Moves (.tool number) moment ∧
      (handlerAim infoType bdaddr).attained (execution.state (moment + 1)).shared.data := by
  have waited : ∀ moment,
      (handlerAim infoType bdaddr).inv (execution.state moment).shared.data :=
    fun moment => waited_of_reachable (reachable_of_initial begins moment)
  have attains : ((execution.state first).thread (.tool number)).Attains
      (handlerAim infoType bdaddr) (fun _ data => ¬ ToolSucceeded infoType bdaddr number data)
      (fun data => ¬ ToolSucceeded infoType bdaddr number data)
      (execution.state first).shared.data := by
    rw [unstarted]
    exact attains_run (waited first)
  apply Execution.attained_of_ended _ waited (lasting_succ begins) attains after ended
  · exact fun fails => fails succeeded
  · intro input
    cases input <;> rfl

/-- Of the two tools of a radio, one comes last. -/
theorem exists_latest (radio : Radio) (moments : InfoType → Nat) :
    ∃ infoType, infoType.radio = radio ∧
      ∀ other, other.radio = radio → moments other ≤ moments infoType := by
  cases radio with
  | ble =>
      rcases Nat.le_total (moments .gatt) (moments .ll2thprint) with late | late
      · exact ⟨.ll2thprint, rfl, fun other own => by cases other <;> simp_all [InfoType.radio]⟩
      · exact ⟨.gatt, rfl, fun other own => by cases other <;> simp_all [InfoType.radio]⟩
  | btc =>
      rcases Nat.le_total (moments .lmp2thprint) (moments .sdp) with late | late
      · exact ⟨.sdp, rfl, fun other own => by cases other <;> simp_all [InfoType.radio]⟩
      · exact ⟨.lmp2thprint, rfl, fun other own => by cases other <;> simp_all [InfoType.radio]⟩

/-- Both tools of the radio have succeeded for the address and their threads have
been joined; at least one of the two was launched for this selection. Then one of the
two handlers has left the address untracked, and only a [NEW] line after that can have
made it tracked again. -/
theorem removed_by_handlers {left : Code Unit} {rest : Unit → Code Unit} {tools : InfoType → Nat}
    (begins : execution.start = initial)
    (works : execution.Works (.worker radio)
      (collectBdaddr radio (stagesOf settings radio) bdaddr) rest first left last)
    (launched : ∃ infoType, infoType.radio = radio ∧
      (execution.state first).shared.data.processes.length ≤ tools infoType)
    (succeeded : ∀ infoType, infoType.radio = radio →
      ToolSucceeded infoType bdaddr (tools infoType) (execution.state last).shared.data)
    (joined : ∀ infoType, infoType.radio = radio →
      (execution.state last).ended (.tool (tools infoType)) = true) :
    ∃ infoType removal, infoType.radio = radio ∧ first ≤ removal ∧ removal < last ∧
      execution.Moves (.tool (tools infoType)) removal ∧
      bdaddr ∉ (execution.state (removal + 1)).shared.data.bdaddrs radio ∧
      (bdaddr ∈ (execution.state last).shared.data.bdaddrs radio →
        ∃ moment, removal < moment ∧ moment < last ∧ TracksNew execution radio bdaddr moment) := by
  have beforeLast := works.first_le
  have handled : ∀ infoType, ∃ moment, infoType.radio = radio → moment < last ∧
      execution.Moves (.tool (tools infoType)) moment ∧
      (handlerAim infoType bdaddr).attained (execution.state (moment + 1)).shared.data ∧
      ((execution.state first).shared.data.processes.length ≤ tools infoType → first ≤ moment) := by
    intro infoType
    by_cases fresh : (execution.state first).shared.data.processes.length ≤ tools infoType
    · have unstarted : (execution.state first).thread (.tool (tools infoType)) =
          ApplicationThread.run (tools infoType) := by
        apply ((waits_of_reachable (reachable_of_initial begins first)).tools _).resolve_right
        rintro ⟨process, there, _⟩
        have within := (List.getElem?_eq_some_iff.mp there).1
        omega
      by_cases own : infoType.radio = radio
      · obtain ⟨moment, after, before, moves, attained⟩ := handled_of_ended begins unstarted
          beforeLast (succeeded infoType own) (joined infoType own)
        exact ⟨moment, fun _ => ⟨before, moves, attained, fun _ => after⟩⟩
      · exact ⟨0, fun same => absurd same own⟩
    · have unstarted : (execution.state 0).thread (.tool (tools infoType)) =
          ApplicationThread.run (tools infoType) := by
        show execution.start.thread _ = _
        rw [begins]
        rfl
      by_cases own : infoType.radio = radio
      · obtain ⟨moment, _, before, moves, attained⟩ := handled_of_ended begins unstarted
          (Nat.zero_le last) (succeeded infoType own) (joined infoType own)
        exact ⟨moment, fun _ => ⟨before, moves, attained, fun new => absurd new fresh⟩⟩
      · exact ⟨0, fun same => absurd same own⟩
  choose moments facts using handled
  obtain ⟨latest, own, later⟩ := exists_latest radio moments
  obtain ⟨before, moves, attained, _⟩ := facts latest own
  have after : first ≤ moments latest := by
    obtain ⟨fresh, ownToo, new⟩ := launched
    exact ((facts fresh ownToo).2.2.2 new).trans (later fresh ownToo)
  have all : AllSucceeded radio bdaddr (execution.state (moments latest + 1)).shared.data := by
    intro infoType ownToo
    apply (lasting_of_le begins (Nat.succ_le_succ (later infoType ownToo))).succeeded
    exact (facts infoType ownToo).2.2.1.1
  have untracked : bdaddr ∉ (execution.state (moments latest + 1)).shared.data.bdaddrs radio := by
    rw [← own] at all ⊢
    exact attained.2 all
  refine ⟨latest, moments latest, own, after, before, moves, untracked, fun tracked => ?_⟩
  obtain ⟨moment, afterwards, sooner, new⟩ := new_of_tracked begins works (by omega) untracked
    (Nat.succ_le_of_lt before) (Nat.le_refl last) tracked
  exact ⟨moment, afterwards, sooner, new⟩

end Runs

/-- The shipped settings with the second BLE print turned on. -/
private def bothBlePrints : Settings := { Settings.shipped with ble2thprintEnabled := true }

/-- The BLE worker is about to select the only device. -/
private def announcedDevice : Schedule :=
  Schedule.handed (deviceLine newWord "AA BLE public A".toList) 5 ++ Schedule.pass .ble 5

/-- Both tools succeed. The handler of the first one has written its entry and has
not yet looked at the other one when the handler of the second one does everything. -/
private def bothToolsSucceed : Schedule :=
  Schedule.resume (.worker .ble) 20 ++
    [.environment (.processExits 0 0), .environment (.processExits 1 0),
      .environment (.waitReturns 0), .environment (.waitReturns 1)] ++
    Schedule.resume (.tool 0) 6 ++ Schedule.resume (.tool 1) 12 ++ Schedule.resume (.tool 0) 6 ++
    Schedule.resume (.worker .ble) 3

private def toolNumber : InfoType → Nat
  | .gatt => 0
  | _ => 1

set_option maxRecDepth 4000 in
theorem removed_by_handlers_overlapping : ∃ (execution : Execution (launcher bothBlePrints))
    (infoType : InfoType) (removal last : Nat), removal < last ∧
    execution.Moves (.tool (toolNumber infoType)) removal ∧
    "aa".toList ∉ (execution.state (removal + 1)).shared.data.bdaddrs .ble ∧
    ("aa".toList ∈ (execution.state last).shared.data.bdaddrs .ble →
      ∃ moment, removal < moment ∧ moment < last ∧ TracksNew execution .ble "aa".toList moment) := by
  let collects : Code Unit := collectBdaddr .ble (stagesOf bothBlePrints .ble) "aa".toList
  let further : Unit → Code Unit := fun _ =>
    visit bothBlePrints .ble (bleStages bothBlePrints) reprioritizeBleBdaddr 1 0 []
  let waits : Unit → Code Unit := fun _ =>
    await (.busyWait .ble) (fun data => !(data.bdaddrs .ble).keys.isEmpty) fun _ => ()
  have stands : ((launcher bothBlePrints).exec (fun _ _ => true) announcedDevice initial).map
      (fun start => start.thread (.worker .ble)) = some ((collects >>= further) >>= waits) := rfl
  have follows : ((launcher bothBlePrints).exec (fun _ _ => true) announcedDevice initial).any
      (fun start => start.shared.data.processes.isEmpty &&
        (Execution.Works.follow (launcher bothBlePrints) (.worker .ble) bothToolsSucceed start
          collects).any fun result =>
            decide (ToolSucceeded .gatt "aa".toList 0 result.1.shared.data ∧
              ToolSucceeded .ll2thprint "aa".toList 1 result.1.shared.data ∧
              result.1.ended (.tool 0) = true ∧ result.1.ended (.tool 1) = true)) = true := by
    decide +kernel
  obtain ⟨start, executed, facts⟩ := (Option.any_eq_true _ _).mp follows
  obtain ⟨nothing, onward⟩ := Bool.and_eq_true_iff.mp facts
  obtain ⟨⟨final, left⟩, followed, ends⟩ := (Option.any_eq_true _ _).mp onward
  obtain ⟨gatt, ll2thprint, endedGatt, endedLl2thprint⟩ := of_decide_eq_true ends
  let execution : Execution (launcher bothBlePrints) :=
    Execution.following initial (announcedDevice ++ bothToolsSucceed) (.run .monitor)
  have begun : execution.state announcedDevice.length = start :=
    Execution.state_following_append executed 0
  have thread : (execution.state announcedDevice.length).thread (.worker .ble) =
      collects >>= fun value => further value >>= waits := by
    rw [executed, Option.map_some, Option.some.injEq] at stands
    rw [begun, stands, bind_bind]
  obtain ⟨works, reached⟩ := (Execution.Works.begins thread).of_follow
    (fun _ _ found => Execution.schedule_following_append found) (begun.symm ▸ followed)
  have succeeded : ∀ infoType, infoType.radio = .ble → ToolSucceeded infoType "aa".toList
      (toolNumber infoType)
      (execution.state (announcedDevice.length + bothToolsSucceed.length)).shared.data := by
    rw [reached]
    intro infoType own
    cases infoType with
    | gatt => exact gatt
    | ll2thprint => exact ll2thprint
    | _ => cases own
  have joined : ∀ infoType, infoType.radio = .ble →
      (execution.state (announcedDevice.length + bothToolsSucceed.length)).ended
        (.tool (toolNumber infoType)) = true := by
    rw [reached]
    intro infoType own
    cases infoType with
    | gatt => exact endedGatt
    | ll2thprint => exact endedLl2thprint
    | _ => cases own
  have launched : (execution.state announcedDevice.length).shared.data.processes.length ≤
      toolNumber .gatt := by
    rw [begun, List.isEmpty_iff.mp nothing]
    exact Nat.le_refl 0
  obtain ⟨infoType, removal, _, _, before, moves, untracked, renewed⟩ :=
    removed_by_handlers rfl works ⟨.gatt, rfl, launched⟩ succeeded joined
  exact ⟨execution, infoType, removal, _, before, moves, untracked, renewed⟩

end NaiveBTSniffing.Launcher
