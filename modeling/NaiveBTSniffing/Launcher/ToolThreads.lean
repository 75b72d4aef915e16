import NaiveBTSniffing.Library.Interleaving.Supervising
import NaiveBTSniffing.Launcher.BothPrints
import NaiveBTSniffing.Launcher.Selections

/-!
Contract: which tool threads run while a worker does what.

A worker starts a tool thread only for the address that it is collecting from, which
it has taken from its snapshot, and joins every one that it has started before it goes
on. So while a tool thread of a radio runs, its worker neither decides on another
address nor takes one from its snapshot (`supervised_of_reachable`).

Owns the terms `toolSupervision`. Does not own what the tool threads do (`BothPrints`).
-/

namespace NaiveBTSniffing.Launcher

open NaiveBTSniffing.Library
open NaiveBTSniffing.Library.Interleaving
open NaiveBTSniffing.Library.Interleaving.Prog

/-! ## The terms -/

/-- What a worker relies on about its tool threads and its snapshot. -/
structure SupervisedRely (radio : Radio) (before after : Data) : Prop where
  threads : after.externalToolThreads radio = before.externalToolThreads radio
  unvisited : after.ghost.unvisited radio = before.ghost.unvisited radio
  processes : ∀ {number : Nat} {process : Process}, before.processes[number]? = some process →
    ∃ later, after.processes[number]? = some later ∧ process.Continues later

/-- A step that neither decides on an address nor changes the snapshot. -/
structure CalmStep (radio : Radio) (before after : Data) : Prop where
  unvisited : after.ghost.unvisited radio = before.ghost.unvisited radio
  selected : ∀ bdaddr, after.ghost.trace ≠ before.ghost.trace ++ [.selected radio bdaddr]
  exceeded : ∀ bdaddr, after.ghost.trace ≠ before.ghost.trace ++ [.exceeded radio bdaddr]

theorem CalmStep.of_same {radio : Radio} {before after : Data}
    (unvisited : after.ghost.unvisited = before.ghost.unvisited)
    (trace : after.ghost.trace = before.ghost.trace) : CalmStep radio before after :=
  ⟨by rw [unvisited], fun _ => by rw [trace]; simp, fun _ => by rw [trace]; simp⟩

/-- The process is of the radio, and its address is not in what is left of the
snapshot. -/
def StartedFor (radio : Radio) (number : Nat) (data : Data) : Prop :=
  ∃ process, data.processes[number]? = some process ∧ process.infoType.radio = radio ∧
    process.bdaddr ∉ data.ghost.unvisited radio

/-- A worker starts tool threads only for an address that is not in what is left of its
snapshot, and selects no other. -/
structure WorkerKeeps (radio : Radio) (before after : Data) : Prop where
  started : ∀ number, Started number after → ¬ Started number before →
    StartedFor radio number after
  selected : ∀ bdaddr, after.ghost.trace = before.ghost.trace ++ [.selected radio bdaddr] →
    bdaddr ∉ after.ghost.unvisited radio

def toolSupervision (radio : Radio) : Supervision ThreadId Data where
  rely := SupervisedRely radio
  started := fun data thread => ∃ number, thread = .tool number ∧ Started number data
  keeps := WorkerKeeps radio
  calm := CalmStep radio
  relyRefl := fun _ => ⟨rfl, rfl, fun {_ process} found => ⟨process, found, .refl process⟩⟩
  relyTrans := fun first second =>
    { threads := second.threads.trans first.threads
      unvisited := second.unvisited.trans first.unvisited
      processes := fun found => by
        obtain ⟨middle, there, early⟩ := first.processes found
        obtain ⟨last, still, late⟩ := second.processes there
        exact ⟨last, still, early.trans late⟩ }
  keepsRefl := fun _ => ⟨fun _ started fresh => absurd started fresh, fun _ same => by simp at same⟩
  calmRefl := fun _ => .of_same rfl rfl

section Newly

variable {radio : Radio} {before after : Data}

/-- A step that unstarts nothing but these. -/
private theorem newly_subset {started : Set ThreadId}
    (old : ∀ number, Started number after → Started number before ∨ .tool number ∈ started) :
    (toolSupervision radio).newly before after ⊆ started := by
  rintro child ⟨⟨number, rfl, runs⟩, unstarted⟩
  exact (old number runs).resolve_left fun earlier => unstarted ⟨number, rfl, earlier⟩

private theorem newly_of_old (old : ∀ number, Started number after → Started number before) :
    (toolSupervision radio).newly before after = ∅ :=
  Set.subset_empty_iff.mp <| newly_subset fun number runs => .inl (old number runs)

/-- A step that leaves the processes alone starts no thread. -/
private theorem newly_of_same (same : after.processes = before.processes) :
    (toolSupervision radio).newly before after = ∅ :=
  newly_of_old fun _ ⟨process, found, runs⟩ => ⟨process, by rwa [← same], runs⟩

/-- A process that is launched has no thread yet. -/
private theorem newly_of_launch {infoType : InfoType} {bdaddr : Text} {arguments : List Text}
    (launched : after = before.launch infoType bdaddr arguments) :
    (toolSupervision radio).newly before after = ∅ := by
  subst launched
  apply newly_of_old
  rintro number ⟨process, found, runs⟩
  rcases Nat.lt_or_ge number before.processes.length with old | new
  · exact ⟨process, by simpa [List.getElem?_append_left old] using found, runs⟩
  · simp only [List.getElem?_append_right new, List.getElem?_singleton] at found
    split at found
    · obtain rfl := Option.some.inj found
      simp at runs
    · simp at found

private theorem newly_of_startThread {number : Nat} (begun : after = before.startThread number) :
    (toolSupervision radio).newly before after ⊆ {.tool number} := by
  subst begun
  apply newly_subset
  rintro other ⟨process, found, runs⟩
  by_cases same : number = other
  · exact .inr (by rw [same]; rfl)
  · exact .inl ⟨process, by simpa [Data.startThread, List.getElem?_modify, same] using found, runs⟩

private theorem keeps_of_newly (nothing : (toolSupervision radio).newly before after = ∅)
    (unselected : ∀ bdaddr, after.ghost.trace ≠ before.ghost.trace ++ [.selected radio bdaddr]) :
    WorkerKeeps radio before after where
  started := by
    intro number started fresh
    have new : ThreadId.tool number ∈ (toolSupervision radio).newly before after :=
      ⟨⟨number, rfl, started⟩, fun ⟨_, same, ran⟩ => fresh (ThreadId.tool.inj same ▸ ran)⟩
    rw [nothing] at new
    exact new.elim
  selected := fun bdaddr same => absurd same (unselected bdaddr)

end Newly

/-! ## The programs of a worker -/

section Programs

variable {settings : Settings} {radio : Radio} {infoType : InfoType} {bdaddr : Text}
variable {rest : List Text} {running : Set ThreadId} {data : Data} {α β : Type}

/-- No tool thread runs when the program begins, and none when it ends. -/
private abbrev StartsNone (radio : Radio) (fact : α → Prop) (program : Code α) : Prop :=
  ∀ data, program.Supervises (toolSupervision radio)
    (fun value running _ => running = ∅ ∧ fact value) ∅ data

/-- A step that leaves the processes alone and selects nothing. -/
private theorem toolKeeps_of_same {before after : Data} (same : after.processes = before.processes)
    (trace : after.ghost.trace = before.ghost.trace) : WorkerKeeps radio before after :=
  keeps_of_newly (newly_of_same same) fun _ => by simp [trace]

private theorem idle_of_sort {program : Code α}
    (within : program.Within (fun _ => SortStep radio) [] []) :
    StartsNone radio (fun _ => True) program := by
  intro data
  have same : ∀ {before after : Data}, SortStep radio before after →
      after.processes = before.processes ∧ after.ghost.trace = before.ghost.trace :=
    fun step => by cases step <;> exact ⟨rfl, rfl⟩
  have supervises : program.Supervises (toolSupervision radio)
      (fun _ remaining _ => remaining ⊆ ∅ ∧ True) ∅ data :=
    supervises_of_within within (fun _ _ _ step => newly_of_same (same step).1)
      (fun _ _ _ step _ => toolKeeps_of_same (same step).1 (same step).2)
      (fun some => absurd some Set.not_nonempty_empty) (fun _ _ _ _ _ => trivial)
      (fun _ _ _ _ => trivial) trivial
  exact supervises.mono fun _ _ _ fewer => ⟨Set.subset_empty_iff.mp fewer.1, trivial⟩

private theorem readRssis_idle (bdaddrs : List Text) :
    StartsNone radio (fun rssis => rssis.map Prod.fst = bdaddrs) (readRssis radio bdaddrs) := by
  induction bdaddrs with
  | nil => exact fun _ _ _ => ⟨rfl, rfl⟩
  | cons bdaddr others inductionHypothesis =>
      intro data
      have reads : (Code.demand (fun data => data.setSortPending radio others)
          fun data => (data.bdaddrs radio).lookup bdaddr).Within (fun _ => SortStep radio) [] [] :=
        within_demand fun _ => .readRssi
      apply supervises_bind _ (idle_of_sort reads data)
      rintro stored _ now ⟨rfl, _⟩
      apply supervises_bind _ (inductionHypothesis now)
      rintro rssis _ now ⟨rfl, names⟩ later _
      exact ⟨rfl, by simp [names]⟩

/-- A snapshot names no address twice. -/
private theorem sortedBdaddrs_idle : StartsNone radio List.Nodup (sortedBdaddrs radio) := by
  intro data
  apply supervises_bind fun keys running _ => running = ∅ ∧ keys.Nodup
  · apply supervises_act
    intro now _ _
    exact ⟨newly_of_same rfl, toolKeeps_of_same rfl rfl, fun some => absurd some Set.not_nonempty_empty,
      fun _ _ => ⟨rfl, (now.bdaddrs radio).nodupKeys⟩⟩
  · rintro keys _ now ⟨rfl, nodup⟩
    apply supervises_bind _ (readRssis_idle keys now)
    rintro rssis _ now ⟨rfl, names⟩
    have sorts : (Code.change fun data => data.setUnvisited radio (sortByRssi rssis)).Within
        (fun _ => SortStep radio) [] [] := within_change fun _ => .sorted
    apply supervises_bind _ (idle_of_sort sorts now)
    rintro _ _ now ⟨rfl, _⟩ later _
    have permuted : (sortByRssi rssis).Perm (rssis.map Prod.fst) :=
      (List.perm_insertionSort _ rssis).map Prod.fst
    exact ⟨rfl, permuted.nodup_iff.mpr (names ▸ nodup)⟩

/-- Every tool thread that runs is in the worker's list, and this is what is left of
its snapshot. -/
private abbrev Collecting (radio : Radio) (rest : List Text) (running : Set ThreadId)
    (data : Data) : Prop :=
  (∀ child ∈ running, ∃ number ∈ data.externalToolThreads radio, .tool number = child) ∧
    data.ghost.unvisited radio = rest

private theorem Collecting.lasts {later : Data} (collecting : Collecting radio rest running data)
    (relied : SupervisedRely radio data later) : Collecting radio rest running later := by
  obtain ⟨listed, left⟩ := collecting
  exact ⟨by rwa [relied.threads], relied.unvisited.trans left⟩

private abbrev Collects (radio : Radio) (rest : List Text) (program : Code α) : Prop :=
  ∀ running data, Collecting radio rest running data →
    program.Supervises (toolSupervision radio) (fun _ => Collecting radio rest) running data

/-- A step that leaves the tool threads alone. -/
private structure Routine (radio : Radio) (before after : Data) : Prop where
  processes : after.processes = before.processes
  threads : after.externalToolThreads = before.externalToolThreads
  calm : CalmStep radio before after

private theorem quiet_of_same {before after : Data} (processes : after.processes = before.processes)
    (threads : after.externalToolThreads = before.externalToolThreads)
    (ghost : after.ghost = before.ghost) : Routine radio before after :=
  ⟨processes, threads, .of_same (by rw [ghost]) (by rw [ghost])⟩

private theorem quiet_of_delete {own : Radio} {held : List Lock} {before after : Data}
    (step : DeleteStep own bdaddr held before after) : Routine radio before after := by
  cases step with
  | same => exact quiet_of_same rfl rfl rfl
  | delete => exact ⟨rfl, rfl, rfl, fun _ => by simp, fun _ => by simp⟩

private theorem collects_of_within {shape : List Lock → Data → Data → Prop} {program : Code α}
    (within : program.Within shape [] [])
    (quiet : ∀ held before after, shape held before after → Routine radio before after) :
    Collects radio rest program := by
  intro running data collecting
  have supervises : program.Supervises (toolSupervision radio)
      (fun _ remaining now => remaining ⊆ running ∧ Collecting radio rest running now) running
      data := by
    apply supervises_of_within within _ _ _ _ _ collecting
    · exact fun held before after step => newly_of_same (quiet held before after step).processes
    · intro held before after step _
      have still := quiet held before after step
      exact keeps_of_newly (newly_of_same still.processes) still.calm.selected
    · exact fun _ held before after step => (quiet held before after step).calm
    · intro held before after step now
      have still := quiet held before after step
      exact ⟨by rw [still.threads]; exact now.1, still.calm.unvisited.trans now.2⟩
    · exact fun _ _ relied now => Collecting.lasts now relied
  exact supervises.mono fun _ _ _ fewer =>
    ⟨fun child member => fewer.2.1 child (fewer.1 member), fewer.2.2⟩

private theorem collects_bind {first : Code α} {next : α → Code β}
    (collects : Collects radio rest first) (later : ∀ value, Collects radio rest (next value)) :
    Collects radio rest (first >>= next) :=
  fun running data now => supervises_bind _ (collects running data now) fun value => later value

private theorem collects_ite {condition : Prop} [Decidable condition] {yes no : Code α}
    (collectsYes : Collects radio rest yes) (collectsNo : Collects radio rest no) :
    Collects radio rest (if condition then yes else no) :=
  fun running data now => supervises_ite (fun _ => collectsYes running data now)
    fun _ => collectsNo running data now

private theorem collects_look (view : Data → α) : Collects radio rest (Code.look view) :=
  collects_of_within (within_look (fun _ _ => quiet_of_same rfl rfl rfl) view) fun _ _ _ => id

private theorem collects_done (value : α) : Collects radio rest (pure value : Code α) :=
  fun _ _ now _ relied => Collecting.lasts now relied

/-! ## Launching a tool -/

/-- A process of the radio for the address has been launched. -/
private abbrev LaunchedFor (radio : Radio) (bdaddr : Text) (number : Nat) (data : Data) : Prop :=
  ∃ process, data.processes[number]? = some process ∧ process.infoType.radio = radio ∧
    process.bdaddr = bdaddr

private theorem LaunchedFor.lasts {number : Nat} {later : Data}
    (launched : LaunchedFor radio bdaddr number data) (relied : SupervisedRely radio data later) :
    LaunchedFor radio bdaddr number later := by
  obtain ⟨process, found, own, same⟩ := launched
  obtain ⟨after, still, continues⟩ := relied.processes found
  exact ⟨after, still, by rw [continues.infoType, own], by rw [continues.bdaddr, same]⟩

private theorem launchApplication_collects {arguments : List Text}
    (own : infoType.radio = radio) (collecting : Collecting radio rest running data) :
    (launchApplication infoType bdaddr arguments).Supervises (toolSupervision radio)
      (fun launched running now => Collecting radio rest running now ∧
        ∀ number, launched = some number → LaunchedFor radio bdaddr number now) running data := by
  apply supervises_act
  intro now relied _
  have still : Collecting radio rest running now := collecting.lasts relied
  by_cases refused : now.popenFails = true
  · simp only [refused, if_true]
    exact ⟨newly_of_same rfl, toolKeeps_of_same rfl rfl, fun _ => .of_same rfl rfl,
      fun later further => ⟨still.lasts further, fun number same => by simp at same⟩⟩
  · simp only [if_neg refused]
    refine ⟨newly_of_launch rfl, keeps_of_newly (newly_of_launch rfl) fun _ => by simp,
      fun _ => .of_same rfl rfl, fun later further => ?_⟩
    have kept : Collecting radio rest running (now.launch infoType bdaddr arguments) := still
    refine ⟨kept.lasts further, fun number same => ?_⟩
    obtain rfl : now.processes.length = number := Option.some.inj same
    have launched : LaunchedFor radio bdaddr now.processes.length
        (now.launch infoType bdaddr arguments) := ⟨_, List.getElem?_concat_length, own, rfl⟩
    exact launched.lasts further

/-- After a thread start, the new thread is not in the worker's list yet. -/
private abbrev StartedToo (radio : Radio) (rest : List Text) (number : Nat) (begun : Bool)
    (running : Set ThreadId) (data : Data) : Prop :=
  (∀ child ∈ running, (∃ kept ∈ data.externalToolThreads radio, .tool kept = child) ∨
    (begun = true ∧ child = .tool number)) ∧ data.ghost.unvisited radio = rest

private theorem startThread_collects {number : Nat} (unlisted : bdaddr ∉ rest)
    (launched : LaunchedFor radio bdaddr number data)
    (collecting : Collecting radio rest running data) :
    (startThread number).Supervises (toolSupervision radio) (StartedToo radio rest number) running
      data := by
  intro now relied _
  have still : Collecting radio rest running now := collecting.lasts relied
  obtain ⟨process, found, own, same⟩ := launched.lasts relied
  by_cases refused : now.startFails = true
  · simp only [refused, if_true]
    rw [newly_of_same rfl, Set.union_empty]
    refine ⟨toolKeeps_of_same rfl rfl, fun _ => .of_same rfl rfl, fun later further => ?_⟩
    obtain ⟨listed, left⟩ := Collecting.lasts still further
    exact ⟨fun child member => .inl (listed child member), left⟩
  · simp only [if_neg refused]
    have fewer : (toolSupervision radio).newly now (now.startThread number) ⊆ {.tool number} :=
      newly_of_startThread rfl
    have kept : Collecting radio rest running (now.startThread number) := still
    refine ⟨⟨fun other begun fresh => ?_, fun _ same => by simp at same⟩,
      fun _ => .of_same rfl rfl, fun later further => ?_⟩
    · obtain rfl : other = number := ThreadId.tool.inj <|
        fewer ⟨⟨other, rfl, begun⟩, fun ⟨_, same, ran⟩ => fresh (ThreadId.tool.inj same ▸ ran)⟩
      have begun : (now.startThread other).processes[other]? =
          some { process with threadStarted := true } := by simp [found]
      have apart : process.bdaddr ∉ (now.startThread other).ghost.unvisited radio := by
        rw [kept.2, same]
        exact unlisted
      exact ⟨_, begun, own, apart⟩
    · obtain ⟨listed, left⟩ := kept.lasts further
      exact ⟨fun child member => member.elim (fun old => .inl (listed child old))
        fun new => .inr ⟨by simpa using refused, fewer new⟩, left⟩

private theorem launchTool_collects {arguments : List Text} (own : infoType.radio = radio)
    (unlisted : bdaddr ∉ rest) : Collects radio rest (launchTool infoType bdaddr arguments) := by
  intro running data collecting
  apply supervises_bind _ (launchApplication_collects own collecting)
  rintro launched remaining now ⟨still, there⟩
  cases launched with
  | none => exact collects_done () remaining now still
  | some number =>
      apply supervises_bind _ (startThread_collects unlisted (there number rfl) still)
      rintro begun remaining now ⟨listed, left⟩
      cases begun with
      | false =>
          apply collects_done () remaining now
          exact ⟨fun child member => (listed child member).resolve_right fun new => by simp at new,
            left⟩
      | true =>
          apply supervises_act
          intro later relied _
          obtain rfl := own
          refine ⟨newly_of_same rfl, toolKeeps_of_same rfl rfl, fun _ => .of_same rfl rfl,
            fun last further => ?_⟩
          apply Collecting.lasts _ further
          apply And.intro
          · intro child member
            rcases listed child member with ⟨kept, old, same⟩ | ⟨_, rfl⟩
            · exact ⟨kept, by simp [relied.threads, old], same⟩
            · exact ⟨number, by simp, rfl⟩
          · exact relied.unvisited.trans left

/-! ## One address -/

private theorem externalLogWrite_collects (line : LogLine) :
    Collects radio rest (externalLogWrite infoType line) := by
  unfold externalLogWrite
  cases infoType.logFile with
  | none => exact collects_done ()
  | some file =>
      have writes : (Code.change fun data => data.appendLog file line).Within
          (fun _ => Routine radio) [] [] := within_change fun _ => quiet_of_same rfl rfl rfl
      exact collects_of_within writes fun _ _ _ => id

private theorem launchOf_collects (own : infoType.radio = radio) (unlisted : bdaddr ∉ rest) :
    Collects radio rest (launchOf infoType bdaddr) := by
  have launches : ∀ arguments, Collects radio rest (launchTool infoType bdaddr arguments) :=
    fun _ => launchTool_collects own unlisted
  cases infoType with
  | gatt =>
      have item : (trackedItem .ble bdaddr).Within (fun _ => Routine radio) [] [] :=
        within_demand fun _ => quiet_of_same rfl rfl rfl
      intro running data collecting
      apply supervises_withLock
      apply collects_bind (collects_look _) _ running data collecting
      intro found
      apply collects_ite _ (collects_done ())
      apply collects_bind (externalLogWrite_collects _)
      exact fun _ => collects_bind (collects_of_within item fun _ _ _ => id) fun _ => launches _
  | ll2thprint => exact launches _
  | lmp2thprint => exact collects_bind (externalLogWrite_collects _) fun _ => launches _
  | sdp =>
      have opens : openOutputFile.Within (fun _ => Routine radio) [] [] :=
        within_demand fun _ => quiet_of_same rfl rfl rfl
      exact collects_bind (externalLogWrite_collects _) fun _ =>
        collects_bind (collects_of_within opens fun _ _ _ => id) fun _ => launches _

private theorem runStage_collects (own : infoType.radio = radio) (unlisted : bdaddr ∉ rest) :
    Collects radio rest (runStage settings infoType bdaddr (launchOf infoType bdaddr)) := by
  apply collects_ite _ (collects_done ())
  apply collects_bind (collects_of_within skipSubProcess_within fun _ _ _ => quiet_of_delete)
  intro skipped
  apply collects_ite (collects_done ())
  apply collects_bind (collects_look _)
  exact fun tracked => collects_ite (launchOf_collects own unlisted) (collects_done ())

private theorem stagesOf_collects (unlisted : bdaddr ∉ rest) :
    Collects radio rest (stagesOf settings radio bdaddr) := by
  have stage : ∀ infoType, infoType.radio = radio →
      Collects radio rest (runStage settings infoType bdaddr (launchOf infoType bdaddr)) :=
    fun _ own => runStage_collects own unlisted
  cases radio with
  | ble => exact collects_bind (stage .gatt rfl) fun _ => stage .ll2thprint rfl
  | btc => exact collects_bind (stage .lmp2thprint rfl) fun _ => stage .sdp rfl

/-- The worker waits for every tool thread that it has started. -/
private theorem joinExternalToolThreads_idle (collecting : Collecting radio rest running data) :
    (joinExternalToolThreads radio).Supervises (toolSupervision radio)
      (fun _ running _ => running = ∅ ∧ True) running data := by
  apply supervises_bind fun numbers running _ =>
    ∀ child ∈ running, ∃ number ∈ numbers, .tool number = child
  · apply supervises_act
    intro now relied _
    exact ⟨newly_of_same rfl, toolKeeps_of_same rfl rfl, fun _ => .of_same rfl rfl,
      fun _ _ => (collecting.lasts relied).1⟩
  · intro numbers remaining now listed
    exact supervises_joinAll listed (fun _ _ _ _ => trivial) trivial

/-! ## A pass -/

/-- No tool thread runs, and this is what is left of the snapshot. -/
private abbrev Resting (radio : Radio) (rest : List Text) (running : Set ThreadId)
    (data : Data) : Prop :=
  running = ∅ ∧ data.ghost.unvisited radio = rest

/-- A step that launches nothing, leaves the snapshot as it is and selects nothing of
what is left of it. -/
private structure Leaves (radio : Radio) (rest : List Text) (before after : Data) : Prop where
  processes : after.processes = before.processes
  unvisited : after.ghost.unvisited = before.ghost.unvisited
  selected : ∀ bdaddr, after.ghost.trace = before.ghost.trace ++ [.selected radio bdaddr] →
    bdaddr ∉ rest

private theorem leaves_of_same {before after : Data} (processes : after.processes = before.processes)
    (ghost : after.ghost = before.ghost) : Leaves radio rest before after :=
  ⟨processes, by rw [ghost], fun _ => by simp [ghost]⟩

/-- A program that starts nothing and leaves the snapshot as it is. -/
private theorem resting_of_within {program : Code α}
    (within : program.Within (fun _ => Leaves radio rest) [] [])
    (left : data.ghost.unvisited radio = rest) :
    program.Supervises (toolSupervision radio) (fun _ => Resting radio rest) ∅ data := by
  have supervises : program.Supervises (toolSupervision radio)
      (fun _ remaining now => remaining ⊆ ∅ ∧ now.ghost.unvisited radio = rest) ∅ data := by
    apply supervises_of_within within _ _ _ _ _ left
    · exact fun _ _ _ same => newly_of_same same.processes
    · intro _ before after same now
      have old : ∀ number, Started number after → Started number before :=
        fun _ ⟨process, found, runs⟩ => ⟨process, by rwa [← same.processes], runs⟩
      refine ⟨fun number started fresh => absurd (old number started) fresh, ?_⟩
      rw [same.unvisited, now]
      exact same.selected
    · exact fun some => absurd some Set.not_nonempty_empty
    · exact fun _ _ _ same now => by rwa [same.unvisited]
    · exact fun _ _ relied now => relied.unvisited.trans now
  exact supervises.mono fun _ _ _ fewer => ⟨Set.subset_empty_iff.mp fewer.1, fewer.2⟩

private theorem shouldSkip_leaves :
    (shouldSkip settings radio bdaddr).Within (fun _ => Leaves radio rest) [] [] := by
  refine within_ite (fun _ => rfl) ?_
  intro _
  refine within_bind (within_demand fun data => ?_) fun _ => rfl
  split
  · split
    · exact ⟨rfl, rfl, fun _ => by simp⟩
    · exact leaves_of_same rfl rfl
  · exact leaves_of_same rfl rfl

private theorem countAttempt_leaves (unlisted : bdaddr ∉ rest) :
    (countAttempt radio bdaddr).Within (fun _ => Leaves radio rest) [] [] := by
  apply within_demand
  intro data
  split
  · refine ⟨rfl, rfl, fun other same => ?_⟩
    obtain rfl : bdaddr = other := by simpa using same
    exact unlisted
  · exact leaves_of_same rfl rfl

private theorem skipBdaddr_leaves (allSkipped : Bool) :
    (skipBdaddr radio (reprioritize .ble radio) bdaddr allSkipped).Within
      (fun _ => Leaves radio rest) [] [] := by
  have same : ∀ (held : List Lock) data, Leaves radio rest data data :=
    fun _ _ => leaves_of_same rfl rfl
  apply within_bind
  · exact lockedDeleteFromDict_within.mono fun _ _ _ step => by
      cases step with
      | same => exact leaves_of_same rfl rfl
      | delete => exact ⟨rfl, rfl, fun _ => by simp⟩
  · intro _
    refine within_ite (fun _ => ?_) fun _ => rfl
    apply reprioritizeFirst_within_of same
    exact fun _ => reprioritize_within_of same (fun _ _ => ⟨rfl, rfl, fun _ => by simp⟩)
      fun _ _ => ⟨rfl, rfl, fun _ => by simp⟩

/-- The worker starts tool threads for this address only and joins them all. -/
private theorem collectBdaddr_idle (unlisted : bdaddr ∉ rest)
    (left : data.ghost.unvisited radio = rest) :
    (collectBdaddr radio (stagesOf settings radio) bdaddr).Supervises (toolSupervision radio)
      (fun _ running _ => running = ∅ ∧ True) ∅ data := by
  apply supervises_bind _ (resting_of_within (countAttempt_leaves unlisted) left)
  rintro _ _ now ⟨rfl, still⟩
  have nothing : Collecting radio rest ∅ now := ⟨fun _ member => member.elim, still⟩
  apply supervises_bind _ (stagesOf_collects unlisted ∅ now nothing)
  exact fun _ running now collecting => joinExternalToolThreads_idle collecting

private theorem visit_idle (total : Nat) (pending : List Text) (nodup : pending.Nodup)
    (skipCount : Nat) : StartsNone radio (fun _ => True) (visit settings radio (stagesOf settings radio)
      (reprioritize .ble radio) total skipCount pending) := by
  induction pending generalizing skipCount with
  | nil => exact fun _ _ _ => ⟨rfl, trivial⟩
  | cons bdaddr rest inductionHypothesis =>
      obtain ⟨unlisted, distinct⟩ := List.nodup_cons.mp nodup
      intro data
      apply supervises_bind fun _ => Resting radio rest
      · apply supervises_act
        intro now _ _
        exact ⟨newly_of_same rfl, toolKeeps_of_same rfl rfl,
          fun some => absurd some Set.not_nonempty_empty,
          fun _ relied => ⟨rfl, relied.unvisited.trans (by simp)⟩⟩
      · rintro _ _ now ⟨rfl, left⟩
        apply supervises_bind _ (resting_of_within shouldSkip_leaves left)
        rintro skipped _ now ⟨rfl, left⟩
        cases skipped with
        | true =>
            apply supervises_bind _ (resting_of_within (skipBdaddr_leaves _) left)
            rintro _ _ now ⟨rfl, _⟩
            exact inductionHypothesis distinct _ now
        | false =>
            apply supervises_bind _ (collectBdaddr_idle unlisted left)
            rintro _ _ now ⟨rfl, _⟩
            exact inductionHypothesis distinct _ now

private theorem threadFunction_idle : StartsNone radio (fun _ => True) (threadFunction settings radio) := by
  intro data
  rw [threadFunction_eq]
  apply supervises_bind _ (sortedBdaddrs_idle data)
  rintro sorted _ now ⟨rfl, nodup⟩
  apply supervises_bind _ (visit_idle _ sorted nodup 0 now)
  rintro _ _ now ⟨rfl, _⟩
  apply supervises_act
  intro later _ _
  exact ⟨newly_of_same rfl, toolKeeps_of_same rfl rfl, fun _ => .of_same rfl rfl,
    fun _ _ => ⟨rfl, trivial⟩⟩

end Programs

/-! ## Steps of the others -/

section Others

variable {settings : Settings} {radio : Radio} {before after : Data}

/-- Only a worker starts tool threads. -/
private theorem started_of_modify {number : Nat} {update : Process → Process}
    (same : ∀ process, before.processes[number]? = some process →
      (update process).threadStarted = process.threadStarted)
    (changed : after.processes = before.processes.modify number update) (other : Nat)
    (started : Started other after) : Started other before := by
  obtain ⟨process, found, runs⟩ := started
  rw [changed, List.getElem?_modify] at found
  obtain ⟨earlier, there, updated⟩ := Option.map_eq_some_iff.mp found
  by_cases here : number = other
  · subst here
    simp only [if_true] at updated
    exact ⟨earlier, there, by rw [← same earlier there, updated, runs]⟩
  · simp only [here, if_false] at updated
    exact ⟨process, by rwa [← updated], runs⟩

private theorem started_of_same (same : after.processes = before.processes) (number : Nat)
    (started : Started number after) : Started number before := by
  obtain ⟨process, found, runs⟩ := started
  exact ⟨process, by rwa [← same], runs⟩

private theorem started_of_thread {thread : ThreadId} {held : List Lock}
    (step : ThreadStep settings thread held before after) (other : ∀ own, thread ≠ .worker own)
    (number : Nat) (started : Started number after) : Started number before := by
  cases thread with
  | monitor =>
      rcases step with ⟨line, rfl⟩ | ⟨asked, step⟩
      · exact started_of_same rfl number started
      · cases step <;> exact started_of_same rfl number started
  | worker own => exact absurd rfl (other own)
  | tool own =>
      obtain ⟨process, step⟩ := step
      cases step with
      | kill =>
          have same : ∀ process : Process, process.kill.threadStarted = process.threadStarted :=
            fun _ => rfl
          exact started_of_modify (fun process _ => same process) rfl number started
      | delete step => cases step <;> exact started_of_same rfl number started
      | _ => exact started_of_same rfl number started

private theorem started_of_environment {event : Outside}
    (happened : environment event before = some after) (number : Nat)
    (started : Started number after) : Started number before := by
  rcases environment_cases happened with ⟨_, _, _, _, _, _, _, rfl⟩ |
    ⟨own, process, changed, found, answered, rfl⟩ | ⟨_, _, _, rfl⟩
  · exact started_of_same rfl number started
  · have same : ∀ other : Process, before.processes[own]? = some other →
        changed.threadStarted = other.threadStarted := by
      intro other there
      obtain rfl : process = other := Option.some.inj (found.symm.trans there)
      rcases changed_cases answered with ⟨_, _, rfl⟩ | ⟨_, _, _, _, rfl⟩
      · rfl
      · rfl
    exact started_of_modify same rfl number started
  · exact started_of_same rfl number started

private theorem threads_of_launch {infoType : InfoType} {bdaddr : Text}
    (step : LaunchStep infoType bdaddr before after) (other : infoType.radio ≠ radio) :
    after.externalToolThreads radio = before.externalToolThreads radio := by
  cases step with
  | keepThread => exact Function.update_of_ne (Ne.symm other) _ _
  | _ => rfl

private theorem threads_of_delete {own : Radio} {bdaddr : Text} {held : List Lock}
    (step : DeleteStep own bdaddr held before after) :
    after.externalToolThreads = before.externalToolThreads := by
  cases step <;> rfl

private theorem threads_of_thread {thread : ThreadId} {held : List Lock}
    (step : ThreadStep settings thread held before after) (other : thread ≠ .worker radio) :
    after.externalToolThreads radio = before.externalToolThreads radio := by
  cases thread with
  | monitor =>
      rcases step with ⟨line, rfl⟩ | ⟨asked, step⟩
      · rfl
      · cases step <;> rfl
  | tool number =>
      obtain ⟨process, step⟩ := step
      cases step with
      | delete step => rw [threads_of_delete step]
      | _ => rfl
  | worker own =>
      obtain ⟨step, _⟩ := step
      cases step with
      | sort step => cases step <;> rfl
      | loop step =>
          cases step with
          | delete step => rw [threads_of_delete step]
          | _ => rfl
      | collect step =>
          cases step with
          | stage ofOwn step =>
              cases step with
              | delete step => rw [threads_of_delete step]
              | attempt => rfl
              | launch step => exact threads_of_launch step fun same => other (by rw [← same, ofOwn])
          | _ => rfl
      | _ => rfl

/-- What a worker relies on holds of the steps of all others. -/
private theorem rely_of_thread {thread : ThreadId} {held : List Lock}
    (step : ThreadStep settings thread held before after) (other : thread ≠ .worker radio) :
    SupervisedRely radio before after where
  threads := threads_of_thread step other
  unvisited := (still_of_others step other : Still radio [] before after).unvisited
  processes := (lasting_of_anyStep (.inl ⟨thread, held, step⟩)).processes

private theorem rely_of_environment (settings : Settings) {event : Outside}
    (happened : environment event before = some after) : SupervisedRely radio before after where
  threads := by
    obtain ⟨_, _, _, _, _, rfl⟩ := environment_frame happened
    rfl
  unvisited := by
    obtain ⟨_, _, _, _, _, rfl⟩ := environment_frame happened
    rfl
  processes := by
    intro number process found
    have anyStep : AnyStep settings before after := .inr ⟨event, happened⟩
    exact (lasting_of_anyStep anyStep).processes found

end Others

/-! ## Along a run -/

section Runs

variable {settings : Settings} {radio : Radio} {running : Set ThreadId}
variable {before after : Config Lock ThreadId Data Site}

/-- The worker of the radio supervises these threads, and no other tool thread of the
radio is at work. -/
structure Supervised (radio : Radio) (running : Set ThreadId)
    (config : Config Lock ThreadId Data Site) : Prop where
  worker : (config.thread (.worker radio)).Supervises (toolSupervision radio)
    (fun _ running _ => running = ∅ ∧ True) running config.shared.data
  threads : ∀ {number : Nat} {process : Process},
    config.shared.data.processes[number]? = some process → process.threadStarted = true →
      process.infoType.radio = radio → config.ended (.tool number) = true ∨
        (.tool number ∈ running ∧ process.bdaddr ∉ config.shared.data.ghost.unvisited radio)

private theorem ended_last {number : Nat} (stepped : (launcher settings).Steps before after)
    (ended : before.ended (.tool number) = true) : after.ended (.tool number) = true := by
  apply System.ended_of_steps _ stepped ended
  intro input
  cases input <;> rfl

/-- A step that is not the worker's. -/
private theorem Supervised.others (supervised : Supervised radio running before)
    (stepped : (launcher settings).Steps before after)
    (same : after.thread (.worker radio) = before.thread (.worker radio))
    (relied : SupervisedRely radio before.shared.data after.shared.data)
    (old : ∀ number process, after.shared.data.processes[number]? = some process →
      process.threadStarted = true → process.infoType.radio = radio →
      Started number before.shared.data) : Supervised radio running after where
  worker := by
    rw [same]
    exact supervised.worker.rely relied
  threads := by
    intro number process found runs own
    obtain ⟨earlier, there, ran⟩ := old number process found runs own
    obtain ⟨later, still, continues⟩ := relied.processes there
    obtain rfl : process = later := Option.some.inj (found.symm.trans still)
    rcases supervised.threads there ran (by rw [← continues.infoType, own]) with ended | ⟨kept, apart⟩
    · exact .inl (ended_last stepped ended)
    · refine .inr ⟨kept, ?_⟩
      rwa [continues.bdaddr, relied.unvisited]

/-- Its own step. -/
private theorem Supervised.own (supervised : Supervised radio running before)
    (reachable : (launcher settings).Reachable initial before)
    (stepped : (launcher settings).Steps before after)
    (own : (before.thread (.worker radio)).step (.worker radio) before.ended before.shared =
      some (after.thread (.worker radio), after.shared)) :
    ∃ remaining, Supervised radio remaining after := by
  obtain ⟨keeps, calm, remaining, supervises, fresh, kept⟩ := supervised.worker.step own
  refine ⟨remaining, supervises, ?_⟩
  intro number process found runs ofRadio
  by_cases earlier : Started number before.shared.data
  · obtain ⟨old, there, ran⟩ := earlier
    have lasting := lasting_of_anyStep (anyStep_of_steps reachable stepped)
    obtain ⟨later, still, continues⟩ := lasting.processes there
    obtain rfl : process = later := Option.some.inj (found.symm.trans still)
    rcases supervised.threads there ran (by rw [← continues.infoType, ofRadio]) with
      ended | ⟨supervisedToo, apart⟩
    · exact .inl (ended_last stepped ended)
    · rcases kept _ supervisedToo with ended | member
      · exact .inl (ended_last stepped ended)
      · refine .inr ⟨member, ?_⟩
        rwa [continues.bdaddr, (calm ⟨_, supervisedToo⟩).unvisited]
  · have new : ThreadId.tool number ∈ (toolSupervision radio).newly before.shared.data
        after.shared.data := ⟨⟨number, rfl, process, found, runs⟩, fun ⟨other, same, ran⟩ =>
          earlier (ThreadId.tool.inj same ▸ ran)⟩
    obtain ⟨launched, there, _, apart⟩ := keeps.started number ⟨process, found, runs⟩ earlier
    obtain rfl : process = launched := Option.some.inj (found.symm.trans there)
    exact .inr ⟨fresh new, apart⟩

/-- A worker that starts its next pass has joined all its tool threads. -/
private theorem Supervised.starts (supervised : Supervised radio running before)
    (resting : before.thread (.worker radio) = .done ())
    (same : after.thread (.worker radio) = threadFunction settings radio)
    (ended : ∀ number, before.ended (.tool number) = true → after.ended (.tool number) = true)
    (shared : after.shared = before.shared) : ∃ remaining, Supervised radio remaining after := by
  have worker := supervised.worker
  rw [resting] at worker
  obtain ⟨rfl, _⟩ := worker _ ((toolSupervision radio).relyRefl _)
  refine ⟨∅, by rw [same]; exact threadFunction_idle _, ?_⟩
  rw [shared]
  intro number process found runs own
  rcases supervised.threads found runs own with finished | ⟨member, _⟩
  · exact .inl (ended number finished)
  · exact member.elim

private theorem supervised_step (reachable : (launcher settings).Reachable initial before)
    (supervised : ∀ radio, ∃ running, Supervised radio running before)
    (stepped : (launcher settings).Steps before after) (radio : Radio) :
    ∃ running, Supervised radio running after := by
  obtain ⟨running, mine⟩ := supervised radio
  obtain ⟨choice, chosen⟩ := stepped
  rcases System.steps_of_choice chosen with ⟨thread, left, shared, rfl, threadStep, same⟩ |
    ⟨thread, input, program, rfl, resting, entered, same⟩ | ⟨event, data, rfl, happened, same⟩
  · by_cases own : thread = .worker radio
    · subst own
      apply mine.own reachable ⟨_, chosen⟩
      rw [same]
      simpa using threadStep
    · obtain ⟨held, _, step⟩ := threadStep_of_run reachable chosen
      refine ⟨running, mine.others ⟨_, chosen⟩ ?_ (rely_of_thread step own) ?_⟩
      · rw [same]
        exact Function.update_of_ne (Ne.symm own) _ _
      · intro number process found runs ofRadio
        by_cases worker : ∃ other, thread = .worker other
        · obtain ⟨other, rfl⟩ := worker
          obtain ⟨_, theirs⟩ := supervised other
          by_contra unstarted
          rw [same] at found
          obtain ⟨launched, there, ofOther, _⟩ :=
            (theirs.worker.step threadStep).1.started number ⟨process, found, runs⟩ unstarted
          obtain rfl : process = launched := Option.some.inj (found.symm.trans there)
          exact own (by rw [← ofRadio, ofOther])
        · exact started_of_thread step (fun other isWorker => worker ⟨other, isWorker⟩) number
            ⟨process, found, runs⟩
  · by_cases own : thread = .worker radio
    · subst own
      match input, entered with
      | none, entered =>
          obtain ⟨_, rfl⟩ : settings.threadEnabled radio = true ∧
              threadFunction settings radio = program := by
            simpa [launcher, entry] using entered
          apply mine.starts resting
          · rw [same]
            exact Function.update_self _ _ _
          · exact fun number => ended_last ⟨_, chosen⟩
          · rw [same]
    · refine ⟨running, mine.others ⟨_, chosen⟩ ?_ ?_ ?_⟩
      · rw [same]
        exact Function.update_of_ne (Ne.symm own) _ _
      · rw [same]
        exact (toolSupervision radio).relyRefl _
      · rw [same]
        exact fun number process found runs _ => ⟨process, found, runs⟩
  · refine ⟨running, mine.others ⟨_, chosen⟩ ?_ ?_ ?_⟩
    · rw [same]
    · rw [same]
      exact rely_of_environment settings happened
    · rw [same]
      exact fun number process found runs _ =>
        started_of_environment happened number ⟨process, found, runs⟩

theorem supervised_of_reachable {config : Config Lock ThreadId Data Site}
    (reachable : (launcher settings).Reachable initial config) (radio : Radio) :
    ∃ running, Supervised radio running config := by
  induction reachable generalizing radio with
  | refl => exact ⟨∅, fun _ _ => ⟨rfl, trivial⟩, fun found => absurd found (by simp [initial, Data.empty])⟩
  | tail earlier stepped inductionHypothesis =>
      exact supervised_step earlier inductionHypothesis stepped.1 radio

/-! ## Where the worker stands -/

section Stands

variable {bdaddr : Text} {program : Code Unit} {pending : List Text} {data : Data}
variable {post : Unit → Set ThreadId → Data → Prop}

/-- The worker may find the attempts of the address used up. -/
private theorem not_supervises_of_visiting (some : running.Nonempty)
    (visiting : Visiting settings radio bdaddr program pending) :
    ¬ program.Supervises (toolSupervision radio) post running data := by
  obtain ⟨unlisted, total, skipCount, rfl⟩ := visiting
  intro supervises
  unfold decideFrom shouldSkip at supervises
  rw [if_neg unlisted, bind_bind] at supervises
  let now : Data := data.setAttempts bdaddr settings.maxConnectAttempts
  have relied : (toolSupervision radio).rely data now :=
    ⟨rfl, rfl, fun {_ process} found => ⟨process, found, .refl process⟩⟩
  have calm := (supervises now relied rfl).2.1 some
  apply calm.exceeded bdaddr
  simp [now]

/-- The worker may find the address counted. -/
private theorem not_supervises_of_counting (some : running.Nonempty)
    (counting : Counting settings radio bdaddr program pending) :
    ¬ program.Supervises (toolSupervision radio) post running data := by
  obtain ⟨total, skipCount, rfl⟩ := counting
  intro supervises
  unfold collectFrom collectBdaddr countAttempt at supervises
  rw [bind_bind] at supervises
  let now : Data := data.setAttempts bdaddr 0
  have relied : (toolSupervision radio).rely data now :=
    ⟨rfl, rfl, fun {_ process} found => ⟨process, found, .refl process⟩⟩
  have calm := (supervises now relied rfl).2.1 some
  apply calm.selected bdaddr
  simp [now]

end Stands

/-- While a tool thread of the radio is at work, its address is not in the rest of the
worker's snapshot, and the worker does not select any address next. -/
theorem clear_of_atWork {config : Config Lock ThreadId Data Site} {number : Nat} {process : Process}
    (reachable : (launcher settings).Reachable initial config)
    (found : config.shared.data.processes[number]? = some process)
    (runs : process.threadStarted = true) (own : process.infoType.radio = radio)
    (atWork : config.ended (.tool number) = false) :
    process.bdaddr ∉ config.shared.data.ghost.unvisited radio ∧
      ∀ bdaddr, Clear settings radio bdaddr (config.thread (.worker radio))
        (config.shared.data.ghost.unvisited radio) := by
  obtain ⟨running, supervised⟩ := supervised_of_reachable reachable radio
  rcases supervised.threads found runs own with ended | ⟨member, apart⟩
  · rw [atWork] at ended
    simp at ended
  · apply And.intro apart
    intro bdaddr
    have position : Position settings radio bdaddr config := position_of_reachable reachable
    cases position with
    | clear stands => exact stands
    | visiting stands =>
        exact absurd supervised.worker (not_supervises_of_visiting ⟨_, member⟩ stands)
    | counting stands =>
        exact absurd supervised.worker (not_supervises_of_counting ⟨_, member⟩ stands)

end Runs

end NaiveBTSniffing.Launcher
