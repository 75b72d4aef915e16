import NaiveBTSniffing.Launcher.Rules

/-!
Contract: when a worker dies.

The only lookups of a worker that another thread can make fail are those of its
sort: they run without a lock on a snapshot of the keys. Apart from them only the
open of the SDP tool's output file can raise. `worker_not_raised` says that a
worker never dies in a run in which no address is removed while the sort has
still to read its RSSI and no such open is refused; `sort_fails` is a run in which
an address is removed.

Owns the contract `snapshotContract` between the threads.
-/

namespace NaiveBTSniffing.Launcher

open NaiveBTSniffing.Library
open NaiveBTSniffing.Library.Interleaving
open NaiveBTSniffing.Library.Interleaving.Prog

/-- No step removes an address whose RSSI the sort of its worker has yet to
read. -/
def KeepsPending (before after : Data) : Prop :=
  ∀ radio, ∀ bdaddr ∈ before.ghost.sortPending radio,
    bdaddr ∈ before.bdaddrs radio → bdaddr ∈ after.bdaddrs radio

instance : DecidableRel KeepsPending := fun before after =>
  inferInstanceAs (Decidable (∀ radio, ∀ bdaddr ∈ before.ghost.sortPending radio,
    bdaddr ∈ before.bdaddrs radio → bdaddr ∈ after.bdaddrs radio))

/-- No step removes an address whose RSSI the sort of its worker has yet to read, and
the operating system refuses no open of an output file. -/
def SparesWorkers (before after : Data) : Prop :=
  KeepsPending before after ∧ after.openFails = false

instance : DecidableRel SparesWorkers := fun before after =>
  inferInstanceAs (Decidable (KeepsPending before after ∧ after.openFails = false))

/-! ## The terms -/

/-- Every address in a dictionary has a counter. -/
def Counted (data : Data) : Prop :=
  ∀ radio bdaddr, bdaddr ∈ data.bdaddrs radio ∨ bdaddr ∈ data.deprioritizedBdaddrs radio →
    bdaddr ∈ data.deviceConnectAttempts

/-- What a thread may assume about the others. -/
structure SnapshotRely (thread : ThreadId) (held : List Lock) (before after : Data) : Prop where
  attempts : ∀ bdaddr ∈ before.deviceConnectAttempts, bdaddr ∈ after.deviceConnectAttempts
  tracked : ∀ radio, Lock.bdaddrs radio ∈ held →
    ∀ bdaddr ∈ before.bdaddrs radio, bdaddr ∈ after.bdaddrs radio
  parked : ∀ radio, thread = .worker radio →
    ∀ bdaddr ∈ before.deprioritizedBdaddrs radio, bdaddr ∈ after.deprioritizedBdaddrs radio
  pending : ∀ radio, thread = .worker radio →
    after.ghost.sortPending radio = before.ghost.sortPending radio
  kept : ∀ radio, thread = .worker radio → ∀ bdaddr ∈ before.ghost.sortPending radio,
    bdaddr ∈ before.bdaddrs radio → bdaddr ∈ after.bdaddrs radio

/-- What a thread promises about each of its steps. -/
structure SnapshotGuar (thread : ThreadId) (held : List Lock) (before after : Data) : Prop where
  attempts : ∀ bdaddr ∈ before.deviceConnectAttempts, bdaddr ∈ after.deviceConnectAttempts
  tracked : ∀ radio, ∀ bdaddr ∈ before.bdaddrs radio, bdaddr ∉ after.bdaddrs radio →
    Lock.bdaddrs radio ∈ held
  parked : ∀ radio, thread ≠ .worker radio →
    ∀ bdaddr ∈ before.deprioritizedBdaddrs radio, bdaddr ∈ after.deprioritizedBdaddrs radio
  pending : ∀ radio, thread ≠ .worker radio →
    after.ghost.sortPending radio = before.ghost.sortPending radio
  kept : KeepsPending before after

def snapshotContract : LauncherContract where
  inv := Counted
  lockInv := fun _ _ => True
  rely := SnapshotRely
  guar := SnapshotGuar
  rest := fun _ _ => True
  dead := fun thread _ => ∀ radio, thread ≠ .worker radio
  allowed := SparesWorkers
  relyRefl := fun _ _ _ =>
    ⟨fun _ member => member, fun _ _ _ member => member, fun _ _ _ member => member,
      fun _ _ => rfl, fun _ _ _ _ member => member⟩
  relyTrans := fun first second =>
    { attempts := fun bdaddr member => second.attempts bdaddr (first.attempts bdaddr member)
      tracked := fun radio locked bdaddr member =>
        second.tracked radio locked bdaddr (first.tracked radio locked bdaddr member)
      parked := fun radio own bdaddr member =>
        second.parked radio own bdaddr (first.parked radio own bdaddr member)
      pending := fun radio own => (second.pending radio own).trans (first.pending radio own)
      kept := fun radio own bdaddr waits member =>
        second.kept radio own bdaddr (by rwa [first.pending radio own])
          (first.kept radio own bdaddr waits member) }
  relyLock := fun relied =>
    { relied with
      tracked := fun radio locked => relied.tracked radio (List.mem_cons_of_mem _ locked) }
  relyFree := fun _ _ _ => trivial
  guarRefl := fun _ _ _ =>
    ⟨fun _ member => member, fun _ _ member missing => absurd member missing,
      fun _ _ _ member => member, fun _ _ => rfl, fun _ _ _ member => member⟩

/-! ## Stable assertions -/

section Stable

variable {thread : ThreadId} {held : List Lock}

private theorem counter_stable (bdaddr : Text) :
    snapshotContract.Stable thread held fun data => bdaddr ∈ data.deviceConnectAttempts :=
  fun _ _ member _ _ relied => relied.attempts bdaddr member

/-- Every address of the list has a counter. -/
private abbrev HaveCounters (bdaddrs : List Text) (data : Data) : Prop :=
  ∀ bdaddr ∈ bdaddrs, bdaddr ∈ data.deviceConnectAttempts

private theorem haveCounters_stable (bdaddrs : List Text) :
    snapshotContract.Stable thread held (HaveCounters bdaddrs) :=
  fun _ _ all _ _ relied bdaddr member => relied.attempts bdaddr (all bdaddr member)

private theorem tracked_stable {radio : Radio} (locked : Lock.bdaddrs radio ∈ held)
    (bdaddr : Text) : snapshotContract.Stable thread held fun data => bdaddr ∈ data.bdaddrs radio :=
  fun _ _ member _ _ relied => relied.tracked radio locked bdaddr member

private theorem parked_stable {radio : Radio} (bdaddr : Text) :
    snapshotContract.Stable (.worker radio) held fun data =>
      bdaddr ∈ data.deprioritizedBdaddrs radio :=
  fun _ _ member _ _ relied => relied.parked radio rfl bdaddr member

end Stable

/-! ## The elementary steps keep the terms -/

private theorem Counted.of_step {before after : Data} (counted : Counted before)
    (attempts : ∀ bdaddr ∈ before.deviceConnectAttempts, bdaddr ∈ after.deviceConnectAttempts)
    (tracked : ∀ radio, ∀ bdaddr ∈ after.bdaddrs radio,
      bdaddr ∈ before.bdaddrs radio ∨ bdaddr ∈ before.deviceConnectAttempts)
    (deprioritized : ∀ radio, ∀ bdaddr ∈ after.deprioritizedBdaddrs radio,
      bdaddr ∈ before.deprioritizedBdaddrs radio ∨ bdaddr ∈ before.deviceConnectAttempts) :
    Counted after := by
  intro radio bdaddr present
  refine attempts bdaddr ?_
  rcases present with member | member
  · exact (tracked radio bdaddr member).elim (fun old => counted radio bdaddr (.inl old)) id
  · exact (deprioritized radio bdaddr member).elim (fun old => counted radio bdaddr (.inr old)) id

section Steps

variable {held : List Lock} {before after : Data}

private theorem command_ok {asked : Command} (step : CommandStep held asked before after)
    (counted : Counted before)
    (known : ∀ bdaddr, asked.bdaddr = some bdaddr → bdaddr ∈ before.deviceConnectAttempts)
    (admitted : SparesWorkers before after) :
    Counted after ∧ SnapshotGuar .monitor held before after := by
  refine ⟨counted.of_step (fun _ => step.attempts) (fun _ bdaddr member => ?_)
    (fun _ bdaddr member => ?_), ?_⟩
  · exact (step.tracked member).imp id (known bdaddr)
  · exact (step.deprioritized member).imp id (known bdaddr)
  · exact
      { attempts := fun _ => step.attempts
        tracked := fun _ _ => step.untracked
        parked := fun _ _ _ => step.staysDeprioritized
        pending := fun _ _ => congrFun step.sortPending _
        kept := admitted.1 }

private theorem worker_ok {radio : Radio} (step : WorkerStep radio held before after)
    (counted : Counted before)
    (known : ∀ own, ∀ bdaddr ∈ after.bdaddrs own,
      bdaddr ∈ before.bdaddrs own ∨ bdaddr ∈ before.deviceConnectAttempts)
    (admitted : SparesWorkers before after) :
    Counted after ∧ SnapshotGuar (.worker radio) held before after := by
  refine ⟨counted.of_step (fun _ => step.attempts) known
    fun _ _ member => .inl (step.deprioritized member), ?_⟩
  exact
    { attempts := fun _ => step.attempts
      tracked := fun _ _ => step.untracked
      parked := fun _ different _ => step.staysDeprioritized fun same => different (by rw [same])
      pending := fun _ different => step.sortPending fun same => different (by rw [same])
      kept := admitted.1 }

private theorem loop_ok {radio : Radio} {bdaddr : Text}
    (step : LoopStep radio bdaddr held before after) (counted : Counted before)
    (admitted : SparesWorkers before after) :
    Counted after ∧ SnapshotGuar (.worker radio) held before after :=
  worker_ok (.loop step) counted
    (fun _ _ member => .inl ((OnlyDeletes.of_loop step).tracked member)) admitted

private theorem collect_ok {radio : Radio} {bdaddr : Text}
    (step : CollectStep radio bdaddr held before after) (counted : Counted before)
    (admitted : SparesWorkers before after) :
    Counted after ∧ SnapshotGuar (.worker radio) held before after :=
  worker_ok (.collect step) counted (fun _ _ member => .inl (step.tracked member)) admitted

private theorem launch_ok (held : List Lock) {infoType : InfoType} {bdaddr : Text}
    (step : LaunchStep infoType bdaddr before after) (counted : Counted before)
    (admitted : SparesWorkers before after) :
    Counted after ∧ SnapshotGuar (.worker infoType.radio) held before after :=
  collect_ok (.stage rfl (.launch step)) counted admitted

private theorem tool_ok {number : Nat} {process : Process}
    (step : ToolStep number process held before after) (counted : Counted before)
    (admitted : SparesWorkers before after) :
    Counted after ∧ SnapshotGuar (.tool number) held before after := by
  have deletes := OnlyDeletes.of_tool step
  refine ⟨counted.of_step (fun _ member => by rwa [deletes.deviceConnectAttempts])
    (fun _ _ member => .inl (deletes.tracked member))
    (fun _ _ member => .inl (by rwa [deletes.deprioritizedBdaddrs] at member)), ?_⟩
  exact
    { attempts := fun _ member => by rwa [deletes.deviceConnectAttempts]
      tracked := fun _ _ => deletes.untracked
      parked := fun _ _ _ member => by rwa [deletes.deprioritizedBdaddrs]
      pending := fun _ _ => congrFun deletes.sortPending _
      kept := admitted.1 }

end Steps

/-! ## The monitor and the tool threads -/

section Monitor

variable {held : List Lock} {asked : Command} {bdaddr : Text}

/-- What follows once the address of the command is known to have a counter. -/
private theorem command_frame {program : Code Unit}
    (within : program.Within (fun held => CommandStep held asked) held held)
    (names : ∀ other, asked.bdaddr = some other → other = bdaddr) :
    Triple snapshotContract .monitor held (fun _ => True)
      (fun data => bdaddr ∈ data.deviceConnectAttempts) program
      fun _ data => bdaddr ∈ data.deviceConnectAttempts := by
  refine Triple.frame within (counter_stable bdaddr) (fun now data after _ counted known step
    admitted => ?_) (fun _ _ _ _ _ free => free) fun _ _ _ => trivial
  obtain ⟨invariant, promise⟩ :=
    command_ok step counted (fun other named => by rwa [names other named]) admitted
  exact ⟨invariant, promise, step.attempts known⟩

/-- A block that starts with finding the address among the tracked ones. -/
private theorem whenTracked_monitor {radio : Radio} {body : Code Unit}
    (within : body.Within (fun held => CommandStep held asked)
      (.bdaddrs radio :: held) (.bdaddrs radio :: held))
    (names : ∀ other, asked.bdaddr = some other → other = bdaddr) :
    Triple snapshotContract .monitor held (fun _ => True) (fun _ => True)
      (whenTracked radio bdaddr body) fun _ _ => True :=
  Rule.whenTrackedBare (fun _ => trivial) (Contract.stable_const _ _ _ _) (counter_stable bdaddr)
    (Contract.stable_const _ _ _ _) (Contract.stable_const _ _ _ _)
    (fun _ counted _ member => counted radio bdaddr (.inl member)) (fun _ _ _ => trivial)
    ((command_frame within names).weaken (fun _ _ holds => holds) fun _ _ _ _ => trivial)

private theorem processCommand_triple (asked : Command) :
    Triple snapshotContract .monitor [] (fun _ => True) (fun _ => True) (processCommand asked)
      fun _ _ => True := by
  cases asked with
  | new bdaddr type addressType =>
      refine Triple.bind (fun _ data => bdaddr ∈ data.deviceConnectAttempts)
        (Rule.change (Contract.stable_const _ _ _ _) (counter_stable bdaddr)
          fun data counted _ admitted => ?_) fun _ => ?_
      · have step : CommandStep [] (.new bdaddr type addressType) data _ := .resetAttempts
        refine ⟨counted.of_step (fun _ => step.attempts) (fun _ _ member => .inl member)
          (fun _ _ member => .inl member), ?_, by simp⟩
        exact
          { attempts := fun _ => step.attempts
            tracked := fun _ _ => step.untracked
            parked := fun _ _ _ => step.staysDeprioritized
            pending := fun _ _ => congrFun step.sortPending _
            kept := admitted.1 }
      · have within : (Prog.withLock (.bdaddrs (newRadio type)) (Code.change fun data =>
            data.setTracked (newRadio type) ((data.bdaddrs (newRadio type)).setItem bdaddr
              (addressType, -80)))).Within
            (fun held => CommandStep held (.new bdaddr type addressType)) [] [] :=
          within_withLock <| within_change fun _ => .trackNew (by simp)
        exact (command_frame within (by simp [Command.bdaddr])).weaken (fun _ _ holds => holds)
          fun _ _ _ _ => trivial
  | rssi bdaddr word =>
      exact Triple.bind (fun _ _ => True)
        (whenTracked_monitor (storeRssi_within bdaddr word (by simp)) (by simp [Command.bdaddr]))
        fun _ => whenTracked_monitor (storeRssi_within bdaddr word (by simp))
          (by simp [Command.bdaddr])
  | manufacturerData bdaddr more =>
      cases more with
      | nil => exact Triple.raised (Contract.stable_const _ _ _ _) fun _ _ _ => trivial
      | cons vendor rest =>
          refine Triple.ite (fun _ => Triple.bind (fun _ _ => True)
            (whenTracked_monitor (park_within bdaddr vendor rest (by simp))
              (by simp [Command.bdaddr])) fun _ =>
            whenTracked_monitor (park_within bdaddr vendor rest (by simp))
              (by simp [Command.bdaddr])) fun _ =>
            Triple.done (Contract.stable_const _ _ _ _) fun _ _ _ => trivial
  | del bdaddr type =>
      simp only [processCommand, processDel]
      cases named : delRadio type with
      | none => exact Triple.raised (Contract.stable_const _ _ _ _) fun _ _ _ => trivial
      | some radio =>
          have within : (deleteTracked radio bdaddr fun data =>
              data.record (.deleted radio bdaddr)).Within
              (fun held => CommandStep held (.del bdaddr type))
              [.bdaddrs radio] [.bdaddrs radio] :=
            within_demand fun _ => .delete named (by simp)
          exact whenTracked_monitor within (by simp [Command.bdaddr])
  | ignored => exact Triple.done (Contract.stable_const _ _ _ _) fun _ _ _ => trivial

private theorem runProcess_triple (number : Nat) (process : Process) :
    Triple snapshotContract (.tool number) [] (fun _ => True) (fun _ => True)
      (ApplicationThread.runProcess number process) fun _ _ => True := by
  refine Triple.frame runProcess_within (Contract.stable_const _ _ _ _)
    (fun now data after _ counted _ step admitted => ?_) (fun _ _ _ _ _ free => free)
    fun _ _ _ => trivial
  obtain ⟨invariant, promise⟩ := tool_ok step counted admitted
  exact ⟨invariant, promise, trivial⟩

end Monitor

/-! ## The workers -/

section Worker

variable {α : Type} {radio : Radio} {held : List Lock} {bdaddrs : List Text} {bdaddr : Text}

/-- A program of a worker that cannot raise. -/
private abbrev Succeeds (radio : Radio) (held : List Lock) (pre : Data → Prop) (program : Code α)
    (post : α → Data → Prop) : Prop :=
  Triple snapshotContract (.worker radio) held (fun _ => False) pre program post

private theorem never_stable : snapshotContract.Stable (.worker radio) held fun _ => False :=
  Contract.stable_const _ _ _ _

private theorem look_succeeds (view : Data → α) :
    Succeeds radio held (HaveCounters bdaddrs) (Code.look view) fun _ => HaveCounters bdaddrs :=
  Rule.look (haveCounters_stable _) (fun _ => haveCounters_stable _) fun _ _ holds => holds

private theorem done_succeeds (value : α) :
    Succeeds radio held (HaveCounters bdaddrs) (Prog.done value) fun _ => HaveCounters bdaddrs :=
  Triple.done (haveCounters_stable _) fun _ _ holds => holds

private theorem change_succeeds {update : Data → Data}
    (step : ∀ data, WorkerStep radio held data (update data))
    (same : ∀ data, (update data).bdaddrs = data.bdaddrs) :
    Succeeds radio held (HaveCounters bdaddrs) (Code.change update) fun _ =>
      HaveCounters bdaddrs := by
  refine Rule.change (haveCounters_stable _) (haveCounters_stable _)
    fun data counted known admitted => ?_
  obtain ⟨invariant, promise⟩ := worker_ok (step data) counted
    (fun _ _ member => .inl (by rwa [same] at member)) admitted
  exact ⟨invariant, promise, fun other member => (step data).attempts (known other member)⟩

private theorem deleteTracked_succeeds (locked : Lock.bdaddrs radio ∈ held) :
    Succeeds radio held (fun data => HaveCounters bdaddrs data ∧ bdaddr ∈ data.bdaddrs radio)
      (deleteTracked radio bdaddr fun data => data.record (.deleted radio bdaddr))
      fun _ => HaveCounters bdaddrs := by
  refine Rule.demand ((haveCounters_stable _).and (tracked_stable locked bdaddr))
    (fun _ => haveCounters_stable _) never_stable fun data counted known admitted => ?_
  have step : DeleteStep radio bdaddr held data (data.delete radio bdaddr) := .delete locked
  obtain ⟨invariant, promise⟩ := loop_ok (.delete step) counted admitted
  refine ⟨invariant, promise, fun _ _ => known.1, ?_⟩
  obtain ⟨stored, present⟩ := (Dict.mem_iff_lookup _ _).mp known.2
  simp [present]

private theorem lockedDeleteFromDict_succeeds :
    Succeeds radio held (HaveCounters bdaddrs) (lockedDeleteFromDict radio bdaddr)
      fun _ => HaveCounters bdaddrs :=
  Rule.whenTrackedBare (fun _ => trivial) (haveCounters_stable _)
    ((haveCounters_stable _).and (tracked_stable (by simp) bdaddr)) (haveCounters_stable _)
    never_stable (fun _ _ known member => ⟨known, member⟩) (fun _ _ known => known)
    (deleteTracked_succeeds (by simp))

private theorem deleteIfAllDone_succeeds :
    Succeeds radio held (HaveCounters bdaddrs) (deleteIfAllDone radio bdaddr)
      fun _ => HaveCounters bdaddrs := by
  have both : ∀ first second, Succeeds radio held (HaveCounters bdaddrs)
      (all2thprintsDone.both bdaddr first second) fun _ => HaveCounters bdaddrs :=
    fun _ _ => Triple.bind _ (look_succeeds _) fun _ =>
      Triple.ite (fun _ => look_succeeds _) fun _ => done_succeeds _
  refine Triple.bind (fun _ => HaveCounters bdaddrs) ?_ fun _ =>
    Triple.ite (fun _ => lockedDeleteFromDict_succeeds) fun _ => done_succeeds _
  cases radio
  · exact both _ _
  · exact both _ _

/-! ### The sort -/

/-- The sort has still to read these addresses, and all of them are there. -/
private def Pending (radio : Radio) (pending : List Text) (data : Data) : Prop :=
  data.ghost.sortPending radio = pending ∧ ∀ bdaddr ∈ pending, bdaddr ∈ data.bdaddrs radio

private theorem pending_stable (pending : List Text) :
    snapshotContract.Stable (.worker radio) held (Pending radio pending) := by
  intro before after holds _ _ relied
  refine ⟨(relied.pending radio rfl).trans holds.1, fun bdaddr member => ?_⟩
  exact relied.kept radio rfl bdaddr (by rwa [holds.1]) (holds.2 bdaddr member)

private theorem sort_ok (held : List Lock) {before after : Data}
    (step : SortStep radio before after) (counted : Counted before)
    (admitted : SparesWorkers before after) :
    Counted after ∧ SnapshotGuar (.worker radio) held before after :=
  worker_ok (.sort step) counted (fun _ _ member => .inl (by rwa [step.bdaddrs] at member))
    admitted

/-- Every lookup of the sort succeeds while no pending address is removed. -/
private theorem readRssis_succeeds (keys pending : List Text) :
    Succeeds radio held (fun data => Pending radio pending data ∧ HaveCounters keys data)
      (readRssis radio pending)
      fun rssis data => rssis.map Prod.fst = pending ∧ HaveCounters keys data := by
  induction pending with
  | nil =>
      exact Triple.done ((Contract.stable_const _ _ _ _).and (haveCounters_stable _))
        fun _ _ holds => ⟨rfl, holds.2⟩
  | cons bdaddr rest inductionHypothesis =>
      refine Triple.bind (fun _ data => Pending radio rest data ∧ HaveCounters keys data)
        (Rule.demand ((pending_stable _).and (haveCounters_stable _))
          (fun _ => (pending_stable _).and (haveCounters_stable _)) never_stable ?_) fun stored => ?_
      · intro data counted holds admitted
        have step : SortStep radio data (data.setSortPending radio rest) := .readRssi
        obtain ⟨invariant, promise⟩ := sort_ok held step counted admitted
        refine ⟨invariant, promise, fun _ _ => ⟨⟨by simp, fun other member => ?_⟩, holds.2⟩, ?_⟩
        · exact holds.1.2 other (List.mem_cons_of_mem _ member)
        · obtain ⟨stored, present⟩ := (Dict.mem_iff_lookup _ _).mp (holds.1.2 bdaddr (by simp))
          simp [present]
      · refine Triple.bind _ inductionHypothesis fun rssis => Triple.of_pure fun same => ?_
        exact Triple.done ((Contract.stable_const _ _ _ _).and (haveCounters_stable _))
          fun _ _ holds => ⟨by simp [same], holds⟩

private theorem sortedBdaddrs_succeeds :
    Succeeds radio held (fun _ => True) (sortedBdaddrs radio) HaveCounters := by
  refine Triple.bind (fun keys data => Pending radio keys data ∧ HaveCounters keys data)
    (Rule.exchange (Contract.stable_const _ _ _ _)
      (fun _ => (pending_stable _).and (haveCounters_stable _)) ?_) fun keys => ?_
  · intro data counted _ admitted
    obtain ⟨invariant, promise⟩ := sort_ok held .snapshot counted admitted
    exact ⟨invariant, promise, ⟨by simp, fun other member => AList.mem_keys.mpr member⟩,
      fun other member => counted radio other (.inl (AList.mem_keys.mpr member))⟩
  · refine Triple.bind _ (readRssis_succeeds keys keys) fun rssis => Triple.of_pure fun same => ?_
    refine Triple.bind (fun _ => HaveCounters keys) (Rule.change (haveCounters_stable _)
      (haveCounters_stable _) fun data counted known admitted => ?_) fun _ => ?_
    · obtain ⟨invariant, promise⟩ := sort_ok held .sorted counted admitted
      exact ⟨invariant, promise, known⟩
    · refine Triple.done (haveCounters_stable _) fun _ _ known other member => known other ?_
      rw [← same]
      exact mem_sortByRssi member

/-! ### The tools -/

private theorem launchTool_succeeds {infoType : InfoType} (own : infoType.radio = radio)
    (arguments : List Text) :
    Succeeds radio held (HaveCounters bdaddrs) (launchTool infoType bdaddr arguments)
      fun _ => HaveCounters bdaddrs := by
  subst own
  refine Triple.bind (fun _ => HaveCounters bdaddrs)
    (Rule.exchange (haveCounters_stable _) (fun _ => haveCounters_stable _)
      fun data counted known admitted => ?_) fun launched => ?_
  · split at admitted
    · next refused =>
        rw [if_pos refused]
        exact ⟨counted, snapshotContract.guarRefl _ _ _, known⟩
    · next accepted =>
        rw [if_neg accepted]
        have step : LaunchStep infoType bdaddr data (data.launch infoType bdaddr arguments) :=
          .launch (by simpa using accepted)
        obtain ⟨invariant, promise⟩ :=
          launch_ok held step counted admitted
        exact ⟨invariant, promise, known⟩
  · cases launched with
    | none => exact done_succeeds _
    | some number =>
        refine Triple.bind (fun _ => HaveCounters bdaddrs)
          (Rule.exchange (haveCounters_stable _) (fun _ => haveCounters_stable _)
            fun data counted known admitted => ?_) fun _ => Triple.ite (fun _ => ?_)
              fun _ => done_succeeds _
        · split at admitted
          · next refused =>
              rw [if_pos refused]
              exact ⟨counted, snapshotContract.guarRefl _ _ _, known⟩
          · next accepted =>
              rw [if_neg accepted]
              have step : LaunchStep infoType bdaddr data (data.startThread number) :=
                .startThread (by simpa using accepted)
              obtain ⟨invariant, promise⟩ :=
                launch_ok held step counted admitted
              exact ⟨invariant, promise, known⟩
        · exact change_succeeds
            (fun _ => .collect (.stage rfl (.launch (.keepThread : LaunchStep infoType bdaddr _ _))))
            fun _ => rfl

private theorem startGatt_succeeds (locked : Lock.bdaddrs .ble ∈ held) :
    Succeeds .ble held (fun data => HaveCounters bdaddrs data ∧ bdaddr ∈ data.bdaddrs .ble)
      (startGatt bdaddr) fun _ => HaveCounters bdaddrs := by
  have stable : snapshotContract.Stable (.worker .ble) held fun data =>
      HaveCounters bdaddrs data ∧ bdaddr ∈ data.bdaddrs .ble :=
    (haveCounters_stable _).and (tracked_stable locked bdaddr)
  refine Triple.bind
    (fun _ data => HaveCounters bdaddrs data ∧ bdaddr ∈ data.bdaddrs .ble)
    (Rule.change stable stable fun data counted holds admitted => ?_) fun _ => ?_
  · have step : StageStep .gatt bdaddr held data (data.appendLog .gattprint (.attempt bdaddr)) :=
      .attempt rfl
    obtain ⟨invariant, promise⟩ := collect_ok (.stage rfl step) counted admitted
    exact ⟨invariant, promise, holds⟩
  · refine Triple.bind (fun _ => HaveCounters bdaddrs) (Rule.demand stable
      (fun _ => haveCounters_stable _) never_stable fun data counted holds _ => ?_) fun stored =>
        launchTool_succeeds (show InfoType.gatt.radio = .ble from rfl) _
    obtain ⟨stored, present⟩ := (Dict.mem_iff_lookup _ _).mp holds.2
    exact ⟨counted, snapshotContract.guarRefl _ _ _, fun _ _ => holds.1, by simp [present]⟩

private theorem launchOf_succeeds {infoType : InfoType} (own : infoType.radio = radio) :
    Succeeds radio held (HaveCounters bdaddrs) (launchOf infoType bdaddr)
      fun _ => HaveCounters bdaddrs := by
  subst own
  have logged : ∀ {held file}, infoType.logFile = some file →
      Succeeds infoType.radio held (HaveCounters bdaddrs)
        (Code.change fun data => data.appendLog file (.attempt bdaddr))
        fun _ => HaveCounters bdaddrs :=
    fun named => change_succeeds (fun _ => .collect (.stage rfl (.attempt named))) fun _ => rfl
  cases infoType with
  | gatt =>
      exact Rule.whenTrackedBare (fun _ => trivial) (haveCounters_stable _)
        ((haveCounters_stable _).and (tracked_stable (by simp) bdaddr)) (haveCounters_stable _)
        never_stable (fun _ _ known member => ⟨known, member⟩) (fun _ _ known => known)
        (startGatt_succeeds (by simp))
  | ll2thprint => exact launchTool_succeeds rfl _
  | lmp2thprint =>
      exact Triple.bind _ (logged rfl) fun _ => launchTool_succeeds rfl _
  | sdp =>
      refine Triple.bind _ (logged rfl) fun _ =>
        Triple.bind (fun _ => HaveCounters bdaddrs) (Rule.demand (haveCounters_stable _)
          (fun _ => haveCounters_stable _) never_stable fun data counted known admitted => ?_)
          fun _ => launchTool_succeeds rfl _
      have opens : data.openFails = false := admitted.2
      exact ⟨counted, snapshotContract.guarRefl _ _ _, fun _ _ => known, by simp [opens]⟩

private theorem runStage_succeeds (settings : Settings) (infoType : InfoType)
    (own : infoType.radio = radio) :
    Succeeds radio held (HaveCounters bdaddrs)
      (runStage settings infoType bdaddr (launchOf infoType bdaddr))
      fun _ => HaveCounters bdaddrs := by
  subst own
  refine Triple.ite (fun _ => Triple.bind (fun _ => HaveCounters bdaddrs) ?_ fun _ => ?_)
    fun _ => done_succeeds _
  · refine Triple.withBareLock (fun _ => trivial) (haveCounters_stable _) ?_ (fun _ => haveCounters_stable _)
      never_stable
    refine Triple.bind _ (look_succeeds _) fun _ => Triple.ite (fun _ => ?_)
      fun _ => done_succeeds _
    exact Triple.bind _ deleteIfAllDone_succeeds fun _ => done_succeeds _
  · exact Triple.ite (fun _ => done_succeeds _) fun _ => Triple.bind _ (look_succeeds _) fun _ =>
      Triple.ite (fun _ => launchOf_succeeds rfl) fun _ => done_succeeds _

private theorem stagesOf_succeeds (settings : Settings) :
    Succeeds radio held (HaveCounters bdaddrs) (stagesOf settings radio bdaddr)
      fun _ => HaveCounters bdaddrs := by
  cases radio with
  | ble =>
      exact Triple.bind _ (runStage_succeeds settings .gatt rfl) fun _ =>
        runStage_succeeds settings .ll2thprint rfl
  | btc =>
      exact Triple.bind _ (runStage_succeeds settings .lmp2thprint rfl) fun _ =>
        runStage_succeeds settings .sdp rfl

/-! ### The loop -/

private theorem collectBdaddr_succeeds (settings : Settings) (member : bdaddr ∈ bdaddrs) :
    Succeeds radio held (HaveCounters bdaddrs)
      (collectBdaddr radio (stagesOf settings radio) bdaddr) fun _ => HaveCounters bdaddrs := by
  refine Triple.bind (fun _ => HaveCounters bdaddrs) (Rule.demand (haveCounters_stable _)
    (fun _ => haveCounters_stable _) never_stable fun data counted known admitted => ?_) fun _ =>
      Triple.bind _ (stagesOf_succeeds settings) fun _ =>
        Triple.bind _ (look_succeeds _) fun _ => Triple.forEach (haveCounters_stable _) fun _ _ =>
          Triple.joinThread (haveCounters_stable _) (haveCounters_stable _)
            fun _ _ known _ => known
  obtain ⟨attempts, present⟩ := (Dict.mem_iff_lookup _ _).mp (known bdaddr member)
  simp only [present] at admitted ⊢
  have step : CollectStep radio bdaddr held data (data.select radio bdaddr attempts) :=
    .countAttempt present
  obtain ⟨invariant, promise⟩ := collect_ok step counted admitted
  exact ⟨invariant, promise, fun _ _ other member => step.attempts (known other member), by simp⟩

private theorem shouldSkip_succeeds (settings : Settings) (member : bdaddr ∈ bdaddrs) :
    Succeeds radio held (HaveCounters bdaddrs) (shouldSkip settings radio bdaddr)
      fun _ => HaveCounters bdaddrs := by
  refine Triple.ite (fun _ => done_succeeds _) fun _ => Triple.bind (fun _ => HaveCounters bdaddrs)
    (Rule.demand (haveCounters_stable _) (fun _ => haveCounters_stable _) never_stable
      fun data counted known admitted => ?_) fun _ => done_succeeds _
  obtain ⟨attempts, present⟩ := (Dict.mem_iff_lookup _ _).mp (known bdaddr member)
  simp only [present] at admitted ⊢
  split at admitted
  · next exceeded =>
      rw [if_pos exceeded]
      have step : LoopStep radio bdaddr held data (data.record (.exceeded radio bdaddr)) :=
        .exceeded
      obtain ⟨invariant, promise⟩ := loop_ok step counted admitted
      exact ⟨invariant, promise, fun _ _ => known, by simp⟩
  · next below =>
      rw [if_neg below]
      exact ⟨counted, snapshotContract.guarRefl _ _ _, fun _ _ => known, by simp⟩

/-- The address to be moved is in the deprioritized dictionary, from which only
this worker takes. -/
private theorem unpark_succeeds (locked : Lock.bdaddrs .ble ∈ held)
    (lockedToo : Lock.deprioritized radio ∈ held) :
    Succeeds radio held
      (fun data => HaveCounters (bdaddr :: bdaddrs) data ∧
        bdaddr ∈ data.deprioritizedBdaddrs radio)
      (unpark radio bdaddr) fun _ => HaveCounters bdaddrs := by
  have stable : snapshotContract.Stable (.worker radio) held fun data =>
      HaveCounters (bdaddr :: bdaddrs) data ∧ bdaddr ∈ data.deprioritizedBdaddrs radio :=
    (haveCounters_stable _).and (parked_stable bdaddr)
  refine Triple.bind (fun _ data => HaveCounters (bdaddr :: bdaddrs) data ∧
    bdaddr ∈ data.deprioritizedBdaddrs radio) (Rule.demand stable (fun _ => stable) never_stable
      fun data counted holds _ => ?_) fun stored => ?_
  · obtain ⟨value, present⟩ := (Dict.mem_iff_lookup _ _).mp holds.2
    exact ⟨counted, snapshotContract.guarRefl _ _ _, fun _ _ => holds, by simp [present]⟩
  refine Triple.bind (fun _ => HaveCounters (bdaddr :: bdaddrs)) (Rule.demand stable
    (fun _ => haveCounters_stable _) never_stable fun data counted holds admitted => ?_) fun _ => ?_
  · have step : WorkerStep radio held data (data.unpark radio bdaddr) := .unpark locked lockedToo
    obtain ⟨invariant, promise⟩ :=
      worker_ok step counted (fun _ _ member => .inl member) admitted
    obtain ⟨value, present⟩ := (Dict.mem_iff_lookup _ _).mp holds.2
    exact ⟨invariant, promise, fun _ _ => holds.1, by simp [present]⟩
  · refine Rule.change (haveCounters_stable _) (haveCounters_stable _)
      fun data counted known admitted => ?_
    have step : WorkerStep radio held data
        (data.retrack radio bdaddr (stored.1, stored.2.1)) := .retrack locked lockedToo
    have counter := known bdaddr (by simp)
    obtain ⟨invariant, promise⟩ :=
      worker_ok step counted (fun own other member => by simp at member; grind) admitted
    exact ⟨invariant, promise, fun other member => known other (List.mem_cons_of_mem _ member)⟩

private theorem reprioritizeFirst_succeeds :
    Succeeds radio [] (HaveCounters bdaddrs) (reprioritizeFirst radio (reprioritize .ble radio))
      fun _ => HaveCounters bdaddrs := by
  refine Triple.bind (fun found data => HaveCounters bdaddrs data ∧
    (found = true → ∃ bdaddr, bdaddr ∈ data.deprioritizedBdaddrs radio))
    (Rule.look (haveCounters_stable _) (fun found => ?_) fun data _ known => ⟨known, ?_⟩)
    fun found => Triple.ite (fun someThere => ?_) fun _ =>
      Triple.done (haveCounters_stable _) fun _ _ holds => holds.1
  · refine (haveCounters_stable _).and fun before after holds _ _ relied someThere => ?_
    obtain ⟨bdaddr, member⟩ := holds someThere
    exact ⟨bdaddr, relied.parked radio rfl bdaddr member⟩
  · intro nonempty
    obtain ⟨bdaddr, member⟩ := List.exists_mem_of_ne_nil _ (by simpa using nonempty)
    exact ⟨bdaddr, AList.mem_keys.mpr member⟩
  · have stable : snapshotContract.Stable (.worker radio) [] fun data =>
        HaveCounters bdaddrs data ∧
          (found = true → ∃ bdaddr, bdaddr ∈ data.deprioritizedBdaddrs radio) := by
      refine (haveCounters_stable _).and fun before after holds _ _ relied someThere => ?_
      obtain ⟨bdaddr, member⟩ := holds someThere
      exact ⟨bdaddr, relied.parked radio rfl bdaddr member⟩
    refine Triple.bind (fun first data => HaveCounters (first :: bdaddrs) data)
      (Rule.demand stable (fun _ => haveCounters_stable _) never_stable
        fun data counted holds _ => ?_) fun first => ?_
    · refine ⟨counted, snapshotContract.guarRefl _ _ _, fun first isFirst => ?_, fun empty => ?_⟩
      · have member : first ∈ data.deprioritizedBdaddrs radio :=
          AList.mem_keys.mpr (List.mem_of_head? isFirst)
        intro other among
        rcases List.mem_cons.mp among with rfl | old
        · exact counted radio other (.inr member)
        · exact holds.1 other old
      · obtain ⟨bdaddr, member⟩ := holds.2 someThere
        have isKey : bdaddr ∈ (data.deprioritizedBdaddrs radio).keys := AList.mem_keys.mp member
        rw [List.head?_eq_none_iff.mp empty] at isKey
        simp at isKey
    · have rest : ∀ {held}, snapshotContract.Stable (.worker radio) held
          (HaveCounters (first :: bdaddrs)) := haveCounters_stable _
      refine Triple.withBareLock (fun _ => trivial) rest
        (Triple.withBareLock (fun _ => trivial) rest ?_ (fun _ => haveCounters_stable _)
        never_stable) (fun _ => haveCounters_stable _) never_stable
      refine Triple.bind (fun found data => HaveCounters (first :: bdaddrs) data ∧
        (found = true → first ∈ data.deprioritizedBdaddrs radio))
        (Rule.look rest (fun found => ?_) fun data _ known => ⟨known, by simp⟩) fun found =>
          Triple.ite (fun present => ?_) fun _ => Triple.done (haveCounters_stable _)
            fun _ _ holds other member => holds.1 other (List.mem_cons_of_mem _ member)
      · exact rest.and fun before after holds _ _ relied present =>
          relied.parked radio rfl first (holds present)
      · exact (unpark_succeeds (by simp) (by simp)).weaken
          (fun _ _ holds => ⟨holds.1, holds.2 present⟩) fun _ _ _ known => known

private theorem visit_succeeds (settings : Settings) (total : Nat) (pending : List Text) :
    ∀ skipCount, Succeeds radio [] (HaveCounters pending)
      (visit settings radio (stagesOf settings radio) (reprioritize .ble radio) total skipCount
        pending) fun _ _ => True := by
  induction pending with
  | nil =>
      exact fun _ => Triple.done (Contract.stable_const _ _ _ _) fun _ _ _ => trivial
  | cons bdaddr rest inductionHypothesis =>
      intro skipCount
      have tail : ∀ {program : Code Unit},
          Succeeds radio [] (HaveCounters rest) program (fun _ _ => True) →
          Succeeds radio [] (HaveCounters (bdaddr :: rest)) program fun _ _ => True :=
        fun triple => triple.weaken (fun _ _ known other member =>
          known other (List.mem_cons_of_mem _ member)) fun _ _ _ _ => trivial
      have next : ∀ data, WorkerStep radio [] data (data.setUnvisited radio rest) :=
        fun _ => .loop (.next : LoopStep radio bdaddr [] _ _)
      refine Triple.bind _ (change_succeeds next fun _ => rfl) fun _ =>
        Triple.bind _ (shouldSkip_succeeds settings (by simp)) fun _ =>
          Triple.ite (fun _ => ?_) fun _ => ?_
      · refine Triple.bind (fun _ => HaveCounters (bdaddr :: rest)) ?_ fun _ =>
          tail (inductionHypothesis _)
        exact Triple.bind _ lockedDeleteFromDict_succeeds fun _ =>
          Triple.ite (fun _ => reprioritizeFirst_succeeds) fun _ => done_succeeds _
      · exact Triple.bind _ (collectBdaddr_succeeds settings (by simp)) fun _ =>
          tail (inductionHypothesis _)

/-- A pass of a worker never raises. -/
private theorem threadFunction_succeeds (settings : Settings) :
    Succeeds radio [] (fun _ => True) (threadFunction settings radio) fun _ _ => True := by
  rw [threadFunction_eq]
  refine Triple.bind _ sortedBdaddrs_succeeds fun sorted =>
    Triple.bind _ (visit_succeeds settings _ sorted 0) fun _ => ?_
  exact Triple.await (Contract.stable_const _ _ _ _) (fun _ => Contract.stable_const _ _ _ _)
    fun _ _ _ _ => trivial

end Worker

/-! ## The system -/

theorem snapshotContract_lawful (settings : Settings) :
    snapshotContract.Lawful (launcher settings) where
  guarRely := fun {thread other mine yours before after} different disjoint _ _ promise =>
    { attempts := promise.attempts
      tracked := fun radio locked bdaddr member => by
        by_contra missing
        exact disjoint _ (promise.tracked radio bdaddr member missing) locked
      parked := fun radio own => promise.parked radio fun same => different (same.trans own.symm)
      pending := fun radio own => promise.pending radio fun same => different (same.trans own.symm)
      kept := fun radio _ => promise.kept radio }
  guarFree := fun _ _ _ _ _ => trivial
  outside := by
    intro event before after happened counted admitted
    have same : after.deviceConnectAttempts = before.deviceConnectAttempts ∧
        after.bdaddrs = before.bdaddrs ∧
        after.deprioritizedBdaddrs = before.deprioritizedBdaddrs ∧
        after.ghost = before.ghost := by
      rcases environment_cases happened with ⟨_, _, _, _, _, _, _, rfl⟩ | ⟨_, _, _, _, _, rfl⟩ |
        ⟨_, _, _, rfl⟩ <;> exact ⟨rfl, rfl, rfl, rfl⟩
    obtain ⟨sameAttempts, sameTracked, sameParked, sameGhost⟩ := same
    refine ⟨counted.of_step (fun _ member => by rwa [sameAttempts])
      (fun _ _ member => .inl (by rwa [sameTracked] at member))
      (fun _ _ member => .inl (by rwa [sameParked] at member)), fun _ _ => trivial,
      fun thread held => ?_⟩
    exact
      { attempts := fun _ member => by rwa [sameAttempts]
        tracked := fun _ _ _ member => by rwa [sameTracked]
        parked := fun _ _ _ member => by rwa [sameParked]
        pending := fun _ _ => by rw [sameGhost]
        kept := fun _ _ _ _ member => by rwa [sameTracked] }
  entries := by
    intro thread input program data entered counted _
    match thread, input, entered with
    | .monitor, some line, entered =>
        obtain rfl := Option.some.inj entered
        have noted : Triple snapshotContract .monitor [] (fun _ => True) (fun _ => True)
            (handLine settings line) fun _ _ => True := by
          refine Triple.bind (fun _ _ => True) (Rule.change (Contract.stable_const _ _ _ _)
            (Contract.stable_const _ _ _ _) fun data counted _ admitted => ?_) fun _ =>
              processCommand_triple _
          exact ⟨counted, ⟨fun _ member => member, fun _ _ member missing => absurd member missing,
            fun _ _ _ member => member, fun _ _ => rfl, admitted.1⟩, trivial⟩
        exact Prog.Safe.mono (fun _ _ _ _ => trivial) (fun _ _ _ radio => by simp) _
          (noted data counted trivial)
    | .worker radio, none, entered =>
        obtain ⟨_, rfl⟩ : settings.threadEnabled radio = true ∧
            threadFunction settings radio = program := by
          simpa [launcher, entry] using entered
        exact Prog.Safe.mono (fun _ _ _ _ => trivial) (fun _ _ impossible => impossible.elim) _
          (threadFunction_succeeds settings data counted trivial)

theorem snapshotContract_initial : snapshotContract.Holds initial fun _ => [] where
  invariant := by
    rintro radio bdaddr (member | member)
    · exact absurd member (AList.notMem_empty _)
    · exact absurd member (AList.notMem_empty _)
  free := fun _ _ => trivial
  owns := ⟨by simp [initial], by simp⟩
  safe := fun thread => by
    cases thread with
    | tool number =>
        have safe : Triple snapshotContract (.tool number) [] (fun _ => True) (fun _ => True)
            (ApplicationThread.run number) fun _ _ => True := by
          refine Triple.bind (fun _ _ => True) (Triple.await (Contract.stable_const _ _ _ _)
            (fun _ => Contract.stable_const _ _ _ _) fun _ _ _ _ => trivial) fun started => ?_
          cases started with
          | none => exact Triple.done (Contract.stable_const _ _ _ _) fun _ _ _ => trivial
          | some process => exact runProcess_triple number process
        refine Prog.Safe.mono (fun _ _ _ _ => trivial) (fun _ _ _ radio => by simp) _
          (safe _ ?_ trivial)
        rintro radio bdaddr (member | member)
        · exact absurd member (AList.notMem_empty _)
        · exact absurd member (AList.notMem_empty _)
    | _ => exact ⟨rfl, fun _ _ _ => trivial⟩

/-- In a run in which no address is removed from a tracked dictionary while its
worker's sort has still to look it up, and no open of an output file is refused, no
worker ever dies. -/
theorem worker_not_raised (settings : Settings) {config : Config Lock ThreadId Data Site}
    (run : (launcher settings).Run SparesWorkers initial config) (radio : Radio) :
    config.thread (.worker radio) ≠ .raised := by
  obtain ⟨held, holds⟩ := (snapshotContract_lawful settings).holds_of_run run
    snapshotContract_initial
  exact holds.not_raised fun _ free => free radio rfl

/-- Two devices appear, and the sort of the BLE worker finds both. -/
theorem worker_not_raised_two : ∃ config,
    (launcher .shipped).Run SparesWorkers initial config ∧
      config.shared.data.ghost.unvisited .ble = ["aa".toList, "bb".toList] ∧
      config.thread (.worker .ble) ≠ .raised := by
  have sorts : leads .shipped SparesWorkers
      (Schedule.handed (deviceLine newWord "AA BLE public A".toList) 5 ++
        Schedule.handed (deviceLine newWord "BB BLE public B".toList) 5 ++ Schedule.pass .ble 4)
      initial (fun config =>
        decide (config.shared.data.ghost.unvisited .ble = ["aa".toList, "bb".toList])) = true := by
    decide
  obtain ⟨config, run, sorted⟩ := run_of_leads sorts
  exact ⟨config, run, of_decide_eq_true sorted, worker_not_raised _ run .ble⟩

/-- A device disappears between the snapshot and the lookup of its RSSI. -/
theorem sort_fails : ¬ ∀ config, (launcher .shipped).Reachable initial config → ∀ radio,
    config.thread (.worker radio) ≠ .raised := by
  intro never
  have dies : leads .shipped (fun _ _ => True)
      (Schedule.handed (deviceLine newWord "AA BLE public A".toList) 5 ++ Schedule.pass .ble 1 ++
        Schedule.handed (deviceLine delWord "AA BLE public A".toList) 5 ++
        Schedule.resume (.worker .ble) 1)
      initial (fun config => (config.thread (.worker .ble)).isRaised) = true := by
    decide
  obtain ⟨config, reachable, raised⟩ := run_of_leads dies
  exact never config reachable .ble (eq_raised raised)

end NaiveBTSniffing.Launcher
