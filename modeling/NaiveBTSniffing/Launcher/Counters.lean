import NaiveBTSniffing.Library.Interleaving.Blind
import NaiveBTSniffing.Launcher.Steps

/-!
Contract: every address that the launcher works on has a counter.

An address gets its counter before it gets into any dictionary, and no counter is
ever removed. So an address without a counter is nowhere, and no thread is about
to look its counter up: no program of the launcher can tell whether it has one
(`Blind`). `counter_of_reachable` puts the two together.

Does not own the bounds on a counter (`ConnectAttempts`).
-/

namespace NaiveBTSniffing.Launcher

open NaiveBTSniffing.Library
open NaiveBTSniffing.Library.Interleaving
open NaiveBTSniffing.Library.Interleaving.Prog
open Code

/-- The thread's next step looks up a counter that is missing: with the counter
it would go on in another way. -/
def MissesCounter (data : Data) : Code Unit → Prop
  | .act _ _ _ next => ∃ bdaddr attempts, bdaddr ∉ data.deviceConnectAttempts ∧
      next data ≠ next (data.setAttempts bdaddr attempts)
  | _ => False

/-- A lookup that fails and would not have failed is such a step. -/
theorem missesCounter_of_lookup {data : Data} {bdaddr : Text} {update : Data → Data}
    {rest : Int → Code Unit} (missing : bdaddr ∉ data.deviceConnectAttempts)
    (goesOn : ∃ attempts, rest attempts ≠ .raised) :
    MissesCounter data
      (demand update (fun data => data.deviceConnectAttempts.lookup bdaddr) >>= rest) := by
  obtain ⟨attempts, notRaised⟩ := goesOn
  refine ⟨bdaddr, attempts, missing, fun same => notRaised ?_⟩
  have absent : data.deviceConnectAttempts.lookup bdaddr = none := AList.lookup_eq_none.mpr missing
  simp only [absent, Data.setAttempts, Dict.lookup_setItem_self] at same
  exact same.symm

/-! ## An address without a counter -/

/-- The address is in no dictionary and no worker has it on its list. -/
structure Unknown (bdaddr : Text) (data : Data) : Prop where
  uncounted : bdaddr ∉ data.deviceConnectAttempts
  untracked : ∀ radio, bdaddr ∉ data.bdaddrs radio
  notDeprioritized : ∀ radio, bdaddr ∉ data.deprioritizedBdaddrs radio
  visited : ∀ radio, bdaddr ∉ data.ghost.unvisited radio

/-- The runs in which the address has no counter, and the counter that it might
have. -/
def uncounted (bdaddr : Text) (attempts : Int) : Veil Data where
  inv := Unknown bdaddr
  stays := fun data => bdaddr ∉ data.deviceConnectAttempts
  change := fun data => data.setAttempts bdaddr attempts

section Steps

variable {α β : Type} {bdaddr other : Text} {attempts : Int} {radio : Radio}

/-- A program that does not notice the counter. -/
private abbrev Sightless (bdaddr : Text) (attempts : Int) (program : Code α) (post : α → Prop) :
    Prop :=
  program.Blind (uncounted bdaddr attempts) post

private theorem look_sightless {post : α → Prop} {view : Data → α}
    (unseen : ∀ data, view (data.setAttempts bdaddr attempts) = view data)
    (seen : ∀ data, Unknown bdaddr data → post (view data)) :
    Sightless bdaddr attempts (look view) post :=
  blind_await _ _ (fun data _ => unseen data) seen

private theorem change_sightless {update : Data → Data}
    (keeps : ∀ data, Unknown bdaddr data → bdaddr ∉ (update data).deviceConnectAttempts →
      Unknown bdaddr (update data)) :
    Sightless bdaddr attempts (change update) fun _ => True :=
  fun data unknown => ⟨rfl, fun _ stays => ⟨keeps data unknown stays, trivial⟩⟩

private theorem exchange_sightless {post : α → Prop} {update : Data → Data} {view : Data → α}
    (unseen : ∀ data, view (data.setAttempts bdaddr attempts) = view data)
    (keeps : ∀ data, Unknown bdaddr data → Unknown bdaddr (update data))
    (seen : ∀ data, Unknown bdaddr data → post (view data)) :
    Sightless bdaddr attempts (exchange update view) post := by
  intro data unknown
  refine ⟨?_, fun _ _ => ⟨keeps data unknown, seen data unknown⟩⟩
  show Prog.done (view (data.setAttempts bdaddr attempts)) = Prog.done (view data)
  rw [unseen]

private theorem demand_sightless {post : α → Prop} {update : Data → Data} {view : Data → Option α}
    (unseen : ∀ data, view (data.setAttempts bdaddr attempts) = view data)
    (keeps : ∀ data, Unknown bdaddr data → Unknown bdaddr (update data))
    (seen : ∀ data value, Unknown bdaddr data → view data = some value → post value) :
    Sightless bdaddr attempts (demand update view) post := by
  intro data unknown
  have same : view ((uncounted bdaddr attempts).change data) = view data := unseen data
  dsimp only
  rw [same]
  refine ⟨rfl, fun _ _ => ⟨keeps data unknown, ?_⟩⟩
  cases found : view data with
  | none => trivial
  | some value => exact seen data value unknown found

/-- One program after another, when nothing is known of the value in between. -/
private theorem sequence_sightless {post : β → Prop} {first : Code α} {rest : α → Code β}
    (sightless : Sightless bdaddr attempts first fun _ => True)
    (remaining : ∀ value, Sightless bdaddr attempts (rest value) post) :
    Sightless bdaddr attempts (first >>= rest) post :=
  blind_bind _ sightless fun value _ => remaining value

private theorem done_sightless (value : α) :
    Sightless bdaddr attempts (Prog.done value : Code α) fun _ => True := trivial

/-! ### Changes that keep the address unknown -/

private theorem Unknown.of_same {before after : Data} (unknown : Unknown bdaddr before)
    (counters : after.deviceConnectAttempts = before.deviceConnectAttempts)
    (tracked : after.bdaddrs = before.bdaddrs)
    (deprioritized : after.deprioritizedBdaddrs = before.deprioritizedBdaddrs)
    (unvisited : after.ghost.unvisited = before.ghost.unvisited) : Unknown bdaddr after :=
  ⟨by rw [counters]; exact unknown.uncounted, by rw [tracked]; exact unknown.untracked,
    by rw [deprioritized]; exact unknown.notDeprioritized, by rw [unvisited]; exact unknown.visited⟩

private theorem Unknown.setTracked {data : Data} (unknown : Unknown bdaddr data) (own : Radio)
    {dict : Dict Text (Text × Int)} (absent : bdaddr ∉ dict) :
    Unknown bdaddr (data.setTracked own dict) where
  uncounted := unknown.uncounted
  untracked := by
    intro radio member
    have still := unknown.untracked radio
    simp only [Data.setTracked, Dict.mem_update] at member
    split at member
    · exact absent member
    · exact still member
  notDeprioritized := unknown.notDeprioritized
  visited := unknown.visited

private theorem Unknown.setDeprioritized {data : Data} (unknown : Unknown bdaddr data)
    (own : Radio) {dict : Dict Text (Text × Int × Text)} (absent : bdaddr ∉ dict) :
    Unknown bdaddr (data.setDeprioritized own dict) where
  uncounted := unknown.uncounted
  untracked := unknown.untracked
  notDeprioritized := by
    intro radio member
    have still := unknown.notDeprioritized radio
    simp only [Data.setDeprioritized, Dict.mem_update] at member
    split at member
    · exact absent member
    · exact still member
  visited := unknown.visited

private theorem Unknown.setUnvisited {data : Data} (unknown : Unknown bdaddr data) (own : Radio)
    {unvisited : List Text} (absent : bdaddr ∉ unvisited) :
    Unknown bdaddr (data.setUnvisited own unvisited) where
  uncounted := unknown.uncounted
  untracked := unknown.untracked
  notDeprioritized := unknown.notDeprioritized
  visited := by
    intro radio member
    by_cases same : radio = own
    · subst same
      exact absent (by simpa using member)
    · exact unknown.visited radio (by simpa [same] using member)

private theorem Unknown.erased {data : Data} (unknown : Unknown bdaddr data) (own : Radio)
    (other : Text) : bdaddr ∉ (data.bdaddrs own).erase other :=
  fun member => unknown.untracked own (AList.mem_erase.mp member).2

private theorem Unknown.stored {data : Data} (unknown : Unknown bdaddr data) (own : Radio)
    (value : Text × Int) (different : other ≠ bdaddr) :
    bdaddr ∉ (data.bdaddrs own).setItem other value := by
  rw [Dict.mem_setItem]
  exact fun present => present.elim (fun same => different same.symm) (unknown.untracked own)

/-! ### Dictionary operations -/

/-- Whoever finds an address in a dictionary knows that it is another one. -/
private theorem isTracked_sightless (other : Text) :
    Sightless bdaddr attempts (isTracked radio other) fun found =>
      found = true → other ≠ bdaddr := by
  refine look_sightless (fun _ => rfl) fun data unknown found => ?_
  rintro rfl
  exact unknown.untracked radio (of_decide_eq_true found)

private theorem whenTracked_sightless {body : Code Unit}
    (sightless : other ≠ bdaddr → Sightless bdaddr attempts body fun _ => True) :
    Sightless bdaddr attempts (whenTracked radio other body) fun _ => True :=
  blind_withLock _ <| blind_bind _ (isTracked_sightless other) fun _ known =>
    blind_ite (fun found => sightless (known found)) fun _ => done_sightless ()

private theorem deleteTracked_sightless {note : Data → Data}
    (keeps : ∀ data, Unknown bdaddr data → Unknown bdaddr (note data)) :
    Sightless bdaddr attempts (deleteTracked radio other note) fun _ => True := by
  refine demand_sightless (fun _ => rfl) (fun data unknown => ?_) fun _ _ _ _ => trivial
  apply keeps
  exact unknown.setTracked radio (unknown.erased radio other)

private theorem record_unknown {data : Data} (unknown : Unknown bdaddr data) (event : Event) :
    Unknown bdaddr (data.record event) :=
  unknown.of_same rfl rfl rfl rfl

private theorem lockedDelete_sightless :
    Sightless bdaddr attempts (lockedDeleteFromDict radio other) fun _ => True :=
  whenTracked_sightless fun _ =>
    deleteTracked_sightless fun _ unknown => record_unknown unknown _

/-! ### The monitor -/

private theorem grantOneMoreTry_sightless (different : other ≠ bdaddr) :
    Sightless bdaddr attempts (grantOneMoreTry other) fun _ => True := by
  have unseen : ∀ data : Data,
      (data.setAttempts bdaddr attempts).deviceConnectAttempts.lookup other =
        data.deviceConnectAttempts.lookup other :=
    fun _ => Dict.lookup_setItem_ne _ _ different
  apply sequence_sightless (demand_sightless unseen (fun _ unknown => unknown)
    fun _ _ _ _ => trivial)
  refine fun _ => blind_ite (fun _ => ?_) fun _ => done_sightless ()
  refine demand_sightless (fun data => ?_) (fun data unknown => ?_) fun _ _ _ _ => trivial
  · show ((data.setAttempts bdaddr attempts).deviceConnectAttempts.lookup other).map _ = _
    rw [unseen]
  · cases data.deviceConnectAttempts.lookup other with
    | none => exact unknown
    | some current =>
        refine ⟨?_, unknown.untracked, unknown.notDeprioritized, unknown.visited⟩
        show bdaddr ∉ data.deviceConnectAttempts.setItem other _
        rw [Dict.mem_setItem]
        exact fun present => present.elim (fun same => different same.symm) unknown.uncounted

private theorem storeRssi_sightless (different : other ≠ bdaddr) (word : Text) :
    Sightless bdaddr attempts (storeRssi radio other word) fun _ => True := by
  have first : Sightless bdaddr attempts (readStoredRssi radio other word) fun _ => True := by
    refine demand_sightless (fun _ => rfl) (fun data unknown => ?_) fun _ _ _ _ => trivial
    split
    · split
      · exact record_unknown unknown _
      · exact unknown
    · exact unknown
  refine sequence_sightless first fun stored => ?_
  cases Text.parseInt 10 word with
  | none => trivial
  | some rssi =>
      refine sequence_sightless ?_ fun _ => change_sightless fun data unknown _ =>
        unknown.setTracked radio (unknown.stored radio _ different)
      exact blind_ite (fun _ => grantOneMoreTry_sightless different) fun _ => done_sightless ()

private theorem park_sightless (different : other ≠ bdaddr) (vendor : Text) :
    Sightless bdaddr attempts (park radio other vendor) fun _ => True := by
  refine sequence_sightless (demand_sightless (fun _ => rfl) (fun _ unknown => unknown)
    fun _ _ _ _ => trivial) fun stored => ?_
  refine sequence_sightless (blind_withLock _ (change_sightless fun data unknown _ => ?_))
    fun _ => ?_
  · have absent : bdaddr ∉ (data.deprioritizedBdaddrs radio).setItem other
        (stored.1, stored.2, vendor) := by
      rw [Dict.mem_setItem]
      exact fun present => present.elim (fun same => different same.symm)
        (unknown.notDeprioritized radio)
    exact (unknown.setDeprioritized radio absent).of_same rfl rfl rfl rfl
  · exact deleteTracked_sightless fun _ unknown => unknown.of_same rfl rfl rfl rfl

/-- Only a [NEW] line about the address gives it a counter, and such a run is not
considered. -/
private theorem processNew_sightless (type addressType : Text) :
    Sightless bdaddr attempts (processNew other type addressType) fun _ => True := by
  refine blind_bind (fun _ => other ≠ bdaddr) ?_ fun _ different => ?_
  · intro data unknown
    refine ⟨rfl, fun _ stays => ?_⟩
    have different : other ≠ bdaddr := by
      rintro rfl
      apply stays
      show other ∈ data.deviceConnectAttempts.setItem other 0
      simp
    exact ⟨⟨stays, unknown.untracked, unknown.notDeprioritized, unknown.visited⟩, different⟩
  · exact blind_withLock _ <| change_sightless fun data unknown _ =>
      unknown.setTracked _ (unknown.stored _ _ different)

private theorem processCommand_sightless (asked : Command) :
    Sightless bdaddr attempts (processCommand asked) fun _ => True := by
  cases asked with
  | new other type addressType => exact processNew_sightless type addressType
  | rssi other word =>
      exact sequence_sightless
        (whenTracked_sightless fun different => storeRssi_sightless different word) fun _ =>
          whenTracked_sightless fun different => storeRssi_sightless different word
  | manufacturerData other more =>
      cases more with
      | nil => trivial
      | cons vendor rest =>
          refine blind_ite (fun _ => sequence_sightless ?_ fun _ => ?_) fun _ => done_sightless ()
          · exact whenTracked_sightless fun different => park_sightless different vendor
          · exact whenTracked_sightless fun different => park_sightless different vendor
  | del other type =>
      simp only [processCommand, processDel]
      cases delRadio type with
      | none => trivial
      | some named => exact lockedDelete_sightless
  | ignored => exact done_sightless ()

/-! ### The tool threads -/

private theorem externalLogWrite_sightless (infoType : InfoType) (line : LogLine) :
    Sightless bdaddr attempts (externalLogWrite infoType line) fun _ => True := by
  unfold externalLogWrite
  cases infoType.logFile with
  | none => exact done_sightless ()
  | some file => exact change_sightless fun _ unknown _ => unknown.of_same rfl rfl rfl rfl

private theorem hasSucceeded_sightless (infoType : InfoType) :
    Sightless bdaddr attempts (hasSucceeded infoType other) fun _ => True :=
  look_sightless (fun _ => rfl) fun _ _ => trivial

private theorem deleteIfAllDone_sightless :
    Sightless bdaddr attempts (deleteIfAllDone radio other) fun _ => True := by
  have both : ∀ first second,
      Sightless bdaddr attempts (all2thprintsDone.both other first second) fun _ => True :=
    fun first second => sequence_sightless (hasSucceeded_sightless first) fun _ =>
      blind_ite (fun _ => hasSucceeded_sightless second) fun _ => done_sightless false
  refine sequence_sightless ?_ fun _ => blind_ite (fun _ => lockedDelete_sightless) fun _ =>
    done_sightless ()
  cases radio with
  | ble => exact both _ _
  | btc => exact both _ _

private theorem modifyProcess_sightless (number : Nat) (update : Process → Process) :
    Sightless bdaddr attempts (change fun data => data.modifyProcess number update)
      fun _ => True :=
  change_sightless fun _ unknown _ => unknown.of_same rfl rfl rfl rfl

private theorem report_sightless (infoType : InfoType) (retCode : Int) :
    Sightless bdaddr attempts (ApplicationThread.report infoType other retCode)
      fun _ => True := by
  refine blind_ite (fun _ => ?_) fun _ => externalLogWrite_sightless _ _
  refine sequence_sightless (externalLogWrite_sightless _ _) fun _ => blind_withLock _ ?_
  exact sequence_sightless (change_sightless fun _ unknown _ => unknown.of_same rfl rfl rfl rfl)
    fun _ => deleteIfAllDone_sightless

private theorem run_sightless (number : Nat) :
    Sightless bdaddr attempts (ApplicationThread.run number) fun _ => True := by
  refine sequence_sightless (blind_await _ _ (fun _ _ => rfl) fun _ _ => trivial) fun started => ?_
  cases started with
  | none => exact done_sightless ()
  | some process =>
      refine sequence_sightless (blind_await _ _ (fun _ _ => rfl) fun _ _ => trivial)
        fun waited => ?_
      match waited with
      | some (.returned retCode) =>
          refine sequence_sightless (look_sightless (fun _ => rfl) fun _ _ => trivial) fun _ => ?_
          exact blind_ite (fun _ => modifyProcess_sightless _ _) fun _ => report_sightless _ _
      | some .timeoutExpired =>
          exact sequence_sightless (modifyProcess_sightless _ _) fun _ =>
            externalLogWrite_sightless _ _
      | none => exact done_sightless ()

/-! ### The workers -/

private theorem launchTool_sightless (infoType : InfoType) (arguments : List Text) :
    Sightless bdaddr attempts (launchTool infoType other arguments) fun _ => True := by
  refine sequence_sightless (exchange_sightless (fun _ => rfl) (fun data unknown => ?_)
    fun _ _ => trivial) fun launched => ?_
  · split
    · exact unknown
    · exact unknown.of_same rfl rfl rfl rfl
  · cases launched with
    | none => exact done_sightless ()
    | some number =>
        refine sequence_sightless (exchange_sightless (fun _ => rfl) (fun data unknown => ?_)
          fun _ _ => trivial) fun _ => blind_ite (fun _ => ?_) fun _ => done_sightless ()
        · split
          · exact unknown
          · exact unknown.of_same rfl rfl rfl rfl
        · exact change_sightless fun _ unknown _ => unknown.of_same rfl rfl rfl rfl

private theorem launchOf_sightless (infoType : InfoType) :
    Sightless bdaddr attempts (launchOf infoType other) fun _ => True := by
  cases infoType with
  | gatt =>
      refine whenTracked_sightless fun _ => ?_
      refine sequence_sightless (externalLogWrite_sightless _ _) fun _ => ?_
      exact sequence_sightless (demand_sightless (fun _ => rfl) (fun _ unknown => unknown)
        fun _ _ _ _ => trivial) fun _ => launchTool_sightless _ _
  | ll2thprint => exact launchTool_sightless _ _
  | lmp2thprint =>
      exact sequence_sightless (externalLogWrite_sightless _ _) fun _ => launchTool_sightless _ _
  | sdp =>
      refine sequence_sightless (externalLogWrite_sightless _ _) fun _ => ?_
      exact sequence_sightless (demand_sightless (fun _ => rfl) (fun _ unknown => unknown)
        fun _ _ _ _ => trivial) fun _ => launchTool_sightless _ _

private theorem runStage_sightless (settings : Settings) (infoType : InfoType) :
    Sightless bdaddr attempts (runStage settings infoType other (launchOf infoType other))
      fun _ => True := by
  refine blind_ite (fun _ => ?_) fun _ => done_sightless ()
  have skipped : Sightless bdaddr attempts (skipSubProcess infoType other) fun _ => True :=
    blind_withLock _ <| sequence_sightless (hasSucceeded_sightless infoType) fun _ =>
      blind_ite (fun _ => sequence_sightless deleteIfAllDone_sightless fun _ => done_sightless true)
        fun _ => done_sightless false
  refine sequence_sightless skipped fun _ => blind_ite (fun _ => done_sightless ()) fun _ => ?_
  exact blind_bind _ (isTracked_sightless other) fun _ _ =>
    blind_ite (fun _ => launchOf_sightless infoType) fun _ => done_sightless ()

private theorem stagesOf_sightless (settings : Settings) :
    Sightless bdaddr attempts (stagesOf settings radio other) fun _ => True := by
  cases radio with
  | ble =>
      exact sequence_sightless (runStage_sightless settings .gatt) fun _ =>
        runStage_sightless settings .ll2thprint
  | btc =>
      exact sequence_sightless (runStage_sightless settings .lmp2thprint) fun _ =>
        runStage_sightless settings .sdp

private theorem readRssis_sightless (keys : List Text) :
    Sightless bdaddr attempts (readRssis radio keys) fun rssis => rssis.map Prod.fst = keys := by
  induction keys with
  | nil => exact rfl
  | cons key rest inductionHypothesis =>
      refine sequence_sightless (demand_sightless (fun _ => rfl)
        (fun _ unknown => unknown.of_same rfl rfl rfl rfl) fun _ _ _ _ => trivial) fun stored => ?_
      refine blind_bind _ inductionHypothesis fun rssis same => ?_
      show ((key, stored.2) :: rssis).map Prod.fst = key :: rest
      rw [List.map_cons, same]

/-- The address is not on the list of a worker. -/
private theorem sortedBdaddrs_sightless :
    Sightless bdaddr attempts (sortedBdaddrs radio) fun sorted => bdaddr ∉ sorted := by
  have snapshot : Sightless bdaddr attempts (exchange
      (fun data => (data.setSortPending radio (data.bdaddrs radio).keys).setUnvisited radio
        (data.bdaddrs radio).keys)
      (fun data => (data.bdaddrs radio).keys)) fun keys => bdaddr ∉ keys := by
    refine exchange_sightless (fun _ => rfl) (fun data unknown => ?_) fun data unknown => ?_
    · have pending : Unknown bdaddr (data.setSortPending radio (data.bdaddrs radio).keys) :=
        unknown.of_same rfl rfl rfl rfl
      exact pending.setUnvisited radio fun member =>
        unknown.untracked radio (AList.mem_keys.mpr member)
    · exact fun member => unknown.untracked radio (AList.mem_keys.mpr member)
  refine blind_bind _ snapshot fun keys absent => ?_
  refine blind_bind _ (readRssis_sightless keys) fun rssis same => ?_
  have notSorted : bdaddr ∉ sortByRssi rssis := fun member =>
    absent (same ▸ mem_sortByRssi member)
  refine sequence_sightless (change_sightless fun data unknown _ =>
    unknown.setUnvisited radio notSorted) fun _ => ?_
  exact notSorted

private theorem reprioritize_sightless (different : other ≠ bdaddr) :
    Sightless bdaddr attempts (reprioritize .ble radio other) fun _ => True := by
  refine blind_withLock _ <| blind_withLock _ <| sequence_sightless
    (look_sightless (fun _ => rfl) fun _ _ => trivial) fun _ => blind_ite (fun _ => ?_) fun _ =>
      done_sightless ()
  refine sequence_sightless (demand_sightless (fun _ => rfl) (fun _ unknown => unknown)
    fun _ _ _ _ => trivial) fun stored => ?_
  refine sequence_sightless (demand_sightless (fun _ => rfl) (fun data unknown => ?_)
    fun _ _ _ _ => trivial) fun _ => change_sightless fun data unknown _ => ?_
  · have absent : bdaddr ∉ (data.deprioritizedBdaddrs radio).erase other :=
      fun member => unknown.notDeprioritized radio (AList.mem_erase.mp member).2
    exact (unknown.setDeprioritized radio absent).of_same rfl rfl rfl rfl
  · exact (unknown.setTracked radio (unknown.stored radio _ different)).of_same rfl rfl rfl rfl

private theorem reprioritizeFirst_sightless :
    Sightless bdaddr attempts (reprioritizeFirst radio (reprioritize .ble radio))
      fun _ => True := by
  refine sequence_sightless (look_sightless (fun _ => rfl) fun _ _ => trivial) fun _ =>
    blind_ite (fun _ => ?_) fun _ => done_sightless ()
  refine blind_bind (fun first => first ≠ bdaddr) (demand_sightless (fun _ => rfl)
    (fun _ unknown => unknown) fun data first unknown isFirst => ?_) fun _ different =>
      reprioritize_sightless different
  rintro rfl
  exact unknown.notDeprioritized radio (AList.mem_keys.mpr (List.mem_of_head? isFirst))

private theorem shouldSkip_sightless (settings : Settings) (different : other ≠ bdaddr) :
    Sightless bdaddr attempts (shouldSkip settings radio other) fun _ => True := by
  refine blind_ite (fun _ => done_sightless true) fun _ => sequence_sightless
    (demand_sightless (fun _ => Dict.lookup_setItem_ne _ _ different) (fun data unknown => ?_)
      fun _ _ _ _ => trivial) fun _ => done_sightless _
  split
  · split
    · exact record_unknown unknown _
    · exact unknown
  · exact unknown

private theorem collectBdaddr_sightless (settings : Settings) (different : other ≠ bdaddr) :
    Sightless bdaddr attempts (collectBdaddr radio (stagesOf settings radio) other)
      fun _ => True := by
  refine sequence_sightless (demand_sightless (fun data => ?_) (fun data unknown => ?_)
    fun _ _ _ _ => trivial) fun _ => sequence_sightless (stagesOf_sightless settings) fun _ => ?_
  · show ((data.setAttempts bdaddr attempts).deviceConnectAttempts.lookup other).map _ = _
    rw [show (data.setAttempts bdaddr attempts).deviceConnectAttempts.lookup other =
      data.deviceConnectAttempts.lookup other from Dict.lookup_setItem_ne _ _ different]
  · split
    · refine ⟨?_, unknown.untracked, unknown.notDeprioritized, unknown.visited⟩
      show bdaddr ∉ data.deviceConnectAttempts.setItem other _
      rw [Dict.mem_setItem]
      exact fun present => present.elim (fun same => different same.symm) unknown.uncounted
    · exact unknown
  · exact sequence_sightless (look_sightless (fun _ => rfl) fun _ _ => trivial) fun _ =>
      blind_forEach fun _ _ => trivial

private theorem visit_sightless (settings : Settings) (total : Nat) (pending : List Text)
    (absent : bdaddr ∉ pending) : ∀ skipCount, Sightless bdaddr attempts
      (visit settings radio (stagesOf settings radio) (reprioritize .ble radio) total skipCount
        pending) fun _ => True := by
  induction pending with
  | nil => exact fun _ => done_sightless ()
  | cons key rest inductionHypothesis =>
      intro skipCount
      have different : key ≠ bdaddr := fun same => absent (same ▸ List.mem_cons_self)
      have notInRest : bdaddr ∉ rest := fun member => absent (List.mem_cons_of_mem _ member)
      refine sequence_sightless (change_sightless fun _ unknown _ =>
        unknown.setUnvisited radio notInRest) fun _ =>
          sequence_sightless (shouldSkip_sightless settings different) fun _ =>
            blind_ite (fun _ => ?_) fun _ => ?_
      · refine sequence_sightless (sequence_sightless lockedDelete_sightless fun _ => ?_) fun _ =>
          inductionHypothesis notInRest _
        exact blind_ite (fun _ => reprioritizeFirst_sightless) fun _ => done_sightless ()
      · exact sequence_sightless (collectBdaddr_sightless settings different) fun _ =>
          inductionHypothesis notInRest _

private theorem threadFunction_sightless (settings : Settings) :
    Sightless bdaddr attempts (threadFunction settings radio) fun _ => True := by
  rw [threadFunction_eq]
  refine blind_bind _ sortedBdaddrs_sightless fun sorted absent => ?_
  exact sequence_sightless (visit_sightless settings _ _ absent 0) fun _ =>
    blind_await _ _ (fun _ _ => rfl) fun _ _ => trivial

end Steps

/-! ## The system -/

private theorem uncounted_veiled (settings : Settings) (bdaddr : Text) (attempts : Int) :
    (launcher settings).Veiled (uncounted bdaddr attempts) where
  entries := by
    intro thread input program entered
    match thread, input, entered with
    | .monitor, some line, entered =>
        obtain rfl := Option.some.inj entered
        exact sequence_sightless (change_sightless fun _ unknown _ => record_unknown unknown _)
          fun _ => processCommand_sightless _
    | .worker radio, none, entered =>
        obtain ⟨_, rfl⟩ : settings.threadEnabled radio = true ∧
            threadFunction settings radio = program := by
          simpa [launcher, entry] using entered
        exact threadFunction_sightless settings
  outside := by
    intro event before after happened unknown _
    rcases environment_cases happened with ⟨_, _, _, _, _, _, _, rfl⟩ | ⟨_, _, _, _, _, rfl⟩ |
      ⟨_, _, _, rfl⟩ <;> exact unknown.of_same rfl rfl rfl rfl

private theorem uncounted_initial (bdaddr : Text) (attempts : Int) :
    System.BlindNow (uncounted bdaddr attempts) initial where
  invariant := ⟨AList.notMem_empty _, fun _ => AList.notMem_empty _,
    fun _ => AList.notMem_empty _, fun _ => List.not_mem_nil⟩
  threads := by
    intro thread
    cases thread with
    | tool number => exact run_sightless number
    | _ => exact done_sightless ()

/-- No counter is ever removed. -/
theorem keepsCounters_of_anyStep {settings : Settings} {bdaddr : Text} {before after : Data}
    (step : AnyStep settings before after) (member : bdaddr ∈ before.deviceConnectAttempts) :
    bdaddr ∈ after.deviceConnectAttempts := by
  rcases step with ⟨thread, held, step⟩ | ⟨event, happened⟩
  · cases thread with
    | monitor =>
        rcases step with ⟨line, rfl⟩ | ⟨asked, step⟩
        · exact member
        · exact step.attempts member
    | worker radio => exact step.1.attempts member
    | tool number =>
        obtain ⟨process, step⟩ := step
        rwa [(OnlyDeletes.of_tool step).deviceConnectAttempts]
  · rcases environment_cases happened with ⟨_, _, _, _, _, _, _, rfl⟩ | ⟨_, _, _, _, _, rfl⟩ |
      ⟨_, _, _, rfl⟩ <;> exact member

/-- An address without a counter never had one. -/
private theorem run_uncounted {settings : Settings} {bdaddr : Text}
    {config : Config Lock ThreadId Data Site}
    (reachable : (launcher settings).Reachable initial config)
    (missing : bdaddr ∉ config.shared.data.deviceConnectAttempts) :
    (launcher settings).Run (fun _ after => bdaddr ∉ after.deviceConnectAttempts) initial
      config := by
  induction reachable with
  | refl => exact Relation.ReflTransGen.refl
  | tail earlier stepped inductionHypothesis =>
      refine Relation.ReflTransGen.tail (inductionHypothesis fun member => ?_)
        ⟨stepped.1, missing⟩
      exact missing (keepsCounters_of_anyStep (anyStep_of_steps earlier stepped.1) member)

/-- In every reachable state every address in a dictionary and on the list of a
worker has a counter, and no thread is about to look a missing counter up. -/
theorem counter_of_reachable (settings : Settings) {config : Config Lock ThreadId Data Site}
    (reachable : (launcher settings).Reachable initial config) :
    (∀ radio bdaddr, bdaddr ∈ config.shared.data.bdaddrs radio ∨
      bdaddr ∈ config.shared.data.deprioritizedBdaddrs radio ∨
      bdaddr ∈ config.shared.data.ghost.unvisited radio →
        bdaddr ∈ config.shared.data.deviceConnectAttempts) ∧
    ∀ thread, ¬ MissesCounter config.shared.data (config.thread thread) := by
  have blind : ∀ bdaddr attempts, bdaddr ∉ config.shared.data.deviceConnectAttempts →
      System.BlindNow (uncounted bdaddr attempts) config := fun bdaddr attempts missing =>
    (uncounted_veiled settings bdaddr attempts).blind_of_run (run_uncounted reachable missing)
      (uncounted_initial bdaddr attempts)
  constructor
  · intro radio bdaddr present
    by_contra missing
    have unknown : Unknown bdaddr config.shared.data := (blind bdaddr 0 missing).invariant
    rcases present with tracked | deprioritized | unvisited
    · exact unknown.untracked radio tracked
    · exact unknown.notDeprioritized radio deprioritized
    · exact unknown.visited radio unvisited
  · intro thread misses
    cases program : config.thread thread with
    | act site guard update next =>
        rw [program] at misses
        obtain ⟨bdaddr, attempts, missing, sees⟩ := misses
        have here := (blind bdaddr attempts missing).threads thread
        rw [program] at here
        exact sees (here _ (blind bdaddr attempts missing).invariant).1.symm
    | _ =>
        rw [program] at misses
        exact misses

/-- A device appears, and the BLE worker has it on its list. -/
theorem counter_of_reachable_listed : ∃ config,
    (launcher .shipped).Reachable initial config ∧
      "aa".toList ∈ config.shared.data.ghost.unvisited .ble ∧
      "aa".toList ∈ config.shared.data.deviceConnectAttempts := by
  have lists : leads .shipped (fun _ _ => True)
      (Schedule.handed (deviceLine newWord "AA BLE public A".toList) 5 ++ Schedule.pass .ble 3)
      initial (fun config =>
        decide ("aa".toList ∈ config.shared.data.ghost.unvisited .ble)) = true := by
    decide
  obtain ⟨config, reachable, listed⟩ := run_of_leads lists
  have listed : "aa".toList ∈ config.shared.data.ghost.unvisited .ble := of_decide_eq_true listed
  exact ⟨config, reachable, listed,
    (counter_of_reachable .shipped reachable).1 .ble _ (.inr (.inr listed))⟩

end NaiveBTSniffing.Launcher
