import NaiveBTSniffing.Gatttool.Rounds
import NaiveBTSniffing.Launcher.HandleLines

/-!
Contract: what the exit status 0 of `gatttool` tells the launcher.

Events of every kind may happen in any order. Owns the exact steps after which
the launcher records a success for a device whose discoveries or reads are not
complete.
-/

namespace NaiveBTSniffing.Gatttool

open NaiveBTSniffing.Library
open NaiveBTSniffing.Library.Interleaving
open NaiveBTSniffing.Launcher

/-! ## What a success should mean -/

/-- The three discoveries ended without an error and every read was answered. -/
structure Complete (state : State) : Prop where
  services : state.ghost.services = some 0
  characteristics : state.ghost.characteristics = some 0
  descriptors : state.ghost.descriptors = some 0
  reads : IssuedAnswered state

/-- `ApplicationThread.run` gets the exit status of the process and has the
address in `gatt_success_bdaddrs` afterwards. -/
def RecordsSuccess (data : Data) (bdaddr : Text) (state : State) : Prop :=
  ∃ retCode after, state.exitStatus = some retCode ∧
    (ApplicationThread.report .gatt bdaddr retCode).alone data = some ((), after) ∧
    bdaddr ∈ after.successBdaddrs .gatt

/-- An event that quits the loop at the end of descriptor discovery although
something is missing. -/
inductive EndsEarly (stray : Stray) (before : State) : Event → Prop
  /-- Descriptor discovery ends with an error. -/
  | error {pdu unit : Pdu} {raised : Bool} {rest : List Op} {status err : UInt8}
      {descriptors : List Descriptor} (runs : before.isOver = false) (attached : before.attached = true)
      (queue : before.queue = .descriptors :: rest)
      (received : receive (.findInfo before.dd.start) pdu raised = .answered status unit)
      (ends : descDiscoveredCb stray before.dd status unit = .ended (err, descriptors))
      (error : err ≠ 0) (found : State.comparedHandle stray descriptors ≠ none) :
      EndsEarly stray before (.unit pdu raised)
  /-- It ends at `g_max_handle` before the rest is there. -/
  | atMaxHandle {pdu unit : Pdu} {raised : Bool} {rest : List Op} {status : UInt8}
      {descriptors : List Descriptor} (runs : before.isOver = false) (attached : before.attached = true)
      (queue : before.queue = .descriptors :: rest)
      (received : receive (.findInfo before.dd.start) pdu raised = .answered status unit)
      (ends : descDiscoveredCb stray before.dd status unit = .ended (0, descriptors))
      (compared : State.comparedHandle stray descriptors = some before.gMaxHandle)
      (missing : ¬ (before.ghost.services = some 0 ∧ before.ghost.characteristics = some 0 ∧
        IssuedAnswered before)) :
      EndsEarly stray before (.unit pdu raised)
  /-- The connection is lost while descriptor discovery still asks. -/
  | lost (runs : before.isOver = false) (attached : before.attached = true)
      (asks : .descriptors ∈ before.queue)
      (found : State.comparedHandle stray before.dd.descriptors ≠ none) :
      EndsEarly stray before .disconnected

theorem EndsEarly.runs {stray : Stray} {before : State} {event : Event}
    (early : EndsEarly stray before event) : before.isOver = false := by
  cases early with
  | error runs => exact runs
  | atMaxHandle runs => exact runs
  | lost runs => exact runs

/-! ## The launcher's part -/

private theorem alone_hasSucceeded (infoType : InfoType) (bdaddr : Text) (data : Data) :
    (hasSucceeded infoType bdaddr).alone data =
      some (decide (bdaddr ∈ data.successBdaddrs infoType), data) := rfl

/-- The deletion changes no success dictionary. -/
theorem alone_deleteIfAllDone (radio : Radio) (bdaddr : Text) (data : Data) :
    ∃ after, (deleteIfAllDone radio bdaddr).alone data = some ((), after) ∧
      after.successBdaddrs = data.successBdaddrs := by
  have deleted : ∃ after, (lockedDeleteFromDict radio bdaddr).alone data = some ((), after) ∧
      after.successBdaddrs = data.successBdaddrs := by
    rw [lockedDeleteFromDict, alone_whenTracked]
    by_cases tracked : bdaddr ∈ data.bdaddrs radio
    · rw [if_pos tracked, deleteTracked, alone_demand]
      obtain ⟨item, present⟩ := (Dict.mem_iff_lookup _ _).mp tracked
      rw [present]
      exact ⟨_, rfl, rfl⟩
    · rw [if_neg tracked]
      exact ⟨data, rfl, rfl⟩
  have done : ∃ answer, (all2thprintsDone radio bdaddr).alone data = some (answer, data) := by
    cases radio <;>
      · simp only [all2thprintsDone, all2thprintsDone.both, Prog.alone_bind, alone_hasSucceeded,
          Option.bind_some, Prog.alone_ite]
        split <;> exact ⟨_, rfl⟩
  obtain ⟨answer, done⟩ := done
  simp only [deleteIfAllDone, Prog.alone_bind, done, Option.bind_some, Prog.alone_ite]
  cases answer with
  | false => exact ⟨data, rfl, rfl⟩
  | true => exact deleted

theorem recordsSuccess_iff {data : Data} {bdaddr : Text}
    (unrecorded : bdaddr ∉ data.successBdaddrs .gatt) (state : State) :
    RecordsSuccess data bdaddr state ↔ state.exitStatus = some 0 := by
  constructor
  · rintro ⟨retCode, after, exited, reported, recorded⟩
    by_cases success : retCode = 0
    · rw [exited, success]
    · rw [ApplicationThread.report, if_neg success] at reported
      have same : after.successBdaddrs = data.successBdaddrs := by
        have written := congrArg (Option.map fun ended => ended.2.successBdaddrs) reported
        exact (Option.some.inj written).symm
      rw [same] at recorded
      exact absurd recorded unrecorded
  · intro exited
    obtain ⟨after, deleted, same⟩ := alone_deleteIfAllDone .ble bdaddr
      ((data.appendLog .gattprint (.success bdaddr)).setSuccess .gatt bdaddr)
    refine ⟨0, after, exited, ?_, ?_⟩
    · rw [ApplicationThread.report, if_pos rfl]
      simp only [Prog.alone_bind, Prog.alone_withLock]
      exact deleted
    · simp [same]

/-! ## One event -/

section Step

variable {stray : Stray}

/-- The loop, the exit status and descriptor discovery stand as before. -/
structure KeepsEnd (before after : State) : Prop where
  quit : after.quit = before.quit
  crashed : after.crashed = before.crashed
  gotError : after.gotError = before.gotError
  dd : after.dd = before.dd
  descriptors : after.ghost.descriptors = before.ghost.descriptors

/-- Only descriptor discovery quits the loop. -/
theorem keepsEnd_deliver {answer : Bool} {state : State} {op : Op} {status : UInt8} {pdu : Pdu}
    (other : op ≠ .descriptors) :
    KeepsEnd state (State.deliver stray answer state op status pdu) := by
  cases op with
  | primary =>
      simp only [State.deliver]
      split
      · exact ⟨rfl, rfl, rfl, rfl, rfl⟩
      · next err primaries _ =>
          by_cases ok : err = 0
          · subst ok
            exact ⟨rfl, rfl, rfl, rfl, rfl⟩
          · rw [State.primaryAllCb_error _ ok]
            exact ⟨rfl, rfl, rfl, rfl, rfl⟩
  | characteristics =>
      simp only [State.deliver]
      split
      · exact ⟨rfl, rfl, rfl, rfl, rfl⟩
      · next err characteristics _ =>
          by_cases ok : err = 0
          · subst ok
            obtain ⟨log, same⟩ := State.charDiscoveredCb_ok
              { state with
                dc := { state.dc with characteristics }
                ghost := { state.ghost with characteristics := some 0 } } characteristics
            rw [same]
            exact ⟨rfl, rfl, rfl, rfl, rfl⟩
          · rw [State.charDiscoveredCb_error _ ok]
            exact ⟨rfl, rfl, rfl, rfl, rfl⟩
  | descriptors => exact absurd rfl other
  | read index handle buffer =>
      simp only [State.deliver]
      split
      · exact ⟨rfl, rfl, rfl, rfl, rfl⟩
      · next err value _ =>
          obtain ⟨log, same⟩ := State.charReadCb_eq
            (if answer = true then state.noteRead index else state) index err value
          rw [same]
          cases answer <;> exact ⟨rfl, rfl, rfl, rfl, rfl⟩

/-- The request of descriptor discovery fails. -/
theorem deliver_lost (stray : Stray) (state : State) :
    ∃ log, State.deliver stray false state .descriptors ecodeUnlikely [opError] =
      { state with
        log
        quit := true
        crashed := state.crashed || (State.comparedHandle stray state.dd.descriptors).isNone
        ghost := { state.ghost with descriptors := some ecodeUnlikely } } := by
  have fails : descDiscoveredCb stray state.dd ecodeUnlikely [opError] =
      .ended (ecodeUnlikely, state.dd.descriptors) := by
    simp [descDiscoveredCb, ecodeUnlikely, ecodeAttrNotFound]
  obtain ⟨log, same⟩ := State.charDescCb_eq stray
    { state with
      dd := { state.dd with descriptors := state.dd.descriptors }
      ghost := { state.ghost with descriptors := some ecodeUnlikely } } ecodeUnlikely
      state.dd.descriptors
  refine ⟨log, ?_⟩
  simp only [State.deliver, fails, same]
  simp [ecodeUnlikely]

/-- All requests fail: the loop is quit exactly if descriptor discovery waits. -/
theorem fail_all (stray : Stray) (ops : List Op) (state : State) :
    let after := ops.foldl
      (fun state op => State.deliver stray false state op ecodeUnlikely [opError]) state
    after.quit = (state.quit || decide (.descriptors ∈ ops)) ∧
      after.crashed = (state.crashed || decide (.descriptors ∈ ops) &&
        (State.comparedHandle stray state.dd.descriptors).isNone) ∧
      after.gotError = state.gotError ∧
      (.descriptors ∈ ops → after.ghost.descriptors = some ecodeUnlikely) ∧
      (.descriptors ∉ ops → after.ghost.descriptors = state.ghost.descriptors) := by
  induction ops generalizing state with
  | nil => simp
  | cons op rest inductionHypothesis =>
      rw [List.foldl_cons]
      have later := inductionHypothesis
        (State.deliver stray false state op ecodeUnlikely [opError])
      by_cases own : op = .descriptors
      · subst own
        obtain ⟨log, same⟩ := deliver_lost stray state
        rw [same] at later ⊢
        obtain ⟨quit, crashed, gotError, ends, keeps⟩ := later
        refine ⟨by simp [quit], ?_, gotError, fun _ => ?_, by simp⟩
        · rw [crashed]
          cases (State.comparedHandle stray state.dd.descriptors).isNone <;> simp
        · by_cases again : .descriptors ∈ rest
          · exact ends again
          · exact keeps again
      · have kept : KeepsEnd state (State.deliver stray false state op ecodeUnlikely [opError]) :=
          keepsEnd_deliver own
        obtain ⟨quit, crashed, gotError, ends, keeps⟩ := later
        have tail : Op.descriptors ∈ op :: rest ↔ .descriptors ∈ rest := by
          simp [Ne.symm own]
        rw [kept.quit] at quit
        rw [kept.crashed, kept.dd] at crashed
        rw [kept.gotError] at gotError
        rw [kept.descriptors] at keeps
        simp only [tail]
        exact ⟨quit, crashed, gotError, ends, keeps⟩

theorem State.failAll_end (stray : Stray) (state : State) :
    (state.failAll stray).quit = (state.quit || decide (.descriptors ∈ state.queue)) ∧
      (state.failAll stray).crashed = (state.crashed || decide (.descriptors ∈ state.queue) &&
        (State.comparedHandle stray state.dd.descriptors).isNone) ∧
      (state.failAll stray).gotError = state.gotError ∧
      (.descriptors ∈ state.queue →
        (state.failAll stray).ghost.descriptors = some ecodeUnlikely) := by
  obtain ⟨quit, crashed, gotError, ends, -⟩ := fail_all stray state.queue
    { state with attached := false, queue := [] }
  exact ⟨quit, crashed, gotError, ends⟩

theorem exitStatus_eq_zero_iff (state : State) :
    state.exitStatus = some 0 ↔
      state.quit = true ∧ state.crashed = false ∧ state.gotError = false := by
  unfold State.exitStatus
  cases state.crashed <;> cases state.quit <;> cases state.gotError <;> simp

variable {before : State}

theorem exitStatus_of_runs (runs : before.isOver = false) : before.exitStatus ≠ some 0 := by
  rw [Ne, exitStatus_eq_zero_iff]
  rintro ⟨quit, -⟩
  simp [State.isOver, quit] at runs

theorem exitStatus_of_keepsEnd (runs : before.isOver = false) {after : State}
    (kept : KeepsEnd before after) : after.exitStatus ≠ some 0 := by
  rw [Ne, exitStatus_eq_zero_iff, kept.quit]
  rintro ⟨quit, -⟩
  simp [State.isOver, quit] at runs

/-- The end of descriptor discovery in an answer. -/
theorem complete_iff_of_descsEnd (runs : before.isOver = false) (noError : before.gotError = false)
    {rest : List Op} {err : UInt8} {descriptors : List Descriptor} (log : List Record) :
    let equal := State.comparedHandle stray descriptors = some before.gMaxHandle
    let after : State :=
      { before with
        dd := { before.dd with descriptors }
        queue := rest
        log
        quit := before.quit || decide (err ≠ 0) || decide equal
        crashed := before.crashed || (State.comparedHandle stray descriptors).isNone
        ghost := { before.ghost with
          descriptors := some err
          quitAtMaxHandle := before.ghost.quitAtMaxHandle || (decide equal && decide (err = 0)) } }
    after.exitStatus = some 0 ∧ ¬ Complete after ↔
      State.comparedHandle stray descriptors ≠ none ∧
        (err ≠ 0 ∨ equal ∧ ¬ (before.ghost.services = some 0 ∧
          before.ghost.characteristics = some 0 ∧ IssuedAnswered before)) := by
  intro equal after
  obtain ⟨notQuit, notCrashed⟩ : before.quit = false ∧ before.crashed = false := by
    simpa [State.isOver] using runs
  have exits : after.exitStatus = some 0 ↔
      State.comparedHandle stray descriptors ≠ none ∧ (err ≠ 0 ∨ equal) := by
    rw [exitStatus_eq_zero_iff]
    simp only [after, notQuit, notCrashed, noError, Bool.false_or, Bool.or_eq_true,
      decide_eq_true_eq, and_true, Option.isNone_eq_false_iff, Option.isSome_iff_ne_none]
    exact and_comm
  have complete : Complete after ↔ err = 0 ∧ before.ghost.services = some 0 ∧
      before.ghost.characteristics = some 0 ∧ IssuedAnswered before := by
    constructor
    · rintro ⟨services, characteristics, ended, reads⟩
      exact ⟨Option.some.inj ended, services, characteristics, reads⟩
    · rintro ⟨ended, services, characteristics, reads⟩
      exact ⟨services, characteristics, congrArg some ended, reads⟩
  rw [exits, complete]
  by_cases ok : err = 0
  · simp [ok, and_assoc]
  · simp [ok]

/-- What a unit does: nothing to the end of the process, or it answers the
outstanding request of descriptor discovery. -/
theorem unit_cases (stray : Stray) (runs : before.isOver = false) (pdu : Pdu) (raised : Bool) :
    (KeepsEnd before (before.step stray (.unit pdu raised)) ∧
        ∀ rest status unit, before.attached = true → before.queue = .descriptors :: rest →
          receive (.findInfo before.dd.start) pdu raised ≠ .answered status unit) ∨
      ∃ rest status unit, before.attached = true ∧ before.queue = .descriptors :: rest ∧
        receive (.findInfo before.dd.start) pdu raised = .answered status unit ∧
        before.step stray (.unit pdu raised) =
          State.deliver stray true { before with queue := rest } .descriptors status unit := by
  by_cases attached : before.attached = true
  · have stepped : before.step stray (.unit pdu raised) =
        before.receiveUnit stray pdu raised := by
      simp [State.step, runs, attached]
    rw [stepped, State.receiveUnit]
    cases queue : before.queue with
    | nil => exact Or.inl ⟨⟨rfl, rfl, rfl, rfl, rfl⟩, by simp⟩
    | cons op rest =>
        simp only
        cases received : receive (before.request op) pdu raised with
        | ignored =>
            refine Or.inl ⟨⟨rfl, rfl, rfl, rfl, rfl⟩, fun _ status unit _ head => ?_⟩
            obtain ⟨rfl, -⟩ := List.cons.inj head
            exact fun answered => absurd (received.symm.trans answered) (by simp)
        | retried =>
            refine Or.inl ⟨⟨rfl, rfl, rfl, rfl, rfl⟩, fun _ status unit _ head => ?_⟩
            obtain ⟨rfl, -⟩ := List.cons.inj head
            exact fun answered => absurd (received.symm.trans answered) (by simp)
        | answered status unit =>
            by_cases own : op = .descriptors
            · subst own
              exact Or.inr ⟨rest, status, unit, attached, rfl, received, rfl⟩
            · have kept : KeepsEnd { before with queue := rest }
                  (State.deliver stray true { before with queue := rest } op status unit) :=
                keepsEnd_deliver own
              refine Or.inl ⟨⟨kept.quit, kept.crashed, kept.gotError, kept.dd, kept.descriptors⟩, ?_⟩
              intro _ _ _ _ head
              exact absurd (List.cons.inj head).1 own
  · have stepped : before.step stray (.unit pdu raised) = before := by
      simp [State.step, runs, attached]
    rw [stepped]
    exact Or.inl ⟨⟨rfl, rfl, rfl, rfl, rfl⟩, fun _ _ _ yes => absurd yes attached⟩

/-- One event: the loop is quit with status 0 and something missing exactly if the
event ends descriptor discovery early. -/
theorem step_incomplete_iff (runs : before.isOver = false) (noError : before.gotError = false)
    (event : Event) :
    ((before.step stray event).exitStatus = some 0 ∧ ¬ Complete (before.step stray event)) ↔
      EndsEarly stray before event := by
  cases event with
  | connectFails =>
      refine iff_of_false ?_ (fun early => by cases early)
      rintro ⟨exited, -⟩
      rw [State.step, if_neg (by simp [runs])] at exited
      by_cases started : before.started = true
      · rw [if_pos started] at exited
        exact exitStatus_of_runs runs exited
      · rw [if_neg started, exitStatus_eq_zero_iff] at exited
        exact absurd exited.2.2 (by simp)
  | connectError =>
      refine iff_of_false ?_ (fun early => by cases early)
      rintro ⟨exited, -⟩
      rw [State.step, if_neg (by simp [runs])] at exited
      by_cases started : before.started = true
      · rw [if_pos started] at exited
        exact exitStatus_of_runs runs exited
      · rw [if_neg started, exitStatus_eq_zero_iff] at exited
        exact absurd exited.2.2 (by simp)
  | connected =>
      refine iff_of_false ?_ (fun early => by cases early)
      rintro ⟨exited, -⟩
      rw [State.step, if_neg (by simp [runs])] at exited
      by_cases started : before.started = true
      · rw [if_pos started] at exited
        exact exitStatus_of_runs runs exited
      · rw [if_neg started] at exited
        exact exitStatus_of_keepsEnd runs ⟨rfl, rfl, rfl, rfl, rfl⟩ exited
  | unit pdu raised =>
      rcases unit_cases stray runs pdu raised with
        ⟨kept, unanswered⟩ | ⟨rest, status, unit, attached, queue, received, stepped⟩
      · refine iff_of_false (fun exited => exitStatus_of_keepsEnd runs kept exited.1) ?_
        intro early
        cases early with
        | error _ attached queue received => exact unanswered _ _ _ attached queue received
        | atMaxHandle _ attached queue received => exact unanswered _ _ _ attached queue received
      · rw [stepped]
        simp only [State.deliver]
        cases ends : descDiscoveredCb stray before.dd status unit with
        | more dd =>
            refine iff_of_false (fun exited => ?_) ?_
            · exact exitStatus_of_keepsEnd runs ⟨rfl, rfl, rfl, rfl, rfl⟩ exited.1
            · intro early
              cases early with
              | error _ _ _ receivedAgain endsAgain =>
                  cases received.symm.trans receivedAgain
                  exact absurd (ends.symm.trans endsAgain) (by simp)
              | atMaxHandle _ _ _ receivedAgain endsAgain =>
                  cases received.symm.trans receivedAgain
                  exact absurd (ends.symm.trans endsAgain) (by simp)
        | ended result =>
            obtain ⟨err, descriptors⟩ := result
            obtain ⟨log, same⟩ := State.charDescCb_eq stray
              { before with
                dd := { before.dd with descriptors }
                queue := rest
                ghost := { before.ghost with descriptors := some err } } err descriptors
            simp only [same]
            refine Iff.trans (complete_iff_of_descsEnd runs noError log) ?_
            constructor
            · rintro ⟨found, error | ⟨compared, missing⟩⟩
              · exact .error runs attached queue received ends error found
              · by_cases ok : err = 0
                · subst ok
                  exact .atMaxHandle runs attached queue received ends compared missing
                · exact .error runs attached queue received ends ok found
            · intro early
              cases early with
              | error _ _ _ receivedAgain endsAgain error found =>
                  cases received.symm.trans receivedAgain
                  cases ends.symm.trans endsAgain
                  exact ⟨found, Or.inl error⟩
              | atMaxHandle _ _ _ receivedAgain endsAgain compared missing =>
                  cases received.symm.trans receivedAgain
                  cases ends.symm.trans endsAgain
                  exact ⟨by simp [compared], Or.inr ⟨compared, missing⟩⟩
  | disconnected =>
      by_cases attached : before.attached = true
      · have stepped : before.step stray .disconnected = before.failAll stray := by
          simp [State.step, runs, attached]
        obtain ⟨notQuit, notCrashed⟩ : before.quit = false ∧ before.crashed = false := by
          simpa [State.isOver] using runs
        obtain ⟨quit, crashed, gotError, ends⟩ := before.failAll_end stray
        rw [stepped, exitStatus_eq_zero_iff, quit, crashed, gotError]
        simp only [notQuit, notCrashed, noError, Bool.false_or, decide_eq_true_eq,
          Bool.and_eq_false_iff, decide_eq_false_iff_not, Option.isNone_eq_false_iff, and_true]
        constructor
        · rintro ⟨⟨asks, found⟩, -⟩
          refine .lost runs attached asks ?_
          rw [← Option.isSome_iff_ne_none]
          exact found.resolve_left (not_not.mpr asks)
        · intro early
          cases early with
          | lost _ _ asks found =>
              refine ⟨⟨asks, Or.inr (Option.isSome_iff_ne_none.mpr found)⟩, fun complete => ?_⟩
              have ended := complete.descriptors
              rw [ends asks] at ended
              exact absurd ended (by decide)
      · have stepped : before.step stray .disconnected = before := by
          simp [State.step, runs, attached]
        rw [stepped]
        refine iff_of_false (fun exited => exitStatus_of_runs runs exited.1) ?_
        intro early
        cases early with
        | lost _ yes => exact attached yes

theorem charDescCb_gotError (stray : Stray) (state : State) (status : UInt8)
    (descriptors : List Descriptor) :
    (State.charDescCb stray state status descriptors).gotError = state.gotError := by
  obtain ⟨log, same⟩ := State.charDescCb_eq stray state status descriptors
  rw [same]

/-- An error quits the loop. -/
theorem over_of_gotError_step (sound : before.gotError = true → before.isOver = true)
    (event : Event) (error : (before.step stray event).gotError = true) :
    (before.step stray event).isOver = true := by
  by_cases isOver : before.isOver = true
  · simp [State.step, isOver]
  · have runs : before.isOver = false := by simpa using isOver
    have noError : before.gotError = false := by
      by_contra gotError
      exact isOver (sound (by simpa using gotError))
    cases event with
    | connectFails =>
        rw [State.step, if_neg isOver] at error ⊢
        by_cases started : before.started = true
        · simp [started, noError] at error
        · simp [started, State.isOver]
    | connectError =>
        rw [State.step, if_neg isOver] at error ⊢
        by_cases started : before.started = true
        · simp [started, noError] at error
        · simp [started, State.isOver]
    | connected =>
        rw [State.step, if_neg isOver] at error
        by_cases started : before.started = true
        · simp [started, noError] at error
        · simp [started, noError, State.startDiscovery] at error
    | unit pdu raised =>
        exfalso
        rcases unit_cases stray runs pdu raised with
          ⟨kept, -⟩ | ⟨rest, status, unit, _, _, _, stepped⟩
        · rw [kept.gotError, noError] at error
          exact absurd error (by decide)
        · rw [stepped, State.deliver] at error
          cases ends : descDiscoveredCb stray before.dd status unit with
          | more dd => simp [ends, noError] at error
          | ended result => simp [ends, charDescCb_gotError, noError] at error
    | disconnected =>
        exfalso
        rw [State.step, if_neg isOver] at error
        by_cases attached : before.attached = true
        · simp [attached, before.failAll_end stray, noError] at error
        · simp [attached, noError] at error

end Step

/-! ## Runs -/

theorem State.after_concat (stray : Stray) (events : List Event) (event : Event) (state : State) :
    state.after stray (events ++ [event]) = (state.after stray events).step stray event := by
  simp [State.after]

/-- An event of a longer run is its last one or stands in the shorter run. -/
private theorem split_concat {events earlier later : List Event} {event other : Event}
    (split : events ++ [event] = earlier ++ other :: later) :
    (earlier = events ∧ other = event) ∨ ∃ shorter, events = earlier ++ other :: shorter := by
  rcases List.eq_nil_or_concat later with rfl | ⟨shorter, last, rfl⟩
  · obtain ⟨same, lastSame⟩ := List.append_inj' split rfl
    exact Or.inl ⟨same.symm, (List.cons.inj lastSame).1.symm⟩
  · rw [List.concat_eq_append, ← List.cons_append, ← List.append_assoc] at split
    exact Or.inr ⟨shorter, (List.append_inj' split rfl).1⟩

theorem over_of_gotError (stray : Stray) (events : List Event)
    (error : (State.initial.after stray events).gotError = true) :
    (State.initial.after stray events).isOver = true := by
  induction events using List.reverseRecOn with
  | nil => exact absurd error Bool.false_ne_true
  | append_singleton events event inductionHypothesis =>
      rw [State.after_concat] at error ⊢
      exact over_of_gotError_step inductionHypothesis event error

/-- The process exits with status 0 and something missing exactly if some event
ends descriptor discovery early. -/
theorem incomplete_iff (stray : Stray) (events : List Event) :
    ((State.initial.after stray events).exitStatus = some 0 ∧
        ¬ Complete (State.initial.after stray events)) ↔
      ∃ earlier event later, events = earlier ++ event :: later ∧
        EndsEarly stray (State.initial.after stray earlier) event := by
  induction events using List.reverseRecOn with
  | nil =>
      have runs : (State.initial.after stray []).isOver = false := rfl
      refine iff_of_false (fun exited => exitStatus_of_runs runs exited.1) ?_
      rintro ⟨earlier, event, later, same, -⟩
      simp at same
  | append_singleton events event inductionHypothesis =>
      rw [State.after_concat]
      by_cases isOver : (State.initial.after stray events).isOver = true
      · have same : (State.initial.after stray events).step stray event =
            State.initial.after stray events := by
          simp [State.step, isOver]
        rw [same, inductionHypothesis]
        constructor
        · rintro ⟨earlier, other, later, rfl, early⟩
          exact ⟨earlier, other, later ++ [event], by simp, early⟩
        · rintro ⟨earlier, other, later, split, early⟩
          rcases split_concat split with ⟨rfl, -⟩ | ⟨shorter, rest⟩
          · exact absurd isOver (by simp [early.runs])
          · exact ⟨earlier, other, shorter, rest, early⟩
      · have runs : (State.initial.after stray events).isOver = false := by simpa using isOver
        have noError : (State.initial.after stray events).gotError = false := by
          by_contra error
          exact isOver (over_of_gotError stray events (by simpa using error))
        rw [step_incomplete_iff runs noError]
        constructor
        · exact fun early => ⟨events, event, [], rfl, early⟩
        · rintro ⟨earlier, other, later, split, early⟩
          rcases split_concat split with ⟨rfl, rfl⟩ | ⟨shorter, rest⟩
          · exact early
          · have before := inductionHypothesis.mpr ⟨earlier, other, shorter, rest, early⟩
            exact absurd before.1 (exitStatus_of_runs runs)

/-- Over all sequences of events, the launcher takes an attempt for a success
only when everything was collected, if and only if no event ends descriptor
discovery early. -/
theorem success_complete_iff (stray : Stray) (data : Data) (bdaddr : Text)
    (unrecorded : bdaddr ∉ data.successBdaddrs .gatt) (events : List Event) :
    (RecordsSuccess data bdaddr (State.initial.after stray events) →
        Complete (State.initial.after stray events)) ↔
      ∀ earlier event later, events = earlier ++ event :: later →
        ¬ EndsEarly stray (State.initial.after stray earlier) event := by
  rw [recordsSuccess_iff unrecorded]
  have exact_ := incomplete_iff stray events
  constructor
  · intro complete earlier event later split early
    obtain ⟨exited, incomplete⟩ := exact_.mpr ⟨earlier, event, later, split, early⟩
    exact incomplete (complete exited)
  · intro never exited
    by_contra incomplete
    obtain ⟨earlier, event, later, split, early⟩ := exact_.mp ⟨exited, incomplete⟩
    exact never earlier event later split early

/-- Descriptor discovery finds handle 1 and then gets an error; the other two
discoveries end well and nothing is readable. -/
def descriptorError : List Event :=
  [.connected,
    .unit [0x11, 6, 1, 0, 0xff, 0xff, 0x00, 0x18] false,
    .unit [0x09, 7, 2, 0, 0x00, 3, 0, 0x00, 0x2a] false,
    .unit [0x05, 1, 1, 0, 0x00, 0x28] false,
    .unit [0x01, 0x08, 3, 0, 0x0a] false,
    .unit [0x01, 0x04, 2, 0, 0x0e] false]

theorem success_complete_descriptorError :
    "aa".toList ∉ Data.empty.successBdaddrs .gatt ∧
      ((RecordsSuccess Data.empty "aa".toList
            (State.initial.after zeroStray descriptorError) →
          Complete (State.initial.after zeroStray descriptorError)) ↔
        ∀ earlier event later, descriptorError = earlier ++ event :: later →
          ¬ EndsEarly zeroStray (State.initial.after zeroStray earlier) event) := by
  have unrecorded : "aa".toList ∉ Data.empty.successBdaddrs .gatt := by decide
  exact ⟨unrecorded, success_complete_iff zeroStray Data.empty _ unrecorded descriptorError⟩

/-- The launcher records a success although descriptor discovery failed. -/
theorem not_complete_descriptorError :
    RecordsSuccess Data.empty "aa".toList (State.initial.after zeroStray descriptorError) ∧
      ¬ Complete (State.initial.after zeroStray descriptorError) := by
  constructor
  · exact (recordsSuccess_iff (by decide) _).mpr (by decide)
  · intro complete
    exact absurd complete.descriptors (by decide)

end NaiveBTSniffing.Gatttool
