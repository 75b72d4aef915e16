import NaiveBTSniffing.Launcher.Rules

/-!
Contract: moving an address between the tracked and the deprioritized dictionary
of a radio.

`process_line` moves an address by storing it in the one dictionary and then
deleting it from the other; a worker moves it back by deleting it and then
storing it. For BLE both run under `ble_bdaddrs_lock`. For BTC they run under
different locks, and an address is lost when the worker ends its move in the
middle of the other one. `move_keeps` says that nothing else loses an address;
`move_loses` is a run in which this happens.

Owns the contract `movesContract` between the threads.
-/

namespace NaiveBTSniffing.Launcher

open NaiveBTSniffing.Library
open NaiveBTSniffing.Library.Interleaving
open NaiveBTSniffing.Library.Interleaving.Prog

/-- The address that `process_line` and the worker of a radio are moving in
opposite directions. -/
def Data.crossing (data : Data) (radio : Radio) : Option Text :=
  match data.ghost.deprioritizing, data.ghost.reprioritizing radio with
  | some (parked, bdaddr), some other => if parked = radio ∧ bdaddr = other then some bdaddr else none
  | _, _ => none

/-- For BTC: the worker does not end its move of an address while `process_line`
is in the middle of moving it the other way. -/
def MovesApart (radio : Radio) (before after : Data) : Prop :=
  radio = .btc → (before.crossing .btc).isSome → (after.ghost.reprioritizing .btc).isSome

instance (radio : Radio) : DecidableRel (MovesApart radio) := fun before after =>
  inferInstanceAs (Decidable (radio = .btc → (before.crossing .btc).isSome →
    (after.ghost.reprioritizing .btc).isSome))

theorem crossing_of_both {data : Data} {radio : Radio} {bdaddr : Text}
    (parking : data.ghost.deprioritizing = some (radio, bdaddr))
    (unparking : data.ghost.reprioritizing radio = some bdaddr) :
    data.crossing radio = some bdaddr := by
  simp [Data.crossing, parking, unparking]

/-! ## The terms -/

/-- The address is in one of the two dictionaries, or a worker holds it between
its deletion and its store. -/
def Present (radio : Radio) (bdaddr : Text) (data : Data) : Prop :=
  bdaddr ∈ data.bdaddrs radio ∨ bdaddr ∈ data.deprioritizedBdaddrs radio ∨
    data.ghost.reprioritizing radio = some bdaddr

/-- How often `locked_delete_from_dict` has removed the address. -/
def deletions (radio : Radio) (bdaddr : Text) (data : Data) : Nat :=
  data.ghost.trace.count (.deleted radio bdaddr)

/-- Only a deletion makes an address absent. -/
def Kept (radio : Radio) (before after : Data) : Prop :=
  ∀ bdaddr, deletions radio bdaddr before ≤ deletions radio bdaddr after ∧
    (Present radio bdaddr before → deletions radio bdaddr after = deletions radio bdaddr before →
      Present radio bdaddr after)

theorem Kept.refl (radio : Radio) (data : Data) : Kept radio data data :=
  fun _ => ⟨Nat.le_refl _, fun present _ => present⟩

theorem Kept.trans {radio : Radio} {first second third : Data} (earlier : Kept radio first second)
    (later : Kept radio second third) : Kept radio first third := by
  intro bdaddr
  obtain ⟨grows, keeps⟩ := earlier bdaddr
  obtain ⟨growsAgain, keepsAgain⟩ := later bdaddr
  refine ⟨Nat.le_trans grows growsAgain, fun present same => ?_⟩
  exact keepsAgain (keeps present (by omega)) (by omega)

/-- An address that `process_line` is about to delete from the tracked dictionary
is safe elsewhere. -/
def ParkedSafely (radio : Radio) (data : Data) : Prop :=
  ∀ bdaddr, data.ghost.deprioritizing = some (radio, bdaddr) →
    bdaddr ∈ data.deprioritizedBdaddrs radio ∨ data.ghost.reprioritizing radio = some bdaddr

structure MovesRely (radio : Radio) (thread : ThreadId) (held : List Lock) (before after : Data) :
    Prop where
  deprioritizing : thread = .monitor →
    after.ghost.deprioritizing = before.ghost.deprioritizing
  locked : ∀ own bdaddr, Lock.bdaddrs own ∈ held →
    after.ghost.deprioritizing = some (own, bdaddr) →
    before.ghost.deprioritizing = some (own, bdaddr)
  reprioritizing : thread = .worker radio →
    after.ghost.reprioritizing radio = before.ghost.reprioritizing radio

structure MovesGuar (radio : Radio) (thread : ThreadId) (held : List Lock) (before after : Data) :
    Prop where
  deprioritizing : thread ≠ .monitor →
    after.ghost.deprioritizing = before.ghost.deprioritizing
  locked : ∀ own bdaddr, after.ghost.deprioritizing = some (own, bdaddr) →
    before.ghost.deprioritizing = some (own, bdaddr) ∨ Lock.bdaddrs own ∈ held
  reprioritizing : thread ≠ .worker radio →
    after.ghost.reprioritizing radio = before.ghost.reprioritizing radio
  kept : Kept radio before after

/-- While the lock of a tracked dictionary is free, `process_line` is not in the
middle of a move out of it. -/
def NotParking (lock : Lock) (data : Data) : Prop :=
  ∀ own bdaddr, lock = .bdaddrs own → data.ghost.deprioritizing ≠ some (own, bdaddr)

def movesContract (radio : Radio) : LauncherContract where
  inv := ParkedSafely radio
  lockInv := NotParking
  rely := MovesRely radio
  guar := MovesGuar radio
  rest := fun thread data => thread = .worker radio → data.ghost.reprioritizing radio = none
  dead := fun _ _ => True
  allowed := MovesApart radio
  relyRefl := fun _ _ _ => ⟨fun _ => rfl, fun _ _ _ same => same, fun _ => rfl⟩
  relyTrans := fun first second =>
    { deprioritizing := fun own => (second.deprioritizing own).trans (first.deprioritizing own)
      locked := fun own bdaddr member there =>
        first.locked own bdaddr member (second.locked own bdaddr member there)
      reprioritizing := fun own => (second.reprioritizing own).trans (first.reprioritizing own) }
  relyLock := fun relied =>
    { relied with
      locked := fun own bdaddr member => relied.locked own bdaddr (List.mem_cons_of_mem _ member) }
  relyFree := fun member relied free own bdaddr same there =>
    free own bdaddr same (relied.locked own bdaddr (same ▸ member) there)
  guarRefl := fun _ _ _ => ⟨fun _ => rfl, fun _ _ there => .inl there, fun _ => rfl, .refl _ _⟩

/-! ## Steps that move nothing -/

/-- A step that leaves the moves of a radio alone and removes an address from the
tracked dictionary only by a recorded deletion. -/
structure Calm (radio : Radio) (before after : Data) : Prop where
  deprioritized : after.deprioritizedBdaddrs radio = before.deprioritizedBdaddrs radio
  deprioritizing : after.ghost.deprioritizing = before.ghost.deprioritizing
  reprioritizing : after.ghost.reprioritizing radio = before.ghost.reprioritizing radio
  recorded : ∃ events, after.ghost.trace = before.ghost.trace ++ events
  tracked : ∀ bdaddr ∈ before.bdaddrs radio, bdaddr ∈ after.bdaddrs radio ∨
    after.ghost.trace = before.ghost.trace ++ [.deleted radio bdaddr]

namespace Calm

variable {radio : Radio} {before after : Data}

theorem refl (radio : Radio) (data : Data) : Calm radio data data :=
  ⟨rfl, rfl, rfl, ⟨[], by simp⟩, fun _ member => .inl member⟩

theorem kept (calm : Calm radio before after) : Kept radio before after := by
  intro bdaddr
  obtain ⟨events, recorded⟩ := calm.recorded
  refine ⟨by simp [deletions, recorded], fun present same => ?_⟩
  rcases present with tracked | parked | moving
  · rcases calm.tracked bdaddr tracked with still | deleted
    · exact .inl still
    · simp [deletions, deleted] at same
  · exact .inr (.inl (by rwa [calm.deprioritized]))
  · exact .inr (.inr (by rwa [calm.reprioritizing]))

theorem parkedSafely (calm : Calm radio before after) (safe : ParkedSafely radio before) :
    ParkedSafely radio after := by
  intro bdaddr parking
  rw [calm.deprioritizing] at parking
  rw [calm.deprioritized, calm.reprioritizing]
  exact safe bdaddr parking

theorem guar (calm : Calm radio before after) (thread : ThreadId) (held : List Lock) :
    MovesGuar radio thread held before after :=
  ⟨fun _ => calm.deprioritizing, fun _ _ there => .inl (by rwa [calm.deprioritizing] at there),
    fun _ => calm.reprioritizing, calm.kept⟩

theorem notParking (calm : Calm radio before after) {lock : Lock}
    (free : NotParking lock before) : NotParking lock after := by
  intro own bdaddr same there
  rw [calm.deprioritizing] at there
  exact free own bdaddr same there

/-- A step that changes neither dictionaries nor the ghost record of a move. -/
theorem of_same (tracked : after.bdaddrs = before.bdaddrs)
    (deprioritized : after.deprioritizedBdaddrs = before.deprioritizedBdaddrs)
    (deprioritizing : after.ghost.deprioritizing = before.ghost.deprioritizing)
    (reprioritizing : after.ghost.reprioritizing = before.ghost.reprioritizing)
    (recorded : ∃ events, after.ghost.trace = before.ghost.trace ++ events) :
    Calm radio before after :=
  ⟨by rw [deprioritized], deprioritizing, by rw [reprioritizing], recorded,
    fun _ member => .inl (by rwa [tracked])⟩

theorem of_delete (data : Data) (own : Radio) (bdaddr : Text) :
    Calm radio data (data.delete own bdaddr) := by
  refine ⟨rfl, rfl, rfl, ⟨[.deleted own bdaddr], rfl⟩, fun other member => ?_⟩
  simp
  grind

end Calm

section Steps

variable {radio own : Radio} {held : List Lock} {before after : Data}

private theorem calm_of_command {asked : Command} (step : CommandStep held asked before after)
    (noVendor : ∀ bdaddr more, asked ≠ .manufacturerData bdaddr more) :
    Calm radio before after := by
  cases step with
  | same => exact .refl radio before
  | resetAttempts => exact .of_same rfl rfl rfl rfl ⟨[], by simp⟩
  | grantOneMoreTry => exact .of_same rfl rfl rfl rfl ⟨[], by simp⟩
  | raiseRssi => exact .of_same rfl rfl rfl rfl ⟨_, rfl⟩
  | trackNew => exact ⟨rfl, rfl, rfl, ⟨[], by simp⟩, fun _ member => .inl (by simp; grind)⟩
  | trackRssi => exact ⟨rfl, rfl, rfl, ⟨[], by simp⟩, fun _ member => .inl (by simp; grind)⟩
  | park => exact absurd rfl (noVendor _ _)
  | untrack => exact absurd rfl (noVendor _ _)
  | delete => exact .of_delete _ _ _

private theorem calm_of_sort (step : SortStep own before after) : Calm radio before after := by
  cases step <;> exact .of_same rfl rfl rfl rfl ⟨[], by simp⟩

private theorem calm_of_delete {bdaddr : Text} (step : DeleteStep own bdaddr held before after) :
    Calm radio before after := by
  cases step with
  | same => exact .refl radio before
  | delete => exact .of_delete _ _ _

private theorem calm_of_loop {bdaddr : Text} (step : LoopStep own bdaddr held before after) :
    Calm radio before after := by
  cases step with
  | delete step => exact calm_of_delete step
  | next => exact .of_same rfl rfl rfl rfl ⟨[], by simp⟩
  | exceeded => exact .of_same rfl rfl rfl rfl ⟨_, rfl⟩

private theorem calm_of_stage {infoType : InfoType} {bdaddr : Text}
    (step : StageStep infoType bdaddr held before after) : Calm radio before after := by
  cases step with
  | delete step => exact calm_of_delete step
  | attempt => exact .of_same rfl rfl rfl rfl ⟨[], by simp⟩
  | launch step => cases step <;> exact .of_same rfl rfl rfl rfl ⟨[], by simp⟩

private theorem calm_of_collect {bdaddr : Text} (step : CollectStep own bdaddr held before after) :
    Calm radio before after := by
  cases step with
  | same => exact .refl radio before
  | countAttempt => exact .of_same rfl rfl rfl rfl ⟨_, rfl⟩
  | stage _ step => exact calm_of_stage step

private theorem calm_of_tool {number : Nat} {process : Process}
    (step : ToolStep number process held before after) : Calm radio before after := by
  cases step with
  | delete step => exact calm_of_delete step
  | _ => exact .of_same rfl rfl rfl rfl ⟨[], by simp⟩

/-- The moves of one radio's worker leave the other radio alone. -/
private theorem calm_of_worker (step : WorkerStep own held before after) (other : own ≠ radio) :
    Calm radio before after := by
  cases step with
  | sort step => exact calm_of_sort step
  | loop step => exact calm_of_loop step
  | collect step => exact calm_of_collect step
  | unpark => exact ⟨by simp [Ne.symm other], rfl, by simp [Ne.symm other], ⟨[], by simp⟩,
      fun _ member => .inl member⟩
  | retrack => exact ⟨rfl, rfl, by simp [Ne.symm other], ⟨[], by simp⟩,
      fun _ member => .inl (by simpa [Ne.symm other] using member)⟩

end Steps

/-! ## Programs that move nothing -/

section Frame

variable {α : Type} {radio : Radio} {thread : ThreadId} {held : List Lock} {pre : Data → Prop}

/-- A program of calm steps keeps every assertion about the moves. -/
private theorem calm_frame {shape : List Lock → Data → Data → Prop} {program : Code α}
    (within : program.Within shape held held)
    (calm : ∀ now before after, shape now before after → Calm radio before after)
    (stable : (movesContract radio).Stable thread held pre)
    (keeps : ∀ before after, Calm radio before after → pre before → pre after) :
    Triple (movesContract radio) thread held (fun _ => True) pre program fun _ => pre :=
  Triple.frame within stable
    (fun now before after _ safe holds step _ =>
      ⟨(calm now before after step).parkedSafely safe, (calm now before after step).guar thread now,
        keeps before after (calm now before after step) holds⟩)
    (fun now before after _ step free => (calm now before after step).notParking free)
    fun _ _ _ => trivial

private theorem true_stable : (movesContract radio).Stable thread held fun _ => True :=
  Contract.stable_const _ _ _ _

end Frame

/-! ## The monitor -/

section Monitor

variable {radio own : Radio} {held : List Lock} {bdaddr : Text}

private theorem parking_stable (move : Option (Radio × Text)) :
    (movesContract radio).Stable .monitor held fun data => data.ghost.deprioritizing = move :=
  fun _ _ holds _ _ relied => (relied.deprioritizing rfl).trans holds

/-- The move to the deprioritized dictionary: until the second half, the address
is in the deprioritized dictionary or on its way back. -/
private theorem park_triple (locked : Lock.bdaddrs own ∈ held) (vendor : Text) :
    Triple (movesContract radio) .monitor held (NotParking (.bdaddrs own))
      (NotParking (.bdaddrs own)) (park own bdaddr vendor)
      fun _ => NotParking (.bdaddrs own) := by
  have stable : ∀ {held}, Lock.bdaddrs own ∈ held →
      (movesContract radio).Stable .monitor held (NotParking (.bdaddrs own)) :=
    fun member => Contract.lockInv_stable member
  refine Triple.bind (fun _ => NotParking (.bdaddrs own)) (Rule.demand (stable locked)
    (fun _ => stable locked) (stable locked) fun data safe free _ =>
      ⟨safe, (movesContract radio).guarRefl _ _ _, fun _ _ => free, fun _ => free⟩) fun stored => ?_
  refine Triple.bind (fun _ data => data.ghost.deprioritizing = some (own, bdaddr))
    (Triple.withBareLock ?_ (stable locked)
      (Rule.change (stable (List.mem_cons_of_mem _ locked)) (parking_stable _)
        fun data safe _ _ => ⟨?_, ?_, rfl⟩) (fun _ => parking_stable _) (stable locked))
    fun _ => ?_
  · exact fun data radio bdaddr impossible => by simp at impossible
  · intro other parking
    obtain ⟨rfl, rfl⟩ : own = radio ∧ bdaddr = other := by simpa using parking
    exact .inl (by simp)
  · refine ⟨fun monitor => absurd rfl monitor, fun other moved parking => .inr ?_, fun _ => rfl,
      fun other => ⟨Nat.le_refl _, fun present _ => ?_⟩⟩
    · obtain ⟨rfl, rfl⟩ : own = other ∧ bdaddr = moved := by simpa using parking
      exact List.mem_cons_of_mem _ locked
    · rcases present with tracked | parked | moving
      · exact .inl tracked
      · exact .inr (.inl (by simp; grind))
      · exact .inr (.inr moving)
  · refine Rule.demand (parking_stable _) (fun _ => stable locked) (stable locked)
      fun data safe parking _ => ?_
    refine ⟨fun _ impossible => by simp at impossible, ⟨fun monitor => absurd rfl monitor,
      fun _ _ impossible => by simp at impossible, fun _ => rfl, fun other =>
        ⟨Nat.le_refl _, fun present _ => ?_⟩⟩, fun _ _ _ _ _ => by simp, fun _ _ _ _ => by simp⟩
    by_cases same : own = radio ∧ other = bdaddr
    · obtain ⟨rfl, rfl⟩ := same
      exact .inr (safe other parking)
    · rcases present with tracked | elsewhere
      · exact .inl (by simp; grind)
      · exact .inr elsewhere

private theorem deprioritize_triple (vendor : Text) :
    Triple (movesContract radio) .monitor [] (fun _ => True) (fun _ => True)
      (deprioritize own bdaddr vendor) fun _ _ => True := by
  refine Rule.whenTracked true_stable (Contract.lockInv_stable (by simp)) true_stable true_stable
    (fun _ _ free _ _ => free) (fun _ _ _ => trivial) ?_
  exact fun data safe free => Prog.Safe.mono (fun _ _ _ still => ⟨still, trivial⟩)
    (fun _ _ still => ⟨still, trivial⟩) _ (park_triple (by simp) vendor data safe free)

private theorem processCommand_moves (asked : Command) :
    Triple (movesContract radio) .monitor [] (fun _ => True) (fun _ => True)
      (processCommand asked) fun _ _ => True := by
  by_cases vendor : ∃ bdaddr more, asked = .manufacturerData bdaddr more
  · obtain ⟨bdaddr, more, rfl⟩ := vendor
    cases more with
    | nil => exact Triple.raised true_stable fun _ _ _ => trivial
    | cons vendor rest =>
        exact Triple.ite (fun _ => Triple.bind _ (deprioritize_triple vendor) fun _ =>
          deprioritize_triple vendor) fun _ => Triple.done true_stable fun _ _ _ => trivial
  · exact calm_frame (processCommand_within asked)
      (fun _ _ _ step => calm_of_command step fun bdaddr more same => vendor ⟨bdaddr, more, same⟩)
      true_stable fun _ _ _ holds => holds

end Monitor

/-! ## The workers -/

section Worker

variable {radio : Radio} {held : List Lock} {bdaddr : Text}

private theorem moving_stable (move : Option Text) :
    (movesContract radio).Stable (.worker radio) held fun data =>
      data.ghost.reprioritizing radio = move :=
  fun _ _ holds _ _ relied => (relied.reprioritizing rfl).trans holds

private theorem unparking_stable (locked : Lock.bdaddrs .ble ∈ held) (move : Option Text) :
    (movesContract radio).Stable (.worker radio) held fun data =>
      NotParking (.bdaddrs .ble) data ∧ data.ghost.reprioritizing radio = move :=
  Contract.Stable.and (Contract.lockInv_stable locked) (moving_stable move)

/-- Nothing depends on the address any more when its move back ends: for BLE
because of the lock, for BTC because the moves do not cross. -/
private theorem retrack_safe {data : Data} {value : Text × Int} (safe : ParkedSafely radio data)
    (free : NotParking (.bdaddrs .ble) data)
    (moving : data.ghost.reprioritizing radio = some bdaddr)
    (apart : MovesApart radio data (data.retrack radio bdaddr value)) :
    ParkedSafely radio (data.retrack radio bdaddr value) := by
  intro other parking
  refine (safe other parking).imp id fun same => ?_
  obtain rfl : bdaddr = other := Option.some.inj (moving.symm.trans same)
  cases radio with
  | ble => exact absurd parking (free .ble bdaddr rfl)
  | btc =>
      have crossing : data.crossing .btc = some bdaddr := crossing_of_both parking moving
      have moved := apart rfl (by simp [crossing])
      simp at moved

/-- The move back to the tracked dictionary. -/
private theorem unpark_triple (locked : Lock.bdaddrs .ble ∈ held) :
    Triple (movesContract radio) (.worker radio) held (NotParking (.bdaddrs .ble))
      (fun data => NotParking (.bdaddrs .ble) data ∧ data.ghost.reprioritizing radio = none)
      (unpark radio bdaddr)
      fun _ data => NotParking (.bdaddrs .ble) data ∧
        data.ghost.reprioritizing radio = none := by
  have failing : (movesContract radio).Stable (.worker radio) held (NotParking (.bdaddrs .ble)) :=
    Contract.lockInv_stable locked
  have resting : (movesContract radio).Stable (.worker radio) held fun data =>
      NotParking (.bdaddrs .ble) data ∧ data.ghost.reprioritizing radio = none :=
    unparking_stable locked none
  refine Triple.bind (fun _ data => NotParking (.bdaddrs .ble) data ∧
    data.ghost.reprioritizing radio = none) (Rule.demand resting (fun _ => resting) failing
      fun data safe holds _ => ⟨safe, (movesContract radio).guarRefl _ _ _, fun _ _ => holds,
        fun _ => holds.1⟩) fun stored => ?_
  refine Triple.bind (fun _ data => NotParking (.bdaddrs .ble) data ∧
    data.ghost.reprioritizing radio = some bdaddr) (Rule.demand resting
      (fun _ => unparking_stable locked _) failing fun data safe holds _ => ⟨?_,
        ⟨fun _ => rfl, fun _ _ there => .inl there, fun other => absurd rfl other,
          fun other => ⟨Nat.le_refl _, fun present _ => ?_⟩⟩,
        fun _ _ => ⟨holds.1, by simp⟩, fun _ => holds.1⟩) fun _ => ?_
  · intro other parking
    have parked : other ∈ data.deprioritizedBdaddrs radio :=
      (safe other parking).resolve_right (by simp [holds.2])
    by_cases same : other = bdaddr
    · exact .inr (by simp [same])
    · exact .inl (by simp [same, parked])
  · rcases present with tracked | parked | moving
    · exact .inl tracked
    · by_cases same : other = bdaddr
      · exact .inr (.inr (by simp [same]))
      · exact .inr (.inl (by simp [same, parked]))
    · simp [holds.2] at moving
  · refine Rule.change (unparking_stable locked _) resting fun data safe holds apart =>
      ⟨retrack_safe safe holds.1 holds.2 apart, ⟨fun _ => rfl, fun _ _ there => .inl there,
        fun other => absurd rfl other, fun other => ⟨Nat.le_refl _, fun present _ => ?_⟩⟩,
        holds.1, by simp⟩
    rcases present with tracked | parked | moving
    · exact .inl (by simp [tracked])
    · exact .inr (.inl parked)
    · obtain rfl : bdaddr = other := Option.some.inj (holds.2.symm.trans moving)
      exact .inl (by simp)

private theorem reprioritize_triple :
    Triple (movesContract radio) (.worker radio) [] (fun _ => True)
      (fun data => data.ghost.reprioritizing radio = none) (reprioritize .ble radio bdaddr)
      fun _ data => data.ghost.reprioritizing radio = none := by
  have bare : ∀ data, (movesContract radio).lockInv (.deprioritized radio) data :=
    fun _ _ _ impossible => by simp at impossible
  have resting : ∀ held, Lock.bdaddrs .ble ∈ held → (movesContract radio).Stable (.worker radio)
      held fun data => NotParking (.bdaddrs .ble) data ∧ data.ghost.reprioritizing radio = none :=
    fun _ member => unparking_stable member none
  have failing : (movesContract radio).Stable (.worker radio) [.bdaddrs .ble]
      (NotParking (.bdaddrs .ble)) := Contract.lockInv_stable (by simp)
  have inner : Triple (movesContract radio) (.worker radio) [.bdaddrs .ble]
      (NotParking (.bdaddrs .ble))
      (fun data => NotParking (.bdaddrs .ble) data ∧ data.ghost.reprioritizing radio = none)
      (withLock (.deprioritized radio) do
        if ← Code.look fun data => decide (bdaddr ∈ data.deprioritizedBdaddrs radio) then
          unpark radio bdaddr)
      fun _ data => NotParking (.bdaddrs .ble) data ∧
        data.ghost.reprioritizing radio = none := by
    refine Triple.withBareLock bare (resting _ (by simp)) ?_ (fun _ => resting _ (by simp)) failing
    refine Triple.bind _ (Rule.look (resting _ (by simp)) (fun _ => resting _ (by simp))
      fun _ _ holds => holds) fun _ => ?_
    exact Triple.ite (fun _ => unpark_triple (by simp)) fun _ =>
      Triple.done (resting _ (by simp)) fun _ _ holds => holds
  refine Triple.withLock (moving_stable none) (fun data safe holds => ?_)
    (fun _ => moving_stable none) true_stable
  exact Prog.Safe.mono (fun _ _ _ reached => reached) (fun _ _ free => ⟨free, trivial⟩) _
    (inner data safe holds)

private theorem worker_triple (settings : Settings) :
    Triple (movesContract radio) (.worker radio) [] (fun _ => True)
      (fun data => data.ghost.reprioritizing radio = none) (threadFunction settings radio)
      fun _ data => data.ghost.reprioritizing radio = none := by
  have keeps : ∀ before after : Data, Calm radio before after →
      before.ghost.reprioritizing radio = none → after.ghost.reprioritizing radio = none :=
    fun _ _ calm resting => calm.reprioritizing.trans resting
  have resting : (movesContract radio).Stable (.worker radio) []
      fun data => data.ghost.reprioritizing radio = none := moving_stable none
  refine Rule.threadFunction (fun _ => True) (fun _ _ => True) resting ?_ (fun _ within => ?_)
    (fun bdaddr _ => ?_) (fun bdaddr _ => ?_) ?_
  · exact (calm_frame sortedBdaddrs_within (fun _ _ _ => calm_of_sort) resting keeps).weaken
      (fun _ _ holds => holds) fun _ _ _ holds => ⟨fun _ _ => trivial, holds⟩
  · exact calm_frame within (fun _ _ _ => calm_of_loop) resting keeps
  · exact (calm_frame (shouldSkip_within settings) (fun _ _ _ => calm_of_loop) resting
      keeps).weaken (fun _ _ holds => holds) fun _ _ _ holds => ⟨fun _ => trivial, holds⟩
  · exact (calm_frame (collectBdaddr_within settings) (fun _ _ _ => calm_of_collect) resting
      keeps).weaken (fun _ _ holds => holds.2) fun _ _ _ holds => holds
  · refine Triple.bind _ (Rule.look resting (fun _ => resting) fun _ _ holds => holds)
      fun found => Triple.ite (fun _ => ?_) fun _ => Triple.done resting fun _ _ holds => holds
    exact Triple.bind _ (Rule.demand resting (fun _ => resting) true_stable
      fun data safe holds _ => ⟨safe, (movesContract radio).guarRefl _ _ _, fun _ _ => holds,
        fun _ => trivial⟩) fun _ => reprioritize_triple

end Worker

/-! ## The system -/

private theorem calm_of_environment {radio : Radio} {event : Outside} {before after : Data}
    (happened : environment event before = some after) : Calm radio before after := by
  rcases environment_cases happened with ⟨_, _, _, _, _, _, _, rfl⟩ | ⟨_, _, _, _, _, rfl⟩ |
    ⟨_, _, _, rfl⟩ <;> exact .of_same rfl rfl rfl rfl ⟨[], by simp⟩

theorem movesContract_lawful (settings : Settings) (radio : Radio) :
    (movesContract radio).Lawful (launcher settings) where
  guarRely := fun {thread other mine yours before after} different disjoint _ _ promise =>
    { deprioritizing := fun own =>
        promise.deprioritizing fun same => different (same.trans own.symm)
      locked := fun own bdaddr member there =>
        (promise.locked own bdaddr there).resolve_right fun locked => disjoint _ locked member
      reprioritizing := fun own =>
        promise.reprioritizing fun same => different (same.trans own.symm) }
  guarFree := fun {thread mine before after lock} unheld _ _ promise free own bdaddr same there =>
    free own bdaddr same ((promise.locked own bdaddr there).resolve_right (same ▸ unheld))
  outside := by
    intro event before after happened safe _
    have calm : Calm radio before after := calm_of_environment happened
    refine ⟨calm.parkedSafely safe, fun _ => calm.notParking, fun thread held => ?_⟩
    exact ⟨fun _ => calm.deprioritizing, fun _ _ _ there => by rwa [calm.deprioritizing] at there,
      fun _ => calm.reprioritizing⟩
  entries := by
    intro thread input program data entered safe rests
    match thread, input, entered with
    | .monitor, some line, entered =>
        obtain rfl := Option.some.inj entered
        have noted : Triple (movesContract radio) .monitor [] (fun _ => True) (fun _ => True)
            (handLine settings line) fun _ _ => True := by
          refine Triple.bind (fun _ _ => True) (Rule.change true_stable true_stable
            fun data safe _ _ => ?_) fun _ => processCommand_moves _
          have calm : Calm radio data (data.record (.line (Text.strip line))) :=
            .of_same rfl rfl rfl rfl ⟨_, rfl⟩
          exact ⟨calm.parkedSafely safe, calm.guar _ _, trivial⟩
        exact Prog.Safe.mono (fun _ _ _ _ impossible => by simp at impossible)
          (fun _ _ _ => trivial) _ (noted data safe trivial)
    | .worker own, none, entered =>
        obtain ⟨_, rfl⟩ : settings.threadEnabled own = true ∧
            threadFunction settings own = program := by
          simpa [launcher, entry] using entered
        by_cases same : own = radio
        · subst same
          exact Prog.Safe.mono (fun _ _ _ reached _ => reached) (fun _ _ _ => trivial) _
            (worker_triple settings data safe (rests rfl))
        · have framed : Triple (movesContract radio) (.worker own) [] (fun _ => True)
              (fun _ => True) (threadFunction settings own) fun _ _ => True :=
            calm_frame (threadFunction_within settings)
              (fun _ _ _ step => calm_of_worker step same) true_stable fun _ _ _ holds => holds
          refine Prog.Safe.mono (fun _ _ _ _ impossible => ?_) (fun _ _ _ => trivial) _
            (framed data safe trivial)
          exact absurd (ThreadId.worker.inj impossible) same

theorem movesContract_initial (radio : Radio) : (movesContract radio).Holds initial fun _ => [] where
  invariant := fun _ impossible => by simp [initial, Data.empty] at impossible
  free := fun _ _ _ _ _ => by simp [initial, Data.empty]
  owns := ⟨by simp [initial], by simp⟩
  safe := fun thread => by
    have safe : ParkedSafely radio initial.shared.data :=
      fun _ impossible => by simp [initial, Data.empty] at impossible
    cases thread with
    | tool number =>
        have framed : Triple (movesContract radio) (.tool number) [] (fun _ => True)
            (fun _ => True) (ApplicationThread.run number) fun _ _ => True := by
          refine Triple.bind (fun _ _ => True) (Triple.await true_stable (fun _ => true_stable)
            fun _ _ _ _ => trivial) fun started => ?_
          cases started with
          | none => exact Triple.done true_stable fun _ _ _ => trivial
          | some process =>
              exact calm_frame runProcess_within (fun _ _ _ => calm_of_tool) true_stable
                fun _ _ _ holds => holds
        exact Prog.Safe.mono (fun _ _ _ _ impossible => by simp at impossible)
          (fun _ _ _ => trivial) _ (framed _ safe trivial)
    | worker own =>
        refine ⟨rfl, fun now relied _ same => ?_⟩
        obtain rfl : own = radio := ThreadId.worker.inj same
        exact relied.reprioritizing rfl
    | monitor => exact ⟨rfl, fun _ _ _ impossible => by simp at impossible⟩

/-- Along every run, and for BTC along every run in which the two moves do not
cross, an address leaves both dictionaries of a radio only by a deletion: it is
in one of them whenever the worker is not in the middle of its move. -/
theorem move_keeps (settings : Settings) (radio : Radio) (bdaddr : Text)
    {before after : Config Lock ThreadId Data Site}
    (reached : (launcher settings).Run (MovesApart radio) initial before)
    (run : (launcher settings).Run (MovesApart radio) before after)
    (there : bdaddr ∈ before.shared.data.bdaddrs radio ∨
      bdaddr ∈ before.shared.data.deprioritizedBdaddrs radio)
    (undeleted : deletions radio bdaddr after.shared.data =
      deletions radio bdaddr before.shared.data)
    (settled : after.shared.data.ghost.reprioritizing radio = none) :
    bdaddr ∈ after.shared.data.bdaddrs radio ∨
      bdaddr ∈ after.shared.data.deprioritizedBdaddrs radio := by
  have lawful := movesContract_lawful settings radio
  obtain ⟨held, holds⟩ := lawful.holds_of_run reached (movesContract_initial radio)
  have kept : Kept radio before.shared.data after.shared.data := by
    refine lawful.related_of_run (Kept.refl radio) Kept.trans (fun moves => ?_) run holds
    obtain ⟨_, _, _, ⟨_, _, promise⟩ | ⟨_, happened⟩⟩ := moves
    · exact promise.kept
    · exact (calm_of_environment happened).kept
  have present : Present radio bdaddr before.shared.data :=
    there.elim Or.inl fun parked => .inr (.inl parked)
  rcases (kept bdaddr).2 present undeleted with tracked | parked | moving
  · exact .inl tracked
  · exact .inr parked
  · simp [settled] at moving

/-- The settings of a user who carries one device along. -/
private def oneOwnDevice : Settings := { Settings.shipped with skipTheseAddresses := ["bb".toList] }

private def appleLine : Text := deviceLine chgWord "AA ManufacturerData Key: 0x004c".toList

/-- An Apple device is moved to the deprioritized dictionary. -/
theorem move_keeps_parked : ∃ before after,
    (launcher oneOwnDevice).Run (MovesApart .btc) initial before ∧
      (launcher oneOwnDevice).Run (MovesApart .btc) before after ∧
      "aa".toList ∉ after.shared.data.bdaddrs .btc ∧
      ("aa".toList ∈ after.shared.data.bdaddrs .btc ∨
        "aa".toList ∈ after.shared.data.deprioritizedBdaddrs .btc) := by
  have parks : leads oneOwnDevice (MovesApart .btc)
      (Schedule.handed (deviceLine newWord "AA BTC public A".toList) 5) initial
      (fun before => decide ("aa".toList ∈ before.shared.data.bdaddrs .btc ∧
          deletions .btc "aa".toList before.shared.data = 0) &&
        leads oneOwnDevice (MovesApart .btc) (Schedule.handed appleLine 12) before
          fun after => decide ("aa".toList ∉ after.shared.data.bdaddrs .btc ∧
            deletions .btc "aa".toList after.shared.data = 0 ∧
            after.shared.data.ghost.reprioritizing .btc = none)) = true := by
    decide
  obtain ⟨before, reached, holds⟩ := run_of_leads parks
  obtain ⟨now, later⟩ := Bool.and_eq_true_iff.mp holds
  obtain ⟨there, undeleted⟩ := of_decide_eq_true now
  obtain ⟨after, run, parked⟩ := run_of_leads later
  obtain ⟨gone, undeletedAfter, settled⟩ := of_decide_eq_true parked
  exact ⟨before, after, reached, run, gone,
    move_keeps _ .btc _ reached run (.inl there) (by rw [undeleted, undeletedAfter]) settled⟩

/-- The BTC worker moves an address back between the two halves of `process_line`'s
move: the address is in no dictionary any more. -/
theorem move_loses : ¬ ∀ (settings : Settings) (before after : Config Lock ThreadId Data Site),
    (launcher settings).Reachable initial before → (launcher settings).Reachable before after →
    ("aa".toList ∈ before.shared.data.bdaddrs .btc ∨
      "aa".toList ∈ before.shared.data.deprioritizedBdaddrs .btc) →
    deletions .btc "aa".toList after.shared.data = deletions .btc "aa".toList before.shared.data →
    (∀ radio, after.shared.data.ghost.reprioritizing radio = none) ∧
      after.shared.data.ghost.deprioritizing = none →
    "aa".toList ∈ after.shared.data.bdaddrs .btc ∨
      "aa".toList ∈ after.shared.data.deprioritizedBdaddrs .btc := by
  intro keeps
  have loses : leads oneOwnDevice (fun _ _ => True)
      (Schedule.handed (deviceLine newWord "BB BTC public B".toList) 5 ++ Schedule.pass .btc 8 ++
        Schedule.handed (deviceLine newWord "AA BTC public A".toList) 5) initial
      (fun before => decide ("aa".toList ∈ before.shared.data.bdaddrs .btc ∧
          deletions .btc "aa".toList before.shared.data = 0) &&
        leads oneOwnDevice (fun _ _ => True)
          (Schedule.handed appleLine 10 ++ Schedule.resume (.worker .btc) 10 ++
            Schedule.resume .monitor 2) before
          fun after => decide ("aa".toList ∉ after.shared.data.bdaddrs .btc ∧
            "aa".toList ∉ after.shared.data.deprioritizedBdaddrs .btc ∧
            deletions .btc "aa".toList after.shared.data = 0 ∧
            (∀ radio, after.shared.data.ghost.reprioritizing radio = none) ∧
            after.shared.data.ghost.deprioritizing = none)) = true := by
    decide
  obtain ⟨before, reached, holds⟩ := run_of_leads loses
  obtain ⟨now, later⟩ := Bool.and_eq_true_iff.mp holds
  obtain ⟨there, undeleted⟩ := of_decide_eq_true now
  obtain ⟨after, run, gone⟩ := run_of_leads later
  obtain ⟨untracked, unparked, undeletedAfter, settled⟩ := of_decide_eq_true gone
  have kept := keeps oneOwnDevice before after reached run (.inl there)
    (by rw [undeleted, undeletedAfter]) settled
  exact kept.elim untracked unparked

end NaiveBTSniffing.Launcher
