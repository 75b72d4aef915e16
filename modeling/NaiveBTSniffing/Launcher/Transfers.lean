import NaiveBTSniffing.Launcher.Steps

/-!
Contract: how an address gets into a dictionary and out of a deprioritized one.

`transfer_of_choice` says, for every reachable state, that the next step makes an
address tracked only on a [NEW] line that announces it or as the end of the
worker's own move, and deprioritized only while it is tracked and on a
ManufacturerData line about it. That an RSSI line stores nothing new and that
`process_line` moves only what is tracked rests on the locks.

Owns the contract `transferContract` between the threads. Does not own when an
address stops being tracked (`Footprint`).
-/

namespace NaiveBTSniffing.Launcher

open NaiveBTSniffing.Library
open NaiveBTSniffing.Library.Interleaving
open NaiveBTSniffing.Library.Interleaving.Prog

/-! ## The line in hand -/

/-- The line that was handed over, if this is what happened. -/
def Event.handed : Event → Option Text
  | .line content => some content
  | _ => none

/-- What the line that was handed over last asks for. -/
def lastCommand (settings : Settings) (data : Data) : Command :=
  match (data.ghost.trace.filterMap Event.handed).getLast? with
  | some line => command settings.lower (Text.split line)
  | none => .ignored

/-- The address and the radio that a command announces. -/
def Command.announcedOn : Command → Option (Text × Radio)
  | .new bdaddr type _ => some (bdaddr, newRadio type)
  | _ => none

/-- The last line announces the address on the radio. -/
def Announced (settings : Settings) (radio : Radio) (bdaddr : Text) (data : Data) : Prop :=
  (lastCommand settings data).announcedOn = some (bdaddr, radio)

theorem lastCommand_of_line (settings : Settings) {before after : Data} {line : Text}
    (recorded : after.ghost.trace = before.ghost.trace ++ [.line line]) :
    lastCommand settings after = command settings.lower (Text.split line) := by
  simp [lastCommand, recorded, Event.handed]

/-- Everything else that is recorded leaves the last line the last one. -/
theorem lastCommand_of_silent (settings : Settings) {before after : Data} {events : List Event}
    (recorded : after.ghost.trace = before.ghost.trace ++ events)
    (silent : ∀ event ∈ events, event.handed = none) :
    lastCommand settings after = lastCommand settings before := by
  have nothing : events.filterMap Event.handed = [] := List.filterMap_eq_nil_iff.mpr silent
  simp [lastCommand, recorded, nothing]

/-! ## The terms -/

/-- What a step of a thread does to the dictionaries, and on what occasion. -/
structure Transfer (settings : Settings) (thread : ThreadId) (before after : Data) : Prop where
  line : lastCommand settings after = lastCommand settings before ∨
    ∃ line, thread = .monitor ∧ after = before.record (.line line)
  tracked : ∀ radio bdaddr, bdaddr ∉ before.bdaddrs radio → bdaddr ∈ after.bdaddrs radio →
    (thread = .monitor ∧ Announced settings radio bdaddr before) ∨
      (thread = .worker radio ∧ before.ghost.reprioritizing radio = some bdaddr ∧
        after.ghost.reprioritizing radio = none)
  deprioritized : ∀ radio bdaddr, bdaddr ∉ before.deprioritizedBdaddrs radio →
    bdaddr ∈ after.deprioritizedBdaddrs radio →
      bdaddr ∈ before.bdaddrs radio ∧ before.ghost.deprioritizing = none ∧
        after.ghost.deprioritizing = some (radio, bdaddr) ∧
        ∃ more, lastCommand settings before = .manufacturerData bdaddr more
  released : ∀ radio bdaddr, bdaddr ∈ before.deprioritizedBdaddrs radio →
    bdaddr ∉ after.deprioritizedBdaddrs radio →
      thread = .worker radio ∧ after.ghost.reprioritizing radio = some bdaddr
  deprioritizing : after.ghost.deprioritizing = before.ghost.deprioritizing ∨
    before.ghost.deprioritizing = none ∨
      ∃ radio bdaddr, before.ghost.deprioritizing = some (radio, bdaddr) ∧
        bdaddr ∉ after.bdaddrs radio
  reprioritizing : ∀ radio bdaddr, after.ghost.reprioritizing radio = some bdaddr →
    before.ghost.reprioritizing radio = some bdaddr ∨
      (bdaddr ∈ before.deprioritizedBdaddrs radio ∧ bdaddr ∉ after.deprioritizedBdaddrs radio)

structure TransferRely (settings : Settings) (thread : ThreadId) (held : List Lock)
    (before after : Data) : Prop where
  line : thread = .monitor → lastCommand settings after = lastCommand settings before
  deprioritizing : thread = .monitor → after.ghost.deprioritizing = before.ghost.deprioritizing
  tracked : ∀ radio, Lock.bdaddrs radio ∈ held →
    ∀ bdaddr ∈ before.bdaddrs radio, bdaddr ∈ after.bdaddrs radio
  parked : ∀ radio, thread = .worker radio →
    ∀ bdaddr ∈ before.deprioritizedBdaddrs radio, bdaddr ∈ after.deprioritizedBdaddrs radio
  reprioritizing : ∀ radio, thread = .worker radio →
    after.ghost.reprioritizing radio = before.ghost.reprioritizing radio

structure TransferGuar (settings : Settings) (thread : ThreadId) (held : List Lock)
    (before after : Data) : Prop where
  line : thread ≠ .monitor → lastCommand settings after = lastCommand settings before
  deprioritizing : thread ≠ .monitor → after.ghost.deprioritizing = before.ghost.deprioritizing
  untracked : ∀ radio, ∀ bdaddr ∈ before.bdaddrs radio, bdaddr ∉ after.bdaddrs radio →
    Lock.bdaddrs radio ∈ held
  reprioritizing : ∀ radio, thread ≠ .worker radio →
    after.ghost.reprioritizing radio = before.ghost.reprioritizing radio
  transfer : Transfer settings thread before after

private theorem transfer_refl (settings : Settings) (thread : ThreadId) (data : Data) :
    Transfer settings thread data data where
  line := .inl rfl
  tracked := fun _ _ missing member => absurd member missing
  deprioritized := fun _ _ missing member => absurd member missing
  released := fun _ _ member missing => absurd member missing
  deprioritizing := .inl rfl
  reprioritizing := fun _ _ moving => .inl moving

def transferContract (settings : Settings) : LauncherContract where
  inv := fun _ => True
  lockInv := fun _ _ => True
  rely := TransferRely settings
  guar := TransferGuar settings
  rest := fun thread data => thread = .monitor → data.ghost.deprioritizing = none
  dead := fun _ _ => True
  allowed := fun _ _ => True
  relyRefl := fun _ _ _ => ⟨fun _ => rfl, fun _ => rfl, fun _ _ _ member => member,
    fun _ _ _ member => member, fun _ _ => rfl⟩
  relyTrans := fun first second =>
    { line := fun own => (second.line own).trans (first.line own)
      deprioritizing := fun own => (second.deprioritizing own).trans (first.deprioritizing own)
      tracked := fun radio locked bdaddr member =>
        second.tracked radio locked bdaddr (first.tracked radio locked bdaddr member)
      parked := fun radio own bdaddr member =>
        second.parked radio own bdaddr (first.parked radio own bdaddr member)
      reprioritizing := fun radio own =>
        (second.reprioritizing radio own).trans (first.reprioritizing radio own) }
  relyLock := fun relied =>
    { relied with
      tracked := fun radio locked => relied.tracked radio (List.mem_cons_of_mem _ locked) }
  relyFree := fun _ _ _ => trivial
  guarRefl := fun _ _ _ => ⟨fun _ => rfl, fun _ => rfl,
    fun _ _ member missing => absurd member missing, fun _ _ => rfl, transfer_refl _ _ _⟩

/-! ## Steps that bring nothing -/

/-- A step that moves no address between dictionaries and hands no line over. -/
structure Plain (settings : Settings) (held : List Lock) (before after : Data) : Prop where
  line : lastCommand settings after = lastCommand settings before
  tracked : ∀ radio, ∀ bdaddr ∈ after.bdaddrs radio, bdaddr ∈ before.bdaddrs radio
  untracked : ∀ radio, ∀ bdaddr ∈ before.bdaddrs radio, bdaddr ∉ after.bdaddrs radio →
    Lock.bdaddrs radio ∈ held
  deprioritized : after.deprioritizedBdaddrs = before.deprioritizedBdaddrs
  deprioritizing : after.ghost.deprioritizing = before.ghost.deprioritizing
  reprioritizing : after.ghost.reprioritizing = before.ghost.reprioritizing

namespace Plain

variable {settings : Settings} {held : List Lock} {before after : Data}

theorem of_same (tracked : after.bdaddrs = before.bdaddrs)
    (deprioritized : after.deprioritizedBdaddrs = before.deprioritizedBdaddrs)
    (deprioritizing : after.ghost.deprioritizing = before.ghost.deprioritizing)
    (reprioritizing : after.ghost.reprioritizing = before.ghost.reprioritizing)
    (silent : ∃ events, after.ghost.trace = before.ghost.trace ++ events ∧
      ∀ event ∈ events, event.handed = none) : Plain settings held before after := by
  obtain ⟨events, recorded, silent⟩ := silent
  exact ⟨lastCommand_of_silent settings recorded silent, fun _ _ member => by rwa [tracked] at member,
    fun _ _ member missing => absurd (by rwa [tracked]) missing, deprioritized, deprioritizing,
    reprioritizing⟩

theorem refl (data : Data) : Plain settings held data data :=
  of_same rfl rfl rfl rfl ⟨[], by simp, by simp⟩

theorem of_delete {radio : Radio} {bdaddr : Text} (step : DeleteStep radio bdaddr held before after) :
    Plain settings held before after := by
  have deletes := OnlyDeletes.of_delete step
  cases step with
  | same => exact refl _
  | delete =>
      exact ⟨lastCommand_of_silent settings rfl (by simp [Event.handed]),
        fun _ _ => deletes.tracked, fun _ _ => deletes.untracked, rfl, rfl, rfl⟩

theorem of_sort {radio : Radio} (step : SortStep radio before after) :
    Plain settings held before after := by
  cases step <;> exact of_same rfl rfl rfl rfl ⟨[], by simp, by simp⟩

theorem of_loop {radio : Radio} {bdaddr : Text} (step : LoopStep radio bdaddr held before after) :
    Plain settings held before after := by
  cases step with
  | delete step => exact of_delete step
  | next => exact of_same rfl rfl rfl rfl ⟨[], by simp, by simp⟩
  | exceeded => exact of_same rfl rfl rfl rfl ⟨_, rfl, by simp [Event.handed]⟩

theorem of_collect {radio : Radio} {bdaddr : Text}
    (step : CollectStep radio bdaddr held before after) : Plain settings held before after := by
  cases step with
  | same => exact refl _
  | countAttempt => exact of_same rfl rfl rfl rfl ⟨_, rfl, by simp [Event.handed]⟩
  | stage _ step =>
      cases step with
      | delete step => exact of_delete step
      | attempt => exact of_same rfl rfl rfl rfl ⟨[], by simp, by simp⟩
      | launch step => cases step <;> exact of_same rfl rfl rfl rfl ⟨[], by simp, by simp⟩

theorem of_tool {number : Nat} {process : Process}
    (step : ToolStep number process held before after) : Plain settings held before after := by
  cases step with
  | delete step => exact of_delete step
  | _ => exact of_same rfl rfl rfl rfl ⟨[], by simp, by simp⟩

theorem of_environment {event : Outside} (happened : environment event before = some after) :
    Plain settings held before after := by
  obtain ⟨_, _, _, _, _, rfl⟩ := environment_frame happened
  exact of_same rfl rfl rfl rfl ⟨[], by simp, by simp⟩

theorem transfer (plain : Plain settings held before after) (thread : ThreadId) :
    Transfer settings thread before after where
  line := .inl plain.line
  tracked := fun radio bdaddr missing member =>
    absurd (plain.tracked radio bdaddr member) missing
  deprioritized := fun _ _ missing member =>
    absurd (by rwa [plain.deprioritized] at member) missing
  released := fun _ _ member missing => absurd (by rwa [plain.deprioritized]) missing
  deprioritizing := .inl plain.deprioritizing
  reprioritizing := fun _ _ moving => .inl (by rwa [plain.reprioritizing] at moving)

theorem guar (plain : Plain settings held before after) (thread : ThreadId) :
    TransferGuar settings thread held before after :=
  ⟨fun _ => plain.line, fun _ => plain.deprioritizing, plain.untracked,
    fun _ _ => congrFun plain.reprioritizing _, plain.transfer thread⟩

end Plain

section Frame

variable {settings : Settings} {thread : ThreadId} {held : List Lock} {pre : Data → Prop}

private theorem anything_stable :
    (transferContract settings).Stable thread held fun _ => True :=
  Contract.stable_const _ _ _ _

/-- A program of steps that bring nothing keeps every assertion that such steps
keep. -/
private theorem plain_frame {α : Type} {shape : List Lock → Data → Data → Prop} {program : Code α}
    (within : program.Within shape held held)
    (plain : ∀ now before after, shape now before after → Plain settings now before after)
    (stable : (transferContract settings).Stable thread held pre)
    (keeps : ∀ now before after, held <:+ now → shape now before after → pre before → pre after) :
    Triple (transferContract settings) thread held (fun _ => True) pre program fun _ => pre :=
  Triple.frame within stable
    (fun now before after suffix _ holds step _ => ⟨trivial,
      (plain now before after step).guar thread, keeps now before after suffix step holds⟩)
    (fun _ _ _ _ _ free => free) fun _ _ _ => trivial

end Frame

/-! ## The monitor -/

section Monitor

variable {settings : Settings} {held : List Lock} {asked : Command} {radio : Radio}
variable {bdaddr : Text}

/-- The monitor is at work on the command and not in the middle of a move. -/
private abbrev AtWork (settings : Settings) (asked : Command) (data : Data) : Prop :=
  lastCommand settings data = asked ∧ data.ghost.deprioritizing = none

private theorem atWork_stable (asked : Command) :
    (transferContract settings).Stable .monitor held (AtWork settings asked) :=
  fun _ _ holds _ _ relied =>
    ⟨(relied.line rfl).trans holds.1, (relied.deprioritizing rfl).trans holds.2⟩

/-- The monitor is at work on the command and has found the address. -/
private abbrev Found (settings : Settings) (asked : Command) (radio : Radio) (bdaddr : Text)
    (data : Data) : Prop :=
  AtWork settings asked data ∧ bdaddr ∈ data.bdaddrs radio

private theorem found_stable (locked : Lock.bdaddrs radio ∈ held) :
    (transferContract settings).Stable .monitor held (Found settings asked radio bdaddr) :=
  (atWork_stable asked).and fun _ _ member _ _ relied => relied.tracked radio locked bdaddr member

private theorem atWork_of_plain {before after : Data} (plain : Plain settings held before after)
    (atWork : AtWork settings asked before) : AtWork settings asked after :=
  ⟨plain.line.trans atWork.1, plain.deprioritizing.trans atWork.2⟩

/-- A block that starts with finding the address. -/
private theorem whenTracked_transfers {body : Code Unit}
    (inside : Triple (transferContract settings) .monitor [.bdaddrs radio] (fun _ => True)
      (Found settings asked radio bdaddr) body fun _ => AtWork settings asked) :
    Triple (transferContract settings) .monitor [] (fun _ => True) (AtWork settings asked)
      (whenTracked radio bdaddr body) fun _ => AtWork settings asked :=
  Rule.whenTrackedBare (fun _ => trivial) (atWork_stable asked) (found_stable (by simp))
    (atWork_stable asked) anything_stable (fun _ _ atWork member => ⟨atWork, member⟩)
    (fun _ _ atWork => atWork) inside

/-- A step that brings nothing and leaves the tracked dictionaries as they are. -/
private abbrev Idle (settings : Settings) (held : List Lock) (before after : Data) : Prop :=
  Plain settings held before after ∧ after.bdaddrs = before.bdaddrs

private theorem idle_frame {α : Type} {program : Code α}
    (within : program.Within (Idle settings) held held) (locked : Lock.bdaddrs radio ∈ held) :
    Triple (transferContract settings) .monitor held (fun _ => True)
      (Found settings asked radio bdaddr) program fun _ => Found settings asked radio bdaddr :=
  plain_frame within (fun _ _ _ step => step.1) (found_stable locked)
    fun _ _ _ _ step found =>
      ⟨atWork_of_plain step.1 found.1, by rw [step.2]; exact found.2⟩

private theorem grantOneMoreTry_idle (bdaddr : Text) :
    (grantOneMoreTry bdaddr).Within (Idle settings) held held := by
  refine within_bind (within_demand fun data => ⟨Plain.refl data, rfl⟩) fun _ =>
    within_ite (fun _ => within_demand fun data => ?_) fun _ => rfl
  cases data.deviceConnectAttempts.lookup bdaddr with
  | none => exact ⟨Plain.refl data, rfl⟩
  | some attempts => exact ⟨.of_same rfl rfl rfl rfl ⟨[], by simp, by simp⟩, rfl⟩

private theorem readStoredRssi_idle (word : Text) :
    (readStoredRssi radio bdaddr word).Within (Idle settings) held held := by
  refine within_demand fun data => ?_
  split
  · split
    · exact ⟨.of_same rfl rfl rfl rfl ⟨_, rfl, by simp [Event.handed]⟩, rfl⟩
    · exact ⟨.refl data, rfl⟩
  · exact ⟨.refl data, rfl⟩

/-- A store makes an address tracked only on the line that announces it. -/
private theorem stored_guar {data : Data} (value : Text × Int)
    (occasion : bdaddr ∉ data.bdaddrs radio → Announced settings radio bdaddr data) :
    TransferGuar settings .monitor held data
      (data.setTracked radio ((data.bdaddrs radio).setItem bdaddr value)) where
  line := fun other => absurd rfl other
  deprioritizing := fun other => absurd rfl other
  untracked := fun own other member missing => by simp at missing; grind
  reprioritizing := fun _ _ => rfl
  transfer :=
    { line := .inl rfl
      tracked := fun own other missing member => by
        obtain ⟨rfl, rfl⟩ : own = radio ∧ other = bdaddr := by simp at member; grind
        exact .inl ⟨rfl, occasion missing⟩
      deprioritized := fun _ _ missing member => absurd member missing
      released := fun _ _ member missing => absurd member missing
      deprioritizing := .inl rfl
      reprioritizing := fun _ _ moving => .inl moving }

private theorem line_guar (data : Data) (line : Text) :
    TransferGuar settings .monitor held data (data.record (.line line)) where
  line := fun other => absurd rfl other
  deprioritizing := fun other => absurd rfl other
  untracked := fun _ _ member missing => absurd member missing
  reprioritizing := fun _ _ => rfl
  transfer :=
    { line := .inr ⟨line, rfl, rfl⟩
      tracked := fun _ _ missing member => absurd member missing
      deprioritized := fun _ _ missing member => absurd member missing
      released := fun _ _ member missing => absurd member missing
      deprioritizing := .inl rfl
      reprioritizing := fun _ _ moving => .inl moving }

/-- The first half of a move to the deprioritized dictionary. -/
private theorem park_guar {data : Data} {more : List Text} (value : Text × Int × Text)
    (found : Found settings (.manufacturerData bdaddr more) radio bdaddr data) :
    TransferGuar settings .monitor held data (data.park radio bdaddr value) where
  line := fun other => absurd rfl other
  deprioritizing := fun other => absurd rfl other
  untracked := fun _ _ member missing => absurd member missing
  reprioritizing := fun _ _ => rfl
  transfer :=
    { line := .inl rfl
      tracked := fun _ _ missing member => absurd member missing
      deprioritized := fun own other missing member => by
        obtain ⟨rfl, rfl⟩ : own = radio ∧ other = bdaddr := by simp at member; grind
        exact ⟨found.2, found.1.2, rfl, more, found.1.1⟩
      released := fun own other member missing => by simp at missing; grind
      deprioritizing := .inr (.inl found.1.2)
      reprioritizing := fun _ _ moving => .inl moving }

/-- The second half of the move that is going on. -/
private theorem untrack_guar {data : Data}
    (moving : data.ghost.deprioritizing = some (radio, bdaddr)) :
    TransferGuar settings .monitor [.bdaddrs radio] data (data.untrack radio bdaddr) := by
  have removed : ∀ own other, other ∈ (data.untrack radio bdaddr).bdaddrs own →
      other ∈ data.bdaddrs own := fun own other member => by simp at member; grind
  exact
    { line := fun other => absurd rfl other
      deprioritizing := fun other => absurd rfl other
      untracked := fun own other member missing => by simp at missing; grind
      reprioritizing := fun _ _ => rfl
      transfer :=
        { line := .inl rfl
          tracked := fun own other missing member => absurd (removed own other member) missing
          deprioritized := fun _ _ missing member => absurd member missing
          released := fun _ _ member missing => absurd member missing
          deprioritizing := .inr (.inr ⟨radio, bdaddr, moving, by simp⟩)
          reprioritizing := fun _ _ moving => .inl moving } }

/-- An RSSI line stores a new value for an address that is tracked, and the lock
keeps it tracked. -/
private theorem storeRssi_transfers (word : Text) :
    Triple (transferContract settings) .monitor [.bdaddrs radio] (fun _ => True)
      (Found settings asked radio bdaddr) (storeRssi radio bdaddr word)
      fun _ => AtWork settings asked := by
  have stable : (transferContract settings).Stable .monitor [.bdaddrs radio]
      (Found settings asked radio bdaddr) := found_stable (by simp)
  apply Triple.bind _ (idle_frame (readStoredRssi_idle word) (by simp))
  intro stored
  cases Text.parseInt 10 word with
  | none => exact Triple.raised anything_stable fun _ _ _ => trivial
  | some rssi =>
      have granted : Triple (transferContract settings) .monitor [.bdaddrs radio]
          (fun _ => True) (Found settings asked radio bdaddr)
          (if stored.2 < rssi then grantOneMoreTry bdaddr else pure ())
          fun _ => Found settings asked radio bdaddr :=
        Triple.ite (fun _ => idle_frame (grantOneMoreTry_idle bdaddr) (by simp)) fun _ =>
          Triple.done stable fun _ _ found => found
      apply Triple.bind _ granted
      exact fun _ => Rule.change stable (atWork_stable asked) fun data _ found _ =>
        ⟨trivial, stored_guar _ fun missing => absurd found.2 missing, found.1⟩

/-- A move to the deprioritized dictionary starts while the address is tracked. -/
private theorem park_transfers {vendor : Text} {more : List Text} :
    Triple (transferContract settings) .monitor [.bdaddrs radio] (fun _ => True)
      (Found settings (.manufacturerData bdaddr more) radio bdaddr) (park radio bdaddr vendor)
      fun _ => AtWork settings (.manufacturerData bdaddr more) := by
  have stable : ∀ {held}, Lock.bdaddrs radio ∈ held → (transferContract settings).Stable .monitor
      held (Found settings (.manufacturerData bdaddr more) radio bdaddr) :=
    fun member => found_stable member
  have moving : ∀ {held}, (transferContract settings).Stable .monitor held fun data =>
      lastCommand settings data = .manufacturerData bdaddr more ∧
        data.ghost.deprioritizing = some (radio, bdaddr) :=
    fun _ _ holds _ _ relied =>
      ⟨(relied.line rfl).trans holds.1, (relied.deprioritizing rfl).trans holds.2⟩
  have found : Triple (transferContract settings) .monitor [.bdaddrs radio] (fun _ => True)
      (Found settings (.manufacturerData bdaddr more) radio bdaddr) (trackedItem radio bdaddr)
      fun _ => Found settings (.manufacturerData bdaddr more) radio bdaddr :=
    idle_frame (within_demand fun data => ⟨Plain.refl data, rfl⟩) (by simp)
  apply Triple.bind _ found
  intro stored
  refine Triple.bind (fun _ data => lastCommand settings data = .manufacturerData bdaddr more ∧
    data.ghost.deprioritizing = some (radio, bdaddr)) ?_ fun _ => ?_
  · exact Triple.withBareLock (fun _ => trivial) (stable (by simp)) (Rule.change
      (stable (by simp)) moving fun data _ found _ => ⟨trivial, park_guar _ found, found.1.1, rfl⟩)
      (fun _ => moving) anything_stable
  · exact Rule.demand moving (fun _ => atWork_stable _) anything_stable fun data _ moves _ =>
      ⟨trivial, untrack_guar moves.2, fun _ _ => ⟨moves.1, rfl⟩, fun _ => trivial⟩

/-- A [NEW] line makes the address tracked that it announces. -/
private theorem processNew_transfers (bdaddr type addressType : Text) :
    Triple (transferContract settings) .monitor [] (fun _ => True)
      (AtWork settings (.new bdaddr type addressType)) (processNew bdaddr type addressType)
      fun _ => AtWork settings (.new bdaddr type addressType) := by
  have stable : ∀ {held}, (transferContract settings).Stable .monitor held
      (AtWork settings (.new bdaddr type addressType)) := atWork_stable _
  refine Triple.bind (fun _ => AtWork settings (.new bdaddr type addressType))
    (Rule.change stable stable fun data _ atWork _ => ⟨trivial, ?_, atWork⟩) fun _ => ?_
  · have plain : Plain settings [] data (data.setAttempts bdaddr 0) :=
      .of_same rfl rfl rfl rfl ⟨[], by simp, by simp⟩
    exact plain.guar _
  · exact Triple.withBareLock (fun _ => trivial) stable (Rule.change stable stable
      fun data _ atWork _ => ⟨trivial, stored_guar _ fun _ => by rw [Announced, atWork.1]; rfl,
        atWork⟩) (fun _ => stable) anything_stable

private theorem processCommand_transfers (asked : Command) :
    Triple (transferContract settings) .monitor [] (fun _ => True) (AtWork settings asked)
      (processCommand asked) fun _ => AtWork settings asked := by
  cases asked with
  | new bdaddr type addressType => exact processNew_transfers bdaddr type addressType
  | rssi bdaddr word =>
      exact Triple.bind _ (whenTracked_transfers (storeRssi_transfers word)) fun _ =>
        whenTracked_transfers (storeRssi_transfers word)
  | manufacturerData bdaddr more =>
      cases more with
      | nil => exact Triple.raised anything_stable fun _ _ _ => trivial
      | cons vendor rest =>
          refine Triple.ite (fun _ => ?_) fun _ =>
            Triple.done (atWork_stable _) fun _ _ atWork => atWork
          exact Triple.bind _ (whenTracked_transfers park_transfers) fun _ =>
            whenTracked_transfers park_transfers
  | del bdaddr type =>
      simp only [processCommand, processDel]
      cases delRadio type with
      | none => exact Triple.raised anything_stable fun _ _ _ => trivial
      | some radio =>
          exact plain_frame lockedDeleteFromDict_within (fun _ _ _ => Plain.of_delete)
            (atWork_stable _) fun _ _ _ _ step => atWork_of_plain (Plain.of_delete step)
  | ignored => exact Triple.done (atWork_stable _) fun _ _ atWork => atWork

end Monitor

/-! ## The workers -/

section Worker

variable {settings : Settings} {radio : Radio} {held : List Lock} {bdaddr : Text}

private theorem other_radio {own : Radio} (other : ThreadId.worker radio ≠ .worker own) :
    own ≠ radio :=
  fun same => other (by rw [same])

/-- The first half of a move back to the tracked dictionary. -/
private theorem unpark_guar {data : Data} (present : bdaddr ∈ data.deprioritizedBdaddrs radio) :
    TransferGuar settings (.worker radio) held data (data.unpark radio bdaddr) where
  line := fun _ => rfl
  deprioritizing := fun _ => rfl
  untracked := fun _ _ member missing => absurd member missing
  reprioritizing := fun _ other => by simp [other_radio other]
  transfer :=
    { line := .inl rfl
      tracked := fun _ _ missing member => absurd member missing
      deprioritized := fun _ _ missing member => by simp at member; grind
      released := fun own other member missing => by
        obtain ⟨rfl, rfl⟩ : own = radio ∧ other = bdaddr := by simp at missing; grind
        exact ⟨rfl, by simp⟩
      deprioritizing := .inl rfl
      reprioritizing := fun own other moving => by
        by_cases same : own = radio
        · subst same
          obtain rfl : bdaddr = other := by simpa using moving
          exact .inr ⟨present, by simp⟩
        · exact .inl (by simpa [same] using moving) }

/-- The second half: a worker ends the move that it is in the middle of. -/
private theorem retrack_guar {data : Data} (value : Text × Int)
    (moving : data.ghost.reprioritizing radio = some bdaddr) :
    TransferGuar settings (.worker radio) held data (data.retrack radio bdaddr value) where
  line := fun _ => rfl
  deprioritizing := fun _ => rfl
  untracked := fun _ _ member missing => by simp at missing; grind
  reprioritizing := fun _ other => by simp [other_radio other]
  transfer :=
    { line := .inl rfl
      tracked := fun own other missing member => by
        obtain ⟨rfl, rfl⟩ : own = radio ∧ other = bdaddr := by simp at member; grind
        exact .inr ⟨rfl, moving, by simp⟩
      deprioritized := fun _ _ missing member => absurd member missing
      released := fun _ _ member missing => absurd member missing
      deprioritizing := .inl rfl
      reprioritizing := fun own other later => by
        by_cases same : own = radio
        · subst same
          simp at later
        · exact .inl (by simpa [same] using later) }

/-- The worker has found the address in its deprioritized dictionary. -/
private theorem parkedLater_stable :
    (transferContract settings).Stable (.worker radio) held
      fun data => bdaddr ∈ data.deprioritizedBdaddrs radio :=
  fun _ _ member _ _ relied => relied.parked radio rfl bdaddr member

private theorem unpark_transfers :
    Triple (transferContract settings) (.worker radio) held (fun _ => True)
      (fun data => bdaddr ∈ data.deprioritizedBdaddrs radio) (unpark radio bdaddr)
      fun _ _ => True := by
  have moving : (transferContract settings).Stable (.worker radio) held
      fun data => data.ghost.reprioritizing radio = some bdaddr :=
    fun _ _ holds _ _ relied => (relied.reprioritizing radio rfl).trans holds
  have found : Triple (transferContract settings) (.worker radio) held (fun _ => True)
      (fun data => bdaddr ∈ data.deprioritizedBdaddrs radio)
      (Code.demand id fun data => (data.deprioritizedBdaddrs radio).lookup bdaddr)
      fun _ data => bdaddr ∈ data.deprioritizedBdaddrs radio :=
    Rule.demand parkedLater_stable (fun _ => parkedLater_stable) anything_stable
      fun data _ present _ => ⟨trivial, (transferContract settings).guarRefl _ _ _,
        fun _ _ => present, fun _ => trivial⟩
  apply Triple.bind _ found
  refine fun stored => Triple.bind (fun _ data => data.ghost.reprioritizing radio = some bdaddr)
    (Rule.demand parkedLater_stable (fun _ => moving) anything_stable fun data _ present _ =>
      ⟨trivial, unpark_guar present, fun _ _ => by simp, fun _ => trivial⟩) fun _ => ?_
  exact Rule.change moving anything_stable fun data _ moves _ =>
    ⟨trivial, retrack_guar _ moves, trivial⟩

private theorem reprioritize_transfers (bdaddr : Text) :
    Triple (transferContract settings) (.worker radio) [] (fun _ => True) (fun _ => True)
      (reprioritize .ble radio bdaddr) fun _ _ => True := by
  refine Triple.withBareLock (fun _ => trivial) anything_stable (Triple.withBareLock
    (fun _ => trivial) anything_stable ?_ (fun _ => anything_stable) anything_stable)
    (fun _ => anything_stable) anything_stable
  refine Triple.bind (fun found data =>
    found = true → bdaddr ∈ data.deprioritizedBdaddrs radio) (Rule.look anything_stable ?_ ?_) ?_
  · exact fun _ before after present beforeInv afterInv relied found =>
      parkedLater_stable before after (present found) beforeInv afterInv relied
  · exact fun _ _ _ found => of_decide_eq_true found
  · intro found
    apply Triple.ite
    · exact fun yes => unpark_transfers.weaken (fun _ _ present => present yes) fun _ _ _ _ =>
        trivial
    · exact fun _ => Triple.done anything_stable fun _ _ _ => trivial

private theorem turn_transfers :
    Triple (transferContract settings) (.worker radio) [] (fun _ => True) (fun _ => True)
      (reprioritizeFirst radio (reprioritize .ble radio)) fun _ _ => True := by
  refine Triple.bind (fun _ _ => True) (Rule.look anything_stable (fun _ => anything_stable)
    fun _ _ _ => trivial) fun _ => Triple.ite (fun _ => ?_) fun _ =>
      Triple.done anything_stable fun _ _ _ => trivial
  exact Triple.bind (fun _ _ => True) (Rule.demand anything_stable (fun _ => anything_stable)
    anything_stable fun data _ _ _ => ⟨trivial, (transferContract settings).guarRefl _ _ _,
      fun _ _ => trivial, fun _ => trivial⟩) reprioritize_transfers

private theorem threadFunction_transfers :
    Triple (transferContract settings) (.worker radio) [] (fun _ => True) (fun _ => True)
      (threadFunction settings radio) fun _ _ => True := by
  have framed : ∀ {α : Type} {shape : List Lock → Data → Data → Prop} {program : Code α},
      program.Within shape [] [] →
      (∀ now before after, shape now before after → Plain settings now before after) →
      Triple (transferContract settings) (.worker radio) [] (fun _ => True) (fun _ => True)
        program fun _ _ => True :=
    fun within plain => plain_frame within plain anything_stable fun _ _ _ _ _ _ => trivial
  apply Rule.threadFunction (fun _ => True) (fun _ _ => True) anything_stable
  · exact (framed sortedBdaddrs_within fun _ _ _ => Plain.of_sort).weaken (fun _ _ holds => holds)
      fun _ _ _ _ => ⟨fun _ _ => trivial, trivial⟩
  · exact fun _ within => framed within fun _ _ _ => Plain.of_loop
  · exact fun _ _ => (framed (shouldSkip_within settings) fun _ _ _ => Plain.of_loop).weaken
      (fun _ _ holds => holds) fun _ _ _ _ => ⟨fun _ => trivial, trivial⟩
  · exact fun _ _ => (framed (collectBdaddr_within settings) fun _ _ _ => Plain.of_collect).weaken
      (fun _ _ _ => trivial) fun _ _ _ _ => trivial
  · exact turn_transfers

end Worker

/-! ## The system -/

section System

variable {settings : Settings}

private theorem transferContract_lawful :
    (transferContract settings).Lawful (launcher settings) where
  guarRely := fun {thread other mine yours before after} different disjoint _ _ promise =>
    { line := fun own => promise.line fun same => different (same.trans own.symm)
      deprioritizing := fun own =>
        promise.deprioritizing fun same => different (same.trans own.symm)
      tracked := fun radio locked bdaddr member => by
        by_contra missing
        exact disjoint _ (promise.untracked radio bdaddr member missing) locked
      parked := fun radio own bdaddr member => by
        by_contra missing
        exact different ((promise.transfer.released radio bdaddr member missing).1.trans own.symm)
      reprioritizing := fun radio own =>
        promise.reprioritizing radio fun same => different (same.trans own.symm) }
  guarFree := fun _ _ _ _ free => free
  outside := by
    intro event before after happened _ _
    obtain ⟨_, _, _, _, _, rfl⟩ := environment_frame happened
    exact ⟨trivial, fun _ free => free, fun _ _ => ⟨fun _ => rfl, fun _ => rfl,
      fun _ _ _ member => member, fun _ _ _ member => member, fun _ _ => rfl⟩⟩
  entries := by
    intro thread input program data entered _ rests
    match thread, input, entered with
    | .monitor, some line, entered =>
        obtain rfl := Option.some.inj entered
        have handed : Triple (transferContract settings) .monitor [] (fun _ => True)
            (fun data => data.ghost.deprioritizing = none) (handLine settings line)
            fun _ data => data.ghost.deprioritizing = none := by
          refine Triple.bind (fun _ => AtWork settings (command settings.lower
            (Text.split (Text.strip line)))) (Rule.change ?_ (atWork_stable _)
              fun data _ resting _ => ⟨trivial, line_guar data _,
                lastCommand_of_line settings rfl, resting⟩) fun _ => ?_
          · exact fun _ _ resting _ _ relied => (relied.deprioritizing rfl).trans resting
          · exact (processCommand_transfers _).weaken (fun _ _ atWork => atWork)
              fun _ _ _ atWork => atWork.2
        exact Prog.Safe.mono (fun _ _ _ resting _ => resting) (fun _ _ _ => trivial) _
          (handed data trivial (rests rfl))
    | .worker own, none, entered =>
        obtain ⟨_, rfl⟩ : settings.threadEnabled own = true ∧
            threadFunction settings own = program := by
          simpa [launcher, entry] using entered
        exact Prog.Safe.mono (fun _ _ _ _ impossible => by simp at impossible)
          (fun _ _ _ => trivial) _ (threadFunction_transfers data trivial trivial)

private theorem transferContract_initial :
    (transferContract settings).Holds initial fun _ => [] where
  invariant := trivial
  free := fun _ _ => trivial
  owns := ⟨by simp [initial], by simp⟩
  safe := fun thread => by
    cases thread with
    | tool number =>
        have runs : Triple (transferContract settings) (.tool number) [] (fun _ => True)
            (fun _ => True) (ApplicationThread.run number) fun _ _ => True := by
          refine Triple.bind (fun _ _ => True) (Triple.await anything_stable
            (fun _ => anything_stable) fun _ _ _ _ => trivial) fun started => ?_
          cases started with
          | none => exact Triple.done anything_stable fun _ _ _ => trivial
          | some process =>
              exact plain_frame runProcess_within (fun _ _ _ => Plain.of_tool) anything_stable
                fun _ _ _ _ _ _ => trivial
        exact Prog.Safe.mono (fun _ _ _ _ impossible => by simp at impossible)
          (fun _ _ _ => trivial) _ (runs _ trivial trivial)
    | worker own => exact ⟨rfl, fun _ _ _ impossible => by simp at impossible⟩
    | monitor => exact ⟨rfl, fun now relied _ _ => relied.deprioritizing rfl⟩

/-- What a step does to the dictionaries, if it is no other thread's. -/
theorem transfer_of_choice {before after : Config Lock ThreadId Data Site}
    (reachable : (launcher settings).Reachable initial before)
    {choice : Choice ThreadId Outside (Option Text)}
    (stepped : (launcher settings).step choice before = some after) {thread : ThreadId}
    (mover : ∀ other, choice = .run other → other = thread) :
    Transfer settings thread before.shared.data after.shared.data := by
  obtain ⟨held, holds⟩ := transferContract_lawful.holds_of_run reachable transferContract_initial
  rcases System.steps_of_choice stepped with ⟨other, _, _, rfl, _, _⟩ |
    ⟨_, _, _, _, _, _, rfl⟩ | ⟨_, _, _, happened, rfl⟩
  · obtain rfl := mover other rfl
    exact (transferContract_lawful.promise holds stepped trivial).transfer
  · exact transfer_refl settings thread _
  · have plain : Plain settings [] before.shared.data (before.shared.setData _).data :=
      .of_environment happened
    exact plain.transfer thread

theorem transfer_of_steps {before after : Config Lock ThreadId Data Site}
    (reachable : (launcher settings).Reachable initial before)
    (stepped : (launcher settings).Steps before after) :
    ∃ thread, Transfer settings thread before.shared.data after.shared.data := by
  obtain ⟨choice, chosen⟩ := stepped
  cases choice with
  | run thread => exact ⟨thread, transfer_of_choice reachable chosen (by simp)⟩
  | _ => exact ⟨.monitor, transfer_of_choice reachable chosen (by simp)⟩

/-- Only its worker takes an address out of a deprioritized dictionary. -/
theorem staysDeprioritized_of_choice {before after : Config Lock ThreadId Data Site}
    (reachable : (launcher settings).Reachable initial before)
    {choice : Choice ThreadId Outside (Option Text)}
    (stepped : (launcher settings).step choice before = some after) {radio : Radio}
    (others : choice ≠ .run (.worker radio)) {bdaddr : Text}
    (parked : bdaddr ∈ before.shared.data.deprioritizedBdaddrs radio) :
    bdaddr ∈ after.shared.data.deprioritizedBdaddrs radio := by
  by_contra missing
  cases choice with
  | run thread =>
      have transfer : Transfer settings thread before.shared.data after.shared.data :=
        transfer_of_choice reachable stepped (by simp)
      exact others (by rw [(transfer.released radio bdaddr parked missing).1])
  | _ =>
      have transfer : Transfer settings .monitor before.shared.data after.shared.data :=
        transfer_of_choice reachable stepped (by simp)
      simpa using (transfer.released radio bdaddr parked missing).1

end System

end NaiveBTSniffing.Launcher
