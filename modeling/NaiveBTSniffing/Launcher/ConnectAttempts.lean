import NaiveBTSniffing.Launcher.Rules

/-!
Contract: how often the tools are launched for one address.

`device_connect_attempts` is reset by a [NEW] line, lowered by an RSSI line above
the stored RSSI, and raised by the worker before it launches anything. What is
left of the attempts, together with the attempts already counted, never exceeds
what the lines of the log have granted; `attempts_bounded` draws the bounds on
the counter and on the ATTEMPT lines from this.

Owns the contract `attemptsContract` between the threads.
-/

namespace NaiveBTSniffing.Launcher

open NaiveBTSniffing.Library
open NaiveBTSniffing.Library.Interleaving
open NaiveBTSniffing.Library.Interleaving.Prog

/-! ## What is counted -/

/-- The print whose ATTEMPT lines are counted for a radio. -/
def printOf : Radio → InfoType
  | .ble => .gatt
  | .btc => .sdp

/-- `GATTprint.log` or `SDPprint.log`. -/
def printLog : Radio → LogFile
  | .ble => .gattprint
  | .btc => .sdpprint

/-- The address of a [NEW] line and the radio that it is announced on. -/
def announcement (settings : Settings) : Event → Option (Text × Radio)
  | .line line =>
      match command settings.lower (Text.split line) with
      | .new bdaddr type _ => some (bdaddr, newRadio type)
      | _ => none
  | _ => none

/-- Every [NEW] line about the address so far was about this radio. -/
def AnnouncedOnlyOn (settings : Settings) (radio : Radio) (bdaddr : Text) (data : Data) : Prop :=
  ∀ event ∈ data.ghost.trace, ∀ own, announcement settings event = some (bdaddr, own) → own = radio

instance (settings : Settings) (radio : Radio) (bdaddr : Text) :
    DecidablePred (AnnouncedOnlyOn settings radio bdaddr) := fun data =>
  inferInstanceAs (Decidable (∀ event ∈ data.ghost.trace, ∀ own,
    announcement settings event = some (bdaddr, own) → own = radio))

def announces (settings : Settings) (bdaddr : Text) (event : Event) : Bool :=
  match announcement settings event with
  | some (other, _) => other == bdaddr
  | none => false

/-- [NEW] lines about the address. -/
def newLines (settings : Settings) (bdaddr : Text) (data : Data) : Nat :=
  data.ghost.trace.countP (announces settings bdaddr)

/-- RSSI lines above the stored RSSI of the address. -/
def raises (radio : Radio) (bdaddr : Text) (data : Data) : Nat :=
  data.ghost.trace.count (.rssiRaised radio bdaddr)

/-- Attempts that the worker has counted for the address. -/
def selections (radio : Radio) (bdaddr : Text) (data : Data) : Nat :=
  data.ghost.trace.count (.selected radio bdaddr)

/-- ATTEMPT lines about the address. -/
def attemptLines (radio : Radio) (bdaddr : Text) (data : Data) : Nat :=
  (data.logs (printLog radio)).count (.attempt bdaddr)

/-! ## The terms -/

/-- The attempts that a counter still allows. -/
def attemptsLeft (settings : Settings) : Option Int → Int
  | some attempts => settings.maxConnectAttempts - attempts
  | none => 0

/-- The attempts already counted and those that the counter still allows. -/
def spent (settings : Settings) (radio : Radio) (bdaddr : Text) (data : Data) : Int :=
  selections radio bdaddr data + attemptsLeft settings (data.deviceConnectAttempts.lookup bdaddr)

/-- The attempts that the lines of the log have granted. -/
def granted (settings : Settings) (radio : Radio) (bdaddr : Text) (data : Data) : Int :=
  settings.maxConnectAttempts * newLines settings bdaddr data + raises radio bdaddr data

structure Accounted (settings : Settings) (radio : Radio) (bdaddr : Text) (data : Data) :
    Prop where
  elsewhere : ∀ own, own ≠ radio →
    bdaddr ∉ data.bdaddrs own ∧ bdaddr ∉ data.deprioritizedBdaddrs own
  counter : ∀ attempts, data.deviceConnectAttempts.lookup bdaddr = some attempts →
    0 ≤ attempts ∧ attempts ≤ settings.maxConnectAttempts
  afforded : spent settings radio bdaddr data ≤ granted settings radio bdaddr data
  attempted : attemptLines radio bdaddr data ≤ selections radio bdaddr data

/-- The counter allows one more attempt. -/
def HasAttemptLeft (settings : Settings) (bdaddr : Text) (data : Data) : Prop :=
  ∃ attempts, data.deviceConnectAttempts.lookup bdaddr = some attempts ∧
    attempts < settings.maxConnectAttempts

/-- Nothing that the monitor accounts for changes, and the counter does not
fall. -/
structure MonitorKept (settings : Settings) (radio : Radio) (bdaddr : Text)
    (before after : Data) : Prop where
  spent : spent settings radio bdaddr after = spent settings radio bdaddr before
  granted : granted settings radio bdaddr after = granted settings radio bdaddr before
  grows : ∀ attempts, before.deviceConnectAttempts.lookup bdaddr = some attempts →
    ∃ more, after.deviceConnectAttempts.lookup bdaddr = some more ∧ attempts ≤ more

/-- No attempt of the worker's is counted, logged or taken away. -/
structure WorkerKept (settings : Settings) (radio : Radio) (bdaddr : Text)
    (before after : Data) : Prop where
  selected : selections radio bdaddr after = selections radio bdaddr before
  attempted : attemptLines radio bdaddr after = attemptLines radio bdaddr before
  left : HasAttemptLeft settings bdaddr before → HasAttemptLeft settings bdaddr after

section Kept

variable {settings : Settings} {radio : Radio} {bdaddr : Text} {first second third : Data}

theorem MonitorKept.refl (data : Data) : MonitorKept settings radio bdaddr data data :=
  ⟨rfl, rfl, fun attempts found => ⟨attempts, found, le_rfl⟩⟩

theorem MonitorKept.trans (earlier : MonitorKept settings radio bdaddr first second)
    (later : MonitorKept settings radio bdaddr second third) :
    MonitorKept settings radio bdaddr first third := by
  refine ⟨later.spent.trans earlier.spent, later.granted.trans earlier.granted,
    fun attempts found => ?_⟩
  obtain ⟨more, foundMore, above⟩ := earlier.grows attempts found
  obtain ⟨most, foundMost, aboveMore⟩ := later.grows more foundMore
  exact ⟨most, foundMost, above.trans aboveMore⟩

theorem WorkerKept.refl (data : Data) : WorkerKept settings radio bdaddr data data :=
  ⟨rfl, rfl, id⟩

theorem WorkerKept.trans (earlier : WorkerKept settings radio bdaddr first second)
    (later : WorkerKept settings radio bdaddr second third) :
    WorkerKept settings radio bdaddr first third :=
  ⟨later.selected.trans earlier.selected, later.attempted.trans earlier.attempted,
    fun left => later.left (earlier.left left)⟩

end Kept

/-- What the steps of the other threads leave to the monitor and to the worker of
the radio. -/
structure AttemptsRely (settings : Settings) (radio : Radio) (bdaddr : Text) (thread : ThreadId)
    (before after : Data) : Prop where
  monitor : thread = .monitor → MonitorKept settings radio bdaddr before after
  worker : thread = .worker radio → WorkerKept settings radio bdaddr before after

structure AttemptsGuar (settings : Settings) (radio : Radio) (bdaddr : Text) (thread : ThreadId)
    (before after : Data) : Prop where
  monitor : thread ≠ .monitor → MonitorKept settings radio bdaddr before after
  worker : thread ≠ .worker radio → WorkerKept settings radio bdaddr before after

def attemptsContract (settings : Settings) (radio : Radio) (bdaddr : Text) : LauncherContract where
  inv := Accounted settings radio bdaddr
  lockInv := fun _ _ => True
  rely := fun thread _ => AttemptsRely settings radio bdaddr thread
  guar := fun thread _ => AttemptsGuar settings radio bdaddr thread
  rest := fun _ _ => True
  dead := fun _ _ => True
  allowed := fun _ after => AnnouncedOnlyOn settings radio bdaddr after
  relyRefl := fun _ _ _ => ⟨fun _ => .refl _, fun _ => .refl _⟩
  relyTrans := fun first second =>
    ⟨fun own => (first.monitor own).trans (second.monitor own),
      fun own => (first.worker own).trans (second.worker own)⟩
  relyLock := fun relied => relied
  relyFree := fun _ _ _ => trivial
  guarRefl := fun _ _ _ => ⟨fun _ => .refl _, fun _ => .refl _⟩

/-! ## Steps that do not touch the address -/

/-- A step that changes nothing about the address, except that the dictionaries
of the other radio may lose it. -/
structure Untouched (settings : Settings) (radio : Radio) (bdaddr : Text)
    (before after : Data) : Prop where
  tracked : ∀ own, own ≠ radio → bdaddr ∈ after.bdaddrs own → bdaddr ∈ before.bdaddrs own
  deprioritized : ∀ own, own ≠ radio → bdaddr ∈ after.deprioritizedBdaddrs own →
    bdaddr ∈ before.deprioritizedBdaddrs own
  counter : after.deviceConnectAttempts.lookup bdaddr = before.deviceConnectAttempts.lookup bdaddr
  announced : newLines settings bdaddr after = newLines settings bdaddr before
  raised : raises radio bdaddr after = raises radio bdaddr before
  selected : selections radio bdaddr after = selections radio bdaddr before
  attempted : attemptLines radio bdaddr after = attemptLines radio bdaddr before

namespace Untouched

variable {settings : Settings} {radio : Radio} {bdaddr : Text} {before after : Data}

theorem refl (data : Data) : Untouched settings radio bdaddr data data :=
  ⟨fun _ _ => id, fun _ _ => id, rfl, rfl, rfl, rfl, rfl⟩

/-- A step on anything but the dictionaries of addresses, the counters, the trace
and the logs. -/
theorem of_same (tracked : after.bdaddrs = before.bdaddrs)
    (deprioritized : after.deprioritizedBdaddrs = before.deprioritizedBdaddrs)
    (counters : after.deviceConnectAttempts = before.deviceConnectAttempts)
    (trace : after.ghost.trace = before.ghost.trace) (logs : after.logs = before.logs) :
    Untouched settings radio bdaddr before after := by
  constructor <;>
    simp [tracked, deprioritized, counters, trace, logs, newLines, raises, selections, attemptLines]

theorem spent (untouched : Untouched settings radio bdaddr before after) :
    spent settings radio bdaddr after = Launcher.spent settings radio bdaddr before := by
  simp only [Launcher.spent, untouched.counter, untouched.selected]

theorem granted (untouched : Untouched settings radio bdaddr before after) :
    granted settings radio bdaddr after = Launcher.granted settings radio bdaddr before := by
  simp only [Launcher.granted, untouched.announced, untouched.raised]

theorem accounted (untouched : Untouched settings radio bdaddr before after)
    (accounts : Accounted settings radio bdaddr before) :
    Accounted settings radio bdaddr after where
  elsewhere := fun own other =>
    ⟨fun member => (accounts.elsewhere own other).1 (untouched.tracked own other member),
      fun member => (accounts.elsewhere own other).2 (untouched.deprioritized own other member)⟩
  counter := fun attempts found => accounts.counter attempts (untouched.counter ▸ found)
  afforded := by rw [untouched.spent, untouched.granted]; exact accounts.afforded
  attempted := by rw [untouched.attempted, untouched.selected]; exact accounts.attempted

theorem monitorKept (untouched : Untouched settings radio bdaddr before after) :
    MonitorKept settings radio bdaddr before after :=
  ⟨untouched.spent, untouched.granted,
    fun attempts found => ⟨attempts, untouched.counter.trans found, le_rfl⟩⟩

theorem workerKept (untouched : Untouched settings radio bdaddr before after) :
    WorkerKept settings radio bdaddr before after := by
  refine ⟨untouched.selected, untouched.attempted, fun left => ?_⟩
  obtain ⟨attempts, found, below⟩ := left
  exact ⟨attempts, untouched.counter.trans found, below⟩

theorem guar (untouched : Untouched settings radio bdaddr before after) (thread : ThreadId) :
    AttemptsGuar settings radio bdaddr thread before after :=
  ⟨fun _ => untouched.monitorKept, fun _ => untouched.workerKept⟩

theorem of_delete {own : Radio} {other : Text} {held : List Lock}
    (step : DeleteStep own other held before after) :
    Untouched settings radio bdaddr before after := by
  cases step with
  | same => exact refl before
  | delete =>
      refine ⟨fun _ _ member => ?_, fun _ _ => id, rfl, ?_, ?_, ?_, rfl⟩
      · simp at member
        grind
      · simp [newLines, announces, announcement]
      · simp [raises]
      · simp [selections]

/-- A new value in a dictionary of tracked addresses. -/
theorem of_track (data : Data) {own : Radio} {other : Text} (value : Text × Int)
    (fits : own = radio ∨ other ≠ bdaddr) :
    Untouched settings radio bdaddr data
      (data.setTracked own ((data.bdaddrs own).setItem other value)) := by
  refine ⟨fun _ _ member => ?_, fun _ _ => id, rfl, rfl, rfl, rfl, rfl⟩
  simp at member
  grind

theorem of_park (data : Data) {own : Radio} {other : Text} (value : Text × Int × Text)
    (fits : own = radio ∨ other ≠ bdaddr) :
    Untouched settings radio bdaddr data (data.park own other value) := by
  refine ⟨fun _ _ => id, fun _ _ member => ?_, rfl, rfl, rfl, rfl, rfl⟩
  simp at member
  grind

theorem of_untrack (data : Data) (own : Radio) (other : Text) :
    Untouched settings radio bdaddr data (data.untrack own other) := by
  refine ⟨fun _ _ member => ?_, fun _ _ => id, rfl, rfl, rfl, rfl, rfl⟩
  simp at member
  grind

theorem of_unpark (data : Data) (own : Radio) (other : Text) :
    Untouched settings radio bdaddr data (data.unpark own other) := by
  refine ⟨fun _ _ => id, fun _ _ member => ?_, rfl, rfl, rfl, rfl, rfl⟩
  simp at member
  grind

theorem of_retrack (data : Data) {own : Radio} {other : Text} (value : Text × Int)
    (fits : own = radio ∨ other ≠ bdaddr) :
    Untouched settings radio bdaddr data (data.retrack own other value) := by
  refine ⟨fun _ _ member => ?_, fun _ _ => id, rfl, rfl, rfl, rfl, rfl⟩
  simp at member
  grind

theorem of_sort {own : Radio} (step : SortStep own before after) :
    Untouched settings radio bdaddr before after := by
  cases step <;> exact of_same rfl rfl rfl rfl rfl

theorem of_loop {own : Radio} {other : Text} {held : List Lock}
    (step : LoopStep own other held before after) :
    Untouched settings radio bdaddr before after := by
  cases step with
  | delete step => exact of_delete step
  | next => exact of_same rfl rfl rfl rfl rfl
  | exceeded =>
      exact ⟨fun _ _ => id, fun _ _ => id, rfl, by simp [newLines, announces, announcement],
        by simp [raises], by simp [selections], rfl⟩

theorem of_launch {infoType : InfoType} {other : Text}
    (step : LaunchStep infoType other before after) :
    Untouched settings radio bdaddr before after := by
  cases step <;> exact of_same rfl rfl rfl rfl rfl

/-- A line in a log that is not an ATTEMPT line about the address. -/
theorem of_line (data : Data) {file : LogFile} {line : LogLine}
    (fits : file ≠ printLog radio ∨ line ≠ .attempt bdaddr) :
    Untouched settings radio bdaddr data (data.appendLog file line) := by
  refine ⟨fun _ _ => id, fun _ _ => id, rfl, rfl, rfl, rfl, ?_⟩
  by_cases same : printLog radio = file
  · simp [attemptLines, same]
    grind
  · simp [attemptLines, same]

theorem of_stage {infoType : InfoType} {other : Text} {held : List Lock}
    (step : StageStep infoType other held before after)
    (fits : infoType ≠ printOf radio ∨ other ≠ bdaddr) :
    Untouched settings radio bdaddr before after := by
  cases step with
  | delete step => exact of_delete step
  | attempt logged =>
      refine of_line before (fits.imp (fun different same => ?_) fun different same => ?_)
      · subst same
        cases infoType <;> cases radio <;> simp_all [InfoType.logFile, printLog, printOf]
      · exact different (LogLine.attempt.inj same)
  | launch step => exact of_launch step

theorem of_collect {own : Radio} {other : Text} {held : List Lock}
    (step : CollectStep own other held before after) (fits : other ≠ bdaddr) :
    Untouched settings radio bdaddr before after := by
  cases step with
  | same => exact refl before
  | countAttempt =>
      exact ⟨fun _ _ => id, fun _ _ => id, by simp [Dict.lookup_setItem, fits.symm],
        by simp [newLines, announces, announcement], by simp [raises], by simp [selections, fits], rfl⟩
  | stage _ step => exact of_stage step (.inr fits)

theorem of_tool {number : Nat} {process : Process} {held : List Lock}
    (step : ToolStep number process held before after) :
    Untouched settings radio bdaddr before after := by
  cases step with
  | kill => exact of_same rfl rfl rfl rfl rfl
  | outcome _ kind =>
      refine of_line before (.inr ?_)
      rcases kind with rfl | ⟨_, rfl⟩ | rfl <;> simp
  | succeed => exact of_same rfl rfl rfl rfl rfl
  | delete step => exact of_delete step

/-- A command about another address. -/
theorem of_command {held : List Lock} {asked : Command}
    (step : CommandStep held asked before after) (other : asked.bdaddr ≠ some bdaddr) :
    Untouched settings radio bdaddr before after := by
  cases step with
  | same => exact refl before
  | resetAttempts =>
      have different : bdaddr ≠ _ := fun same => other (congrArg some same.symm)
      exact ⟨fun _ _ => id, fun _ _ => id, by simp [Dict.lookup_setItem, different],
        rfl, rfl, rfl, rfl⟩
  | trackNew => exact of_track _ _ (.inr fun same => other (congrArg some same))
  | raiseRssi =>
      have different : _ ≠ bdaddr := fun same => other (congrArg some same)
      exact ⟨fun _ _ => id, fun _ _ => id, rfl, by simp [newLines, announces, announcement],
        by simp [raises, different], by simp [selections], rfl⟩
  | grantOneMoreTry =>
      have different : bdaddr ≠ _ := fun same => other (congrArg some same.symm)
      exact ⟨fun _ _ => id, fun _ _ => id, by simp [Dict.lookup_setItem, different],
        rfl, rfl, rfl, rfl⟩
  | trackRssi => exact of_track _ _ (.inr fun same => other (congrArg some same))
  | park => exact of_park _ _ (.inr fun same => other (congrArg some same))
  | untrack => exact of_untrack _ _ _
  | delete => exact of_delete (.delete (by assumption))

end Untouched

/-! ## Programs that do not touch the address -/

section Programs

variable {settings : Settings} {radio : Radio} {bdaddr : Text} {thread : ThreadId}
variable {held : List Lock} {α : Type}

/-- A program of the contract's threads; it may raise anywhere. -/
private abbrev Counts (settings : Settings) (radio : Radio) (bdaddr : Text) (thread : ThreadId)
    (held : List Lock) (pre : Data → Prop) (program : Code α) (post : α → Data → Prop) : Prop :=
  Triple (attemptsContract settings radio bdaddr) thread held (fun _ => True) pre program post

private abbrev Steady (settings : Settings) (radio : Radio) (bdaddr : Text) (thread : ThreadId)
    (held : List Lock) (pre : Data → Prop) : Prop :=
  (attemptsContract settings radio bdaddr).Stable thread held pre

private theorem anything_steady (fact : Prop) :
    Steady settings radio bdaddr thread held fun _ => fact :=
  Contract.stable_const _ _ _ _

/-- A program of steps that do not touch the address. -/
private theorem untouched_frame {shape : List Lock → Data → Data → Prop} {program : Code α}
    {pre : Data → Prop} (within : program.Within shape held held)
    (untouched : ∀ now before after, shape now before after →
      Untouched settings radio bdaddr before after)
    (steady : Steady settings radio bdaddr thread held pre)
    (keeps : ∀ before after, Untouched settings radio bdaddr before after → pre before →
      pre after) :
    Counts settings radio bdaddr thread held pre program fun _ => pre :=
  Triple.frame within steady
    (fun now before after _ accounts holds step _ =>
      ⟨(untouched now before after step).accounted accounts,
        (untouched now before after step).guar thread,
        keeps before after (untouched now before after step) holds⟩)
    (fun _ _ _ _ _ free => free) fun _ _ _ => trivial

private theorem untouched_trivially {shape : List Lock → Data → Data → Prop} {program : Code α}
    (within : program.Within shape held held)
    (untouched : ∀ now before after, shape now before after →
      Untouched settings radio bdaddr before after) :
    Counts settings radio bdaddr thread held (fun _ => True) program fun _ _ => True :=
  untouched_frame within untouched (anything_steady True) fun _ _ _ _ => trivial

private theorem steps_untouched {program : Code α}
    (within : program.Within (fun _ => Untouched settings radio bdaddr) held held) :
    Counts settings radio bdaddr thread held (fun _ => True) program fun _ _ => True :=
  untouched_trivially within fun _ _ _ step => step

/-- A block that runs only when the address is tracked on the other radio. -/
private theorem never_elsewhere {own : Radio} {body : Code Unit} (other : own ≠ radio) :
    Counts settings radio bdaddr thread held (fun _ => True) (whenTracked own bdaddr body)
      fun _ _ => True :=
  Rule.whenTrackedBare (fun _ => trivial) (anything_steady _) (anything_steady False)
    (anything_steady _) (anything_steady _)
    (fun _ accounts _ member => (accounts.elsewhere own other).1 member) (fun _ _ _ => trivial)
    fun _ _ impossible => impossible.elim

end Programs

/-! ## The monitor -/

section Monitor

variable {settings : Settings} {radio : Radio} {bdaddr : Text} {held : List Lock}

/-- The lines of the log have granted more than what is accounted for. -/
private def Unspent (settings : Settings) (radio : Radio) (bdaddr : Text) (extra : Nat)
    (data : Data) : Prop :=
  spent settings radio bdaddr data + extra ≤ granted settings radio bdaddr data

/-- The counter is above one, whatever the worker adds to it. -/
private def AboveOne (bdaddr : Text) (data : Data) : Prop :=
  ∃ attempts, data.deviceConnectAttempts.lookup bdaddr = some attempts ∧ 1 < attempts

private theorem unspent_steady (extra : Nat) :
    Steady settings radio bdaddr .monitor held (Unspent settings radio bdaddr extra) := by
  intro before after unspent _ _ relied
  have kept := relied.monitor rfl
  unfold Unspent at *
  rw [kept.spent, kept.granted]
  exact unspent

private theorem aboveOne_steady :
    Steady settings radio bdaddr .monitor held (AboveOne bdaddr) := by
  rintro before after ⟨attempts, found, above⟩ _ _ relied
  obtain ⟨more, foundMore, grown⟩ := (relied.monitor rfl).grows attempts found
  exact ⟨more, foundMore, by omega⟩

/-- A step of the monitor that changes no count of the worker's. -/
private theorem guar_of_monitor {before after : Data}
    (kept : WorkerKept settings radio bdaddr before after) :
    AttemptsGuar settings radio bdaddr .monitor before after :=
  ⟨fun monitor => absurd rfl monitor, fun _ => kept⟩

private theorem selections_le_spent {data : Data}
    (accounts : Accounted settings radio bdaddr data) :
    (selections radio bdaddr data : Int) ≤ spent settings radio bdaddr data := by
  unfold spent
  cases found : data.deviceConnectAttempts.lookup bdaddr with
  | none => simp [attemptsLeft]
  | some attempts =>
      have bound := (accounts.counter attempts found).2
      simp only [attemptsLeft]
      omega

private theorem resetAttempts_counts :
    Counts settings radio bdaddr .monitor held
      (Unspent settings radio bdaddr settings.maxConnectAttempts)
      (Code.change fun data => data.setAttempts bdaddr 0) fun _ _ => True := by
  refine Rule.change (unspent_steady _) (anything_steady _) fun data accounts unspent _ =>
    ⟨⟨accounts.elsewhere, fun attempts found => ?_, ?_, accounts.attempted⟩,
      guar_of_monitor ⟨rfl, rfl, fun left => ?_⟩, trivial⟩
  · obtain rfl : 0 = attempts := by simpa using found
    omega
  · have selected := selections_le_spent accounts
    have unchanged : granted settings radio bdaddr (data.setAttempts bdaddr 0) =
        granted settings radio bdaddr data := rfl
    have reset : spent settings radio bdaddr (data.setAttempts bdaddr 0) =
        selections radio bdaddr data + settings.maxConnectAttempts := by
      simp [spent, selections, attemptsLeft]
    unfold Unspent at unspent
    rw [unchanged, reset]
    omega
  · obtain ⟨attempts, found, below⟩ := left
    have bound := (accounts.counter attempts found).1
    exact ⟨0, by simp, by omega⟩

private theorem processNew_counts (type addressType : Text) (here : newRadio type = radio) :
    Counts settings radio bdaddr .monitor []
      (Unspent settings radio bdaddr settings.maxConnectAttempts)
      (processNew bdaddr type addressType) fun _ _ => True := by
  refine Triple.bind _ resetAttempts_counts fun _ => ?_
  exact steps_untouched <| within_withLock <| within_change fun data => .of_track data _ (.inl here)

/-- The comparison with the stored RSSI grants one attempt, which the counter does
not yet show. -/
private theorem readStoredRssi_counts (word : Text) :
    Counts settings radio bdaddr .monitor held (fun _ => True) (readStoredRssi radio bdaddr word)
      fun stored data => ∀ rssi, Text.parseInt 10 word = some rssi → stored.2 < rssi →
        Unspent settings radio bdaddr 1 data := by
  refine Rule.demand (anything_steady _) (fun stored before after unspent beforeInv afterInv relied
    rssi parsed higher => unspent_steady 1 before after (unspent rssi parsed higher) beforeInv
      afterInv relied) (anything_steady _) fun data accounts _ _ => ?_
  cases present : (data.bdaddrs radio).lookup bdaddr with
  | none => exact ⟨accounts, ⟨fun _ => .refl _, fun _ => .refl _⟩, by simp, fun _ => trivial⟩
  | some stored =>
      cases parsed : Text.parseInt 10 word with
      | none => exact ⟨accounts, ⟨fun _ => .refl _, fun _ => .refl _⟩, by simp, fun _ => trivial⟩
      | some rssi =>
          by_cases higher : stored.2 < rssi
          · have more : granted settings radio bdaddr (data.record (.rssiRaised radio bdaddr)) =
                granted settings radio bdaddr data + 1 := by
              simp [granted, newLines, raises, announces, announcement]
              omega
            have same : spent settings radio bdaddr (data.record (.rssiRaised radio bdaddr)) =
                spent settings radio bdaddr data := by
              simp [spent, selections]
            have afforded := accounts.afforded
            simp only [higher, if_true]
            refine ⟨⟨accounts.elsewhere, accounts.counter, by omega, ?_⟩, guar_of_monitor
              ⟨by simp [selections], rfl, id⟩, fun _ _ _ _ _ => ?_, fun _ => trivial⟩
            · simpa [attemptLines, selections] using accounts.attempted
            · unfold Unspent
              omega
          · simp only [higher, if_false]
            refine ⟨accounts, ⟨fun _ => .refl _, fun _ => .refl _⟩, fun value same other found
              above => ?_, fun _ => trivial⟩
            obtain rfl : stored = value := Option.some.inj same
            obtain rfl : rssi = other := Option.some.inj found
            exact absurd above higher

private theorem lowerAttempts_counts :
    Counts settings radio bdaddr .monitor held
      (fun data => AboveOne bdaddr data ∧ Unspent settings radio bdaddr 1 data)
      (Code.demand
        (fun data => match data.deviceConnectAttempts.lookup bdaddr with
          | some current => data.setAttempts bdaddr (current - 1)
          | none => data)
        (fun data => data.deviceConnectAttempts.lookup bdaddr |>.map fun _ => ()))
      fun _ _ => True := by
  refine Rule.demand (aboveOne_steady.and (unspent_steady 1)) (fun _ => anything_steady _)
    (anything_steady _) ?_
  rintro data accounts ⟨⟨current, found, above⟩, unspent⟩ _
  have bound := accounts.counter current found
  have lowered : spent settings radio bdaddr (data.setAttempts bdaddr (current - 1)) =
      spent settings radio bdaddr data + 1 := by
    simp [spent, selections, attemptsLeft, found]
    omega
  have unchanged : granted settings radio bdaddr (data.setAttempts bdaddr (current - 1)) =
      granted settings radio bdaddr data := rfl
  simp only [found]
  refine ⟨⟨accounts.elsewhere, fun attempts same => ?_, ?_, accounts.attempted⟩,
    guar_of_monitor ⟨rfl, rfl, fun _ => ⟨current - 1, by simp, by omega⟩⟩,
    fun _ _ => trivial, fun _ => trivial⟩
  · obtain rfl : current - 1 = attempts := by simpa using same
    omega
  · unfold Unspent at unspent
    rw [lowered, unchanged]
    omega

private theorem grantOneMoreTry_counts :
    Counts settings radio bdaddr .monitor held (Unspent settings radio bdaddr 1)
      (grantOneMoreTry bdaddr) fun _ _ => True := by
  refine Triple.bind (fun attempts data => (1 < attempts → AboveOne bdaddr data) ∧
    Unspent settings radio bdaddr 1 data)
    (Rule.demand (unspent_steady 1) (fun attempts => ?_) (anything_steady _)
      fun data accounts unspent _ => ⟨accounts, ⟨fun _ => .refl _, fun _ => .refl _⟩,
        fun attempts found => ⟨fun above => ⟨attempts, found, above⟩, unspent⟩, fun _ => trivial⟩)
    fun attempts => Triple.ite (fun above => ?_) fun _ =>
      Triple.done (anything_steady _) fun _ _ _ => trivial
  · exact Contract.Stable.and (fun before after holds beforeInv afterInv relied above =>
      aboveOne_steady before after (holds above) beforeInv afterInv relied) (unspent_steady 1)
  · exact lowerAttempts_counts.weaken (fun _ _ holds => ⟨holds.1 above, holds.2⟩)
      fun _ _ _ _ => trivial

private theorem storeRssi_counts (word : Text) :
    Counts settings radio bdaddr .monitor held (fun _ => True) (storeRssi radio bdaddr word)
      fun _ _ => True := by
  refine Triple.bind _ (readStoredRssi_counts word) fun stored => ?_
  cases parsed : Text.parseInt 10 word with
  | none => exact Triple.raised (anything_steady _) fun _ _ _ => trivial
  | some rssi =>
      refine Triple.bind (fun _ _ => True) (Triple.ite (fun higher => ?_) fun _ => ?_) fun _ => ?_
      · exact grantOneMoreTry_counts.weaken (fun _ _ unspent => unspent rssi rfl higher)
          fun _ _ _ _ => trivial
      · exact Triple.done (anything_steady _) fun _ _ _ => trivial
      · exact steps_untouched <| within_change fun data => .of_track data _ (.inl rfl)

private theorem updateRssi_counts (own : Radio) (word : Text) :
    Counts settings radio bdaddr .monitor [] (fun _ => True) (updateRssi own bdaddr word)
      fun _ _ => True := by
  by_cases same : own = radio
  · subst same
    exact Rule.whenTrackedBare (fun _ => trivial) (anything_steady _) (anything_steady True)
      (anything_steady _) (anything_steady _) (fun _ _ _ _ => trivial) (fun _ _ _ => trivial)
      (storeRssi_counts word)
  · exact never_elsewhere same

private theorem deprioritize_counts (own : Radio) (vendor : Text) :
    Counts settings radio bdaddr .monitor [] (fun _ => True) (deprioritize own bdaddr vendor)
      fun _ _ => True := by
  by_cases same : own = radio
  · exact steps_untouched <| whenTracked_within (fun _ => .refl) <|
      within_bind (within_demand .refl) fun _ =>
        within_bind (within_withLock <| within_change fun data => .of_park data _ (.inl same))
          fun _ => within_demand fun data => .of_untrack data own bdaddr
  · exact never_elsewhere same

private theorem processManufacturerData_counts (more : List Text) :
    Counts settings radio bdaddr .monitor [] (fun _ => True) (processManufacturerData bdaddr more)
      fun _ _ => True := by
  cases more with
  | nil => exact Triple.raised (anything_steady _) fun _ _ _ => trivial
  | cons vendor rest =>
      exact Triple.ite (fun _ => Triple.bind _ (deprioritize_counts .ble vendor) fun _ =>
        deprioritize_counts .btc vendor) fun _ =>
          Triple.done (anything_steady _) fun _ _ _ => trivial

private theorem processDel_counts (type : Text) :
    Counts settings radio bdaddr .monitor [] (fun _ => True) (processDel bdaddr type)
      fun _ _ => True := by
  unfold processDel
  cases delRadio type with
  | none => exact Triple.raised (anything_steady _) fun _ _ _ => trivial
  | some own => exact untouched_trivially lockedDeleteFromDict_within fun _ _ _ => .of_delete

/-- A [NEW] line about the address has granted its attempts before it resets the
counter. -/
private theorem processCommand_counts (asked : Command) :
    Counts settings radio bdaddr .monitor []
      (fun data => ∀ type addressType, asked = .new bdaddr type addressType →
        newRadio type = radio ∧ Unspent settings radio bdaddr settings.maxConnectAttempts data)
      (processCommand asked) fun _ _ => True := by
  by_cases about : asked.bdaddr = some bdaddr
  · cases asked with
    | new other type addressType =>
        obtain rfl : other = bdaddr := Option.some.inj about
        exact (Triple.of_pure fun here => processNew_counts type addressType here).weaken
          (fun _ _ holds => holds type addressType rfl) fun _ _ _ _ => trivial
    | rssi other word =>
        obtain rfl : other = bdaddr := Option.some.inj about
        exact Triple.weaken (Triple.bind _ (updateRssi_counts .ble word) fun _ =>
          updateRssi_counts .btc word) (fun _ _ _ => trivial) fun _ _ _ holds => holds
    | manufacturerData other more =>
        obtain rfl : other = bdaddr := Option.some.inj about
        exact (processManufacturerData_counts more).weaken (fun _ _ _ => trivial)
          fun _ _ _ holds => holds
    | del other type =>
        obtain rfl : other = bdaddr := Option.some.inj about
        exact (processDel_counts type).weaken (fun _ _ _ => trivial) fun _ _ _ holds => holds
    | ignored => simp [Command.bdaddr] at about
  · exact (untouched_trivially (processCommand_within asked) fun _ _ _ step =>
      .of_command step about).weaken (fun _ _ _ => trivial) fun _ _ _ holds => holds

/-- A [NEW] line about the address grants its attempts. -/
private theorem granted_line (settings : Settings) (radio : Radio) (bdaddr : Text) (data : Data)
    (line : Text) :
    granted settings radio bdaddr (data.record (.line line)) =
      granted settings radio bdaddr data +
        if announces settings bdaddr (.line line) then
          settings.maxConnectAttempts else 0 := by
  have sameRaises : raises radio bdaddr (data.record (.line line)) = raises radio bdaddr data := by
    simp [raises]
  have counted : newLines settings bdaddr (data.record (.line line)) =
      newLines settings bdaddr data +
        if announces settings bdaddr (.line line) then 1 else 0 := by
    simp [newLines, List.countP_append, List.countP_singleton]
  unfold granted
  rw [sameRaises, counted]
  split
  · rw [Int.natCast_add, Int.mul_add]
    omega
  · simp

private theorem handLine_counts (line : Text) :
    Counts settings radio bdaddr .monitor [] (fun _ => True) (handLine settings line)
      fun _ _ => True := by
  refine Triple.bind _ (Rule.change (anything_steady _) ?_ fun data accounts _ only => ?_)
    fun _ => processCommand_counts _
  · intro before after holds beforeInv afterInv relied type addressType same
    obtain ⟨here, unspent⟩ := holds type addressType same
    exact ⟨here, unspent_steady _ before after unspent beforeInv afterInv relied⟩
  · have sameSpent : spent settings radio bdaddr (data.record (.line (Text.strip line))) =
        spent settings radio bdaddr data := by
      simp [spent, selections]
    have afforded := accounts.afforded
    have grows := granted_line settings radio bdaddr data (Text.strip line)
    have more : 0 ≤ (settings.maxConnectAttempts : Int) := Int.natCast_nonneg _
    refine ⟨⟨accounts.elsewhere, accounts.counter, ?_, ?_⟩, guar_of_monitor
      ⟨by simp [selections], rfl, id⟩, fun type addressType asked => ⟨?_, ?_⟩⟩
    · rw [sameSpent, grows]
      split <;> omega
    · simpa [attemptLines, selections] using accounts.attempted
    · exact only (.line (Text.strip line)) (by simp) _ (by simp [announcement, asked])
    · unfold Unspent
      rw [sameSpent, grows, if_pos (by simp [announces, announcement, asked])]
      omega

end Monitor

/-! ## The workers -/

section Worker

variable {settings : Settings} {radio own : Radio} {bdaddr other : Text} {held : List Lock}

private theorem reprioritize_untouched (fits : own = radio ∨ other ≠ bdaddr) :
    (reprioritize .ble own other).Within (fun _ => Untouched settings radio bdaddr) held held :=
  reprioritize_within_of (fun _ => .refl) (fun _ _ => .of_unpark _ own other) fun _ _ =>
    .of_retrack _ _ fits

/-- A worker moves back only addresses of its own radio. -/
private theorem reprioritizeFirst_counts :
    Counts settings radio bdaddr (.worker own) [] (fun _ => True)
      (reprioritizeFirst own (reprioritize .ble own)) fun _ _ => True := by
  refine Triple.bind (fun _ _ => True) (Rule.look (anything_steady _) (fun _ => anything_steady _)
    fun _ _ _ => trivial) fun _ => Triple.ite (fun _ => ?_) fun _ =>
      Triple.done (anything_steady _) fun _ _ _ => trivial
  refine Triple.bind (fun first _ => own = radio ∨ first ≠ bdaddr) (Rule.demand (anything_steady _)
    (fun _ => anything_steady _) (anything_steady _) fun data accounts _ _ => ?_) fun first => ?_
  · refine ⟨accounts, ⟨fun _ => .refl _, fun _ => .refl _⟩, fun first isFirst => ?_,
      fun _ => trivial⟩
    have member : first ∈ data.deprioritizedBdaddrs own :=
      AList.mem_keys.mpr (List.mem_of_head? isFirst)
    by_contra! neither
    obtain ⟨different, rfl⟩ := neither
    exact (accounts.elsewhere own different).2 member
  · exact (Triple.of_pure fun fits => steps_untouched (reprioritize_untouched fits)).weaken
      (fun _ _ fits => ⟨fits, trivial⟩) fun _ _ _ holds => holds

/-! ### The worker of the other radio -/

private theorem readRssis_counts (fact : Prop) (pending : List Text) :
    Counts settings radio bdaddr (.worker own) [] (fun _ => fact) (readRssis own pending)
      fun rssis _ => rssis.map Prod.fst = pending ∧ fact := by
  induction pending with
  | nil => exact Triple.done (anything_steady _) fun _ _ holds => ⟨rfl, holds⟩
  | cons first rest inductionHypothesis =>
      have step : ∀ data, SortStep own data (data.setSortPending own rest) := fun _ => .readRssi
      refine Triple.bind (fun _ _ => fact) (untouched_frame (within_demand step)
        (fun _ _ _ => .of_sort) (anything_steady _) fun _ _ _ holds => holds) fun stored =>
          Triple.bind _ inductionHypothesis fun rssis => ?_
      exact Triple.done (anything_steady _) fun _ _ holds => ⟨by simp [holds.1], holds.2⟩

private theorem sortedBdaddrs_counts (different : own ≠ radio) :
    Counts settings radio bdaddr (.worker own) [] (fun _ => True) (sortedBdaddrs own)
      fun sorted _ => (∀ other ∈ sorted, other ≠ bdaddr) ∧ True := by
  refine Triple.bind (fun keys _ => ∀ other ∈ keys, other ≠ bdaddr)
    (Rule.exchange (anything_steady _) (fun _ => anything_steady _) fun data accounts _ _ => ?_)
    fun keys => Triple.bind _ (readRssis_counts _ keys) fun rssis => ?_
  · have untouched : Untouched settings radio bdaddr data _ := .of_sort (.snapshot : SortStep own _ _)
    refine ⟨untouched.accounted accounts, untouched.guar _, fun other member same => ?_⟩
    exact (accounts.elsewhere own different).1 (same ▸ AList.mem_keys.mpr member)
  · have step : ∀ data, SortStep own data (data.setUnvisited own (sortByRssi rssis)) :=
      fun _ => .sorted
    refine Triple.bind _ (untouched_frame (within_change step) (fun _ _ _ => .of_sort)
      (anything_steady _) fun _ _ _ holds => holds) fun _ => ?_
    refine Triple.done (anything_steady _) fun _ _ holds => ⟨fun other member => ?_, trivial⟩
    exact holds.2 other (holds.1 ▸ mem_sortByRssi member)

/-- It never gets to see the address. -/
private theorem otherWorker_counts (different : own ≠ radio) :
    Counts settings radio bdaddr (.worker own) [] (fun _ => True) (threadFunction settings own)
      fun _ _ => True := by
  refine Rule.threadFunction (fun other => other ≠ bdaddr) (fun _ _ => True) (anything_steady _)
    (sortedBdaddrs_counts different) (fun _ within => ?_) (fun other _ => ?_)
    (fun other unlike => ?_) reprioritizeFirst_counts
  · exact untouched_trivially within fun _ _ _ => .of_loop
  · exact (untouched_trivially (shouldSkip_within settings) fun _ _ _ => .of_loop).weaken
      (fun _ _ holds => holds) fun _ _ _ _ => ⟨fun _ => trivial, trivial⟩
  · exact (untouched_trivially (collectBdaddr_within settings) fun _ _ _ step =>
      .of_collect step unlike).weaken (fun _ _ _ => trivial) fun _ _ _ holds => holds

/-! ### The worker of the radio -/

private theorem hasAttemptLeft_steady :
    Steady settings radio bdaddr (.worker radio) held (HasAttemptLeft settings bdaddr) :=
  fun _ _ left _ _ relied => (relied.worker rfl).left left

/-- One counted attempt has not been logged yet. -/
private def Unlogged (radio : Radio) (bdaddr : Text) (data : Data) : Prop :=
  attemptLines radio bdaddr data < selections radio bdaddr data

private theorem unlogged_steady :
    Steady settings radio bdaddr (.worker radio) held (Unlogged radio bdaddr) := by
  intro before after unlogged _ _ relied
  have kept := relied.worker rfl
  unfold Unlogged at *
  rwa [kept.selected, kept.attempted]

private theorem unlogged_kept {before after : Data}
    (untouched : Untouched settings radio bdaddr before after) (unlogged : Unlogged radio bdaddr before) :
    Unlogged radio bdaddr after := by
  unfold Unlogged at *
  rwa [untouched.selected, untouched.attempted]

/-- An address is visited only while its counter allows it. -/
private theorem shouldSkip_counts (other : Text) :
    Counts settings radio bdaddr (.worker radio) [] (fun _ => True)
      (shouldSkip settings radio other)
      fun skipped data => (skipped = false → other = bdaddr → HasAttemptLeft settings bdaddr data) ∧
        True := by
  refine Triple.ite (fun _ => Triple.done ?_ fun _ _ _ => ⟨by simp, trivial⟩) fun _ => ?_
  · exact fun _ _ _ _ _ _ => ⟨by simp, trivial⟩
  refine Triple.bind (fun (attempts : Int) data => attempts < settings.maxConnectAttempts →
    other = bdaddr → HasAttemptLeft settings bdaddr data) (Rule.demand (anything_steady _)
      (fun attempts => ?_) (anything_steady _) fun data accounts _ _ => ?_) fun attempts => ?_
  · exact fun before after holds beforeInv afterInv relied below same =>
      hasAttemptLeft_steady before after (holds below same) beforeInv afterInv relied
  · have untouched : Untouched settings radio bdaddr data (data.record (.exceeded radio other)) :=
      .of_loop (.exceeded : LoopStep radio other [] _ _)
    cases found : data.deviceConnectAttempts.lookup other with
    | none => exact ⟨accounts, ⟨fun _ => .refl _, fun _ => .refl _⟩, by simp, fun _ => trivial⟩
    | some attempts =>
        by_cases exceeded : attempts ≥ settings.maxConnectAttempts
        · simp only [exceeded, if_true]
          refine ⟨untouched.accounted accounts, untouched.guar _, fun value same below => ?_,
            fun _ => trivial⟩
          obtain rfl : attempts = value := Option.some.inj same
          exact absurd below (by omega)
        · simp only [exceeded, if_false]
          refine ⟨accounts, ⟨fun _ => .refl _, fun _ => .refl _⟩, fun value same below about => ?_,
            fun _ => trivial⟩
          obtain rfl : attempts = value := Option.some.inj same
          exact ⟨attempts, about ▸ found, below⟩
  · refine Triple.done ?_ fun _ _ holds => ⟨fun visited => holds (by simpa using visited), trivial⟩
    exact fun before after holds beforeInv afterInv relied => ⟨fun visited same =>
      hasAttemptLeft_steady before after (holds.1 visited same) beforeInv afterInv relied, trivial⟩

/-- What the counter loses, the selections gain. -/
private theorem countAttempt_counts :
    Counts settings radio bdaddr (.worker radio) held (HasAttemptLeft settings bdaddr)
      (countAttempt radio bdaddr) fun _ => Unlogged radio bdaddr := by
  refine Rule.demand hasAttemptLeft_steady (fun _ => unlogged_steady) (anything_steady _) ?_
  rintro data accounts ⟨attempts, found, below⟩ _
  have bound := accounts.counter attempts found
  have selected : selections radio bdaddr (data.select radio bdaddr attempts) =
      selections radio bdaddr data + 1 := by
    simp [selections]
  have same : spent settings radio bdaddr (data.select radio bdaddr attempts) =
      spent settings radio bdaddr data := by
    unfold spent
    rw [selected, found]
    simp [attemptsLeft]
    omega
  have unchanged : granted settings radio bdaddr (data.select radio bdaddr attempts) =
      granted settings radio bdaddr data := by
    simp [granted, newLines, raises, announces, announcement]
  have attempted := accounts.attempted
  have sameLog : attemptLines radio bdaddr (data.select radio bdaddr attempts) =
      attemptLines radio bdaddr data := rfl
  simp only [found]
  refine ⟨⟨accounts.elsewhere, fun more foundMore => ?_, ?_, ?_⟩,
    ⟨fun _ => ⟨same, unchanged, fun less foundLess => ⟨attempts + 1, by simp, ?_⟩⟩,
      fun other => absurd rfl other⟩, fun _ _ => ?_, fun _ => trivial⟩
  · obtain rfl : attempts + 1 = more := by simpa using foundMore
    omega
  · rw [same, unchanged]
    exact accounts.afforded
  · rw [sameLog, selected]
    omega
  · obtain rfl : attempts = less := Option.some.inj (found.symm.trans foundLess)
    omega
  · unfold Unlogged
    rw [sameLog, selected]
    omega

private theorem logAttempt_counts :
    Counts settings radio bdaddr (.worker radio) held (Unlogged radio bdaddr)
      (Code.change fun data => data.appendLog (printLog radio) (.attempt bdaddr))
      fun _ _ => True := by
  refine Rule.change unlogged_steady (anything_steady _) fun data accounts unlogged _ => ?_
  refine ⟨⟨accounts.elsewhere, accounts.counter, accounts.afforded, ?_⟩,
    ⟨fun _ => ⟨rfl, rfl, fun attempts found => ⟨attempts, found, le_rfl⟩⟩,
      fun other => absurd rfl other⟩, trivial⟩
  unfold Unlogged at unlogged
  simp only [attemptLines, selections] at unlogged ⊢
  simp
  omega

private theorem runStage_counts {infoType : InfoType} {launch : Code Unit}
    (launches : Counts settings radio bdaddr (.worker radio) held (Unlogged radio bdaddr) launch
      fun _ _ => True) :
    Counts settings radio bdaddr (.worker radio) held (Unlogged radio bdaddr)
      (runStage settings infoType bdaddr launch) fun _ _ => True := by
  have finished : ∀ {pre : Data → Prop}, Counts settings radio bdaddr (.worker radio) held pre
      (Prog.done ()) fun _ _ => True :=
    Triple.done (anything_steady _) fun _ _ _ => trivial
  refine Triple.ite (fun _ => Triple.bind _ (untouched_frame skipSubProcess_within
    (fun _ _ _ => .of_delete) unlogged_steady fun _ _ => unlogged_kept) fun _ =>
      Triple.ite (fun _ => finished) fun _ => ?_) fun _ => finished
  exact Triple.bind _ (Rule.look unlogged_steady (fun _ => unlogged_steady) fun _ _ holds => holds)
    fun _ => Triple.ite (fun _ => launches) fun _ => finished

private theorem stagesOf_counts :
    Counts settings radio bdaddr (.worker radio) [] (Unlogged radio bdaddr)
      (stagesOf settings radio bdaddr) fun _ _ => True := by
  have launched : ∀ {held : List Lock} (infoType : InfoType) (arguments : List Text),
      Counts settings radio bdaddr (.worker radio) held (fun _ => True)
        (launchTool infoType bdaddr arguments) fun _ _ => True :=
    fun infoType arguments => untouched_trivially (launchTool_within arguments) fun _ _ _ => .of_launch
  cases radio with
  | ble =>
      refine Triple.bind (fun _ _ => True) (runStage_counts ?_) fun _ =>
        untouched_trivially (runStage_within settings launchOf_within) fun _ _ _ step =>
          .of_stage step (.inl (by simp [printOf]))
      refine Rule.whenTrackedBare (fun _ => trivial) unlogged_steady unlogged_steady
        (anything_steady _) (anything_steady _) (fun _ _ holds _ => holds) (fun _ _ _ => trivial) ?_
      refine Triple.bind (fun _ _ => True) logAttempt_counts fun _ =>
        Triple.bind (fun _ _ => True) ?_ fun stored => launched .gatt _
      exact steps_untouched (within_demand .refl)
  | btc =>
      refine Triple.bind (fun _ => Unlogged .btc bdaddr) ?_ fun _ => runStage_counts ?_
      · exact untouched_frame (runStage_within settings launchOf_within)
          (fun _ _ _ step => .of_stage step (.inl (by simp [printOf]))) unlogged_steady
          fun _ _ => unlogged_kept
      · refine Triple.bind (fun _ _ => True) logAttempt_counts fun _ =>
          Triple.bind (fun _ _ => True) ?_ fun _ => launched .sdp _
        exact steps_untouched (within_demand .refl)

private theorem worker_counts :
    Counts settings radio bdaddr (.worker radio) [] (fun _ => True)
      (threadFunction settings radio) fun _ _ => True := by
  refine Rule.threadFunction (fun _ => True)
    (fun other data => other = bdaddr → HasAttemptLeft settings bdaddr data) (anything_steady _)
    ?_ (fun _ within => ?_) (fun other _ => shouldSkip_counts other) (fun other _ => ?_)
    reprioritizeFirst_counts
  · exact (untouched_trivially sortedBdaddrs_within fun _ _ _ => .of_sort).weaken
      (fun _ _ holds => holds) fun _ _ _ _ => ⟨fun _ _ => trivial, trivial⟩
  · exact untouched_trivially within fun _ _ _ => .of_loop
  · by_cases same : other = bdaddr
    · subst same
      refine Triple.weaken (Triple.bind _ countAttempt_counts fun _ =>
        Triple.bind _ stagesOf_counts fun _ => ?_) (fun _ _ holds => holds.1 rfl)
          fun _ _ _ holds => holds
      exact steps_untouched <| within_bind (within_look (fun _ => .refl) _) fun _ =>
        within_forEach _ _ fun _ _ => within_joinThread _
    · exact (untouched_trivially (collectBdaddr_within settings) fun _ _ _ step =>
        .of_collect step same).weaken (fun _ _ _ => trivial) fun _ _ _ holds => holds

end Worker

/-! ## The system -/

private theorem untouched_of_environment {settings : Settings} {radio : Radio} {bdaddr : Text}
    {event : Outside} {before after : Data} (happened : environment event before = some after) :
    Untouched settings radio bdaddr before after := by
  rcases environment_cases happened with ⟨_, _, _, _, _, _, _, rfl⟩ | ⟨_, _, _, _, _, rfl⟩ |
    ⟨_, _, _, rfl⟩
  · exact .of_line before (.inr (by simp))
  all_goals exact .of_same rfl rfl rfl rfl rfl

theorem attemptsContract_lawful (settings : Settings) (radio : Radio) (bdaddr : Text) :
    (attemptsContract settings radio bdaddr).Lawful (launcher settings) where
  guarRely := fun different _ _ _ promise =>
    ⟨fun own => promise.monitor fun same => different (same.trans own.symm),
      fun own => promise.worker fun same => different (same.trans own.symm)⟩
  guarFree := fun _ _ _ _ _ => trivial
  outside := by
    intro event before after happened accounts _
    have untouched : Untouched settings radio bdaddr before after :=
      untouched_of_environment happened
    exact ⟨untouched.accounted accounts, fun _ _ => trivial, fun _ _ =>
      ⟨fun _ => untouched.monitorKept, fun _ => untouched.workerKept⟩⟩
  entries := by
    intro thread input program data entered accounts _
    match thread, input, entered with
    | .monitor, some line, entered =>
        obtain rfl := Option.some.inj entered
        exact handLine_counts line data accounts trivial
    | .worker own, none, entered =>
        obtain ⟨_, rfl⟩ : settings.threadEnabled own = true ∧
            threadFunction settings own = program := by
          simpa [launcher, entry] using entered
        by_cases same : own = radio
        · subst same
          exact worker_counts data accounts trivial
        · exact otherWorker_counts same data accounts trivial

theorem accounted_initial (settings : Settings) (radio : Radio) (bdaddr : Text) :
    Accounted settings radio bdaddr Data.empty where
  elsewhere := fun _ _ => ⟨AList.notMem_empty _, AList.notMem_empty _⟩
  counter := by simp [Data.empty]
  afforded := by
    simp [spent, granted, selections, newLines, raises, attemptsLeft, Data.empty]
  attempted := by simp [attemptLines, selections, Data.empty]

theorem attemptsContract_initial (settings : Settings) (radio : Radio) (bdaddr : Text) :
    (attemptsContract settings radio bdaddr).Holds initial fun _ => [] where
  invariant := accounted_initial settings radio bdaddr
  free := fun _ _ => trivial
  owns := ⟨by simp [initial], by simp⟩
  safe := fun thread => by
    cases thread with
    | tool number =>
        have safe : Counts settings radio bdaddr (.tool number) [] (fun _ => True)
            (ApplicationThread.run number) fun _ _ => True := by
          refine Triple.bind (fun _ _ => True) (Triple.await (anything_steady _)
            (fun _ => anything_steady _) fun _ _ _ _ => trivial) fun started => ?_
          cases started with
          | none => exact Triple.done (anything_steady _) fun _ _ _ => trivial
          | some process => exact untouched_trivially runProcess_within fun _ _ _ => .of_tool
        exact safe _ (accounted_initial settings radio bdaddr) trivial
    | _ => exact ⟨rfl, fun _ _ _ => trivial⟩

/-- Along every run in which the address is only announced on one radio, its
counter stays within its bounds and its ATTEMPT lines are paid for by its [NEW]
lines and by its RSSI lines above the stored RSSI. -/
theorem attempts_bounded (settings : Settings) (radio : Radio) (bdaddr : Text)
    {config : Config Lock ThreadId Data Site}
    (run : (launcher settings).Run (fun _ after => AnnouncedOnlyOn settings radio bdaddr after)
      initial config) :
    (∀ attempts, config.shared.data.deviceConnectAttempts.lookup bdaddr = some attempts →
      0 ≤ attempts ∧ attempts ≤ settings.maxConnectAttempts) ∧
    attemptLines radio bdaddr config.shared.data ≤
      settings.maxConnectAttempts * newLines settings bdaddr config.shared.data +
        raises radio bdaddr config.shared.data := by
  obtain ⟨held, holds⟩ := (attemptsContract_lawful settings radio bdaddr).holds_of_run run
    (attemptsContract_initial settings radio bdaddr)
  have accounts : Accounted settings radio bdaddr config.shared.data := holds.invariant
  refine ⟨accounts.counter, ?_⟩
  have attempted := accounts.attempted
  have selected := selections_le_spent accounts
  have afforded := accounts.afforded
  unfold granted at afforded
  have bound : (attemptLines radio bdaddr config.shared.data : Int) ≤
      settings.maxConnectAttempts * newLines settings bdaddr config.shared.data +
        raises radio bdaddr config.shared.data := by
    omega
  exact_mod_cast bound

/-- One BLE device is announced, and the GATT worker makes its first attempt. -/
theorem attempts_bounded_first : ∃ config,
    (launcher .shipped).Run (fun _ after => AnnouncedOnlyOn .shipped .ble "aa".toList after)
      initial config ∧
    attemptLines .ble "aa".toList config.shared.data = 1 ∧
    (∀ attempts, config.shared.data.deviceConnectAttempts.lookup "aa".toList = some attempts →
      0 ≤ attempts ∧ attempts ≤ 3) ∧
    attemptLines .ble "aa".toList config.shared.data ≤
      3 * newLines .shipped "aa".toList config.shared.data +
        raises .ble "aa".toList config.shared.data := by
  have tries : leads .shipped (fun _ after => AnnouncedOnlyOn .shipped .ble "aa".toList after)
      (Schedule.handed (deviceLine newWord "AA BLE public A".toList) 5 ++ Schedule.pass .ble 13)
      initial (fun config =>
        decide (attemptLines .ble "aa".toList config.shared.data = 1)) = true := by
    decide
  obtain ⟨config, run, once⟩ := run_of_leads tries
  exact ⟨config, run, of_decide_eq_true once, attempts_bounded .shipped .ble _ run⟩

end NaiveBTSniffing.Launcher
