import Mathlib.Data.List.Basic
import Mathlib.Logic.Relation

/-!
Contract: when `main` sleeps in `inotify.read()`.

Each iteration of `main` reads the log from `bt_file_position` to its end, notes
the position and waits for queued events. A writer makes the bytes of an append
visible first and has its MODIFY event queued later; both may happen at any point
of the iteration, and one read of the events drains all of them. The watch exists
before the first iteration.

Owns `unread_in_flight`: a sleeping monitor has left unread only what belongs to
appends whose event is still to come, and `passes_flatten`: the iterations read
every byte once and in order. Does not own the lines of a pass (`LogReader`).
-/

namespace NaiveBTSniffing.Launcher.Wakeups

/-- What `inotify.read()` returns: the watch asks for MODIFY events only, the
kernel may add notices of its own. -/
inductive Event where
  | modify
  | kernelNotice
deriving DecidableEq, Repr

/-- Where an iteration of `while True` stands. -/
inductive Phase where
  /-- Before `file.seek(bt_file_position)`. -/
  | opening
  /-- In `for line in file`, with the bytes before `offset` read. -/
  | iterating (offset : Nat)
  /-- A read at `offset` found no more bytes; `file.tell()` comes next. -/
  | atEnd (offset : Nat)
  /-- In `inotify.read()`. -/
  | blocking
  /-- An exception has ended the script. -/
  | ended
deriving DecidableEq, Repr

structure State where
  log : List UInt8
  /-- Appends whose bytes are visible and whose event is not queued yet, in the
  order of their bytes. -/
  inFlight : List (List UInt8)
  queue : List Event
  btFilePosition : Nat
  phase : Phase
  /-- What the iterations so far have read. -/
  passes : List (List UInt8)
deriving DecidableEq, Repr

/-- The script starts on a log that may have content already. -/
def start (log : List UInt8) : State where
  log := log
  inFlight := []
  queue := []
  btFilePosition := 0
  phase := .opening
  passes := []

/-- The bytes between two positions of the log. -/
def between (log : List UInt8) (first last : Nat) : List UInt8 :=
  (log.drop first).take (last - first)

/-- The queue after a MODIFY event: the kernel drops an event that repeats the
last one. -/
def queueModify (queue : List Event) : List Event :=
  if queue.getLast? = some .modify then queue else queue ++ [.modify]

inductive Step : State → State → Prop where
  | append {state} (bytes : List UInt8) :
      Step state { state with log := state.log ++ bytes, inFlight := state.inFlight ++ [bytes] }
  /-- The event of an append in flight is queued. -/
  | notify {state} (older : List (List UInt8)) (bytes : List UInt8) (newer : List (List UInt8))
      (pending : state.inFlight = older ++ bytes :: newer) :
      Step state { state with inFlight := older ++ newer, queue := queueModify state.queue }
  | kernelNotice {state} :
      Step state { state with queue := state.queue ++ [.kernelNotice] }
  | seek {state} (opening : state.phase = .opening) :
      Step state { state with phase := .iterating state.btFilePosition }
  | read {state} (offset count : Nat) (iterating : state.phase = .iterating offset)
      (some : 0 < count) (visible : offset + count ≤ state.log.length) :
      Step state { state with phase := .iterating (offset + count) }
  | endOfFile {state} (offset : Nat) (iterating : state.phase = .iterating offset)
      (nothing : state.log.length ≤ offset) :
      Step state { state with phase := .atEnd offset }
  | tell {state} (offset : Nat) (atEnd : state.phase = .atEnd offset) :
      Step state { state with
        btFilePosition := offset
        phase := .blocking
        passes := state.passes ++ [between state.log state.btFilePosition offset] }
  /-- All queued events are returned and removed; none of them matters. -/
  | wake {state} (blocking : state.phase = .blocking) (events : state.queue ≠ []) :
      Step state { state with queue := [], phase := .opening }
  /-- A line that `process_line` refuses, or bytes that the decoder refuses. -/
  | fail {state} (offset : Nat) (iterating : state.phase = .iterating offset) :
      Step state { state with phase := .ended }

def Reachable (log : List UInt8) : State → Prop :=
  Relation.ReflTransGen Step (start log)

/-! ## Events -/

theorem queueModify_ne_nil (queue : List Event) : queueModify queue ≠ [] := by
  unfold queueModify
  split
  · next last =>
      intro empty
      rw [empty] at last
      simp at last
  · simp

/-- From this position on, all bytes belong to appends in flight. -/
def InFlightFrom (state : State) (position : Nat) : Prop :=
  ∃ older newer, state.inFlight = older ++ newer ∧ state.log.drop position = newer.flatten

/-- Without a queued event, what lies behind the end of the iteration is in
flight. -/
def Noticed (state : State) : Prop :=
  match state.phase with
  | .atEnd offset => state.queue = [] → InFlightFrom state offset
  | .blocking => state.queue = [] → InFlightFrom state state.btFilePosition
  | _ => True

/-- The positions lie within the log. -/
structure Placed (state : State) : Prop where
  noted : state.btFilePosition ≤ state.log.length
  iterating : ∀ offset, state.phase = .iterating offset →
    state.btFilePosition ≤ offset ∧ offset ≤ state.log.length
  atEnd : ∀ offset, state.phase = .atEnd offset →
    state.btFilePosition ≤ offset ∧ offset ≤ state.log.length

theorem Placed.step {before after : State} (placed : Placed before) (step : Step before after) :
    Placed after := by
  have noted := placed.noted
  cases step with
  | append bytes =>
      have longer : before.log.length ≤ (before.log ++ bytes).length := by simp
      exact
        { noted := Nat.le_trans noted longer
          iterating := fun offset phase =>
            ⟨(placed.iterating offset phase).1, Nat.le_trans (placed.iterating offset phase).2 longer⟩
          atEnd := fun offset phase =>
            ⟨(placed.atEnd offset phase).1, Nat.le_trans (placed.atEnd offset phase).2 longer⟩ }
  | notify | kernelNotice => exact ⟨noted, placed.iterating, placed.atEnd⟩
  | seek =>
      refine ⟨noted, fun offset phase => ?_, fun offset phase => by simp at phase⟩
      obtain rfl : before.btFilePosition = offset := by simpa using phase
      exact ⟨Nat.le_refl _, noted⟩
  | read offset count iterating _ visible =>
      refine ⟨noted, fun reached phase => ?_, fun reached phase => by simp at phase⟩
      obtain rfl : offset + count = reached := by simpa using phase
      have begun := (placed.iterating offset iterating).1
      exact ⟨Nat.le_trans begun (Nat.le_add_right _ _), visible⟩
  | endOfFile offset iterating =>
      refine ⟨noted, fun reached phase => by simp at phase, fun reached phase => ?_⟩
      obtain rfl : offset = reached := by simpa using phase
      exact placed.iterating offset iterating
  | tell offset atEnd =>
      exact ⟨(placed.atEnd offset atEnd).2, fun _ phase => by simp at phase,
        fun _ phase => by simp at phase⟩
  | wake => exact ⟨noted, fun _ phase => by simp at phase, fun _ phase => by simp at phase⟩
  | fail => exact ⟨noted, fun _ phase => by simp at phase, fun _ phase => by simp at phase⟩

/-- An append goes to the end of the log and to the end of what is in flight. -/
private theorem InFlightFrom.append {state : State} {position : Nat}
    (inFlight : InFlightFrom state position) (within : position ≤ state.log.length)
    (bytes : List UInt8) :
    InFlightFrom
      { state with log := state.log ++ bytes, inFlight := state.inFlight ++ [bytes] } position := by
  obtain ⟨older, newer, split, unread⟩ := inFlight
  refine ⟨older, newer ++ [bytes], by simp [split], ?_⟩
  show (state.log ++ bytes).drop position = (newer ++ [bytes]).flatten
  rw [List.drop_append_of_le_length within, unread]
  simp

theorem Noticed.step {before after : State} (noticed : Noticed before) (placed : Placed before)
    (step : Step before after) : Noticed after := by
  cases step with
  | append bytes =>
      unfold Noticed at noticed ⊢
      cases phase : before.phase with
      | atEnd offset =>
          simp only [phase] at noticed ⊢
          exact fun empty => (noticed empty).append (placed.atEnd offset phase).2 bytes
      | blocking =>
          simp only [phase] at noticed ⊢
          exact fun empty => (noticed empty).append placed.noted bytes
      | opening | iterating | ended => trivial
  | notify =>
      unfold Noticed
      cases before.phase with
      | atEnd | blocking => exact fun empty => absurd empty (queueModify_ne_nil _)
      | opening | iterating | ended => trivial
  | kernelNotice =>
      unfold Noticed
      cases before.phase with
      | atEnd | blocking => exact fun empty => by simp at empty
      | opening | iterating | ended => trivial
  | endOfFile offset _ nothing =>
      intro _
      refine ⟨before.inFlight, [], by simp, ?_⟩
      show before.log.drop offset = []
      exact List.drop_eq_nil_of_le nothing
  | tell offset atEnd =>
      simp only [Noticed, atEnd] at noticed
      exact noticed
  | seek | read | wake | fail => trivial

/-! ## Bytes -/

/-- The iterations have read what lies before the noted position. -/
def ReadOnce (state : State) : Prop :=
  state.passes.flatten = state.log.take state.btFilePosition

theorem take_append_between (log : List UInt8) {first last : Nat} (ordered : first ≤ last) :
    log.take first ++ between log first last = log.take last := by
  have split : first + (last - first) = last := by omega
  rw [between, ← List.take_add, split]

theorem ReadOnce.step {before after : State} (readOnce : ReadOnce before) (placed : Placed before)
    (step : Step before after) : ReadOnce after := by
  cases step with
  | append bytes =>
      show before.passes.flatten = (before.log ++ bytes).take before.btFilePosition
      rw [List.take_append_of_le_length placed.noted]
      exact readOnce
  | tell offset atEnd =>
      show (before.passes ++ [_]).flatten = before.log.take offset
      have ordered := (placed.atEnd offset atEnd).1
      rw [List.flatten_append, readOnce, List.flatten_singleton, take_append_between _ ordered]
  | notify | kernelNotice | seek | read | endOfFile | wake | fail => exact readOnce

/-! ## Runs -/

/-- What every step keeps. -/
structure Sound (state : State) : Prop where
  placed : Placed state
  noticed : Noticed state
  readOnce : ReadOnce state

theorem sound_of_reachable {log : List UInt8} {state : State} (reachable : Reachable log state) :
    Sound state := by
  induction reachable with
  | refl =>
      exact
        { placed := ⟨Nat.zero_le _, fun _ phase => by simp [start] at phase,
            fun _ phase => by simp [start] at phase⟩
          noticed := trivial
          readOnce := by simp [ReadOnce, start] }
  | tail _ step sound =>
      exact ⟨sound.placed.step step, sound.noticed.step sound.placed step,
        sound.readOnce.step sound.placed step⟩

/-- Whatever order the appends and the iterations come in, the monitor sleeps
without a queued event only while all unread bytes belong to appends whose event
is still to be queued. -/
theorem unread_in_flight {log : List UInt8} {state : State} (reachable : Reachable log state)
    (blocked : state.phase = .blocking) (empty : state.queue = []) :
    ∃ older newer, state.inFlight = older ++ newer ∧
      state.log.drop state.btFilePosition = newer.flatten := by
  have noticed := (sound_of_reachable reachable).noticed
  rw [Noticed, blocked] at noticed
  exact noticed empty

/-- Two appends are drained by one read of their events, and a third one is in
flight while the monitor sleeps. -/
private def drained : State where
  log := [0x61, 0x0a, 0x62]
  inFlight := [[0x62]]
  queue := []
  btFilePosition := 2
  phase := .blocking
  passes := [[], [0x61, 0x0a]]

private theorem drained_reachable : Reachable [] drained := by
  have asleep : Reachable [] { start [] with phase := .blocking, passes := [[]] } :=
    .tail (.tail (.tail .refl (.seek rfl)) (.endOfFile 0 rfl (by decide))) (.tell 0 rfl)
  have appended := (asleep.tail (.append [0x61])).tail (.append [0x0a])
  have notified := (appended.tail (.notify [] [0x61] [[0x0a]] rfl)).tail (.notify [] [0x0a] [] rfl)
  have woken := (notified.tail (.wake rfl (by decide))).tail (.seek rfl)
  have read := (woken.tail (.read 0 2 rfl (by decide) (by decide))).tail
    (.endOfFile 2 rfl (by decide))
  exact (read.tail (.tell 2 rfl)).tail (.append [0x62])

theorem unread_in_flight_drained : Reachable [] drained ∧
    ∃ older newer, drained.inFlight = older ++ newer ∧
      drained.log.drop drained.btFilePosition = newer.flatten :=
  ⟨drained_reachable, unread_in_flight drained_reachable rfl rfl⟩

/-- Every byte up to the noted position has been read by exactly one iteration,
in the order of the log. -/
theorem passes_flatten {log : List UInt8} {state : State} (reachable : Reachable log state) :
    state.passes.flatten = state.log.take state.btFilePosition :=
  (sound_of_reachable reachable).readOnce

end NaiveBTSniffing.Launcher.Wakeups
