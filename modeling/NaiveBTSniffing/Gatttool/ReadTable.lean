import Mathlib.Logic.Function.Basic
import NaiveBTSniffing.Gatttool.Tool

/-!
Contract: the table `char_value_handles_to_read` with its 512 places.

A read is issued with a pointer to its place, and `char_read_cb` takes the handle
for its line from there. The reads may be answered in any order; the answer to a
long read is one unit for each of its requests.

Owns the bound of the table, the reads that wait, and that a line carries the
handle that was asked for. `Gatttool.Tool` keeps the table as a list without a
bound; where the table holds the list, both write the same lines.
-/

namespace NaiveBTSniffing.Gatttool

open NaiveBTSniffing.Library

/-! ## The table and the reads that wait -/

/-- `char_value_handles_to_read` and `num_char_value_handles`. -/
structure ReadTable where
  slots : Fin 512 → UInt16
  num : Nat

/-- A read that has no answer yet: the handle in its request, the place that its
`user_data` points to, and what is read of a long value. -/
structure QueuedRead where
  handle : UInt16
  slot : Fin 512
  buffer : Option Pdu

/-- A line of the log and, for a line of `char_read_cb`, the handle in the request
of the read that was answered. -/
structure LoggedLine where
  record : Record
  asked : Option UInt16

structure Reads where
  table : ReadTable
  queue : List QueuedRead
  log : List LoggedLine

namespace Reads

/-- Before anything is discovered. -/
def initial : Reads where
  table := { slots := fun _ => 0, num := 0 }
  queue := []
  log := []

/-- The store and the read of a readable characteristic; `none` where the store is
outside the array. -/
def gattReadChar (reads : Reads) (handle : UInt16) : Option Reads :=
  if inside : reads.table.num < 512 then
    let slot : Fin 512 := ⟨reads.table.num, inside⟩
    some { reads with
      table :=
        { slots := Function.update reads.table.slots slot handle, num := reads.table.num + 1 }
      queue := reads.queue ++ [{ handle, slot, buffer := none }] }
  else none

/-- `fprintf` to the log, outside `char_read_cb`. -/
def write (reads : Reads) (record : Record) : Reads :=
  { reads with log := reads.log ++ [{ record, asked := none }] }

/-- The body of the loop of `char_discovered_cb`. -/
def charDiscovered (reads : Reads) (chars : Characteristic) : Option Reads :=
  let written := reads.write
    (.characteristic chars.handle chars.properties chars.valueHandle chars.uuid)
  if chars.readable then written.gattReadChar chars.valueHandle else some written

/-- `char_discovered_cb` of `gatttool.c`. -/
def charDiscoveredCb (reads : Reads) (status : UInt8) (characteristics : List Characteristic) :
    Option Reads :=
  if status ≠ 0 then some reads else characteristics.foldlM charDiscovered reads

/-- The line of `char_read_cb` for the handle that `user_data` points to. -/
def charReadLines (handle : UInt16) (status : UInt8) (pdu : Pdu) : List Record :=
  if status ≠ 0 then []
  else match decReadResp pdu with
    | none => []
    | some value => [.charValue handle value]

/-- A unit for one of the reads that wait. -/
structure Answer where
  position : Nat
  status : UInt8
  pdu : Pdu

/-- What the unit makes of the read: the next request of a long read, or the end. -/
def QueuedRead.next (read : QueuedRead) (answer : Answer) : Next Pdu (UInt8 × Pdu) :=
  match read.buffer with
  | none => readCharHelper answer.status answer.pdu
  | some bytes => readBlobHelper bytes answer.status answer.pdu

/-- The read at the position of the queue gets a unit. -/
def answered (reads : Reads) (answer : Answer) : Reads :=
  match reads.queue[answer.position]? with
  | none => reads
  | some read =>
      match QueuedRead.next read answer with
      | .more bytes =>
          { reads with queue := reads.queue.set answer.position { read with buffer := bytes } }
      | .ended (err, unit) =>
          { reads with
            queue := reads.queue.eraseIdx answer.position
            log := reads.log ++ (charReadLines (reads.table.slots read.slot) err unit).map
              fun record => { record, asked := some read.handle } }

/-- The units arrive one after the other, each for any of the reads that wait. -/
def afterAnswers (reads : Reads) (answers : List Answer) : Reads :=
  answers.foldl answered reads

/-! ## What every step keeps -/

/-- Each read that waits points to its own handle, and each logged value carries the
handle that was asked for. -/
structure Sound (reads : Reads) : Prop where
  placed : ∀ read ∈ reads.queue,
    read.slot.val < reads.table.num ∧ reads.table.slots read.slot = read.handle
  lines : ∀ line ∈ reads.log, ∀ handle value, line.record = .charValue handle value →
    line.asked = some handle

theorem sound_initial : initial.Sound where
  placed := by simp [initial]
  lines := by simp [initial]

/-- A further store leaves the places of the reads that wait alone. -/
theorem Sound.gattReadChar {reads after : Reads} {handle : UInt16} (sound : reads.Sound)
    (stored : reads.gattReadChar handle = some after) : after.Sound := by
  unfold Reads.gattReadChar at stored
  split at stored
  · next inside =>
      cases stored
      refine ⟨?_, sound.lines⟩
      intro read member
      rcases List.mem_append.mp member with waiting | new
      · obtain ⟨below, points⟩ := sound.placed read waiting
        have other : read.slot ≠ ⟨reads.table.num, inside⟩ := by
          intro same
          rw [same] at below
          exact absurd below (Nat.lt_irrefl _)
        refine ⟨Nat.lt_succ_of_lt below, ?_⟩
        exact (Function.update_of_ne other handle reads.table.slots).trans points
      · rw [List.mem_singleton.mp new]
        refine ⟨Nat.lt_succ_self _, ?_⟩
        exact Function.update_self ⟨reads.table.num, inside⟩ handle reads.table.slots
  · cases stored

theorem Sound.write {reads : Reads} (sound : reads.Sound) (record : Record)
    (noValue : ∀ handle value, record ≠ .charValue handle value) : (reads.write record).Sound := by
  refine ⟨sound.placed, ?_⟩
  intro line member handle value isValue
  rcases List.mem_append.mp member with old | new
  · exact sound.lines line old handle value isValue
  · rw [List.mem_singleton.mp new] at isValue
    exact absurd isValue (noValue handle value)

theorem Sound.charDiscovered {reads after : Reads} {chars : Characteristic}
    (sound : reads.Sound) (stored : reads.charDiscovered chars = some after) : after.Sound := by
  have written := sound.write
    (.characteristic chars.handle chars.properties chars.valueHandle chars.uuid)
    (fun _ _ same => by cases same)
  unfold Reads.charDiscovered at stored
  dsimp only at stored
  split_ifs at stored
  · exact written.gattReadChar stored
  · cases stored
    exact written

theorem Sound.foldlM {reads after : Reads} {characteristics : List Characteristic}
    (sound : reads.Sound)
    (stored : characteristics.foldlM Reads.charDiscovered reads = some after) : after.Sound := by
  induction characteristics generalizing reads with
  | nil =>
      cases stored
      exact sound
  | cons chars rest inductionHypothesis =>
      rw [List.foldlM_cons] at stored
      obtain ⟨next, one, others⟩ := Option.bind_eq_some_iff.mp stored
      exact inductionHypothesis (sound.charDiscovered one) others

/-- The line of an answer carries the handle that the place holds. -/
theorem eq_of_mem_charReadLines {place handle : UInt16} {status : UInt8} {pdu : Pdu}
    {value : List UInt8} (member : .charValue handle value ∈ charReadLines place status pdu) :
    handle = place := by
  unfold charReadLines at member
  split at member
  · cases member
  · split at member
    · cases member
    · cases List.mem_singleton.mp member
      rfl

theorem Sound.answered {reads : Reads} (sound : reads.Sound) (answer : Answer) :
    (reads.answered answer).Sound := by
  unfold Reads.answered
  split
  · exact sound
  · next read waits =>
      have points := sound.placed read (List.mem_of_getElem? waits)
      split
      · refine ⟨?_, sound.lines⟩
        intro other member
        rcases List.mem_or_eq_of_mem_set member with old | rfl
        · exact sound.placed other old
        · exact points
      · constructor
        case placed =>
          intro other member
          exact sound.placed other (List.mem_of_mem_eraseIdx member)
        case lines =>
          intro line member handle value isValue
          rcases List.mem_append.mp member with old | new
          · exact sound.lines line old handle value isValue
          · obtain ⟨record, written, rfl⟩ := List.mem_map.mp new
            dsimp only at isValue
            subst isValue
            show some read.handle = some handle
            rw [eq_of_mem_charReadLines written, points.2]

theorem Sound.afterAnswers {reads : Reads} (sound : reads.Sound) (answers : List Answer) :
    (reads.afterAnswers answers).Sound := by
  unfold Reads.afterAnswers
  induction answers generalizing reads with
  | nil => exact sound
  | cons answer rest inductionHypothesis => exact inductionHypothesis (sound.answered answer)

/-! ## The bound of the table -/

theorem readHandles_cons (chars : Characteristic) (rest : List Characteristic) :
    State.readHandles (chars :: rest) =
      (if chars.readable then [chars.valueHandle] else []) ++ State.readHandles rest := by
  by_cases readable : chars.readable = true
  · simp [State.readHandles, readable]
  · simp [State.readHandles, readable]

theorem gattReadChar_of_room (reads : Reads) (room : reads.table.num < 512) (handle : UInt16) :
    ∃ after, reads.gattReadChar handle = some after ∧
      after.table.num = reads.table.num + 1 ∧
      after.queue.map QueuedRead.handle = reads.queue.map QueuedRead.handle ++ [handle] := by
  unfold gattReadChar
  rw [dif_pos room]
  exact ⟨_, rfl, rfl, List.map_append⟩

theorem gattReadChar_of_full (reads : Reads) (full : ¬ reads.table.num < 512)
    (handle : UInt16) : reads.gattReadChar handle = none :=
  dif_neg full

/-- While there is room, the loop issues one read for each readable characteristic. -/
theorem foldlM_of_room {reads : Reads} {characteristics : List Characteristic}
    (room : reads.table.num + (State.readHandles characteristics).length ≤ 512) :
    ∃ after, characteristics.foldlM charDiscovered reads = some after ∧
      after.queue.map QueuedRead.handle =
        reads.queue.map QueuedRead.handle ++ State.readHandles characteristics := by
  induction characteristics generalizing reads with
  | nil => exact ⟨reads, rfl, by simp [State.readHandles]⟩
  | cons chars rest inductionHypothesis =>
      rw [List.foldlM_cons]
      rw [readHandles_cons] at room ⊢
      unfold charDiscovered
      by_cases readable : chars.readable = true
      · rw [if_pos readable, List.length_append, List.length_singleton] at room
        have inside : reads.table.num < 512 := by omega
        obtain ⟨next, stored, num, queue⟩ := gattReadChar_of_room (reads.write
          (.characteristic chars.handle chars.properties chars.valueHandle chars.uuid))
          inside chars.valueHandle
        have nextNum : next.table.num = reads.table.num + 1 := num
        have nextRoom : next.table.num + (State.readHandles rest).length ≤ 512 := by omega
        obtain ⟨after, runs, handles⟩ := inductionHypothesis nextRoom
        refine ⟨after, ?_, ?_⟩
        · rw [if_pos readable, stored]
          exact runs
        · rw [handles, queue, if_pos readable, List.append_assoc]
          rfl
      · rw [if_neg readable, List.nil_append] at room
        rw [if_neg readable, if_neg readable, List.nil_append]
        exact inductionHypothesis room

/-- Where there is no room for all of them, a store is outside the array. -/
theorem foldlM_of_full {reads : Reads} {characteristics : List Characteristic}
    (full : 512 < reads.table.num + (State.readHandles characteristics).length)
    (below : reads.table.num ≤ 512) :
    characteristics.foldlM charDiscovered reads = none := by
  induction characteristics generalizing reads with
  | nil =>
      have none : (State.readHandles []).length = 0 := rfl
      omega
  | cons chars rest inductionHypothesis =>
      rw [List.foldlM_cons]
      rw [readHandles_cons] at full
      unfold charDiscovered
      by_cases readable : chars.readable = true
      · rw [if_pos readable, List.length_append, List.length_singleton] at full
        rw [if_pos readable]
        by_cases inside : reads.table.num < 512
        · obtain ⟨next, stored, num, _⟩ := gattReadChar_of_room (reads.write
            (.characteristic chars.handle chars.properties chars.valueHandle chars.uuid))
            inside chars.valueHandle
          have same : next.table.num = reads.table.num + 1 := num
          rw [stored]
          apply inductionHypothesis
          · omega
          · omega
        · have outside := gattReadChar_of_full (reads.write
            (.characteristic chars.handle chars.properties chars.valueHandle chars.uuid))
            inside chars.valueHandle
          rw [outside]
          rfl
      · rw [if_neg readable, List.nil_append] at full
        rw [if_neg readable]
        exact inductionHypothesis full below

/-- Every store of the loop is within the array, one read is issued for each readable
characteristic, and in whatever order the reads are answered, a logged value carries
the handle of the characteristic whose read was answered. -/
def Right (characteristics : List Characteristic) : Prop :=
  ∃ issued, initial.charDiscoveredCb 0 characteristics = some issued ∧
    issued.queue.map QueuedRead.handle = State.readHandles characteristics ∧
    ∀ answers, ∀ line ∈ (issued.afterAnswers answers).log, ∀ handle value,
      line.record = .charValue handle value → line.asked = some handle

/-- The reads are right exactly when no more than 512 characteristics are readable. -/
theorem right_iff_readable_le (characteristics : List Characteristic) :
    Right characteristics ↔ (characteristics.filter Characteristic.readable).length ≤ 512 := by
  have readable : (State.readHandles characteristics).length =
      (characteristics.filter Characteristic.readable).length := List.length_map _
  rw [← readable]
  constructor
  · intro ⟨issued, runs, _⟩
    by_contra more
    have full : 512 < initial.table.num + (State.readHandles characteristics).length := by
      show 512 < 0 + (State.readHandles characteristics).length
      omega
    have outside := foldlM_of_full full (Nat.zero_le 512)
    exact absurd (runs.symm.trans outside) (by simp)
  · intro fits
    have room : initial.table.num + (State.readHandles characteristics).length ≤ 512 := by
      show 0 + (State.readHandles characteristics).length ≤ 512
      omega
    obtain ⟨issued, runs, handles⟩ := foldlM_of_room room
    refine ⟨issued, runs, handles, fun answers => ?_⟩
    exact ((sound_initial.foldlM runs).afterAnswers answers).lines

/-! ## The list without a bound -/

/-- The table holds the list that `Gatttool.Tool` keeps. -/
structure Holds (reads : Reads) (state : State) : Prop where
  num : reads.table.num = state.charValueHandlesToRead.length
  slots : ∀ slot : Fin 512, slot.val < reads.table.num →
    reads.table.slots slot = state.charValueHandlesToRead.getD slot.val 0

theorem Holds.gattReadChar {reads after : Reads} {state : State} {handle : UInt16}
    (holds : reads.Holds state) (stored : reads.gattReadChar handle = some after) :
    after.Holds (state.gattReadChar handle) := by
  unfold Reads.gattReadChar at stored
  split at stored
  · next inside =>
      cases stored
      constructor
      case num =>
        show reads.table.num + 1 = (state.charValueHandlesToRead ++ [handle]).length
        rw [List.length_append, holds.num, List.length_singleton]
      case slots =>
        intro slot below
        show Function.update reads.table.slots ⟨reads.table.num, inside⟩ handle slot =
          (state.charValueHandlesToRead ++ [handle]).getD slot.val 0
        by_cases last : slot = ⟨reads.table.num, inside⟩
        · subst last
          rw [Function.update_self]
          simp [holds.num, List.getD]
        · have before : slot.val < reads.table.num := by
            have other : slot.val ≠ reads.table.num := fun same => last (Fin.ext same)
            exact Nat.lt_of_le_of_ne (Nat.lt_succ_iff.mp below) other
          have inList : slot.val < state.charValueHandlesToRead.length := holds.num ▸ before
          rw [Function.update_of_ne last, holds.slots slot before, List.getD, List.getD,
            List.getElem?_append_left inList]
  · cases stored

theorem Holds.charDiscovered {reads after : Reads} {state : State} {chars : Characteristic}
    (holds : reads.Holds state) (stored : reads.charDiscovered chars = some after) :
    after.Holds (state.charDiscovered chars) := by
  have written : (reads.write (.characteristic chars.handle chars.properties chars.valueHandle
      chars.uuid)).Holds (state.write [.characteristic chars.handle chars.properties
        chars.valueHandle chars.uuid]) := ⟨holds.num, holds.slots⟩
  unfold Reads.charDiscovered at stored
  unfold State.charDiscovered
  dsimp only at stored ⊢
  split_ifs at stored with readable
  · rw [if_pos readable]
    exact written.gattReadChar stored
  · cases stored
    rw [if_neg readable]
    exact written

/-- The loop fills the table as it fills the list. -/
theorem Holds.charDiscoveredCb {reads after : Reads} {state : State}
    {characteristics : List Characteristic} (holds : reads.Holds state)
    (stored : reads.charDiscoveredCb 0 characteristics = some after) :
    after.Holds (state.charDiscoveredCb 0 characteristics) := by
  show after.Holds (characteristics.foldl State.charDiscovered state)
  replace stored : characteristics.foldlM Reads.charDiscovered reads = some after := stored
  induction characteristics generalizing reads state with
  | nil =>
      cases stored
      exact holds
  | cons chars rest inductionHypothesis =>
      rw [List.foldlM_cons] at stored
      obtain ⟨next, one, others⟩ := Option.bind_eq_some_iff.mp stored
      exact inductionHypothesis (holds.charDiscovered one) others

/-- Both write the same lines for a read that waits. -/
theorem Holds.charReadCb {reads : Reads} {state : State} (holds : reads.Holds state)
    (sound : reads.Sound) {read : QueuedRead} (waits : read ∈ reads.queue) (status : UInt8)
    (pdu : Pdu) :
    (state.charReadCb read.slot status pdu).log =
      state.log ++ charReadLines (reads.table.slots read.slot) status pdu := by
  have place := holds.slots read.slot (sound.placed read waits).1
  unfold State.charReadCb charReadLines
  rw [place]
  by_cases error : status ≠ 0
  · rw [if_pos error, if_pos error, List.append_nil]
  · rw [if_neg error, if_neg error]
    cases decReadResp pdu with
    | none => exact (List.append_nil _).symm
    | some value => rfl

/-- A readable characteristic with the given place in the list of a server. -/
private def plainChar (place : Nat) : Characteristic where
  handle := UInt16.ofNat (2 * place + 1)
  properties := 0x2
  valueHandle := UInt16.ofNat (2 * place + 2)
  uuid := baseUuid

/-- A server with 513 readable characteristics has a handle stored behind the array. -/
theorem not_right_of_513 : ¬ ∀ characteristics, Right characteristics := by
  intro right
  obtain ⟨issued, runs, _⟩ := right ((List.range 513).map plainChar)
  have all : (State.readHandles ((List.range 513).map plainChar)).length = 513 := by
    have readable : ((List.range 513).map plainChar).filter Characteristic.readable =
        (List.range 513).map plainChar := by
      apply List.filter_eq_self.mpr
      intro chars member
      obtain ⟨place, _, rfl⟩ := List.mem_map.mp member
      show decide ((2 : UInt8) &&& 2 = 2) = true
      decide
    unfold State.readHandles
    rw [readable, List.length_map, List.length_map, List.length_range]
  have full : 512 < initial.table.num +
      (State.readHandles ((List.range 513).map plainChar)).length := by
    rw [all]
    decide
  have outside := foldlM_of_full full (Nat.zero_le 512)
  exact absurd (runs.symm.trans outside) (by simp)

end Reads

end NaiveBTSniffing.Gatttool
