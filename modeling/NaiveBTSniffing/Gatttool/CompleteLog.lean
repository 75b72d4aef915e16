import NaiveBTSniffing.Gatttool.ReadTable
import NaiveBTSniffing.Gatttool.TableServer

/-!
Contract: what the log of a run against a server holds.

The procedures and the reads take turns in one queue and write to one log. Each writes
only lines of its own kind, so the order in which they come to their ends leaves the lines
of each kind as they are: a `Stage` tells how many answers each still needs, and which
lines are in the log. Owns the runs in which a server answers the reads, too.

Does not own what the importer makes of the log (`Analysis.ImportedTable`).
-/

namespace NaiveBTSniffing.Gatttool

open NaiveBTSniffing.Library
open Reads (charReadLines)

/-! ## Runs -/

/-- The event is the server's answer to the outstanding request, unless BlueZ does not take
the unit as an answer or repeats the request. -/
def Server.Answers (server : Server) (state : State) : Event → Prop
  | .unit pdu raised => ∀ op ∈ state.queue.head?, ∀ status unit,
      receive (state.request op) pdu raised = .answered status unit →
        pdu = server (state.request op)
  | _ => False

/-- The state was reached by answers of the server, those to reads included. -/
def Server.LeadsTo (stray : Stray) (server : Server) (state : State) : Prop :=
  Relation.ReflTransGen
    (fun before after => ∃ event, server.Answers before event ∧ after = before.step stray event)
    (State.initial.step stray .connected) state

/-! ## Lines -/

def Primary.record (prim : Primary) : Record := .service prim.start prim.endHandle prim.uuid

def Characteristic.record (chars : Characteristic) : Record :=
  .characteristic chars.handle chars.properties chars.valueHandle chars.uuid

def Descriptor.record (desc : Descriptor) : Record := .descriptor desc.handle desc.uuid

inductive LineKind where
  | service
  | characteristic
  | descriptor
  | charValue
deriving DecidableEq, Repr

def Record.lineKind : Record → LineKind
  | .service .. => .service
  | .characteristic .. => .characteristic
  | .descriptor .. => .descriptor
  | .charValue .. => .charValue

/-- The lines of one kind. -/
def ofKind (kind : LineKind) (records : List Record) : List Record :=
  records.filter fun record => decide (record.lineKind = kind)

@[simp] theorem ofKind_nil (kind : LineKind) : ofKind kind [] = [] := rfl

@[simp] theorem ofKind_append (kind : LineKind) (front back : List Record) :
    ofKind kind (front ++ back) = ofKind kind front ++ ofKind kind back :=
  List.filter_append front back

theorem ofKind_own {kind : LineKind} {records : List Record}
    (own : ∀ record ∈ records, record.lineKind = kind) : ofKind kind records = records :=
  List.filter_eq_self.mpr fun record member => decide_eq_true (own record member)

theorem ofKind_other {kind own : LineKind} {records : List Record}
    (all : ∀ record ∈ records, record.lineKind = own) (other : own ≠ kind) :
    ofKind kind records = [] := by
  apply List.filter_eq_nil_iff.mpr
  intro record member
  rw [all record member]
  simpa using other

theorem kind_charReadLines {handle : UInt16} {status : UInt8} {pdu : Pdu} :
    ∀ record ∈ charReadLines handle status pdu, record.lineKind = .charValue := by
  intro record member
  unfold charReadLines at member
  split at member
  · exact absurd member List.not_mem_nil
  · split at member
    · exact absurd member List.not_mem_nil
    · rw [List.mem_singleton.mp member]
      rfl

/-! ## What the callbacks write -/

namespace State

variable (state : State)

theorem log_charDiscoveredCb (characteristics : List Characteristic) :
    (state.charDiscoveredCb 0 characteristics).log =
      state.log ++ characteristics.map Characteristic.record := by
  rw [charDiscoveredCb, if_neg (by decide)]
  induction characteristics generalizing state with
  | nil => simp
  | cons chars rest inductionHypothesis =>
      rw [List.foldl_cons, inductionHypothesis]
      have one : (state.charDiscovered chars).log = state.log ++ [chars.record] := by
        unfold charDiscovered
        split <;> rfl
      rw [one, List.append_assoc, List.map_cons, List.singleton_append]

theorem charDiscoveredCb_lines (characteristics : List Characteristic) :
    state.charDiscoveredCb 0 characteristics =
      { state with
        log := state.log ++ characteristics.map Characteristic.record
        charValueHandlesToRead := state.charValueHandlesToRead ++ readHandles characteristics
        queue := state.queue ++
          readOps state.charValueHandlesToRead.length (readHandles characteristics) } := by
  obtain ⟨log, same⟩ := state.charDiscoveredCb_ok characteristics
  have lines := state.log_charDiscoveredCb characteristics
  rw [same] at lines ⊢
  exact congrArg (fun log => { state with
    log
    charValueHandlesToRead := state.charValueHandlesToRead ++ readHandles characteristics
    queue := state.queue ++
      readOps state.charValueHandlesToRead.length (readHandles characteristics) }) lines

theorem log_charDescCb (stray : Stray) (status : UInt8) (descriptors : List Descriptor) :
    (charDescCb stray state status descriptors).log =
      state.log ++ descriptors.map Descriptor.record := by
  unfold charDescCb
  cases (descriptors.getLast?.map Descriptor.handle).or stray.descHandle with
  | none => rfl
  | some handle =>
      simp only [compareMaxHandle]
      split <;> rfl

theorem log_charReadCb (index : Nat) (status : UInt8) (pdu : Pdu) :
    (state.charReadCb index status pdu).log =
      state.log ++ charReadLines (state.charValueHandlesToRead.getD index 0) status pdu := by
  unfold charReadCb charReadLines
  by_cases failed : status ≠ 0
  · rw [if_pos failed, if_pos failed, List.append_nil]
  · rw [if_neg failed, if_neg failed]
    cases decReadResp pdu with
    | none => exact (List.append_nil _).symm
    | some value => rfl

end State

/-! ## One answer -/

variable {stray : Stray} {server : Server}

/-- What an answer of the server does: nothing, or it calls back the operation at the head
of the queue. -/
theorem Server.Answers.step_eq (stray : Stray) {state : State} {event : Event}
    (answers : server.Answers state event) :
    state.step stray event = state ∨
      ∃ op rest, state.isOver = false ∧ state.queue = op :: rest ∧
        state.step stray event = State.deliver stray true { state with queue := rest } op
          (server.reply (state.request op)).1 (server.reply (state.request op)).2 := by
  cases event with
  | unit pdu raised =>
      by_cases idle : state.isOver = true ∨ state.attached = false
      · left
        rcases idle with ended | detached
        · simp [State.step, ended]
        · simp [State.step, detached]
      · obtain ⟨runs, attached⟩ := not_or.mp idle
        have stepped : state.step stray (.unit pdu raised) =
            state.receiveUnit stray pdu raised := by
          simp only [Bool.not_eq_true, Bool.not_eq_false] at runs attached
          simp [State.step, runs, attached]
        rw [stepped, State.receiveUnit]
        cases queue : state.queue with
        | nil => exact .inl rfl
        | cons op rest =>
            cases received : receive (state.request op) pdu raised with
            | ignored => exact .inl (by simp [received])
            | retried => exact .inl (by simp [received])
            | answered status unit =>
                have sent := answers op (by simp [queue]) status unit received
                have reply : server.reply (state.request op) = (status, unit) := by
                  rw [Server.reply, ← sent, receive_raised received]
                exact .inr ⟨op, rest, by simpa using runs, rfl, by simp [received, reply]⟩
  | connectFails => exact answers.elim
  | connectError => exact answers.elim
  | connected => exact answers.elim
  | disconnected => exact answers.elim

variable (stray server) in
/-- One callback, with the lines that it writes. -/
inductive Advance (state : State) : State → Prop
  | servicesAsk {rest : List Op} {dp : DiscoverPrimary} (head : state.queue = .primary :: rest)
      (asks : server.services stray state.dp = .more dp) :
      Advance state { state with dp, queue := rest ++ [.primary] }
  | servicesEnd {rest : List Op} {err : UInt8} {primaries : List Primary} {log : List Record}
      {gMaxHandle : UInt16} {ghost : Ghost} (head : state.queue = .primary :: rest)
      (ends : server.services stray state.dp = .ended (err, primaries))
      (raises : gMaxHandle = if err = 0 then
        (primaries.getLast?.map Primary.endHandle).getD state.gMaxHandle else state.gMaxHandle)
      (writes : log = state.log ++ if err = 0 then primaries.map Primary.record else []) :
      Advance state
        { state with dp := { state.dp with primaries }, queue := rest, log, gMaxHandle, ghost }
  | charsAsk {rest : List Op} {dc : DiscoverChar} (head : state.queue = .characteristics :: rest)
      (asks : server.characteristics stray state.dc = .more dc) :
      Advance state { state with dc, queue := rest ++ [.characteristics] }
  | charsEnd {rest : List Op} {err : UInt8} {characteristics : List Characteristic}
      {queue : List Op} {charValueHandlesToRead : List UInt16} {log : List Record} {ghost : Ghost}
      (head : state.queue = .characteristics :: rest)
      (ends : server.characteristics stray state.dc = .ended (err, characteristics))
      (stores : charValueHandlesToRead = state.charValueHandlesToRead ++
        if err = 0 then State.readHandles characteristics else [])
      (issues : queue = rest ++ State.readOps state.charValueHandlesToRead.length
        (if err = 0 then State.readHandles characteristics else []))
      (writes : log =
        state.log ++ if err = 0 then characteristics.map Characteristic.record else []) :
      Advance state
        { state with
          dc := { state.dc with characteristics }, queue, charValueHandlesToRead, log, ghost }
  | descsAsk {rest : List Op} {dd : DiscoverDesc} (head : state.queue = .descriptors :: rest)
      (asks : server.descriptors stray state.dd = .more dd) :
      Advance state { state with dd, queue := rest ++ [.descriptors] }
  | descsEnd {rest : List Op} {err : UInt8} {descriptors : List Descriptor} {log : List Record}
      {quit crashed : Bool} {ghost : Ghost} (head : state.queue = .descriptors :: rest)
      (ends : server.descriptors stray state.dd = .ended (err, descriptors))
      (quits : quit = (state.quit || decide (err ≠ 0) ||
        decide (State.comparedHandle stray descriptors = some state.gMaxHandle)))
      (crashes : crashed = (state.crashed || (State.comparedHandle stray descriptors).isNone))
      (writes : log = state.log ++ descriptors.map Descriptor.record) :
      Advance state
        { state with
          dd := { state.dd with descriptors }, queue := rest, log, quit, crashed, ghost }
  | readMore {rest : List Op} {index : Nat} {handle : UInt16} {buffer bytes : Option Pdu}
      (head : state.queue = .read index handle buffer :: rest)
      (asks : server.reads handle buffer = .more bytes) :
      Advance state { state with queue := .read index handle bytes :: rest }
  | readEnd {rest : List Op} {index : Nat} {handle : UInt16} {buffer : Option Pdu}
      {err : UInt8} {unit : Pdu} {log : List Record} {ghost : Ghost}
      (head : state.queue = .read index handle buffer :: rest)
      (ends : server.reads handle buffer = .ended (err, unit))
      (writes : log =
        state.log ++ charReadLines (state.charValueHandlesToRead.getD index 0) err unit) :
      Advance state { state with queue := rest, log, ghost }

/-- The callback of the operation at the head of the queue, on the server's answer. -/
theorem advance_deliver {state : State} {op : Op} {rest : List Op}
    (head : state.queue = op :: rest) :
    Advance stray server state (State.deliver stray true { state with queue := rest } op
      (server.reply (state.request op)).1 (server.reply (state.request op)).2) := by
  cases op with
  | primary =>
      have answer : primaryAllCb stray state.dp (server.reply (.readByGroup state.dp.start)).1
          (server.reply (.readByGroup state.dp.start)).2 = server.services stray state.dp := rfl
      simp only [State.deliver, State.request, answer]
      split
      · next dp asks => exact .servicesAsk head asks
      · next err primaries ends =>
          by_cases ok : err = 0
          · rw [State.primaryAllCb, if_neg (not_not.mpr ok)]
            apply Advance.servicesEnd head ends
            case raises => exact (if_pos ok).symm
            case writes =>
              rw [if_pos ok]
              rfl
          · rw [State.primaryAllCb_error _ ok]
            apply Advance.servicesEnd head ends
            case raises => exact (if_neg ok).symm
            case writes => rw [if_neg ok, List.append_nil]
  | characteristics =>
      have answer : charDiscoveredCb stray state.dc (server.reply (.readByType state.dc.start)).1
          (server.reply (.readByType state.dc.start)).2 =
            server.characteristics stray state.dc := rfl
      simp only [State.deliver, State.request, answer]
      split
      · next dc asks => exact .charsAsk head asks
      · next err characteristics ends =>
          by_cases ok : err = 0
          · subst ok
            rw [State.charDiscoveredCb_lines]
            exact .charsEnd head ends (by rw [if_pos rfl]) (by rw [if_pos rfl])
              (by rw [if_pos rfl])
          · rw [State.charDiscoveredCb_error _ ok]
            apply Advance.charsEnd head ends
            case stores => rw [if_neg ok, List.append_nil]
            case issues => simp [ok, State.readOps]
            case writes => rw [if_neg ok, List.append_nil]
  | descriptors =>
      have answer : descDiscoveredCb stray state.dd (server.reply (.findInfo state.dd.start)).1
          (server.reply (.findInfo state.dd.start)).2 = server.descriptors stray state.dd := rfl
      simp only [State.deliver, State.request, answer]
      split
      · next dd asks => exact .descsAsk head asks
      · next err descriptors ends =>
          obtain ⟨log, same⟩ := State.charDescCb_eq stray
            { state with
              dd := { state.dd with descriptors }
              queue := rest
              ghost := { state.ghost with descriptors := some err } } err descriptors
          have writes := State.log_charDescCb
            { state with
              dd := { state.dd with descriptors }
              queue := rest
              ghost := { state.ghost with descriptors := some err } } stray err descriptors
          rw [same] at writes ⊢
          exact .descsEnd head ends rfl rfl writes
  | read index handle buffer =>
      have request : state.request (.read index handle buffer) = readRequest handle buffer := by
        cases buffer <;> rfl
      rw [request]
      simp only [State.deliver]
      split
      · next bytes asks => exact .readMore head (Server.reads_of_more asks)
      · next err unit ends =>
          obtain ⟨log, same⟩ := State.charReadCb_eq
            (State.noteRead { state with queue := rest } index) index err unit
          have writes := State.log_charReadCb
            (State.noteRead { state with queue := rest } index) index err unit
          rw [if_pos trivial]
          rw [same] at writes ⊢
          exact .readEnd head (Server.reads_of_ended ends) writes

theorem Server.Answers.advance (stray : Stray) {state : State} {event : Event}
    (answers : server.Answers state event) :
    state.step stray event = state ∨ Advance stray server state (state.step stray event) := by
  rcases answers.step_eq stray with same | ⟨op, rest, -, head, stepped⟩
  · exact .inl same
  · rw [stepped]
    exact .inr (advance_deliver head)

/-! ## How far a run has come -/

/-- What the procedures and the reads end with, and after how many answers. -/
structure Server.Results (stray : Stray) (server : Server) where
  services : UInt8 × List Primary
  characteristics : UInt8 × List Characteristic
  descriptors : UInt8 × List Descriptor
  value : UInt16 → UInt8 × Pdu
  serviceAnswers : Nat
  characteristicAnswers : Nat
  descriptorAnswers : Nat
  valueAnswers : UInt16 → Nat
  servicesEnd : Converses (server.services stray) State.initial.dp serviceAnswers services
  characteristicsEnd :
    Converses (server.characteristics stray) State.initial.dc characteristicAnswers characteristics
  descriptorsEnd :
    Converses (server.descriptors stray) State.initial.dd descriptorAnswers descriptors
  valuesEnd : ∀ handle ∈ State.readHandles characteristics.2,
    Converses (server.reads handle) none (valueAnswers handle) (value handle)

namespace Server.Results

variable (results : server.Results stray)

/-- The value handles that are read. -/
def handles : List UInt16 :=
  if results.characteristics.1 = 0 then State.readHandles results.characteristics.2 else []

def serviceLines : List Record :=
  if results.services.1 = 0 then results.services.2.map Primary.record else []

def characteristicLines : List Record :=
  if results.characteristics.1 = 0 then results.characteristics.2.map Characteristic.record else []

def descriptorLines : List Record := results.descriptors.2.map Descriptor.record

def valueLine (handle : UInt16) : List Record :=
  charReadLines handle (results.value handle).1 (results.value handle).2

def valueLines : List Record := results.handles.flatMap results.valueLine

/-- All lines of a run. -/
def lines : List Record :=
  results.serviceLines ++ results.characteristicLines ++ results.descriptorLines ++
    results.valueLines

/-- The answers that the reads of these handles need. -/
def readAnswers : List UInt16 → Nat
  | [] => 0
  | handle :: more => results.valueAnswers handle + readAnswers more

/-- The answers that a run needs. -/
def answers : Nat :=
  results.serviceAnswers + results.characteristicAnswers + results.descriptorAnswers +
    results.readAnswers results.handles

theorem kind_serviceLines : ∀ record ∈ results.serviceLines, record.lineKind = .service := by
  intro record member
  unfold serviceLines at member
  split at member
  · obtain ⟨prim, -, rfl⟩ := List.mem_map.mp member
    rfl
  · exact absurd member List.not_mem_nil

theorem kind_characteristicLines :
    ∀ record ∈ results.characteristicLines, record.lineKind = .characteristic := by
  intro record member
  unfold characteristicLines at member
  split at member
  · obtain ⟨chars, -, rfl⟩ := List.mem_map.mp member
    rfl
  · exact absurd member List.not_mem_nil

theorem kind_descriptorLines :
    ∀ record ∈ results.descriptorLines, record.lineKind = .descriptor := by
  intro record member
  obtain ⟨desc, -, rfl⟩ := List.mem_map.mp member
  rfl

theorem kind_valueLines : ∀ record ∈ results.valueLines, record.lineKind = .charValue := by
  intro record member
  obtain ⟨handle, -, inside⟩ := List.mem_flatMap.mp member
  exact kind_charReadLines record inside

theorem valuesEnd_of_mem {handle : UInt16} (member : handle ∈ results.handles) :
    Converses (server.reads handle) none (results.valueAnswers handle) (results.value handle) := by
  unfold handles at member
  split at member
  · exact results.valuesEnd handle member
  · exact absurd member List.not_mem_nil

end Server.Results

/-- A procedure that still asks has written nothing, and one that has ended has written
its lines. -/
inductive Stands (op : Op) (kind : LineKind) (lines : List Record) (needs : Nat → Prop)
    (state : State) : Nat → Prop
  | asks {left : Nat} (queued : state.queue.count op = 1) (rest : needs left)
      (silent : ofKind kind state.log = []) : Stands op kind lines needs state left
  | ended (gone : state.queue.count op = 0) (told : ofKind kind state.log = lines) :
      Stands op kind lines needs state 0

/-- The reads are done one after the other, behind the end of characteristic discovery. -/
inductive ReadsStand (results : server.Results stray) (state : State) : Nat → Prop
  | unissued (asked : state.queue.count .characteristics = 1)
      (reads : state.queue.filter Op.isRead = []) (stores : state.charValueHandlesToRead = [])
      (silent : ofKind .charValue state.log = []) :
      ReadsStand results state (results.readAnswers results.handles)
  | reading {done more : List UInt16} {handle : UInt16} {buffer : Option Pdu} {left : Nat}
      (gone : state.queue.count .characteristics = 0)
      (split : results.handles = done ++ handle :: more)
      (reads : state.queue.filter Op.isRead =
        .read done.length handle buffer :: State.readOps (done.length + 1) more)
      (stores : state.charValueHandlesToRead = results.handles)
      (rest : Converses (server.reads handle) buffer left (results.value handle))
      (told : ofKind .charValue state.log = done.flatMap results.valueLine) :
      ReadsStand results state (left + results.readAnswers more)
  | ended (gone : state.queue.count .characteristics = 0)
      (reads : state.queue.filter Op.isRead = [])
      (told : ofKind .charValue state.log = results.valueLines) : ReadsStand results state 0

/-- How many answers each procedure and the reads still need. -/
structure Stage (results : server.Results stray) (state : State)
    (services characteristics descriptors reads : Nat) : Prop where
  services : Stands .primary .service results.serviceLines
    (fun left => Converses (server.services stray) state.dp left results.services) state services
  characteristics : Stands .characteristics .characteristic results.characteristicLines
    (fun left => Converses (server.characteristics stray) state.dc left results.characteristics)
    state characteristics
  descriptors : Stands .descriptors .descriptor results.descriptorLines
    (fun left => Converses (server.descriptors stray) state.dd left results.descriptors)
    state descriptors
  reads : ReadsStand results state reads

variable {results : server.Results stray} {before after : State}

theorem Stands.frame {op : Op} {kind : LineKind} {lines : List Record} {needs : Nat → Prop}
    {left : Nat} (stands : Stands op kind lines needs before left)
    (queue : after.queue.count op = before.queue.count op)
    (log : ofKind kind after.log = ofKind kind before.log) :
    Stands op kind lines needs after left := by
  cases stands with
  | asks queued rest silent => exact .asks (queue.trans queued) rest (log.trans silent)
  | ended gone told => exact .ended (queue.trans gone) (log.trans told)

/-- The request of a procedure that is in the queue. -/
theorem Stands.of_head {op : Op} {kind : LineKind} {lines : List Record} {needs : Nat → Prop}
    {left : Nat} {rest : List Op} (stands : Stands op kind lines needs before left)
    (head : before.queue = op :: rest) :
    rest.count op = 0 ∧ needs left ∧ ofKind kind before.log = [] := by
  cases stands with
  | asks queued needed silent =>
      rw [head, List.count_cons_self] at queued
      exact ⟨by omega, needed, silent⟩
  | ended gone told =>
      rw [head, List.count_cons_self] at gone
      omega

theorem ReadsStand.frame {left : Nat} (stands : ReadsStand results before left)
    (queue : after.queue.count .characteristics = before.queue.count .characteristics)
    (reads : after.queue.filter Op.isRead = before.queue.filter Op.isRead)
    (stores : after.charValueHandlesToRead = before.charValueHandlesToRead)
    (log : ofKind .charValue after.log = ofKind .charValue before.log) :
    ReadsStand results after left := by
  cases stands with
  | unissued asked noReads empty silent =>
      exact .unissued (queue.trans asked) (reads.trans noReads) (stores.trans empty)
        (log.trans silent)
  | reading gone split pending stored rest told =>
      exact .reading (queue.trans gone) split (reads.trans pending) (stores.trans stored) rest
        (log.trans told)
  | ended gone noReads told =>
      exact .ended (queue.trans gone) (reads.trans noReads) (log.trans told)

/-- The reads that are left when none of them has begun. -/
theorem ReadsStand.of_left {done more : List UInt16}
    (split : results.handles = done ++ more) (gone : after.queue.count .characteristics = 0)
    (reads : after.queue.filter Op.isRead = State.readOps done.length more)
    (stores : after.charValueHandlesToRead = results.handles)
    (told : ofKind .charValue after.log = done.flatMap results.valueLine) :
    ReadsStand results after (results.readAnswers more) := by
  cases more with
  | nil =>
      rw [List.append_nil] at split
      exact .ended gone reads (by rw [told, Server.Results.valueLines, split])
  | cons handle more =>
      have member : handle ∈ results.handles := by
        rw [split]
        exact List.mem_append_right _ List.mem_cons_self
      rw [State.readOps, List.zipIdx_cons, List.map_cons] at reads
      exact .reading gone split reads stores (results.valuesEnd_of_mem member) told

/-- Characteristic discovery asks, so no read has been issued. -/
theorem ReadsStand.of_head {left : Nat} {rest : List Op}
    (stands : ReadsStand results before left) (head : before.queue = .characteristics :: rest) :
    left = results.readAnswers results.handles ∧ rest.filter Op.isRead = [] ∧
      before.charValueHandlesToRead = [] ∧ ofKind .charValue before.log = [] := by
  have present : before.queue.count .characteristics ≠ 0 := by
    rw [head, List.count_cons_self]
    omega
  cases stands with
  | unissued asked reads stores silent =>
      rw [head, List.filter_cons_of_neg (by decide)] at reads
      exact ⟨rfl, reads, stores, silent⟩
  | reading gone split reads stores rest told => exact absurd gone present
  | ended gone reads told => exact absurd gone present

/-- The read at the head of the queue is the first of those that are left. -/
theorem ReadsStand.of_read {left index : Nat} {handle : UInt16} {buffer : Option Pdu}
    {rest : List Op} (stands : ReadsStand results before left)
    (head : before.queue = .read index handle buffer :: rest) :
    ∃ done more own, index = done.length ∧ left = own + results.readAnswers more ∧
      results.handles = done ++ handle :: more ∧ rest.count .characteristics = 0 ∧
      rest.filter Op.isRead = State.readOps (done.length + 1) more ∧
      before.charValueHandlesToRead = results.handles ∧
      Converses (server.reads handle) buffer own (results.value handle) ∧
      ofKind .charValue before.log = done.flatMap results.valueLine := by
  have first : before.queue.filter Op.isRead =
      .read index handle buffer :: rest.filter Op.isRead := by
    rw [head, List.filter_cons_of_pos (by rfl)]
  cases stands with
  | unissued asked reads stores silent => simp [first] at reads
  | @reading done more own _ bytes gone split reads stores further told =>
      rw [first, List.cons.injEq, Op.read.injEq] at reads
      obtain ⟨⟨place, rfl, rfl⟩, reads⟩ := reads
      rw [head, List.count_cons_of_ne (by simp)] at gone
      exact ⟨done, more, _, place, rfl, split, gone, reads, stores, further, told⟩
  | ended gone reads told => simp [first] at reads

/-! ### Steps -/

private theorem count_requeued (op other : Op) (rest : List Op) :
    (rest ++ [other]).count op = (other :: rest).count op := by
  rw [List.count_append, List.count_cons, List.count_cons, List.count_nil, Nat.zero_add]

private theorem count_behind {op other : Op} (different : other ≠ op) (rest : List Op) :
    rest.count op = (other :: rest).count op :=
  (List.count_cons_of_ne different).symm

private theorem count_again {op first second : Op} (firstOther : first ≠ op)
    (secondOther : second ≠ op) (rest : List Op) :
    (first :: rest).count op = (second :: rest).count op := by
  rw [List.count_cons_of_ne firstOther, List.count_cons_of_ne secondOther]

private theorem reads_requeued {other : Op} (procedure : other.isRead = false) (rest : List Op) :
    (rest ++ [other]).filter Op.isRead = (other :: rest).filter Op.isRead := by
  simp [procedure]

private theorem reads_behind {other : Op} (procedure : other.isRead = false) (rest : List Op) :
    rest.filter Op.isRead = (other :: rest).filter Op.isRead := by
  simp [procedure]

private theorem log_other {kind own : LineKind} {log lines : List Record}
    (all : ∀ record ∈ lines, record.lineKind = own) (other : own ≠ kind) :
    ofKind kind (log ++ lines) = ofKind kind log := by
  rw [ofKind_append, ofKind_other all other, List.append_nil]

private theorem count_readOps {op : Op} (procedure : op.isRead = false) (first : Nat)
    (handles : List UInt16) : (State.readOps first handles).count op = 0 := by
  apply List.count_eq_zero.mpr
  intro member
  have read := State.isRead_of_mem_readOps member
  rw [procedure] at read
  exact absurd read (by decide)

private theorem reads_readOps (first : Nat) (handles : List UInt16) :
    (State.readOps first handles).filter Op.isRead = State.readOps first handles :=
  List.filter_eq_self.mpr fun _ member => State.isRead_of_mem_readOps member

/-- Each callback is one of the answers that are still needed. -/
theorem Stage.advance {services characteristics descriptors reads : Nat}
    (stage : Stage results before services characteristics descriptors reads)
    (advance : Advance stray server before after) :
    ∃ services' characteristics' descriptors' reads',
      Stage results after services' characteristics' descriptors' reads' ∧
        services + characteristics + descriptors + reads =
          services' + characteristics' + descriptors' + reads' + 1 := by
  cases advance with
  | @servicesAsk rest dp head asks =>
      obtain ⟨gone, needed, silent⟩ := stage.services.of_head head
      obtain ⟨fewer, rfl, further⟩ := needed.of_more asks
      refine ⟨fewer, characteristics, descriptors, reads, ⟨?_, ?_, ?_, ?_⟩, by omega⟩
      · exact .asks (by simp [gone]) further silent
      · exact stage.characteristics.frame (by rw [head]; exact count_requeued _ _ _) rfl
      · exact stage.descriptors.frame (by rw [head]; exact count_requeued _ _ _) rfl
      · exact stage.reads.frame (by rw [head]; exact count_requeued _ _ _)
          (by rw [head]; exact reads_requeued rfl _) rfl rfl
  | @servicesEnd rest err primaries log gMaxHandle ghost head ends raises writes =>
      obtain ⟨gone, needed, silent⟩ := stage.services.of_head head
      obtain ⟨rfl, result⟩ := needed.of_ended ends
      have lines : log = before.log ++ results.serviceLines := by
        rw [writes, Server.Results.serviceLines, result]
      have own := results.kind_serviceLines
      subst lines
      refine ⟨0, characteristics, descriptors, reads, ⟨?_, ?_, ?_, ?_⟩, by omega⟩
      · refine .ended gone ?_
        rw [ofKind_append, silent, ofKind_own own, List.nil_append]
      · exact stage.characteristics.frame (by rw [head]; exact count_behind (by decide) _)
          (log_other own (by decide))
      · exact stage.descriptors.frame (by rw [head]; exact count_behind (by decide) _)
          (log_other own (by decide))
      · exact stage.reads.frame (by rw [head]; exact count_behind (by decide) _)
          (by rw [head]; exact reads_behind rfl _) rfl (log_other own (by decide))
  | @charsAsk rest dc head asks =>
      obtain ⟨gone, needed, silent⟩ := stage.characteristics.of_head head
      obtain ⟨fewer, rfl, further⟩ := needed.of_more asks
      refine ⟨services, fewer, descriptors, reads, ⟨?_, ?_, ?_, ?_⟩, by omega⟩
      · exact stage.services.frame (by rw [head]; exact count_requeued _ _ _) rfl
      · exact .asks (by simp [gone]) further silent
      · exact stage.descriptors.frame (by rw [head]; exact count_requeued _ _ _) rfl
      · exact stage.reads.frame (by rw [head]; exact count_requeued _ _ _)
          (by rw [head]; exact reads_requeued rfl _) rfl rfl
  | @charsEnd rest err chars queue stored log ghost head ends stores issues writes =>
      obtain ⟨gone, needed, silent⟩ := stage.characteristics.of_head head
      obtain ⟨rfl, result⟩ := needed.of_ended ends
      obtain ⟨rfl, noReads, noStores, noValues⟩ := stage.reads.of_head head
      have lines : log = before.log ++ results.characteristicLines := by
        rw [writes, Server.Results.characteristicLines, result]
      have handles : results.handles = if err = 0 then State.readHandles chars else [] := by
        rw [Server.Results.handles, result]
      have own := results.kind_characteristicLines
      rw [← handles, noStores, List.nil_append] at stores
      rw [← handles, noStores, List.length_nil] at issues
      subst lines stores issues
      have gone' : (rest ++ State.readOps 0 results.handles).count .characteristics = 0 := by
        rw [List.count_append, gone, count_readOps rfl]
      refine ⟨services, 0, descriptors, results.readAnswers results.handles, ⟨?_, ?_, ?_, ?_⟩,
        by omega⟩
      · refine stage.services.frame ?_ (log_other own (by decide))
        show (rest ++ State.readOps 0 results.handles).count _ = _
        rw [head, List.count_append, count_readOps rfl]
        exact count_behind (by decide) _
      · refine .ended gone' ?_
        rw [ofKind_append, silent, ofKind_own own, List.nil_append]
      · refine stage.descriptors.frame ?_ (log_other own (by decide))
        show (rest ++ State.readOps 0 results.handles).count _ = _
        rw [head, List.count_append, count_readOps rfl]
        exact count_behind (by decide) _
      · refine .of_left (List.nil_append results.handles).symm gone' ?_ rfl ?_
        · show (rest ++ State.readOps 0 results.handles).filter _ = _
          rw [List.filter_append, noReads, reads_readOps, List.nil_append, List.length_nil]
        · rw [log_other own (by decide), noValues, List.flatMap_nil]
  | @descsAsk rest dd head asks =>
      obtain ⟨gone, needed, silent⟩ := stage.descriptors.of_head head
      obtain ⟨fewer, rfl, further⟩ := needed.of_more asks
      refine ⟨services, characteristics, fewer, reads, ⟨?_, ?_, ?_, ?_⟩, by omega⟩
      · exact stage.services.frame (by rw [head]; exact count_requeued _ _ _) rfl
      · exact stage.characteristics.frame (by rw [head]; exact count_requeued _ _ _) rfl
      · exact .asks (by simp [gone]) further silent
      · exact stage.reads.frame (by rw [head]; exact count_requeued _ _ _)
          (by rw [head]; exact reads_requeued rfl _) rfl rfl
  | @descsEnd rest err descs log quit crashed ghost head ends quits crashes writes =>
      obtain ⟨gone, needed, silent⟩ := stage.descriptors.of_head head
      obtain ⟨rfl, result⟩ := needed.of_ended ends
      have lines : log = before.log ++ results.descriptorLines := by
        rw [writes, Server.Results.descriptorLines, result]
      have own := results.kind_descriptorLines
      subst lines
      refine ⟨services, characteristics, 0, reads, ⟨?_, ?_, ?_, ?_⟩, by omega⟩
      · exact stage.services.frame (by rw [head]; exact count_behind (by decide) _)
          (log_other own (by decide))
      · exact stage.characteristics.frame (by rw [head]; exact count_behind (by decide) _)
          (log_other own (by decide))
      · refine .ended gone ?_
        rw [ofKind_append, silent, ofKind_own own, List.nil_append]
      · exact stage.reads.frame (by rw [head]; exact count_behind (by decide) _)
          (by rw [head]; exact reads_behind rfl _) rfl (log_other own (by decide))
  | @readMore rest index handle buffer bytes head asks =>
      obtain ⟨done, more, left, rfl, rfl, split, gone, pending, stores, needed, told⟩ :=
        stage.reads.of_read head
      obtain ⟨fewer, rfl, further⟩ := needed.of_more asks
      refine ⟨services, characteristics, descriptors, fewer + results.readAnswers more,
        ⟨?_, ?_, ?_, ?_⟩, by omega⟩
      · exact stage.services.frame (by rw [head]; exact count_again (by simp) (by simp) _) rfl
      · exact stage.characteristics.frame
          (by rw [head]; exact count_again (by simp) (by simp) _) rfl
      · exact stage.descriptors.frame (by rw [head]; exact count_again (by simp) (by simp) _) rfl
      · refine .reading ?_ split ?_ stores further told
        · show (Op.read done.length handle bytes :: rest).count _ = 0
          rw [List.count_cons_of_ne (by simp), gone]
        · show (Op.read done.length handle bytes :: rest).filter _ = _
          rw [List.filter_cons_of_pos (by rfl), pending]
  | @readEnd rest index handle buffer err unit log ghost head ends writes =>
      obtain ⟨done, more, left, rfl, rfl, split, gone, pending, stores, needed, told⟩ :=
        stage.reads.of_read head
      obtain ⟨rfl, result⟩ := needed.of_ended ends
      have place : before.charValueHandlesToRead.getD done.length 0 = handle := by
        rw [stores, split]
        simp
      have lines : log = before.log ++ results.valueLine handle := by
        rw [writes, place, Server.Results.valueLine, result]
      have own : ∀ record ∈ results.valueLine handle, record.lineKind = .charValue :=
        kind_charReadLines
      subst lines
      refine ⟨services, characteristics, descriptors, results.readAnswers more,
        ⟨?_, ?_, ?_, ?_⟩, by omega⟩
      · exact stage.services.frame (by rw [head]; exact count_behind (by simp) _)
          (log_other own (by decide))
      · exact stage.characteristics.frame (by rw [head]; exact count_behind (by simp) _)
          (log_other own (by decide))
      · exact stage.descriptors.frame (by rw [head]; exact count_behind (by simp) _)
          (log_other own (by decide))
      · have behind : results.handles = (done ++ [handle]) ++ more := by
          rw [split, List.append_assoc, List.singleton_append]
        refine .of_left behind gone ?_ stores ?_
        · rw [List.length_append, List.length_singleton]
          exact pending
        · rw [ofKind_append, told, ofKind_own own, List.flatMap_append, List.flatMap_singleton]

/-! ## Whole runs -/

theorem stage_start (results : server.Results stray) :
    Stage results (State.initial.step stray .connected) results.serviceAnswers
      results.characteristicAnswers results.descriptorAnswers
      (results.readAnswers results.handles) where
  services := .asks rfl results.servicesEnd rfl
  characteristics := .asks rfl results.characteristicsEnd rfl
  descriptors := .asks rfl results.descriptorsEnd rfl
  reads := .unissued rfl rfl rfl rfl

theorem Server.answers_answer (server : Server) (state : State) :
    server.Answers state (server.answer state) := by
  intro op head _ _ _
  rw [Option.mem_def] at head
  simp [head]

theorem Server.leadsTo_run (stray : Stray) (server : Server) (answers : Nat) :
    server.LeadsTo stray (server.run stray answers) := by
  induction answers with
  | zero => exact .refl
  | succ answers inductionHypothesis =>
      exact inductionHypothesis.tail ⟨_, server.answers_answer _, rfl⟩

theorem Server.LeadsTo.stage {state : State} (leads : server.LeadsTo stray state)
    (results : server.Results stray) :
    ∃ services characteristics descriptors reads,
      Stage results state services characteristics descriptors reads := by
  induction leads with
  | refl => exact ⟨_, _, _, _, stage_start results⟩
  | tail _ step inductionHypothesis =>
      obtain ⟨event, answers, rfl⟩ := step
      obtain ⟨services, characteristics, descriptors, reads, stage⟩ := inductionHypothesis
      rcases answers.advance stray with same | advance
      · rw [same]
        exact ⟨services, characteristics, descriptors, reads, stage⟩
      · obtain ⟨_, _, _, _, next, -⟩ := stage.advance advance
        exact ⟨_, _, _, _, next⟩

section Lines

variable {state : State} {left : Nat}

theorem Stands.isPrefix {op : Op} {kind : LineKind} {lines : List Record} {needs : Nat → Prop}
    (stands : Stands op kind lines needs state left) :
    ofKind kind state.log <+: lines ∧ (state.queue = [] → ofKind kind state.log = lines) := by
  cases stands with
  | asks queued rest silent =>
      rw [silent]
      refine ⟨List.nil_prefix, fun idle => ?_⟩
      rw [idle] at queued
      exact absurd queued (by simp)
  | ended gone told =>
      rw [told]
      exact ⟨List.prefix_rfl, fun _ => rfl⟩

theorem ReadsStand.isPrefix (stands : ReadsStand results state left) :
    ofKind .charValue state.log <+: results.valueLines ∧
      (state.queue = [] → ofKind .charValue state.log = results.valueLines) := by
  cases stands with
  | unissued asked reads stores silent =>
      rw [silent]
      refine ⟨List.nil_prefix, fun idle => ?_⟩
      rw [idle] at asked
      exact absurd asked (by simp)
  | reading gone split reads stores rest told =>
      rw [told, Server.Results.valueLines, split, List.flatMap_append]
      refine ⟨List.prefix_append _ _, fun idle => ?_⟩
      rw [idle] at reads
      exact absurd reads (by simp)
  | ended gone reads told =>
      rw [told]
      exact ⟨List.prefix_rfl, fun _ => rfl⟩

/-- The lines of one kind among all lines. -/
theorem Server.Results.ofKind_lines (results : server.Results stray) (kind : LineKind) :
    ofKind kind results.lines =
      match kind with
      | .service => results.serviceLines
      | .characteristic => results.characteristicLines
      | .descriptor => results.descriptorLines
      | .charValue => results.valueLines := by
  have services := results.kind_serviceLines
  have characteristics := results.kind_characteristicLines
  have descriptors := results.kind_descriptorLines
  have values := results.kind_valueLines
  unfold lines
  cases kind with
  | service =>
      simp [ofKind_own services, ofKind_other characteristics, ofKind_other descriptors,
        ofKind_other values]
  | characteristic =>
      simp [ofKind_other services, ofKind_own characteristics, ofKind_other descriptors,
        ofKind_other values]
  | descriptor =>
      simp [ofKind_other services, ofKind_other characteristics, ofKind_own descriptors,
        ofKind_other values]
  | charValue =>
      simp [ofKind_other services, ofKind_other characteristics, ofKind_other descriptors,
        ofKind_own values]

/-- At any time the lines of each kind are the first ones of that kind, and once no request
is left they are all. -/
theorem Server.LeadsTo.ofKind_log (leads : server.LeadsTo stray state)
    (results : server.Results stray) (kind : LineKind) :
    ofKind kind state.log <+: ofKind kind results.lines ∧
      (state.queue = [] → ofKind kind state.log = ofKind kind results.lines) := by
  obtain ⟨services, characteristics, descriptors, reads, stage⟩ := leads.stage results
  rw [results.ofKind_lines kind]
  cases kind with
  | service => exact stage.services.isPrefix
  | characteristic => exact stage.characteristics.isPrefix
  | descriptor => exact stage.descriptors.isPrefix
  | charValue => exact stage.reads.isPrefix

end Lines

/-! ## A server with a table and values -/

/-- The lines that describe a table and its values. -/
def AttributeTable.lines (table : AttributeTable) (values : UInt16 → Option (List UInt8)) :
    List Record :=
  table.services.map (fun decl => decl.found.record) ++
    table.characteristics.map (fun decl => decl.found.record) ++
    table.attributes.map (fun decl => decl.found.record) ++
    table.valueHandles.flatMap fun handle => (values handle).toList.map (Record.charValue handle)

section Provided

variable {table : AttributeTable} {values : UInt16 → Option (List UInt8)}

theorem reads_of_refuses {handle : UInt16} (refuses : server.Refuses handle) :
    ∃ ecode unit, ecode ≠ 0 ∧ server.reads handle none = .ended (ecode, unit) := by
  obtain ⟨low, high, ecode, bad, answer⟩ := refuses
  have received := receive_of_error (.read handle) low high ecode
  rw [Request.opcode] at received
  refine ⟨ecode, [opError, 0x0a, low, high, ecode], bad, ?_⟩
  simp [Server.reads, readRequest, readHelper, Server.reply, answer, received, mtu,
    readCharHelper]

/-- The read of a value ends, with the line of the value if the server gives it. -/
theorem Server.Provides.read (provides : server.Provides table values) (handle : UInt16)
    (member : handle ∈ table.valueHandles) :
    ∃ count result, Converses (server.reads handle) none count result ∧
      charReadLines handle result.1 result.2 =
        (values handle).toList.map (Record.charValue handle) := by
  have given := provides.values handle member
  cases known : values handle with
  | some value =>
      rw [known] at given
      obtain ⟨count, converses⟩ := read_complete given
      exact ⟨count, _, converses, rfl⟩
  | none =>
      rw [known] at given
      obtain ⟨ecode, unit, bad, ends⟩ := reads_of_refuses given
      refine ⟨1, _, .last ends, ?_⟩
      rw [charReadLines, if_pos bad, Option.toList_none, List.map_nil]

/-- The run against such a server has the lines of the table. -/
theorem Server.Provides.exists_results (stray : Stray) (provides : server.Provides table values) :
    ∃ results : server.Results stray, results.lines = table.lines values ∧
      results.handles = table.valueHandles ∧
      results.services = (0, table.services.map ServiceDecl.found) ∧
      results.descriptors = (if table.attributes.isEmpty then ecodeAttrNotFound else 0,
        table.attributes.map AttributeDecl.found) := by
  obtain ⟨serviceAnswers, services⟩ :
      ∃ count, Converses (server.services stray) State.initial.dp count _ :=
    services_complete provides.declares
  obtain ⟨charAnswers, characteristics⟩ :
      ∃ count, Converses (server.characteristics stray) State.initial.dc count _ :=
    characteristics_complete provides.declares
  obtain ⟨attributeAnswers, descriptors⟩ :
      ∃ count, Converses (server.descriptors stray) State.initial.dd count _ :=
    descriptors_complete provides.declares
  choose! valueAnswers value converses line using provides.read
  let results : server.Results stray :=
    ⟨_, _, _, value, _, _, _, valueAnswers, services, characteristics, descriptors, converses⟩
  have status : table.characteristics ≠ [] → results.characteristics.1 = 0 := by
    intro some
    show (if table.characteristics.isEmpty then ecodeAttrNotFound else 0) = 0
    rw [if_neg (by simpa [List.isEmpty_iff] using some)]
  have handles : results.handles = table.valueHandles := by
    unfold Server.Results.handles
    split
    · rfl
    · next error =>
        have empty : table.characteristics = [] := by
          by_contra some
          exact error (status some)
        rw [AttributeTable.valueHandles, empty]
        rfl
  have characteristicLines : results.characteristicLines =
      table.characteristics.map fun decl => decl.found.record := by
    unfold Server.Results.characteristicLines
    split
    · exact List.map_map
    · next error =>
        have empty : table.characteristics = [] := by
          by_contra some
          exact error (status some)
        rw [empty]
        rfl
  have valueLines : results.valueLines =
      table.valueHandles.flatMap fun handle =>
        (values handle).toList.map (Record.charValue handle) := by
    rw [Server.Results.valueLines, handles, List.flatMap_def, List.flatMap_def]
    exact congrArg List.flatten (List.map_congr_left line)
  have serviceLines : results.serviceLines = table.services.map fun decl => decl.found.record :=
    List.map_map
  have descriptorLines : results.descriptorLines =
      table.attributes.map fun decl => decl.found.record := List.map_map
  refine ⟨results, ?_, handles, rfl, rfl⟩
  rw [Server.Results.lines, serviceLines, characteristicLines, descriptorLines, valueLines,
    AttributeTable.lines]

/-- Lists with the same lines of each kind are rearrangements of one another. -/
theorem perm_of_ofKind {first second : List Record}
    (same : ∀ kind, ofKind kind first = ofKind kind second) : first.Perm second := by
  apply List.perm_iff_count.mpr
  intro record
  have kept : ∀ records : List Record,
      (ofKind record.lineKind records).count record = records.count record :=
    fun _ => List.count_filter (decide_eq_true rfl)
  rw [← kept first, ← kept second, same]

theorem Server.LeadsTo.perm_lines {state : State} (leads : server.LeadsTo stray state)
    (provides : server.Provides table values) (idle : state.queue = []) :
    state.log.Perm (table.lines values) := by
  obtain ⟨results, lines, -⟩ := provides.exists_results stray
  rw [← lines]
  exact perm_of_ofKind fun kind => (leads.ofKind_log results kind).2 idle

theorem Server.LeadsTo.mem_lines {state : State} (leads : server.LeadsTo stray state)
    (provides : server.Provides table values) {record : Record} (member : record ∈ state.log) :
    record ∈ table.lines values := by
  obtain ⟨results, lines, -⟩ := provides.exists_results stray
  have inside : record ∈ ofKind record.lineKind state.log :=
    List.mem_filter.mpr ⟨member, decide_eq_true rfl⟩
  have known := (leads.ofKind_log results record.lineKind).1.subset inside
  rw [lines] at known
  exact (List.mem_filter.mp known).1

/-- The log of a run against such a server: at any time the lines of each kind are the first
ones that the table and the values give, and once no request is left the log is complete. -/
theorem log_of_provides (stray : Stray) (server : Server) (table : AttributeTable)
    (values : UInt16 → Option (List UInt8)) (state : State)
    (provides : server.Provides table values) (leads : server.LeadsTo stray state) :
    (∀ kind, ofKind kind state.log <+: ofKind kind (table.lines values)) ∧
      (state.queue = [] → state.log.Perm (table.lines values)) := by
  refine ⟨fun kind => ?_, leads.perm_lines provides⟩
  obtain ⟨results, lines, -⟩ := provides.exists_results stray
  rw [← lines]
  exact (leads.ofKind_log results kind).1

end Provided

/-- The table of a device that tells its name, with room for more in its service. -/
def nameTable : AttributeTable where
  services := [{ start := 1, endHandle := 5, uuid := .uuid16 0x1800 }]
  characteristics := [{ handle := 2, properties := 2, valueHandle := 3, uuid := .uuid16 0x2a00 }]
  attributes :=
    [{ handle := 1, type := .uuid16 0x2800 }, { handle := 2, type := .uuid16 0x2803 },
      { handle := 3, type := .uuid16 0x2a00 }]
  serviceHandles := by decide
  servicesApart := by decide
  charHandles := by decide
  charsApart := by decide
  attributeHandles := by decide
  attributesApart := by decide

def nameValue (handle : UInt16) : Option (List UInt8) :=
  if handle = 3 then some [0x6e, 0x61, 0x69, 0x76, 0x65] else none

theorem provides_nameTable : (nameTable.server nameValue).Provides nameTable nameValue := by
  apply AttributeTable.provides_server
  · decide
  · intro handle value known
    unfold nameValue at known
    split at known
    · obtain rfl := Option.some.inj known
      decide
    · cases known

theorem log_of_provides_nameTable :
    let state := (nameTable.server nameValue).run zeroStray 9
    (∀ kind, ofKind kind state.log <+: ofKind kind (nameTable.lines nameValue)) ∧
      (state.queue = [] → state.log.Perm (nameTable.lines nameValue)) :=
  log_of_provides zeroStray _ nameTable nameValue _ provides_nameTable (Server.leadsTo_run _ _ 9)

/-! ## The end of a run -/

/-- There is a last attribute, at none of the handles at which the loop is quit. -/
def AttributeTable.KeepsRunning (table : AttributeTable) : Prop :=
  ∃ last ∈ table.attributes.getLast?, last.handle ≠ 0xffff ∧
    ∀ service ∈ table.services.getLast?, last.handle ≠ service.endHandle

theorem Server.LeadsTo.attached {state : State} (leads : server.LeadsTo stray state) :
    state.attached = true := by
  induction leads with
  | refl => rfl
  | tail _ step inductionHypothesis =>
      obtain ⟨event, answers, rfl⟩ := step
      rcases answers.advance stray with same | advance
      · rw [same]
        exact inductionHypothesis
      · rw [← inductionHypothesis]
        generalize State.step _ _ _ = after at advance
        cases advance <;> rfl

/-- A response to the outstanding request calls its operation back. -/
theorem Server.Responds.advance {state : State} (responds : server.Responds)
    (leads : server.LeadsTo stray state) (runs : state.isOver = false)
    (pending : state.queue ≠ []) :
    Advance stray server state (state.step stray (server.answer state)) := by
  cases queue : state.queue with
  | nil => exact absurd queue pending
  | cons op rest =>
      obtain ⟨status, unit, received⟩ := responds (state.request op)
      have reply : server.reply (state.request op) = (status, unit) := by
        rw [Server.reply, received]
      have advance : Advance stray server state _ := advance_deliver queue
      rw [reply] at advance
      have stepped : state.step stray (server.answer state) =
          State.deliver stray true { state with queue := rest } op status unit := by
        simp [State.step, runs, leads.attached, Server.answer, State.receiveUnit, queue, received]
      rw [stepped]
      exact advance

/-- Nothing is left to ask. -/
theorem Stage.idle {state : State} (stage : Stage results state 0 0 0 0) : state.queue = [] := by
  have services : state.queue.count .primary = 0 := by
    cases stage.services with
    | asks queued rest silent => exact absurd rest.pos (Nat.lt_irrefl 0)
    | ended gone told => exact gone
  have characteristics : state.queue.count .characteristics = 0 := by
    cases stage.characteristics with
    | asks queued rest silent => exact absurd rest.pos (Nat.lt_irrefl 0)
    | ended gone told => exact gone
  have descriptors : state.queue.count .descriptors = 0 := by
    cases stage.descriptors with
    | asks queued rest silent => exact absurd rest.pos (Nat.lt_irrefl 0)
    | ended gone told => exact gone
  have reads : state.queue.filter Op.isRead = [] := by
    generalize left : 0 = count at stage
    cases stage.reads with
    | unissued asked noReads stores silent => exact noReads
    | reading gone split pending stores rest told =>
        have some := rest.pos
        omega
    | ended gone noReads told => exact noReads
  apply List.eq_nil_iff_forall_not_mem.mpr
  intro op member
  cases op with
  | primary => exact List.count_eq_zero.mp services member
  | characteristics => exact List.count_eq_zero.mp characteristics member
  | descriptors => exact List.count_eq_zero.mp descriptors member
  | read index handle buffer =>
      exact List.filter_eq_nil_iff.mp reads _ member rfl

/-- After each answer one less is needed. -/
theorem Server.Responds.stage_run (responds : server.Responds) (results : server.Results stray)
    (answers : Nat) :
    (server.run stray answers).isOver = true ∨ (server.run stray answers).queue = [] ∨
      ∃ services characteristics descriptors reads,
        Stage results (server.run stray answers) services characteristics descriptors reads ∧
          services + characteristics + descriptors + reads + answers = results.answers := by
  induction answers with
  | zero => exact .inr (.inr ⟨_, _, _, _, stage_start results, rfl⟩)
  | succ answers inductionHypothesis =>
      have leads := server.leadsTo_run stray answers
      rw [Server.run]
      by_cases ended : (server.run stray answers).isOver = true
      · left
        simp [State.step, ended]
      · by_cases idle : (server.run stray answers).queue = []
        · right
          left
          simp [State.step, ended, leads.attached, Server.answer, State.receiveUnit, idle]
        · have advance := responds.advance leads (by simpa using ended) idle
          obtain finished | empty | ⟨_, _, _, _, stage, total⟩ := inductionHypothesis
          · exact absurd finished ended
          · exact absurd empty idle
          · obtain ⟨_, _, _, _, next, fewer⟩ := stage.advance advance
            exact .inr (.inr ⟨_, _, _, _, next, by omega⟩)

section Provided

variable {table : AttributeTable} {values : UInt16 → Option (List UInt8)}

/-- The loop goes on, whatever handle it is compared with so far. -/
theorem Server.LeadsTo.runs {state : State} (leads : server.LeadsTo stray state)
    (provides : server.Provides table values) (keepsRunning : table.KeepsRunning) :
    state.isOver = false ∧ (state.gMaxHandle = 0xffff ∨
      ∃ service ∈ table.services.getLast?, state.gMaxHandle = service.endHandle) := by
  obtain ⟨results, -, -, services, descriptors⟩ := provides.exists_results stray
  induction leads with
  | refl => exact ⟨rfl, .inl rfl⟩
  | @tail state after earlier step inductionHypothesis =>
      obtain ⟨event, answers, rfl⟩ := step
      obtain ⟨_, _, _, _, stage⟩ := Server.LeadsTo.stage earlier results
      rcases answers.advance stray with same | advance
      · rw [same]
        exact inductionHypothesis
      · generalize State.step _ _ _ = after at advance ⊢
        cases advance with
        | servicesEnd head ends raises writes =>
            obtain ⟨-, result⟩ := (stage.services.of_head head).2.1.of_ended ends
            obtain ⟨rfl, rfl⟩ := Prod.mk.inj (services.symm.trans result)
            refine ⟨inductionHypothesis.1, ?_⟩
            rw [if_pos rfl, List.getLast?_map] at raises
            cases last : table.services.getLast? with
            | none =>
                rw [last] at raises inductionHypothesis
                rw [raises]
                exact inductionHypothesis.2
            | some service =>
                rw [last] at raises
                exact .inr ⟨service, rfl, raises⟩
        | descsEnd head ends quits crashes writes =>
            obtain ⟨-, result⟩ := (stage.descriptors.of_head head).2.1.of_ended ends
            obtain ⟨status, rfl⟩ := Prod.mk.inj (descriptors.symm.trans result)
            obtain ⟨last, isLast, notEnd, notService⟩ := keepsRunning
            obtain ⟨runs, maxHandle⟩ := inductionHypothesis
            have some : table.attributes.isEmpty = false := by
              cases empty : table.attributes with
              | nil => simp [empty] at isLast
              | cons _ _ => rfl
            rw [some, if_neg (by decide)] at status
            have compared : State.comparedHandle stray
                (table.attributes.map AttributeDecl.found) = .some last.handle := by
              rw [State.comparedHandle, List.getLast?_map, Option.mem_def.mp isLast]
              rfl
            have different : last.handle ≠ state.gMaxHandle := by
              rcases maxHandle with first | ⟨service, isService, end_⟩
              · rw [first]
                exact notEnd
              · rw [end_]
                exact notService service isService
            refine ⟨?_, maxHandle⟩
            rw [State.isOver, Bool.or_eq_false_iff] at runs
            simp [State.isOver, quits, crashes, compared, runs, ← status, different]
        | _ => exact inductionHypothesis

/-- A server that answers each request brings the process to the point where nothing is left
to ask, with a complete log. -/
theorem run_complete (stray : Stray) (server : Server) (table : AttributeTable)
    (values : UInt16 → Option (List UInt8)) (provides : server.Provides table values)
    (responds : server.Responds) (keepsRunning : table.KeepsRunning) :
    ∃ enough, ∀ answers ≥ enough,
      (server.run stray answers).isOver = false ∧ (server.run stray answers).queue = [] ∧
        (server.run stray answers).log.Perm (table.lines values) := by
  obtain ⟨results, -⟩ := provides.exists_results stray
  refine ⟨results.answers, fun answers most => ?_⟩
  have leads := server.leadsTo_run stray answers
  have runs := (leads.runs provides keepsRunning).1
  have idle : (server.run stray answers).queue = [] := by
    rcases responds.stage_run results answers with ended | idle | ⟨s, c, d, r, stage, total⟩
    · rw [runs] at ended
      exact absurd ended (by decide)
    · exact idle
    · obtain ⟨rfl, rfl, rfl, rfl⟩ : s = 0 ∧ c = 0 ∧ d = 0 ∧ r = 0 := by omega
      exact stage.idle
  exact ⟨runs, idle, leads.perm_lines provides idle⟩

end Provided

theorem run_complete_nameTable :
    ∃ enough, ∀ answers ≥ enough,
      ((nameTable.server nameValue).run zeroStray answers).isOver = false ∧
        ((nameTable.server nameValue).run zeroStray answers).queue = [] ∧
        ((nameTable.server nameValue).run zeroStray answers).log.Perm
          (nameTable.lines nameValue) :=
  run_complete zeroStray _ nameTable nameValue provides_nameTable
    (nameTable.responds_server nameValue) ⟨_, rfl, by decide, by decide⟩

end NaiveBTSniffing.Gatttool
