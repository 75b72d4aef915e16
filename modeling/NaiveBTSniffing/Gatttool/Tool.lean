import NaiveBTSniffing.Gatttool.Discovery

/-!
Contract: the modified `gatttool` as a state that events change.

`queue` is BlueZ's one queue of requests with the outstanding request at its
head: the discovery procedures and the reads put their next request at its end,
the continuation of a long read goes to its front. `step` is what the process
does between two returns to its main loop, and does nothing once the loop has
been quit. The ghost record is never read by the code.

Does not own which events happen: `Gatttool.Rounds` lets a server answer,
`Gatttool.ExitStatus` takes events of every kind. Nor does it own the 512 places of
`char_value_handles_to_read` (`Gatttool.ReadTable`): it is faithful as long as no more
characteristics are readable.
-/

namespace NaiveBTSniffing.Gatttool

open NaiveBTSniffing.Library

/-- A request that waits or is outstanding. -/
inductive Op where
  | primary
  | characteristics
  | descriptors
  /-- The read of a value handle, with its place in `char_value_handles_to_read`
  and, once the value has turned out to be long, the bytes read so far. -/
  | read (index : Nat) (handle : UInt16) (buffer : Option Pdu)
deriving DecidableEq, Repr

def Op.isRead : Op → Bool
  | .read .. => true
  | _ => false

/-- What has happened so far. -/
structure Ghost where
  /-- The status with which each procedure ended. -/
  services : Option UInt8
  characteristics : Option UInt8
  descriptors : Option UInt8
  /-- The reads that `char_read_cb` was called for on an answer. -/
  answeredReads : List Nat
  /-- The loop was quit because the last handle is `g_max_handle`. -/
  quitAtMaxHandle : Bool
deriving DecidableEq, Repr

structure State where
  started : Bool
  /-- The connection is there. -/
  attached : Bool
  dp : DiscoverPrimary
  dc : DiscoverChar
  dd : DiscoverDesc
  queue : List Op
  /-- The stores into `char_value_handles_to_read`, which has room for the first 512. -/
  charValueHandlesToRead : List UInt16
  gMaxHandle : UInt16
  gotError : Bool
  /-- `g_main_loop_quit` was called. -/
  quit : Bool
  /-- The process followed an unset pointer and was killed. -/
  crashed : Bool
  log : List Record
  ghost : Ghost

/-- The process before anything has happened. -/
def State.initial : State where
  started := false
  attached := false
  dp := { start := 1, primaries := [] }
  dc := { start := 1, characteristics := [] }
  dd := { start := 1, descriptors := [] }
  queue := []
  charValueHandlesToRead := []
  gMaxHandle := 0xffff
  gotError := false
  quit := false
  crashed := false
  log := []
  ghost :=
    { services := none, characteristics := none, descriptors := none, answeredReads := [],
      quitAtMaxHandle := false }

namespace State

/-! ## The callbacks of `gatttool.c` -/

/-- `fprintf` to the log. -/
def write (state : State) (records : List Record) : State :=
  { state with log := state.log ++ records }

/-- `primary_all_cb` of `gatttool.c`. -/
def primaryAllCb (state : State) (status : UInt8) (services : List Primary) : State :=
  if status ≠ 0 then state
  else
    { state.write (services.map fun prim => .service prim.start prim.endHandle prim.uuid) with
      gMaxHandle := (services.getLast?.map Primary.endHandle).getD state.gMaxHandle }

/-- `gatt_read_char` for the next place of `char_value_handles_to_read`. -/
def gattReadChar (state : State) (handle : UInt16) : State :=
  { state with
    charValueHandlesToRead := state.charValueHandlesToRead ++ [handle]
    queue := state.queue ++ [.read state.charValueHandlesToRead.length handle none] }

/-- The body of the loop of `char_discovered_cb`. -/
def charDiscovered (state : State) (chars : Characteristic) : State :=
  let written := state.write
    [.characteristic chars.handle chars.properties chars.valueHandle chars.uuid]
  if chars.readable then written.gattReadChar chars.valueHandle else written

/-- `char_discovered_cb` of `gatttool.c`. -/
def charDiscoveredCb (state : State) (status : UInt8) (characteristics : List Characteristic) :
    State :=
  if status ≠ 0 then state else characteristics.foldl charDiscovered state

/-- `char_read_cb`. -/
def charReadCb (state : State) (index : Nat) (status : UInt8) (pdu : Pdu) : State :=
  if status ≠ 0 then state
  else match decReadResp pdu with
    | none => state
    | some value =>
        state.write [.charValue (state.charValueHandlesToRead.getD index 0) value]

/-- The comparison at the end of `char_desc_cb`. -/
def compareMaxHandle (state : State) (status : UInt8) (handle : UInt16) : State :=
  if handle = state.gMaxHandle then
    { state with
      quit := true
      ghost := { state.ghost with
        quitAtMaxHandle := state.ghost.quitAtMaxHandle || decide (status = 0) } }
  else state

/-- `char_desc_cb`: after an empty list `desc` is unset. -/
def charDescCb (stray : Stray) (state : State) (status : UInt8) (descriptors : List Descriptor) :
    State :=
  let written :=
    { state.write (descriptors.map fun desc => .descriptor desc.handle desc.uuid) with
      quit := state.quit || decide (status ≠ 0) }
  match descriptors.getLast?.map Descriptor.handle |>.or stray.descHandle with
  | some handle => written.compareMaxHandle status handle
  | none => { written with crashed := true }

/-! ## What the callbacks change -/

/-- The value handles that `char_discovered_cb` reads. -/
def readHandles (characteristics : List Characteristic) : List UInt16 :=
  (characteristics.filter Characteristic.readable).map Characteristic.valueHandle

/-- The reads of value handles whose first one gets the given place. -/
def readOps (first : Nat) (handles : List UInt16) : List Op :=
  (handles.zipIdx first).map fun handle => .read handle.2 handle.1 none

theorem isRead_of_mem_readOps {first : Nat} {handles : List UInt16} {op : Op}
    (member : op ∈ readOps first handles) : op.isRead = true := by
  obtain ⟨_, _, rfl⟩ := List.mem_map.mp member
  rfl

theorem exists_mem_readOps {handles : List UInt16} {index : Nat}
    (issued : index < handles.length) : ∃ handle, Op.read index handle none ∈ readOps 0 handles := by
  refine ⟨handles[index], List.mem_map.mpr ⟨(handles[index], index), ?_, rfl⟩⟩
  rw [List.mem_zipIdx_iff_getElem?]
  exact List.getElem?_eq_getElem issued

theorem primaryAllCb_error (state : State) {status : UInt8} (error : status ≠ 0)
    (services : List Primary) : state.primaryAllCb status services = state := by
  rw [primaryAllCb, if_pos error]

theorem primaryAllCb_ok (state : State) (services : List Primary) :
    ∃ log, state.primaryAllCb 0 services =
      { state with
        log
        gMaxHandle := (services.getLast?.map Primary.endHandle).getD state.gMaxHandle } :=
  ⟨_, rfl⟩

theorem charDiscoveredCb_error (state : State) {status : UInt8} (error : status ≠ 0)
    (characteristics : List Characteristic) :
    state.charDiscoveredCb status characteristics = state := by
  rw [charDiscoveredCb, if_pos error]

/-- One read is issued for each readable characteristic, in their order. -/
theorem charDiscoveredCb_ok (state : State) (characteristics : List Characteristic) :
    ∃ log, state.charDiscoveredCb 0 characteristics =
      { state with
        log
        charValueHandlesToRead := state.charValueHandlesToRead ++ readHandles characteristics
        queue := state.queue ++
          readOps state.charValueHandlesToRead.length (readHandles characteristics) } := by
  rw [charDiscoveredCb, if_neg (by decide)]
  induction characteristics generalizing state with
  | nil => exact ⟨state.log, by simp [readHandles, readOps]⟩
  | cons chars rest inductionHypothesis =>
      rw [List.foldl_cons]
      obtain ⟨log, same⟩ := inductionHypothesis (state.charDiscovered chars)
      refine ⟨log, ?_⟩
      rw [same]
      by_cases readable : chars.readable = true
      · simp [charDiscovered, readable, gattReadChar, write, readHandles, readOps,
          List.zipIdx_cons]
      · simp [charDiscovered, readable, write, readHandles]

theorem charReadCb_eq (state : State) (index : Nat) (status : UInt8) (pdu : Pdu) :
    ∃ log, state.charReadCb index status pdu = { state with log } := by
  unfold charReadCb
  split
  · exact ⟨state.log, rfl⟩
  · split
    · exact ⟨state.log, rfl⟩
    · exact ⟨_, rfl⟩

/-- The handle that `char_desc_cb` compares, if it does not crash. -/
def comparedHandle (stray : Stray) (descriptors : List Descriptor) : Option UInt16 :=
  (descriptors.getLast?.map Descriptor.handle).or stray.descHandle

theorem charDescCb_eq (stray : Stray) (state : State) (status : UInt8)
    (descriptors : List Descriptor) :
    ∃ log, charDescCb stray state status descriptors =
      let equal := comparedHandle stray descriptors = some state.gMaxHandle
      { state with
        log
        quit := state.quit || decide (status ≠ 0) || decide equal
        crashed := state.crashed || (comparedHandle stray descriptors).isNone
        ghost := { state.ghost with
          quitAtMaxHandle := state.ghost.quitAtMaxHandle ||
            (decide equal && decide (status = 0)) } } := by
  refine ⟨state.log ++ descriptors.map fun desc => .descriptor desc.handle desc.uuid, ?_⟩
  unfold charDescCb comparedHandle
  cases (descriptors.getLast?.map Descriptor.handle).or stray.descHandle with
  | none => simp [write]
  | some handle =>
      by_cases equal : handle = state.gMaxHandle
      · simp [compareMaxHandle, write, equal]
      · simp [compareMaxHandle, write, equal]

/-! ## The request queue -/

/-- The request that an operation sends. -/
def request (state : State) : Op → Request
  | .primary => .readByGroup state.dp.start
  | .characteristics => .readByType state.dc.start
  | .descriptors => .findInfo state.dd.start
  | .read _ handle none => .read handle
  | .read _ handle (some buffer) => .readBlob handle (UInt16.ofNat (buffer.length - 1))

/-- The read with this place has its answer. -/
def noteRead (state : State) (index : Nat) : State :=
  { state with
    ghost := { state.ghost with answeredReads := state.ghost.answeredReads ++ [index] } }

/-- The callback of an operation that has left the queue; `answer` tells whether
the status and the unit come from an answer. -/
def deliver (stray : Stray) (answer : Bool) (state : State) (op : Op) (status : UInt8)
    (pdu : Pdu) : State :=
  match op with
  | .primary =>
      match Gatttool.primaryAllCb stray state.dp status pdu with
      | .more dp => { state with dp, queue := state.queue ++ [.primary] }
      | .ended (err, primaries) =>
          { state with
            dp := { state.dp with primaries }
            ghost := { state.ghost with services := some err } }.primaryAllCb err primaries
  | .characteristics =>
      match Gatttool.charDiscoveredCb stray state.dc status pdu with
      | .more dc => { state with dc, queue := state.queue ++ [.characteristics] }
      | .ended (err, characteristics) =>
          { state with
            dc := { state.dc with characteristics }
            ghost := { state.ghost with
              characteristics := some err } }.charDiscoveredCb err characteristics
  | .descriptors =>
      match descDiscoveredCb stray state.dd status pdu with
      | .more dd => { state with dd, queue := state.queue ++ [.descriptors] }
      | .ended (err, descriptors) =>
          charDescCb stray
            { state with
              dd := { state.dd with descriptors }
              ghost := { state.ghost with descriptors := some err } } err descriptors
  | .read index handle buffer =>
      let next := match buffer with
        | none => readCharHelper status pdu
        | some bytes => readBlobHelper bytes status pdu
      match next with
      | .more bytes => { state with queue := .read index handle (some bytes) :: state.queue }
      | .ended (err, unit) =>
          (if answer then state.noteRead index else state).charReadCb index err unit

/-! ## Events -/

/-- The main loop has been left, or the process killed. -/
def isOver (state : State) : Bool := state.quit || state.crashed

/-- `connect_cb` after its test for an error. -/
def startDiscovery (state : State) : State :=
  { state with
    started := true, attached := true, queue := [.primary, .characteristics, .descriptors] }

end State

/-- What can happen to the process. -/
inductive Event where
  /-- `gatt_connect` returns no channel. -/
  | connectFails
  /-- `connect_cb` is called with an error. -/
  | connectError
  | connected
  /-- A unit arrives; the kernel takes a higher security level or not. -/
  | unit (pdu : Pdu) (raised : Bool)
  /-- The connection is lost, or ended because a request timed out. -/
  | disconnected
deriving DecidableEq, Repr

namespace State

/-- What a unit does to a process that still runs. -/
def receiveUnit (stray : Stray) (state : State) (pdu : Pdu) (raised : Bool) : State :=
  match state.queue with
  | [] => state
  | op :: rest =>
      match receive (state.request op) pdu raised with
      | .ignored | .retried => state
      | .answered status unit => deliver stray true { state with queue := rest } op status unit

/-- `disconnect_cb`: all requests fail, the outstanding one first. -/
def failAll (stray : Stray) (state : State) : State :=
  state.queue.foldl (fun state op => deliver stray false state op ecodeUnlikely [opError])
    { state with attached := false, queue := [] }

/-- One event. -/
def step (stray : Stray) (state : State) (event : Event) : State :=
  if state.isOver then state
  else match event with
    | .connectFails =>
        if state.started then state else { state with gotError := true, quit := true }
    | .connectError =>
        if state.started then state
        else { state.startDiscovery with gotError := true, quit := true }
    | .connected => if state.started then state else state.startDiscovery
    | .unit pdu raised => if state.attached then state.receiveUnit stray pdu raised else state
    | .disconnected => if state.attached then state.failAll stray else state

/-- The state after a sequence of events. -/
def after (stray : Stray) (events : List Event) (state : State) : State :=
  events.foldl (step stray) state

/-- The exit status, or `none` while the process runs. -/
def exitStatus (state : State) : Option Int :=
  if state.crashed then some (-11)
  else if state.quit then some (if state.gotError then 1 else 0)
  else none

end State

/-- Each read issued so far has been answered. -/
def IssuedAnswered (state : State) : Prop :=
  ∀ index < state.charValueHandlesToRead.length, index ∈ state.ghost.answeredReads

end NaiveBTSniffing.Gatttool
