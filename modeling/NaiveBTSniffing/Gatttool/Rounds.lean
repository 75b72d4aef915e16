import Mathlib.Logic.Relation
import NaiveBTSniffing.Gatttool.Tool

/-!
Contract: the discovery procedures of `gatttool` against a server.

The three procedures take turns in the one request queue, so how far each has
come when another ends is a matter of how many requests each needs. Owns the
runs in which a server answers and what one answer can do.

Does not own lost connections (`Gatttool.ExitStatus`), nor what the order of the
queue amounts to (`Gatttool.ReadOrder`, `Gatttool.LastHandle`).
-/

namespace NaiveBTSniffing.Gatttool

open NaiveBTSniffing.Library

/-! ## Servers -/

/-- The unit with which a server answers a discovery request. -/
abbrev Server : Type := Request → Pdu

namespace Server

variable (stray : Stray) (server : Server)

/-- The status and the unit that BlueZ passes to the callback. -/
def reply (request : Request) : UInt8 × Pdu :=
  match receive request (server request) false with
  | .answered status pdu => (status, pdu)
  | .ignored | .retried => (ecodeUnlikely, [opError])

/-- What service discovery does with the answer that it gets. -/
def services (dp : DiscoverPrimary) : Next DiscoverPrimary (UInt8 × List Primary) :=
  let reply := server.reply (.readByGroup dp.start)
  primaryAllCb stray dp reply.1 reply.2

/-- What characteristic discovery does with the answer that it gets. -/
def characteristics (dc : DiscoverChar) : Next DiscoverChar (UInt8 × List Characteristic) :=
  let reply := server.reply (.readByType dc.start)
  charDiscoveredCb stray dc reply.1 reply.2

/-- What descriptor discovery does with the answer that it gets. -/
def descriptors (dd : DiscoverDesc) : Next DiscoverDesc (UInt8 × List Descriptor) :=
  let reply := server.reply (.findInfo dd.start)
  descDiscoveredCb stray dd reply.1 reply.2

/-- The characteristics found in the first answers to characteristic discovery. -/
def characteristicsAfter : Nat → DiscoverChar → List Characteristic
  | 0, dc => dc.characteristics
  | count + 1, dc =>
      match server.characteristics stray dc with
      | .more next => characteristicsAfter count next
      | .ended (_, found) => found

/-- The event is an answer of the server to the outstanding request: to a
discovery request its own answer, unless BlueZ does not take the unit as an
answer or repeats the request; to a read any answer. -/
def Serves (state : State) : Event → Prop
  | .unit pdu raised => ∀ op ∈ state.queue.head?, op.isRead = false → ∀ status unit,
      receive (state.request op) pdu raised = .answered status unit →
        pdu = server (state.request op)
  | _ => False

/-- The state was reached by answers of the server. -/
def Reaches (state : State) : Prop :=
  Relation.ReflTransGen
    (fun before after => ∃ event, server.Serves before event ∧ after = before.step stray event)
    (State.initial.step stray .connected) state

end Server

variable {stray : Stray} {server : Server}

/-- Raising the security level only ever repeats a request. -/
theorem receive_raised {request : Request} {pdu unit : Pdu} {raised : Bool}
    {status : UInt8} (answered : receive request pdu raised = .answered status unit) :
    receive request pdu false = .answered status unit := by
  cases raised with
  | false => exact answered
  | true =>
      revert answered
      unfold receive
      cases pdu.take mtu with
      | nil => exact id
      | cons opcode content =>
          simp only
          split
          · exact id
          · split
            · split
              · next ecode =>
                  by_cases secured : asksForSecurity ecode = true
                  · simp [secured]
                  · simp [secured]
              · exact id
            · exact id

/-- A response to the request is passed on, as far as it fits into a unit. -/
theorem receive_of_response {request : Request} {opcode : UInt8} (content : List UInt8)
    (response : reqOpcode opcode = some request.opcode) (found : opcode ≠ opError) :
    receive request (opcode :: content) false =
      .answered 0 ((opcode :: content).take mtu) := by
  have accepted : isResponse opcode = true := by simp [isResponse, response]
  simp [receive, mtu, accepted, found, response]

/-- An error for the request is passed on with its code. -/
theorem receive_of_error (request : Request) (low high ecode : UInt8) :
    receive request [opError, request.opcode, low, high, ecode] false =
      .answered ecode [opError, request.opcode, low, high, ecode] := by
  have accepted : isResponse opError = true := by decide
  simp [receive, mtu, accepted]

/-- What an answer of the server does: nothing, or it calls back the operation
at the head of the queue. -/
theorem Server.Serves.step_eq (stray : Stray) {state : State} {event : Event}
    (serves : server.Serves state event) :
    state.step stray event = state ∨
      ∃ op rest status unit, state.isOver = false ∧ state.queue = op :: rest ∧
        (op.isRead = false → server.reply (state.request op) = (status, unit)) ∧
        state.step stray event =
          State.deliver stray true { state with queue := rest } op status unit := by
  by_cases isOver : state.isOver = true
  · exact Or.inl (by simp [State.step, isOver])
  · cases event with
    | unit pdu raised =>
        by_cases attached : state.attached = true
        · cases queue : state.queue with
          | nil => exact Or.inl (by simp [State.step, isOver, attached, State.receiveUnit, queue])
          | cons op rest =>
              cases received : receive (state.request op) pdu raised with
              | ignored =>
                  exact Or.inl (by
                    simp [State.step, isOver, attached, State.receiveUnit, queue, received])
              | retried =>
                  exact Or.inl (by
                    simp [State.step, isOver, attached, State.receiveUnit, queue, received])
              | answered status unit =>
                  refine Or.inr ⟨op, rest, status, unit, by simpa using isOver, rfl, ?_, ?_⟩
                  · intro discovery
                    have sent := serves op (by simp [queue]) discovery status unit received
                    rw [Server.reply, ← sent, receive_raised received]
                  · simp [State.step, isOver, attached, State.receiveUnit, queue, received]
        · exact Or.inl (by simp [State.step, isOver, attached])
    | connectFails => exact serves.elim
    | connectError => exact serves.elim
    | connected => exact serves.elim
    | disconnected => exact serves.elim

variable (stray server) in
/-- One callback: what has become of the state after the operation at the head of
the queue. -/
inductive Progress (state : State) : State → Prop
  | servicesAsk {rest : List Op} {dp : DiscoverPrimary} (head : state.queue = .primary :: rest)
      (asks : server.services stray state.dp = .more dp) :
      Progress state { state with dp, queue := rest ++ [.primary] }
  | servicesEnd {rest : List Op} {err : UInt8} {primaries : List Primary} (log : List Record)
      (head : state.queue = .primary :: rest)
      (ends : server.services stray state.dp = .ended (err, primaries)) :
      Progress state
        { state with
          dp := { state.dp with primaries }
          queue := rest
          log
          gMaxHandle :=
            if err = 0 then (primaries.getLast?.map Primary.endHandle).getD state.gMaxHandle
            else state.gMaxHandle
          ghost := { state.ghost with services := some err } }
  | charsAsk {rest : List Op} {dc : DiscoverChar} (head : state.queue = .characteristics :: rest)
      (asks : server.characteristics stray state.dc = .more dc) :
      Progress state { state with dc, queue := rest ++ [.characteristics] }
  | charsEnd {rest : List Op} {err : UInt8} {characteristics : List Characteristic}
      (log : List Record) (head : state.queue = .characteristics :: rest)
      (ends : server.characteristics stray state.dc = .ended (err, characteristics)) :
      Progress state
        { state with
          dc := { state.dc with characteristics }
          queue := rest ++
            if err = 0 then
              State.readOps state.charValueHandlesToRead.length
                (State.readHandles characteristics)
            else []
          charValueHandlesToRead := state.charValueHandlesToRead ++
            if err = 0 then State.readHandles characteristics else []
          log
          ghost := { state.ghost with characteristics := some err } }
  | descsAsk {rest : List Op} {dd : DiscoverDesc} (head : state.queue = .descriptors :: rest)
      (asks : server.descriptors stray state.dd = .more dd) :
      Progress state { state with dd, queue := rest ++ [.descriptors] }
  | descsEnd {rest : List Op} {err : UInt8} {descriptors : List Descriptor} (log : List Record)
      (head : state.queue = .descriptors :: rest)
      (ends : server.descriptors stray state.dd = .ended (err, descriptors)) :
      Progress state
        { state with
          dd := { state.dd with descriptors }
          queue := rest
          log
          quit := state.quit || decide (err ≠ 0) ||
            decide (State.comparedHandle stray descriptors = some state.gMaxHandle)
          crashed := state.crashed || (State.comparedHandle stray descriptors).isNone
          ghost := { state.ghost with
            descriptors := some err
            quitAtMaxHandle := state.ghost.quitAtMaxHandle ||
              (decide (State.comparedHandle stray descriptors = some state.gMaxHandle) &&
                decide (err = 0)) } }
  | readMore {rest : List Op} {index : Nat} {handle : UInt16} {buffer bytes : Option Pdu}
      (head : state.queue = .read index handle buffer :: rest) :
      Progress state { state with queue := .read index handle bytes :: rest }
  | readEnd {rest : List Op} {index : Nat} {handle : UInt16} {buffer : Option Pdu}
      (log : List Record) (head : state.queue = .read index handle buffer :: rest) :
      Progress state
        { state with
          queue := rest
          log
          ghost := { state.ghost with
            answeredReads := state.ghost.answeredReads ++ [index] } }

theorem Server.Serves.progress (stray : Stray) {state : State} {event : Event}
    (serves : server.Serves state event) :
    state.step stray event = state ∨
      (state.isOver = false ∧ Progress stray server state (state.step stray event)) := by
  rcases serves.step_eq stray with
    same | ⟨op, rest, status, unit, runs, head, sent, stepped⟩
  · exact Or.inl same
  · refine Or.inr ⟨runs, ?_⟩
    rw [stepped]
    cases op with
    | primary =>
        have reply : server.reply (.readByGroup state.dp.start) = (status, unit) := sent rfl
        have answer : server.services stray state.dp =
            primaryAllCb stray state.dp status unit := by
          simp only [Server.services, reply]
        simp only [State.deliver, ← answer]
        split
        · next dp asks => exact .servicesAsk head asks
        · next err primaries ends =>
            by_cases ok : err = 0
            · subst ok
              obtain ⟨log, same⟩ := State.primaryAllCb_ok
                { state with
                  dp := { state.dp with primaries }
                  queue := rest
                  ghost := { state.ghost with services := some 0 } } primaries
              rw [same]
              exact .servicesEnd log head ends
            · rw [State.primaryAllCb_error _ ok]
              simpa [ok] using Progress.servicesEnd state.log head ends
    | characteristics =>
        have reply : server.reply (.readByType state.dc.start) = (status, unit) := sent rfl
        have answer : server.characteristics stray state.dc =
            charDiscoveredCb stray state.dc status unit := by
          simp only [Server.characteristics, reply]
        simp only [State.deliver, ← answer]
        split
        · next dc asks => exact .charsAsk head asks
        · next err characteristics ends =>
            by_cases ok : err = 0
            · subst ok
              obtain ⟨log, same⟩ := State.charDiscoveredCb_ok
                { state with
                  dc := { state.dc with characteristics }
                  queue := rest
                  ghost := { state.ghost with characteristics := some 0 } } characteristics
              rw [same]
              simpa using Progress.charsEnd log head ends
            · rw [State.charDiscoveredCb_error _ ok]
              simpa [ok] using Progress.charsEnd state.log head ends
    | descriptors =>
        have reply : server.reply (.findInfo state.dd.start) = (status, unit) := sent rfl
        have answer : server.descriptors stray state.dd =
            descDiscoveredCb stray state.dd status unit := by
          simp only [Server.descriptors, reply]
        simp only [State.deliver, ← answer]
        split
        · next dd asks => exact .descsAsk head asks
        · next err descriptors ends =>
            obtain ⟨log, same⟩ := State.charDescCb_eq stray
              { state with
                dd := { state.dd with descriptors }
                queue := rest
                ghost := { state.ghost with descriptors := some err } } err descriptors
            rw [same]
            exact .descsEnd log head ends
    | read index handle buffer =>
        simp only [State.deliver]
        split
        · next bytes _ => exact .readMore head
        · next err value _ =>
            obtain ⟨log, same⟩ := State.charReadCb_eq
              (State.noteRead { state with queue := rest } index) index err value
            rw [if_pos trivial, same]
            exact .readEnd log head

/-- What holds at the start and survives each callback holds in every state that
answers of the server lead to. -/
theorem Server.Reaches.invariant {holds : State → Prop}
    (first : holds (State.initial.step stray .connected))
    (kept : ∀ before after, before.isOver = false → holds before →
      Progress stray server before after → holds after) {state : State}
    (reaches : server.Reaches stray state) : holds state := by
  induction reaches with
  | refl => exact first
  | tail _ step inductionHypothesis =>
      obtain ⟨event, serves, rfl⟩ := step
      rcases serves.progress stray with same | ⟨runs, progress⟩
      · rw [same]
        exact inductionHypothesis
      · exact kept _ _ runs inductionHypothesis progress

/-! ## A server that answers every request -/

/-- The next answer of a server that answers reads, too. -/
def Server.answer (server : Server) (state : State) : Event :=
  .unit ((state.queue.head?.map fun op => server (state.request op)).getD []) false

/-- The state after so many answers. -/
def Server.run (stray : Stray) (server : Server) : Nat → State
  | 0 => State.initial.step stray .connected
  | answers + 1 =>
      (server.run stray answers).step stray (server.answer (server.run stray answers))

theorem Server.serves_answer (server : Server) (state : State) :
    server.Serves state (server.answer state) := by
  intro op head _ _ _ _
  rw [Option.mem_def] at head
  simp [head]

theorem Server.reaches_run (stray : Stray) (server : Server) (answers : Nat) :
    server.Reaches stray (server.run stray answers) := by
  induction answers with
  | zero => exact .refl
  | succ answers inductionHypothesis =>
      exact inductionHypothesis.tail ⟨_, server.serves_answer _, rfl⟩

/-- Unset memory for runs that do not read it. -/
def zeroStray : Stray := { byte := fun _ => 0, descHandle := none }

/-- A server that has these answers, and otherwise the error that there is no
such attribute. -/
def Server.ofAnswers (answers : List (Request × Pdu)) : Server :=
  fun request => (answers.lookup request).getD [opError, request.opcode, 0, 0, ecodeAttrNotFound]

end NaiveBTSniffing.Gatttool
