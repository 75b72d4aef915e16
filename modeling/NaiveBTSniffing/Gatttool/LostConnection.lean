import NaiveBTSniffing.Gatttool.CompleteLog
import NaiveBTSniffing.Gatttool.DescriptorList

/-!
Contract: the log of a run that loses its connection.

All requests that wait fail then (`disconnect_cb`). Descriptor discovery still writes what
it has found, and a long read that has begun writes the bytes that it has, as if they were
the whole value. So the lines of each kind are still the first ones, but the last value
may be cut off (`log_of_lost`).

Does not own with which status the process exits (`Gatttool.ExitStatus`).
-/

namespace NaiveBTSniffing.Gatttool

open NaiveBTSniffing.Library
open Reads (charReadLines)

variable {stray : Stray} {server : Server}

/-! ## What the failed requests write -/

/-- The lines that an operation writes when it fails with the connection. -/
def State.lostLines (state : State) : Op → List Record
  | .primary | .characteristics => []
  | .descriptors => state.dd.descriptors.map Descriptor.record
  | .read _ _ none => []
  | .read index _ (some bytes) =>
      charReadLines (state.charValueHandlesToRead.getD index 0) 0 bytes

/-- A failed operation writes its lines, and leaves what the others write. -/
theorem State.deliver_lost (stray : Stray) (state : State) (op : Op) :
    (State.deliver stray false state op ecodeUnlikely [opError]).log =
        state.log ++ state.lostLines op ∧
      (State.deliver stray false state op ecodeUnlikely [opError]).lostLines =
        state.lostLines := by
  cases op with
  | primary =>
      have ended : Gatttool.primaryAllCb stray state.dp ecodeUnlikely [opError] =
          .ended (ecodeUnlikely, state.dp.primaries) := rfl
      simp only [deliver, ended]
      rw [primaryAllCb_error _ (by decide)]
      exact ⟨(List.append_nil _).symm, rfl⟩
  | characteristics =>
      have ended : Gatttool.charDiscoveredCb stray state.dc ecodeUnlikely [opError] =
          .ended (ecodeUnlikely, state.dc.characteristics) := rfl
      simp only [deliver, ended]
      rw [charDiscoveredCb_error _ (by decide)]
      exact ⟨(List.append_nil _).symm, rfl⟩
  | descriptors =>
      have ended : descDiscoveredCb stray state.dd ecodeUnlikely [opError] =
          .ended (ecodeUnlikely, state.dd.descriptors) := rfl
      simp only [deliver, ended]
      rw [log_charDescCb]
      obtain ⟨log, same⟩ := charDescCb_eq stray
        { state with ghost := { state.ghost with descriptors := some ecodeUnlikely } }
        ecodeUnlikely state.dd.descriptors
      exact ⟨rfl, by rw [same]; rfl⟩
  | read index handle buffer =>
      cases buffer with
      | none =>
          have ended : readCharHelper ecodeUnlikely [opError] =
              .ended (ecodeUnlikely, [opError]) := rfl
          simp only [deliver, ended]
          exact ⟨(List.append_nil _).symm, rfl⟩
      | some bytes =>
          have ended : readBlobHelper bytes ecodeUnlikely [opError] = .ended (0, bytes) := rfl
          simp only [deliver, ended]
          obtain ⟨log, same⟩ := charReadCb_eq state index 0 bytes
          exact ⟨log_charReadCb state index 0 bytes, by rw [if_neg (by decide), same]; rfl⟩

theorem State.log_failAll (stray : Stray) (state : State) :
    (state.failAll stray).log = state.log ++ state.queue.flatMap state.lostLines := by
  have each : ∀ (ops : List Op) (now : State), now.lostLines = state.lostLines →
      (ops.foldl (fun state op => State.deliver stray false state op ecodeUnlikely [opError])
        now).log = now.log ++ ops.flatMap state.lostLines := by
    intro ops
    induction ops with
    | nil => exact fun now _ => (List.append_nil _).symm
    | cons op rest inductionHypothesis =>
        intro now same
        obtain ⟨writes, kept⟩ := State.deliver_lost stray now op
        rw [List.foldl_cons, inductionHypothesis _ (kept.trans same), writes, same,
          List.append_assoc, List.flatMap_cons]
  exact each state.queue { state with attached := false, queue := [] } rfl

/-- The kind of lines that the callback of an operation writes. -/
def Op.lineKind : Op → LineKind
  | .primary => .service
  | .characteristics => .characteristic
  | .descriptors => .descriptor
  | .read .. => .charValue

theorem State.kind_lostLines (state : State) (op : Op) :
    ∀ record ∈ state.lostLines op, record.lineKind = op.lineKind := by
  intro record member
  cases op with
  | primary => exact absurd member List.not_mem_nil
  | characteristics => exact absurd member List.not_mem_nil
  | descriptors =>
      obtain ⟨desc, -, rfl⟩ := List.mem_map.mp member
      rfl
  | read index handle buffer =>
      cases buffer with
      | none => exact absurd member List.not_mem_nil
      | some bytes => exact kind_charReadLines record member

theorem State.ofKind_lostLines (state : State) (kind : LineKind) (ops : List Op) :
    ofKind kind (ops.flatMap state.lostLines) =
      (ops.filter fun op => decide (op.lineKind = kind)).flatMap state.lostLines := by
  induction ops with
  | nil => rfl
  | cons op rest inductionHypothesis =>
      rw [List.flatMap_cons, ofKind_append, inductionHypothesis]
      by_cases own : op.lineKind = kind
      · have kinds := state.kind_lostLines op
        rw [own] at kinds
        rw [ofKind_own kinds, List.filter_cons_of_pos (by simpa using own), List.flatMap_cons]
      · rw [ofKind_other (state.kind_lostLines op) own, List.filter_cons_of_neg (by simpa using own),
          List.nil_append]

/-- Descriptor discovery writes what it has found so far if it still asks. -/
theorem State.lostLines_descriptor (state : State) (ops : List Op) :
    ofKind .descriptor (ops.flatMap state.lostLines) =
      (List.replicate (ops.count .descriptors)
        (state.dd.descriptors.map Descriptor.record)).flatten := by
  have asks : (ops.filter fun op => decide (op.lineKind = .descriptor)) =
      List.replicate (ops.count .descriptors) .descriptors := by
    rw [← List.filter_beq]
    apply List.filter_congr
    intro op _
    cases op <;> rfl
  rw [ofKind_lostLines, asks, List.flatMap_replicate]
  rfl

theorem State.lostLines_charValue (state : State) (ops : List Op) :
    ofKind .charValue (ops.flatMap state.lostLines) =
      (ops.filter Op.isRead).flatMap state.lostLines := by
  have reads : (ops.filter fun op => decide (op.lineKind = .charValue)) = ops.filter Op.isRead := by
    apply List.filter_congr
    intro op _
    cases op <;> rfl
  rw [ofKind_lostLines, reads]

/-- The other procedures write nothing. -/
theorem State.lostLines_other (state : State) (ops : List Op) {kind : LineKind}
    (notDescriptor : kind ≠ .descriptor) (notValue : kind ≠ .charValue) :
    ofKind kind (ops.flatMap state.lostLines) = [] := by
  rw [ofKind_lostLines]
  apply List.flatMap_eq_nil_iff.mpr
  intro op member
  have own : op.lineKind = kind := by simpa using (List.mem_filter.mp member).2
  cases op with
  | primary => rfl
  | characteristics => rfl
  | descriptors => exact absurd own.symm notDescriptor
  | read index handle buffer => exact absurd own.symm notValue

/-- Reads that have not begun write nothing. -/
theorem State.lostLines_readOps (state : State) (first : Nat) (handles : List UInt16) :
    (State.readOps first handles).flatMap state.lostLines = [] := by
  apply List.flatMap_eq_nil_iff.mpr
  intro op member
  obtain ⟨entry, -, rfl⟩ := List.mem_map.mp member
  rfl

/-! ## Reads in progress -/

/-- The bytes of each read are those that answers of the server have brought. -/
def Begun (server : Server) (state : State) : Prop :=
  ∀ index handle buffer, Op.read index handle buffer ∈ state.queue →
    ∃ count, Asks (server.reads handle) none count buffer

theorem Begun.advance {before after : State} (begun : Begun server before)
    (advance : Advance stray server before after) : Begun server after := by
  intro index handle buffer member
  have behind : ∀ {first : Op} {rest : List Op}, before.queue = first :: rest →
      Op.read index handle buffer ∈ rest →
      ∃ count, Asks (server.reads handle) none count buffer := fun head inside =>
    begun index handle buffer (by rw [head]; exact List.mem_cons_of_mem _ inside)
  cases advance with
  | servicesAsk head asks => exact behind head (by simpa using member)
  | servicesEnd head ends raises writes => exact behind head member
  | charsAsk head asks => exact behind head (by simpa using member)
  | charsEnd head ends stores issues writes =>
      rw [issues] at member
      rcases List.mem_append.mp member with old | new
      · exact behind head old
      · obtain ⟨entry, -, same⟩ := List.mem_map.mp new
        obtain ⟨-, -, rfl⟩ := Op.read.inj same
        exact ⟨0, .zero⟩
  | descsAsk head asks => exact behind head (by simpa using member)
  | descsEnd head ends quits crashes writes => exact behind head member
  | readMore head asks =>
      rcases List.mem_cons.mp member with same | old
      · obtain ⟨rfl, rfl, rfl⟩ := Op.read.inj same
        obtain ⟨count, asked⟩ := begun _ _ _ (by rw [head]; exact List.mem_cons_self)
        exact ⟨count + 1, asked.succ asks⟩
      · exact behind head old
  | readEnd head ends writes => exact behind head member

theorem Server.LeadsTo.begun {state : State} (leads : server.LeadsTo stray state) :
    Begun server state := by
  induction leads with
  | refl =>
      intro index handle buffer member
      exact absurd member (by simp [State.step, State.isOver, State.initial, State.startDiscovery])
  | tail _ step inductionHypothesis =>
      obtain ⟨event, answers, rfl⟩ := step
      rcases answers.advance stray with same | advance
      · rw [same]
        exact inductionHypothesis
      · exact inductionHypothesis.advance advance

/-- The first bytes of a value, as many as some full units bring. -/
def CutOff (value part : List UInt8) : Prop :=
  ∃ units > 0, units * (mtu - 1) ≤ value.length ∧ part = value.take (units * (mtu - 1))

/-- A read in progress has the first bytes of the value. -/
theorem cutOff_of_asks {handle : UInt16} {value : List UInt8} {count : Nat} {bytes : Pdu}
    (holds : server.Holds handle value)
    (asked : Asks (server.reads handle) none count (some bytes)) :
    ∃ part, bytes = 0x0b :: part ∧ CutOff value part := by
  have each : ∀ {count : Nat} {buffer : Option Pdu}, Asks (server.reads handle) none count buffer →
      (buffer = none ∧ count = 0) ∨ (0 < count ∧ count * (mtu - 1) ≤ value.length ∧
        buffer = .some (0x0b :: value.take (count * (mtu - 1)))) := by
    intro count buffer asked
    induction asked with
    | zero => exact .inl ⟨rfl, rfl⟩
    | @succ count buffer next before asks inductionHypothesis =>
        right
        rcases inductionHypothesis with ⟨rfl, rfl⟩ | ⟨some, room, rfl⟩
        · rw [reads_first holds] at asks
          split at asks
          · cases asks
          · next long =>
              rw [Next.more.injEq] at asks
              refine ⟨by omega, by omega, ?_⟩
              rw [← asks, Nat.zero_add, Nat.one_mul]
        · rw [reads_blob holds room] at asks
          split at asks
          · cases asks
          · next long =>
              rw [Next.more.injEq] at asks
              refine ⟨by omega, by rw [Nat.add_mul]; omega, ?_⟩
              rw [← asks, Nat.add_mul, Nat.one_mul]
  rcases each asked with ⟨nothing, -⟩ | ⟨some, room, same⟩
  · cases nothing
  · exact ⟨_, Option.some.inj same, count, some, room, rfl⟩

/-! ## The log -/

/-- What descriptor discovery has found is the beginning of what it ends with. -/
theorem descriptors_isPrefix {dd : DiscoverDesc} {count : Nat} {result : UInt8 × List Descriptor}
    (converses : Converses (server.descriptors stray) dd count result) :
    dd.descriptors <+: result.2 := by
  induction converses with
  | @last dd result ends =>
      let reply := server.reply (.findInfo dd.start)
      rcases descDiscoveredCb_list stray dd ⟨reply.1, reply.2, 0⟩ with
        ⟨start, asks⟩ | ⟨err, endsToo⟩
      · exact absurd (ends.symm.trans asks) (by simp)
      · have same := ends.symm.trans endsToo
        rw [Next.ended.injEq] at same
        rw [same]
        exact List.prefix_append _ _
  | @more dd next count result asks rest inductionHypothesis =>
      let reply := server.reply (.findInfo dd.start)
      rcases descDiscoveredCb_list stray dd ⟨reply.1, reply.2, 0⟩ with
        ⟨start, asksToo⟩ | ⟨err, ends⟩
      · have same := asks.symm.trans asksToo
        rw [Next.more.injEq] at same
        rw [same] at inductionHypothesis
        exact (List.prefix_append _ _).trans inductionHypothesis
      · exact absurd (asks.symm.trans ends) (by simp)

section Provided

variable {table : AttributeTable} {values : UInt16 → Option (List UInt8)} {state : State}
  {results : server.Results stray}

theorem Stands.lost {left : Nat}
    (stands : Stands .descriptors .descriptor results.descriptorLines
      (fun left => Converses (server.descriptors stray) state.dd left results.descriptors)
      state left) :
    ofKind .descriptor (state.failAll stray).log <+: results.descriptorLines := by
  rw [State.log_failAll, ofKind_append, State.lostLines_descriptor]
  cases stands with
  | asks queued rest silent =>
      rw [silent, queued, List.replicate_one, List.flatten_singleton, List.nil_append]
      exact (descriptors_isPrefix rest).map _
  | ended gone told =>
      simp [told, gone]

/-- The read in progress, if it has begun, ends with the first bytes of its value. -/
theorem ReadsStand.lost {left : Nat} (stands : ReadsStand results state left)
    (begun : Begun server state) (provides : server.Provides table values)
    (handles : results.handles = table.valueHandles) :
    ofKind .charValue (state.failAll stray).log <+: results.valueLines ∨
      ∃ whole handle value part, CutOff value part ∧
        whole ++ [.charValue handle value] <+: results.valueLines ∧
        ofKind .charValue (state.failAll stray).log = whole ++ [.charValue handle part] := by
  have told' := stands.isPrefix.1
  rw [State.log_failAll, ofKind_append, State.lostLines_charValue]
  cases stands with
  | unissued asked reads stores silent =>
      rw [reads, List.flatMap_nil, List.append_nil]
      exact .inl told'
  | ended gone reads told =>
      rw [reads, List.flatMap_nil, List.append_nil]
      exact .inl told'
  | @reading done more handle buffer left gone split reads stores rest told =>
      rw [reads, List.flatMap_cons, State.lostLines_readOps, List.append_nil]
      have waiting : Op.read done.length handle buffer ∈ state.queue := by
        apply List.mem_of_mem_filter (p := Op.isRead)
        rw [reads]
        exact List.mem_cons_self
      have member : handle ∈ results.handles := by
        rw [split]
        exact List.mem_append_right _ List.mem_cons_self
      have given := provides.values handle (handles ▸ member)
      obtain ⟨count, asked⟩ := begun _ _ _ waiting
      have ends := results.valuesEnd_of_mem member
      cases buffer with
      | none =>
          left
          rw [State.lostLines, List.append_nil]
          exact told'
      | some bytes =>
          cases known : values handle with
          | none =>
              rw [known] at given
              obtain ⟨ecode, unit, -, refused⟩ := reads_of_refuses given
              have first := Converses.lt_of_asks asked (.last refused)
              obtain rfl : count = 0 := by omega
              cases asked
          | some value =>
              rw [known] at given
              obtain ⟨part, rfl, cut⟩ := cutOff_of_asks given asked
              obtain ⟨_, complete⟩ := read_complete given
              have line : results.valueLine handle = [.charValue handle value] := by
                rw [Server.Results.valueLine, (ends.unique complete).2]
                rfl
              have place : state.charValueHandlesToRead.getD done.length 0 = handle := by
                rw [stores, split]
                simp
              right
              refine ⟨done.flatMap results.valueLine, handle, value, part, cut, ?_, ?_⟩
              · rw [Server.Results.valueLines, split, List.flatMap_append, List.flatMap_cons, line,
                  ← List.append_assoc]
                exact List.prefix_append _ _
              · rw [told, State.lostLines, place]
                rfl

/-- When the connection is lost, the lines of each kind are still the first ones that the
table and the values give, except that the last value may be cut off. -/
theorem log_of_lost (stray : Stray) (server : Server) (table : AttributeTable)
    (values : UInt16 → Option (List UInt8)) (state : State)
    (provides : server.Provides table values) (leads : server.LeadsTo stray state) :
    let log := (state.step stray .disconnected).log
    (∀ kind, kind ≠ .charValue → ofKind kind log <+: ofKind kind (table.lines values)) ∧
      (ofKind .charValue log <+: ofKind .charValue (table.lines values) ∨
        ∃ whole handle value part, CutOff value part ∧
          whole ++ [.charValue handle value] <+: ofKind .charValue (table.lines values) ∧
          ofKind .charValue log = whole ++ [.charValue handle part]) := by
  obtain ⟨results, lines, handles, -⟩ := provides.exists_results stray
  rw [← lines]
  have before := leads.ofKind_log results
  by_cases ended : state.isOver = true
  · have same : state.step stray .disconnected = state := by simp [State.step, ended]
    rw [same]
    exact ⟨fun kind _ => (before kind).1, .inl (before .charValue).1⟩
  · have failed : state.step stray .disconnected = state.failAll stray := by
      simp [State.step, ended, leads.attached]
    obtain ⟨_, _, _, _, stage⟩ := leads.stage results
    rw [failed]
    refine ⟨fun kind notValue => ?_, ?_⟩
    · by_cases descriptor : kind = .descriptor
      · subst descriptor
        rw [results.ofKind_lines]
        exact stage.descriptors.lost
      · rw [State.log_failAll, ofKind_append, State.lostLines_other _ _ descriptor notValue,
          List.append_nil]
        exact (before kind).1
    · rw [results.ofKind_lines]
      exact stage.reads.lost leads.begun provides handles

end Provided

/-- A name that takes two units. -/
def longName (handle : UInt16) : Option (List UInt8) :=
  if handle = 3 then some (List.replicate 30 0x6e) else none

theorem provides_longName : (nameTable.server longName).Provides nameTable longName := by
  apply AttributeTable.provides_server
  · decide
  · intro handle value known
    unfold longName at known
    split at known
    · obtain rfl := Option.some.inj known
      decide
    · cases known

theorem log_of_lost_longName :
    let log := (((nameTable.server longName).run zeroStray 7).step zeroStray .disconnected).log
    (∀ kind, kind ≠ .charValue → ofKind kind log <+: ofKind kind (nameTable.lines longName)) ∧
      (ofKind .charValue log <+: ofKind .charValue (nameTable.lines longName) ∨
        ∃ whole handle value part, CutOff value part ∧
          whole ++ [.charValue handle value] <+: ofKind .charValue (nameTable.lines longName) ∧
          ofKind .charValue log = whole ++ [.charValue handle part]) :=
  log_of_lost zeroStray _ nameTable longName _ provides_longName (Server.leadsTo_run _ _ 7)

/-- There the name is cut off. -/
example : Record.charValue 3 (List.replicate 22 0x6e) ∈
    (((nameTable.server longName).run zeroStray 7).step zeroStray .disconnected).log := by decide

end NaiveBTSniffing.Gatttool
