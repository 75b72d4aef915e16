import NaiveBTSniffing.Gatttool.Rounds

/-!
Contract: whether the reads have their answers when the loop is quit at
`g_max_handle`.

The reads are issued when characteristic discovery ends, behind a descriptor
request that already waits; from the next turn of descriptor discovery on they
stand before it. Owns that order as an invariant of the queue.
-/

namespace NaiveBTSniffing.Gatttool

open NaiveBTSniffing.Library

variable {stray : Stray} {server : Server}

/-! ## Characteristics found so far -/

/-- While characteristic discovery asks on, it has found what the answers so far
contain. -/
theorem characteristicsAfter_of_asks {count : Nat} {start dc : DiscoverChar}
    (asked : Asks (server.characteristics stray) start count dc) (more : Nat) :
    server.characteristicsAfter stray (count + more) start =
      server.characteristicsAfter stray more dc := by
  induction asked generalizing more with
  | zero => rw [Nat.zero_add]
  | succ before asks inductionHypothesis =>
      rw [Nat.add_assoc, Nat.add_comm 1 more, inductionHypothesis (more + 1)]
      simp [Server.characteristicsAfter, asks]

/-- After its end nothing more is found. -/
theorem characteristicsAfter_of_converses {count : Nat} {dc : DiscoverChar}
    {result : UInt8 × List Characteristic}
    (converses : Converses (server.characteristics stray) dc count result) {answers : Nat}
    (enough : count ≤ answers) : server.characteristicsAfter stray answers dc = result.2 := by
  induction converses generalizing answers with
  | last ends =>
      cases answers with
      | zero => omega
      | succ answers => simp [Server.characteristicsAfter, ends]
  | more asks rest inductionHypothesis =>
      cases answers with
      | zero => omega
      | succ answers =>
          simp [Server.characteristicsAfter, asks,
            inductionHypothesis (Nat.le_of_succ_le_succ enough)]

/-! ## Reads and their answers -/

/-- The read of each readable characteristic found so far has been issued and
answered. -/
def FoundAnswered (state : State) : Prop :=
  ∀ index chars, (state.dc.characteristics.filter Characteristic.readable)[index]? = some chars →
    state.charValueHandlesToRead[index]? = some chars.valueHandle ∧
      index ∈ state.ghost.answeredReads

variable (stray server) in
/-- Characteristic discovery ends well and takes fewer requests than descriptor
discovery, or none of the characteristics found by then is readable. -/
def Server.ReadsFirst : Prop :=
  ∃ count result, Converses (server.descriptors stray) State.initial.dd count result ∧
    ((∀ chars ∈ server.characteristicsAfter stray count State.initial.dc,
        chars.readable = false) ∨
      ∃ less found, less < count ∧
        Converses (server.characteristics stray) State.initial.dc less (0, found))

variable (stray server) in
/-- Characteristic discovery ends well, finds something readable and takes as
many requests as descriptor discovery. -/
def Server.ReadsLast : Prop :=
  ∃ count result found, Converses (server.descriptors stray) State.initial.dd count result ∧
    Converses (server.characteristics stray) State.initial.dc count (0, found) ∧
      ∃ chars ∈ found, chars.readable = true

/-- What is known when descriptor discovery ends the run. -/
def Judged (stray : Stray) (server : Server) (state : State) : Prop :=
  (FoundAnswered state ↔ server.ReadsFirst stray) ∧
    (IssuedAnswered state ↔ ¬ server.ReadsLast stray)

theorem foundAnswered_of_nothing_readable {state : State}
    (nothing : ∀ chars ∈ state.dc.characteristics, chars.readable = false) :
    FoundAnswered state := by
  intro index chars present
  have member := List.mem_of_getElem? present
  obtain ⟨inside, readable⟩ := List.mem_filter.mp member
  rw [nothing chars inside] at readable
  exact absurd readable (by decide)

theorem nothing_readable_of_unanswered {state : State} (found : FoundAnswered state)
    (unanswered : state.ghost.answeredReads = []) :
    ∀ chars ∈ state.dc.characteristics, chars.readable = false := by
  intro chars inside
  by_contra readable
  have member : chars ∈ state.dc.characteristics.filter Characteristic.readable :=
    List.mem_filter.mpr ⟨inside, by simpa using readable⟩
  obtain ⟨index, present⟩ := List.mem_iff_getElem?.mp member
  have answered := (found index chars present).2
  rw [unanswered] at answered
  exact absurd answered List.not_mem_nil

/-- Descriptor discovery ends while characteristic discovery still asks. -/
theorem judged_of_asks {state : State} {count : Nat} {result : UInt8 × List Descriptor}
    (descs : Converses (server.descriptors stray) State.initial.dd count result)
    (chars : Asks (server.characteristics stray) State.initial.dc count state.dc)
    (unread : state.charValueHandlesToRead = []) (unanswered : state.ghost.answeredReads = []) :
    Judged stray server state := by
  have found : server.characteristicsAfter stray count State.initial.dc =
      state.dc.characteristics := by
    simpa [Server.characteristicsAfter] using characteristicsAfter_of_asks chars 0
  refine ⟨⟨fun answered => ?_, ?_⟩, ?_⟩
  · refine ⟨count, result, descs, Or.inl ?_⟩
    rw [found]
    exact nothing_readable_of_unanswered answered unanswered
  · rintro ⟨other, _, descsAgain, quick⟩
    obtain ⟨rfl, -⟩ := descs.unique descsAgain
    rcases quick with nothing | ⟨less, _, fewer, ended⟩
    · rw [found] at nothing
      exact foundAnswered_of_nothing_readable nothing
    · have longer := ended.lt_of_asks chars
      omega
  · refine iff_of_true ?_ ?_
    · intro index inside
      rw [unread] at inside
      exact absurd inside (Nat.not_lt_zero index)
    · rintro ⟨other, _, _, descsAgain, ended, -⟩
      obtain ⟨rfl, -⟩ := descs.unique descsAgain
      exact absurd (ended.lt_of_asks chars) (Nat.lt_irrefl _)

/-- Descriptor discovery ends after characteristic discovery has ended. -/
theorem judged_of_converses {state : State} {count charCount : Nat} {status : UInt8}
    {result : UInt8 × List Descriptor}
    (descs : Converses (server.descriptors stray) State.initial.dd count result)
    (chars : Converses (server.characteristics stray) State.initial.dc charCount
      (status, state.dc.characteristics)) (before : charCount ≤ count)
    (issued : state.charValueHandlesToRead =
      if status = 0 then State.readHandles state.dc.characteristics else [])
    (same : charCount = count → state.ghost.answeredReads = [])
    (fewer : charCount < count → IssuedAnswered state)
    (errors : status ≠ 0 → state.ghost.answeredReads = []) :
    Judged stray server state := by
  have found : server.characteristicsAfter stray count State.initial.dc =
      state.dc.characteristics := characteristicsAfter_of_converses chars before
  have late : ¬ (charCount < count ∧ status = 0) → state.ghost.answeredReads = [] := by
    intro late
    by_cases ok : status = 0
    · have notFewer : ¬ charCount < count := fun early => late ⟨early, ok⟩
      exact same (by omega)
    · exact errors ok
  refine ⟨⟨fun answered => ?_, ?_⟩, ⟨fun answered => ?_, fun notLast => ?_⟩⟩
  · refine ⟨count, result, descs, ?_⟩
    by_cases early : charCount < count ∧ status = 0
    · exact Or.inr ⟨charCount, state.dc.characteristics, early.1, early.2 ▸ chars⟩
    · left
      rw [found]
      exact nothing_readable_of_unanswered answered (late early)
  · rintro ⟨other, _, descsAgain, quick⟩
    obtain ⟨rfl, -⟩ := descs.unique descsAgain
    rcases quick with nothing | ⟨less, _, early, ended⟩
    · rw [found] at nothing
      exact foundAnswered_of_nothing_readable nothing
    · obtain ⟨rfl, results⟩ := chars.unique ended
      have ok : status = 0 := congrArg Prod.fst results
      rw [if_pos ok] at issued
      intro index chars present
      have value : state.charValueHandlesToRead[index]? = some chars.valueHandle := by
        rw [issued, State.readHandles, List.getElem?_map, present, Option.map_some]
      exact ⟨value, fewer early index (List.getElem?_eq_some_iff.mp value).1⟩
  · rintro ⟨other, _, _, descsAgain, ended, some, inside, readable⟩
    obtain ⟨rfl, -⟩ := descs.unique descsAgain
    obtain ⟨equal, results⟩ := chars.unique ended
    obtain ⟨rfl, rfl⟩ := Prod.mk.inj results
    rw [if_pos rfl] at issued
    have nonempty : 0 < state.charValueHandlesToRead.length := by
      rw [issued, State.readHandles, List.length_map]
      exact List.length_pos_of_mem (List.mem_filter.mpr ⟨inside, readable⟩)
    have answeredFirst := answered 0 nonempty
    rw [same equal] at answeredFirst
    exact absurd answeredFirst List.not_mem_nil
  · by_cases early : charCount < count
    · exact fewer early
    · have equal : charCount = count := by omega
      have none : state.charValueHandlesToRead = [] := by
        by_cases ok : status = 0
        · rw [issued, if_pos ok, State.readHandles, List.map_eq_nil_iff, List.filter_eq_nil_iff]
          intro some inside readable
          exact notLast ⟨count, result, _, descs, equal ▸ ok ▸ chars, some, inside, readable⟩
        · rw [issued, if_neg ok]
      intro index inside
      rw [none] at inside
      exact absurd inside (Nat.not_lt_zero index)

/-! ## The order of the queue -/

/-- The requests other than those of service discovery. -/
def rounds (queue : List Op) : List Op :=
  queue.filter fun op => decide (op ≠ .primary)

def NoReads (queue : List Op) : Prop := ∀ op ∈ queue, op.isRead = false

@[simp] theorem noReads_nil : NoReads [] := by
  simp [NoReads]

@[simp] theorem noReads_cons {op : Op} {queue : List Op} :
    NoReads (op :: queue) ↔ op.isRead = false ∧ NoReads queue := by
  simp [NoReads]

@[simp] theorem noReads_append {front back : List Op} :
    NoReads (front ++ back) ↔ NoReads front ∧ NoReads back := by
  simp [NoReads, or_imp, forall_and]

variable (stray server) in
/-- Characteristic and descriptor discovery both ask, and take turns. -/
structure TakeTurns (state : State) (asked descAsked : Nat) : Prop where
  chars : Asks (server.characteristics stray) State.initial.dc asked state.dc
  descs : Asks (server.descriptors stray) State.initial.dd descAsked state.dd
  order : rounds state.queue = [.characteristics, .descriptors] ∧ asked = descAsked ∨
    rounds state.queue = [.descriptors, .characteristics] ∧ asked = descAsked + 1
  unissued : state.charValueHandlesToRead = []
  unanswered : state.ghost.answeredReads = []
  runs : state.ghost.quitAtMaxHandle = false

variable (stray server) in
/-- The reads are issued: behind the descriptor request in the first turn after
the end of characteristic discovery, before it in later turns. -/
structure Reading (state : State) (count descAsked : Nat) (status : UInt8)
    (front back : List Op) : Prop where
  chars : Converses (server.characteristics stray) State.initial.dc count
    (status, state.dc.characteristics)
  descs : Asks (server.descriptors stray) State.initial.dd descAsked state.dd
  queue : state.queue = front ++ .descriptors :: back
  gone : .characteristics ∉ state.queue
  single : .descriptors ∉ front ++ back
  issued : state.charValueHandlesToRead =
    if status = 0 then State.readHandles state.dc.characteristics else []
  turn : count = descAsked + 1 ∧ NoReads front ∧ state.ghost.answeredReads = [] ∨
    count ≤ descAsked ∧ NoReads back
  pending : ∀ index < state.charValueHandlesToRead.length,
    index ∈ state.ghost.answeredReads ∨ ∃ handle buffer, Op.read index handle buffer ∈ state.queue
  failed : status ≠ 0 → state.ghost.answeredReads = [] ∧ NoReads state.queue
  runs : state.ghost.quitAtMaxHandle = false

variable (stray server) in
/-- Descriptor discovery has ended. -/
structure Listed (state : State) : Prop where
  gone : .descriptors ∉ state.queue
  judged : state.ghost.quitAtMaxHandle = true → state.isOver = true ∧ Judged stray server state

variable (stray server) in
/-- Where characteristic discovery, the reads and descriptor discovery stand. -/
inductive Turn (state : State) : Prop
  | both {asked descAsked : Nat} (turns : TakeTurns stray server state asked descAsked)
  | reading {count descAsked : Nat} {status : UInt8} {front back : List Op}
      (reads : Reading stray server state count descAsked status front back)
  | listed (listed : Listed stray server state)

theorem turn_start : Turn stray server (State.initial.step stray .connected) :=
  .both
    { chars := .zero
      descs := .zero
      order := Or.inl ⟨rfl, rfl⟩
      unissued := rfl
      unanswered := rfl
      runs := rfl }

section Step

variable {before after : State}

private theorem rounds_head {op : Op} {rest : List Op} (other : op ≠ .primary) :
    rounds (op :: rest) = op :: rounds rest := by
  simp [rounds, other]

private theorem rounds_primary (rest : List Op) : rounds (.primary :: rest) = rounds rest := by
  simp [rounds]

private theorem rounds_append (front back : List Op) :
    rounds (front ++ back) = rounds front ++ rounds back := by
  simp [rounds]

private theorem mem_rounds {op : Op} {queue : List Op} :
    op ∈ rounds queue ↔ op ∈ queue ∧ op ≠ .primary := by
  simp [rounds]

/-- A queue with one request besides those of service discovery. -/
private theorem split_of_rounds {queue : List Op} {op : Op} (single : rounds queue = [op]) :
    ∃ front back, queue = front ++ op :: back ∧
      (∀ other ∈ front, other = .primary) ∧ ∀ other ∈ back, other = .primary := by
  obtain ⟨front, back, same, before, _, behind⟩ := List.filter_eq_cons_iff.mp single
  refine ⟨front, back, same, fun other member => ?_, fun other member => ?_⟩
  · simpa using before other member
  · simpa using List.filter_eq_nil_iff.mp behind other member

/-- Characteristic discovery ends: the reads are put behind the descriptor
request that waits. -/
theorem TakeTurns.charsEnd {asked descAsked : Nat}
    (turns : TakeTurns stray server before asked descAsked) (equal : asked = descAsked)
    {front back : List Op} (frontOnly : ∀ op ∈ front, op = .primary)
    (backOnly : ∀ op ∈ back, op = .primary) {err : UInt8}
    {characteristics : List Characteristic}
    (ends : server.characteristics stray before.dc = .ended (err, characteristics))
    (log : List Record) :
    Turn stray server
      { before with
        dc := { before.dc with characteristics }
        queue := (front ++ .descriptors :: back) ++
          if err = 0 then
            State.readOps before.charValueHandlesToRead.length (State.readHandles characteristics)
          else []
        charValueHandlesToRead := before.charValueHandlesToRead ++
          if err = 0 then State.readHandles characteristics else []
        log
        ghost := { before.ghost with characteristics := some err } } := by
  rw [turns.unissued, List.nil_append, List.length_nil]
  generalize issuing : (if err = 0 then State.readOps 0 (State.readHandles characteristics)
    else []) = reads
  have areReads : ∀ op ∈ reads, op.isRead = true := by
    intro op member
    rw [← issuing] at member
    split at member
    · exact State.isRead_of_mem_readOps member
    · exact absurd member List.not_mem_nil
  have noReads : NoReads front := fun op member => frontOnly op member ▸ rfl
  have queue : (front ++ Op.descriptors :: back) ++ reads =
      front ++ .descriptors :: (back ++ reads) := by
    simp
  refine .reading (.mk (turns.chars.ends ends) turns.descs queue ?_ ?_ rfl
    (Or.inl ⟨by omega, noReads, turns.unanswered⟩) ?_ ?_ turns.runs)
  · simp only [List.mem_append, List.mem_cons]
    rintro ((inside | same | inside) | inside)
    · exact absurd (frontOnly _ inside) (by decide)
    · exact absurd same (by decide)
    · exact absurd (backOnly _ inside) (by decide)
    · exact absurd (areReads _ inside) (by decide)
  · simp only [List.mem_append]
    rintro (inside | inside | inside)
    · exact absurd (frontOnly _ inside) (by decide)
    · exact absurd (backOnly _ inside) (by decide)
    · exact absurd (areReads _ inside) (by decide)
  · intro index inside
    right
    by_cases ok : err = 0
    · rw [if_pos ok] at inside issuing
      obtain ⟨handle, member⟩ := State.exists_mem_readOps inside
      rw [issuing] at member
      exact ⟨handle, none, List.mem_append_right _ member⟩
    · rw [if_neg ok] at inside
      exact absurd inside (Nat.not_lt_zero index)
  · intro error
    rw [if_neg error] at issuing
    refine ⟨turns.unanswered, fun op member => ?_⟩
    rw [← issuing, List.append_nil] at member
    rcases List.mem_append.mp member with inside | inside
    · exact noReads op inside
    · rcases List.mem_cons.mp inside with rfl | inside
      · rfl
      · exact backOnly op inside ▸ rfl

theorem TakeTurns.step {asked descAsked : Nat}
    (turns : TakeTurns stray server before asked descAsked)
    (progress : Progress stray server before after) : Turn stray server after := by
  have order := turns.order
  cases progress with
  | servicesAsk head asks =>
      rw [head, rounds_primary] at order
      exact .both { turns with order := by simpa [rounds_append, rounds] using order }
  | servicesEnd log head ends =>
      rw [head, rounds_primary] at order
      exact .both { turns with order }
  | @charsAsk rest dc head asks =>
      rw [head, rounds_head (by decide)] at order
      rcases order with ⟨order, equal⟩ | ⟨order, _⟩
      · have behind : rounds rest = [.descriptors] := (List.cons.inj order).2
        refine .both { turns with
          chars := turns.chars.succ asks
          order := Or.inr ⟨?_, by omega⟩ }
        rw [rounds_append, behind]
        rfl
      · exact absurd (List.cons.inj order).1 (by decide)
  | charsEnd log head ends =>
      rw [head, rounds_head (by decide)] at order
      rcases order with ⟨order, equal⟩ | ⟨order, _⟩
      · obtain ⟨front, back, rfl, frontOnly, backOnly⟩ :=
          split_of_rounds (List.cons.inj order).2
        exact turns.charsEnd equal frontOnly backOnly ends log
      · exact absurd (List.cons.inj order).1 (by decide)
  | @descsAsk rest dd head asks =>
      rw [head, rounds_head (by decide)] at order
      rcases order with ⟨order, _⟩ | ⟨order, equal⟩
      · exact absurd (List.cons.inj order).1 (by decide)
      · have behind : rounds rest = [.characteristics] := (List.cons.inj order).2
        refine .both { turns with
          descs := turns.descs.succ asks
          order := Or.inl ⟨?_, by omega⟩ }
        rw [rounds_append, behind]
        rfl
  | @descsEnd rest err descriptors log head ends =>
      rw [head, rounds_head (by decide)] at order
      rcases order with ⟨order, _⟩ | ⟨order, equal⟩
      · exact absurd (List.cons.inj order).1 (by decide)
      · have behind : rounds rest = [.characteristics] := (List.cons.inj order).2
        refine .listed (.mk (fun inside => ?_) fun quits => ⟨?_, ?_⟩)
        · have among : .descriptors ∈ rounds rest := mem_rounds.mpr ⟨inside, by decide⟩
          rw [behind] at among
          exact absurd among (by decide)
        · simp only [turns.runs, Bool.false_or, Bool.and_eq_true] at quits
          simp [State.isOver, quits.1]
        · exact judged_of_asks (turns.descs.ends ends) (equal ▸ turns.chars) turns.unissued
            turns.unanswered
  | readMore head =>
      rw [head, rounds_head (by simp)] at order
      rcases order with ⟨order, _⟩ | ⟨order, _⟩
      · exact absurd (List.cons.inj order).1 (by simp)
      · exact absurd (List.cons.inj order).1 (by simp)
  | readEnd log head =>
      rw [head, rounds_head (by simp)] at order
      rcases order with ⟨order, _⟩ | ⟨order, _⟩
      · exact absurd (List.cons.inj order).1 (by simp)
      · exact absurd (List.cons.inj order).1 (by simp)

section Reading

variable {count descAsked : Nat} {status : UInt8} {front back rest : List Op}

theorem Reading.head_front {op : Op}
    (reads : Reading stray server before count descAsked status front back)
    (head : before.queue = op :: rest) (other : op ≠ .descriptors) :
    ∃ shorter, front = op :: shorter ∧ rest = shorter ++ .descriptors :: back := by
  have queue := reads.queue
  cases front with
  | nil =>
      rw [head, List.nil_append] at queue
      exact absurd (List.cons.inj queue).1 other
  | cons first shorter =>
      rw [head, List.cons_append] at queue
      obtain ⟨rfl, rfl⟩ := List.cons.inj queue
      exact ⟨shorter, rfl, rfl⟩

theorem Reading.head_descriptors
    (reads : Reading stray server before count descAsked status front back)
    (head : before.queue = .descriptors :: rest) : front = [] ∧ rest = back := by
  have queue := reads.queue
  cases front with
  | nil =>
      rw [head, List.nil_append] at queue
      exact ⟨rfl, (List.cons.inj queue).2⟩
  | cons first shorter =>
      rw [head, List.cons_append] at queue
      have first_eq := (List.cons.inj queue).1
      exact absurd (by simp [← first_eq]) reads.single

/-- In the turn of descriptor discovery the reads issued before its last turn
have been answered. -/
theorem Reading.answered_at_turn
    (reads : Reading stray server before count descAsked status front back)
    (head : before.queue = .descriptors :: rest) (early : count ≤ descAsked) :
    IssuedAnswered before := by
  obtain ⟨rfl, rfl⟩ := reads.head_descriptors head
  have noReads : NoReads rest := by
    rcases reads.turn with ⟨late, _⟩ | ⟨_, noReads⟩
    · omega
    · exact noReads
  intro index issued
  rcases reads.pending index issued with answered | ⟨handle, buffer, waits⟩
  · exact answered
  · rw [head] at waits
    rcases List.mem_cons.mp waits with same | waits
    · exact absurd same (by simp)
    · exact absurd (noReads _ waits) (by simp [Op.isRead])

theorem Reading.step
    (reads : Reading stray server before count descAsked status front back)
    (progress : Progress stray server before after) : Turn stray server after := by
  have gone := reads.gone
  have single := reads.single
  have turn := reads.turn
  have pending := reads.pending
  have failed := reads.failed
  cases progress with
  | servicesAsk head asks =>
      obtain ⟨shorter, rfl, rfl⟩ := reads.head_front head (by decide)
      have queue : shorter ++ Op.descriptors :: back ++ [.primary] =
          shorter ++ .descriptors :: (back ++ [.primary]) := by
        simp
      rw [head] at gone pending failed
      refine .reading (.mk reads.chars reads.descs queue ?_ ?_ reads.issued ?_ ?_ ?_ reads.runs)
      · simpa using gone
      · simpa using single
      · simpa [Op.isRead] using turn
      · simpa using pending
      · simpa [Op.isRead] using failed
  | servicesEnd log head ends =>
      obtain ⟨shorter, rfl, rfl⟩ := reads.head_front head (by decide)
      rw [head] at gone pending failed
      refine .reading (.mk reads.chars reads.descs rfl ?_ ?_ reads.issued ?_ ?_ ?_ reads.runs)
      · simpa using gone
      · simpa using single
      · simpa [Op.isRead] using turn
      · simpa using pending
      · simpa [Op.isRead] using failed
  | charsAsk head asks =>
      exact absurd (head ▸ List.mem_cons_self) reads.gone
  | charsEnd log head ends =>
      exact absurd (head ▸ List.mem_cons_self) reads.gone
  | @descsAsk rest dd head asks =>
      obtain ⟨rfl, rfl⟩ := reads.head_descriptors head
      rw [head] at gone pending failed
      refine .reading (.mk reads.chars (reads.descs.succ asks) rfl ?_ ?_ reads.issued
        (Or.inr ⟨?_, noReads_nil⟩) ?_ ?_ reads.runs)
      · simpa using gone
      · simpa using single
      · rcases turn with ⟨late, _⟩ | ⟨early, _⟩
        · omega
        · omega
      · simpa using pending
      · simpa [Op.isRead] using failed
  | @descsEnd rest err descriptors log head ends =>
      obtain ⟨rfl, rfl⟩ := reads.head_descriptors head
      refine .listed (.mk (by simpa using single) fun quits => ⟨?_, ?_⟩)
      · simp only [reads.runs, Bool.false_or, Bool.and_eq_true] at quits
        simp [State.isOver, quits.1]
      · have within : count ≤ descAsked + 1 := by
          rcases turn with ⟨late, _⟩ | ⟨early, _⟩
          · omega
          · omega
        refine judged_of_converses (reads.descs.ends ends) reads.chars within reads.issued ?_ ?_
          fun error => (failed error).1
        · intro late
          rcases turn with ⟨_, _, unanswered⟩ | ⟨early, _⟩
          · exact unanswered
          · omega
        · exact fun early => reads.answered_at_turn head (Nat.le_of_lt_succ early)
  | @readMore rest index handle buffer bytes head =>
      obtain ⟨shorter, rfl, rfl⟩ := reads.head_front head (by simp)
      rw [head] at gone pending failed
      refine .reading (.mk reads.chars reads.descs List.cons_append.symm ?_ ?_ reads.issued ?_ ?_ ?_
        reads.runs)
      · simpa using gone
      · simpa using single
      · simpa [Op.isRead] using turn
      · intro other issued
        rcases pending other issued with answered | ⟨value, bytes, waits⟩
        · exact Or.inl answered
        · right
          rcases List.mem_cons.mp waits with same | waits
          · cases same
            exact ⟨_, _, List.mem_cons_self⟩
          · exact ⟨value, bytes, List.mem_cons_of_mem _ waits⟩
      · simpa [Op.isRead] using failed
  | @readEnd rest index handle buffer log head =>
      obtain ⟨shorter, rfl, rfl⟩ := reads.head_front head (by simp)
      rw [head] at gone pending failed
      refine .reading (.mk reads.chars reads.descs rfl ?_ ?_ reads.issued (Or.inr ?_) ?_ ?_
        reads.runs)
      · simpa using gone
      · simpa using single
      · simpa [Op.isRead] using turn
      · intro other issued
        rcases pending other issued with answered | ⟨value, bytes, waits⟩
        · exact Or.inl (List.mem_append_left _ answered)
        · rcases List.mem_cons.mp waits with same | waits
          · cases same
            exact Or.inl (by simp)
          · exact Or.inr ⟨value, bytes, waits⟩
      · intro error
        exact absurd (failed error).2 (by simp [Op.isRead])

end Reading

theorem Listed.step (listed : Listed stray server before) (runs : before.isOver = false)
    (progress : Progress stray server before after) : Listed stray server after := by
  have gone := listed.gone
  have quiet : before.ghost.quitAtMaxHandle = false := by
    by_contra quits
    have isOver := (listed.judged (by simpa using quits)).1
    rw [runs] at isOver
    exact absurd isOver (by decide)
  cases progress with
  | servicesAsk head asks =>
      rw [head] at gone
      exact ⟨by simpa using gone, by simp [quiet]⟩
  | servicesEnd log head ends =>
      rw [head] at gone
      exact ⟨by simpa using gone, by simp [quiet]⟩
  | charsAsk head asks =>
      rw [head] at gone
      exact ⟨by simpa using gone, by simp [quiet]⟩
  | charsEnd log head ends =>
      rw [head] at gone
      refine ⟨?_, by simp [quiet]⟩
      simp only [List.mem_append, not_or]
      refine ⟨by simpa using gone, fun inside => ?_⟩
      split at inside
      · exact absurd (State.isRead_of_mem_readOps inside) (by decide)
      · exact absurd inside List.not_mem_nil
  | descsAsk head asks => exact absurd (head ▸ List.mem_cons_self) gone
  | descsEnd log head ends => exact absurd (head ▸ List.mem_cons_self) gone
  | readMore head =>
      rw [head] at gone
      exact ⟨by simpa using gone, by simp [quiet]⟩
  | readEnd log head =>
      rw [head] at gone
      exact ⟨by simpa using gone, by simp [quiet]⟩

theorem Turn.step (turn : Turn stray server before) (runs : before.isOver = false)
    (progress : Progress stray server before after) : Turn stray server after := by
  cases turn with
  | both turns => exact turns.step progress
  | reading reads => exact reads.step progress
  | listed listed => exact .listed (listed.step runs progress)

end Step

/-- When the loop is quit at `g_max_handle`, the reads of what characteristic
discovery has found have their answers exactly if it took fewer requests than
descriptor discovery, or nothing found is readable; the reads issued by then lack
them exactly if both took equally many. -/
theorem judged_of_quitAtMaxHandle (stray : Stray) (server : Server) (state : State)
    (reaches : server.Reaches stray state) (quits : state.ghost.quitAtMaxHandle = true) :
    Judged stray server state := by
  have turn : Turn stray server state :=
    reaches.invariant turn_start fun _ _ runs turn progress => turn.step runs progress
  cases turn with
  | both turns => exact absurd quits (by simp [turns.runs])
  | reading reads => exact absurd quits (by simp [reads.runs])
  | listed listed => exact (listed.judged quits).2

/-- One service with handles 1 to 3, whose one characteristic is readable: each
procedure takes two requests. -/
def equalTurns : Server :=
  .ofAnswers
    [(.readByGroup 1, [0x11, 6, 1, 0, 3, 0, 0x00, 0x18]),
      (.readByType 1, [0x09, 7, 2, 0, 0x02, 3, 0, 0x00, 0x2a]),
      (.findInfo 1, [0x05, 1, 1, 0, 0x00, 0x28, 2, 0, 0x03, 0x28, 3, 0, 0x00, 0x2a])]

theorem judged_equalTurns :
    (equalTurns.run zeroStray 6).ghost.quitAtMaxHandle = true ∧
      Judged zeroStray equalTurns (equalTurns.run zeroStray 6) := by
  have quits : (equalTurns.run zeroStray 6).ghost.quitAtMaxHandle = true := by decide
  exact ⟨quits, judged_of_quitAtMaxHandle zeroStray equalTurns _
    (equalTurns.reaches_run zeroStray 6) quits⟩

/-- The loop is quit at `g_max_handle` while the only read waits. -/
theorem not_foundAnswered_equalTurns :
    equalTurns.Reaches zeroStray (equalTurns.run zeroStray 6) ∧
      (equalTurns.run zeroStray 6).ghost.quitAtMaxHandle = true ∧
      ¬ FoundAnswered (equalTurns.run zeroStray 6) ∧
      ¬ IssuedAnswered (equalTurns.run zeroStray 6) := by
  refine ⟨equalTurns.reaches_run zeroStray 6, by decide, fun answered => ?_, fun answered => ?_⟩
  · have first := answered 0
      { handle := 2, properties := 2, valueHandle := 3, uuid := getUuid128 false
          (fun i => [0x00, 0x2a].getD i 0) 0 } (by decide)
    exact absurd first.2 (by decide)
  · have first := answered 0 (by decide)
    exact absurd first (by decide)

end NaiveBTSniffing.Gatttool
