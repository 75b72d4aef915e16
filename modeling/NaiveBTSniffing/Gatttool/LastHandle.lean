import NaiveBTSniffing.Gatttool.Rounds

/-!
Contract: whether the main loop has been quit once every request is answered.

The loop is quit at one place only, the end of descriptor discovery, where the
last handle is compared with the end handle of the service listed last, if
service discovery has ended by then. Owns which of the two ends first as an
invariant of the queue.
-/

namespace NaiveBTSniffing.Gatttool

open NaiveBTSniffing.Library

variable {stray : Stray} {server : Server}

/-! ## The handle that is compared -/

/-- `g_max_handle` after the callback of service discovery. -/
def maxHandle : UInt8 × List Primary → UInt16
  | (err, primaries) =>
      if err = 0 then (primaries.getLast?.map Primary.endHandle).getD 0xffff else 0xffff

/-- `g_max_handle` after so many answers to service discovery. -/
def Server.maxHandleAfter (stray : Stray) (server : Server) : Nat → DiscoverPrimary → UInt16
  | 0, _ => 0xffff
  | count + 1, dp =>
      match server.services stray dp with
      | .more next => Server.maxHandleAfter stray server count next
      | .ended result => maxHandle result

theorem maxHandleAfter_of_asks {count : Nat} {start dp : DiscoverPrimary}
    (asked : Asks (server.services stray) start count dp) :
    server.maxHandleAfter stray count start = 0xffff := by
  have more : ∀ extra, server.maxHandleAfter stray (count + extra) start =
      server.maxHandleAfter stray extra dp := by
    induction asked with
    | zero => simp
    | succ before asks inductionHypothesis =>
        intro extra
        rw [Nat.add_assoc, Nat.add_comm 1 extra, inductionHypothesis (extra + 1)]
        simp [Server.maxHandleAfter, asks]
  exact more 0

theorem maxHandleAfter_of_converses {count : Nat} {dp : DiscoverPrimary}
    {result : UInt8 × List Primary}
    (converses : Converses (server.services stray) dp count result) {answers : Nat}
    (enough : count ≤ answers) : server.maxHandleAfter stray answers dp = maxHandle result := by
  induction converses generalizing answers with
  | last ends =>
      cases answers with
      | zero => omega
      | succ answers => simp [Server.maxHandleAfter, ends]
  | more asks rest inductionHypothesis =>
      cases answers with
      | zero => omega
      | succ answers =>
          simp [Server.maxHandleAfter, asks,
            inductionHypothesis (Nat.le_of_succ_le_succ enough)]

variable (stray server) in
/-- Descriptor discovery ends with an error, or its last handle is the end handle
of the last service if service discovery has ended well in as many requests, and
`0xffff` otherwise. -/
def Server.QuitsLoop : Prop :=
  ∃ count err descriptors,
    Converses (server.descriptors stray) State.initial.dd count (err, descriptors) ∧
      (err ≠ 0 ∨ State.comparedHandle stray descriptors =
        some (server.maxHandleAfter stray count State.initial.dp))

variable (stray server) in
/-- Descriptor discovery ends well, with another last handle. -/
def Server.WaitsForever : Prop :=
  ∃ count descriptors handle,
    Converses (server.descriptors stray) State.initial.dd count (0, descriptors) ∧
      State.comparedHandle stray descriptors = some handle ∧
      handle ≠ server.maxHandleAfter stray count State.initial.dp

/-! ## The order of the queue -/

/-- The requests of service and of descriptor discovery. -/
def serviceRounds (queue : List Op) : List Op :=
  queue.filter fun op => decide (op = .primary ∨ op = .descriptors)

variable (stray server) in
/-- Service and descriptor discovery both ask, and take turns. -/
structure ServicesAsk (state : State) (asked descAsked : Nat) : Prop where
  services : Asks (server.services stray) State.initial.dp asked state.dp
  descs : Asks (server.descriptors stray) State.initial.dd descAsked state.dd
  order : serviceRounds state.queue = [.primary, .descriptors] ∧ asked = descAsked ∨
    serviceRounds state.queue = [.descriptors, .primary] ∧ asked = descAsked + 1
  unset : state.gMaxHandle = 0xffff

variable (stray server) in
/-- Service discovery has ended, descriptor discovery asks. -/
structure ServicesListed (state : State) (count descAsked : Nat)
    (result : UInt8 × List Primary) : Prop where
  services : Converses (server.services stray) State.initial.dp count result
  descs : Asks (server.descriptors stray) State.initial.dd descAsked state.dd
  order : serviceRounds state.queue = [.descriptors]
  within : count ≤ descAsked + 1
  set : state.gMaxHandle = maxHandle result

variable (stray server) in
/-- Descriptor discovery has ended. -/
structure Compared (state : State) : Prop where
  gone : .descriptors ∉ state.queue
  quit : state.quit = true ↔ server.QuitsLoop stray
  waits : state.exitStatus = none ↔ server.WaitsForever stray

variable (stray server) in
/-- Where service and descriptor discovery stand. -/
inductive ServiceTurn (state : State) : Prop
  | ask {asked descAsked : Nat} (turns : ServicesAsk stray server state asked descAsked)
  | listed {count descAsked : Nat} {result : UInt8 × List Primary}
      (listed : ServicesListed stray server state count descAsked result)
  | compared (compared : Compared stray server state)

theorem serviceTurn_start :
    ServiceTurn stray server (State.initial.step stray .connected) :=
  .ask
    { services := .zero
      descs := .zero
      order := Or.inl ⟨rfl, rfl⟩
      unset := rfl }

section Step

variable {before after : State}

@[simp] private theorem serviceRounds_append (front back : List Op) :
    serviceRounds (front ++ back) = serviceRounds front ++ serviceRounds back := by
  simp [serviceRounds]

private theorem serviceRounds_head {op : Op} (own : op = .primary ∨ op = .descriptors)
    (rest : List Op) : serviceRounds (op :: rest) = op :: serviceRounds rest := by
  simp [serviceRounds, own]

private theorem serviceRounds_other {op : Op} (other : ¬ (op = .primary ∨ op = .descriptors))
    (rest : List Op) : serviceRounds (op :: rest) = serviceRounds rest := by
  simp [serviceRounds, other]

private theorem serviceRounds_readOps (first : Nat) (handles : List UInt16) :
    serviceRounds (State.readOps first handles) = [] := by
  rw [serviceRounds, List.filter_eq_nil_iff]
  intro op member own
  have read := State.isRead_of_mem_readOps member
  rcases of_decide_eq_true own with rfl | rfl
  · exact absurd read (by decide)
  · exact absurd read (by decide)

/-- The end of descriptor discovery decides. -/
theorem compared_of_descsEnd {descAsked : Nat} {rest : List Op} {err : UInt8}
    {descriptors : List Descriptor} (runs : before.isOver = false)
    (descs : Asks (server.descriptors stray) State.initial.dd descAsked before.dd)
    (known : before.gMaxHandle = server.maxHandleAfter stray (descAsked + 1) State.initial.dp)
    (ends : server.descriptors stray before.dd = .ended (err, descriptors))
    (gone : .descriptors ∉ rest) (log : List Record) :
    Compared stray server
      { before with
        dd := { before.dd with descriptors }
        queue := rest
        log
        quit := before.quit || decide (err ≠ 0) ||
          decide (State.comparedHandle stray descriptors = some before.gMaxHandle)
        crashed := before.crashed || (State.comparedHandle stray descriptors).isNone
        ghost := { before.ghost with
          descriptors := some err
          quitAtMaxHandle := before.ghost.quitAtMaxHandle ||
            (decide (State.comparedHandle stray descriptors = some before.gMaxHandle) &&
              decide (err = 0)) } } := by
  have counted := descs.ends ends
  obtain ⟨notQuit, notCrashed⟩ : before.quit = false ∧ before.crashed = false := by
    simpa [State.isOver] using runs
  refine ⟨gone, ?_, ?_⟩
  · simp only [notQuit, Bool.false_or, Bool.or_eq_true, decide_eq_true_eq]
    constructor
    · intro quits
      exact ⟨_, _, _, counted, known ▸ quits⟩
    · rintro ⟨count, _, _, countedAgain, quits⟩
      obtain ⟨rfl, same⟩ := counted.unique countedAgain
      cases same
      rwa [known]
  · have waiting : ∀ (quit crashed : Bool) (error : Int),
        (if crashed then some (-11) else if quit then some error else none) = none ↔
          crashed = false ∧ quit = false := by
      intro quit crashed error
      cases crashed with
      | true => simp
      | false => cases quit <;> simp
    simp only [State.exitStatus, waiting, notQuit, notCrashed, Bool.false_or, Bool.or_eq_false_iff,
      decide_eq_false_iff_not, Option.isNone_eq_false_iff, not_not]
    constructor
    · rintro ⟨some, rfl, other⟩
      obtain ⟨handle, compared⟩ := Option.isSome_iff_exists.mp some
      refine ⟨_, _, handle, counted, compared, fun same => other ?_⟩
      rw [compared, known, same]
    · rintro ⟨count, _, handle, countedAgain, compared, other⟩
      obtain ⟨rfl, same⟩ := counted.unique countedAgain
      cases same
      refine ⟨by rw [compared]; rfl, rfl, fun same => other ?_⟩
      rw [compared, known] at same
      exact Option.some.inj same

private theorem serviceRounds_issue (ok : Prop) [Decidable ok] (rest : List Op) (first : Nat)
    (handles : List UInt16) :
    serviceRounds (rest ++ if ok then State.readOps first handles else []) =
      serviceRounds rest := by
  by_cases issued : ok
  · rw [if_pos issued, serviceRounds_append, serviceRounds_readOps, List.append_nil]
  · rw [if_neg issued, List.append_nil]

private theorem not_mem_of_serviceRounds {rest ops : List Op}
    (behind : serviceRounds rest = ops) (none : .descriptors ∉ ops) : .descriptors ∉ rest := by
  intro inside
  refine none (behind ▸ List.mem_filter.mpr ⟨inside, by simp⟩)

theorem ServicesAsk.step {asked descAsked : Nat}
    (turns : ServicesAsk stray server before asked descAsked) (runs : before.isOver = false)
    (progress : Progress stray server before after) : ServiceTurn stray server after := by
  have order := turns.order
  cases progress with
  | @servicesAsk rest dp head asks =>
      rw [head, serviceRounds_head (by decide)] at order
      rcases order with ⟨order, equal⟩ | ⟨order, _⟩
      · have behind : serviceRounds rest = [.descriptors] := (List.cons.inj order).2
        refine .ask { turns with
          services := turns.services.succ asks
          order := Or.inr ⟨?_, by omega⟩ }
        rw [serviceRounds_append, behind]
        rfl
      · exact absurd (List.cons.inj order).1 (by decide)
  | servicesEnd log head ends =>
      rw [head, serviceRounds_head (by decide)] at order
      rcases order with ⟨order, equal⟩ | ⟨order, _⟩
      · exact .listed
          { services := turns.services.ends ends
            descs := turns.descs
            order := (List.cons.inj order).2
            within := by omega
            set := by rw [turns.unset]; rfl }
      · exact absurd (List.cons.inj order).1 (by decide)
  | charsAsk head asks =>
      rw [head, serviceRounds_other (by decide)] at order
      exact .ask { turns with order := by simpa [serviceRounds] using order }
  | charsEnd log head ends =>
      rw [head, serviceRounds_other (by decide)] at order
      exact .ask { turns with order := by rwa [serviceRounds_issue] }
  | @descsAsk rest dd head asks =>
      rw [head, serviceRounds_head (by decide)] at order
      rcases order with ⟨order, _⟩ | ⟨order, equal⟩
      · exact absurd (List.cons.inj order).1 (by decide)
      · have behind : serviceRounds rest = [.primary] := (List.cons.inj order).2
        refine .ask { turns with
          descs := turns.descs.succ asks
          order := Or.inl ⟨?_, by omega⟩ }
        rw [serviceRounds_append, behind]
        rfl
  | descsEnd log head ends =>
      rw [head, serviceRounds_head (by decide)] at order
      rcases order with ⟨order, _⟩ | ⟨order, equal⟩
      · exact absurd (List.cons.inj order).1 (by decide)
      · have known : before.gMaxHandle =
            server.maxHandleAfter stray (descAsked + 1) State.initial.dp := by
          rw [turns.unset, ← equal, maxHandleAfter_of_asks turns.services]
        exact .compared (compared_of_descsEnd runs turns.descs known ends
          (not_mem_of_serviceRounds (List.cons.inj order).2 (by decide)) log)
  | readMore head =>
      rw [head, serviceRounds_other (by simp)] at order
      exact .ask { turns with order := by rwa [serviceRounds_other (by simp)] }
  | readEnd log head =>
      rw [head, serviceRounds_other (by simp)] at order
      exact .ask { turns with order }

theorem ServicesListed.step {count descAsked : Nat} {result : UInt8 × List Primary}
    (listed : ServicesListed stray server before count descAsked result)
    (runs : before.isOver = false) (progress : Progress stray server before after) :
    ServiceTurn stray server after := by
  have order := listed.order
  cases progress with
  | servicesAsk head asks =>
      rw [head, serviceRounds_head (by decide)] at order
      exact absurd (List.cons.inj order).1 (by decide)
  | servicesEnd log head ends =>
      rw [head, serviceRounds_head (by decide)] at order
      exact absurd (List.cons.inj order).1 (by decide)
  | charsAsk head asks =>
      rw [head, serviceRounds_other (by decide)] at order
      exact .listed { listed with order := by simpa [serviceRounds] using order }
  | charsEnd log head ends =>
      rw [head, serviceRounds_other (by decide)] at order
      exact .listed { listed with order := by rwa [serviceRounds_issue] }
  | @descsAsk rest dd head asks =>
      rw [head, serviceRounds_head (by decide)] at order
      have behind : serviceRounds rest = [] := (List.cons.inj order).2
      refine .listed { listed with
        descs := listed.descs.succ asks
        order := ?_
        within := Nat.le_succ_of_le listed.within }
      rw [serviceRounds_append, behind]
      rfl
  | descsEnd log head ends =>
      rw [head, serviceRounds_head (by decide)] at order
      have known : before.gMaxHandle =
          server.maxHandleAfter stray (descAsked + 1) State.initial.dp := by
        rw [listed.set, maxHandleAfter_of_converses listed.services listed.within]
      exact .compared (compared_of_descsEnd runs listed.descs known ends
        (not_mem_of_serviceRounds (List.cons.inj order).2 (by decide)) log)
  | readMore head =>
      rw [head, serviceRounds_other (by simp)] at order
      exact .listed { listed with order := by rwa [serviceRounds_other (by simp)] }
  | readEnd log head =>
      rw [head, serviceRounds_other (by simp)] at order
      exact .listed { listed with order }

/-- No other callback quits the loop. -/
theorem Compared.step (compared : Compared stray server before)
    (progress : Progress stray server before after) : Compared stray server after := by
  have gone := compared.gone
  cases progress with
  | servicesAsk head asks =>
      rw [head] at gone
      exact { compared with gone := by simpa using gone }
  | servicesEnd log head ends =>
      rw [head] at gone
      exact { compared with gone := by simpa using gone }
  | charsAsk head asks =>
      rw [head] at gone
      exact { compared with gone := by simpa using gone }
  | @charsEnd rest err characteristics log head ends =>
      rw [head] at gone
      have behind : .descriptors ∉ rest := by simpa using gone
      refine { compared with gone := fun inside => ?_ }
      rcases List.mem_append.mp inside with inside | inside
      · exact behind inside
      · split at inside
        · exact absurd (State.isRead_of_mem_readOps inside) (by decide)
        · exact absurd inside List.not_mem_nil
  | descsAsk head asks => exact absurd (head ▸ List.mem_cons_self) gone
  | descsEnd log head ends => exact absurd (head ▸ List.mem_cons_self) gone
  | readMore head =>
      rw [head] at gone
      exact { compared with gone := by simpa using gone }
  | readEnd log head =>
      rw [head] at gone
      exact { compared with gone := by simpa using gone }

theorem ServiceTurn.step (turn : ServiceTurn stray server before) (runs : before.isOver = false)
    (progress : Progress stray server before after) : ServiceTurn stray server after := by
  cases turn with
  | ask turns => exact turns.step runs progress
  | listed listed => exact listed.step runs progress
  | compared compared => exact .compared (compared.step progress)

end Step

/-- Once no request is queued or outstanding, the loop has been quit exactly if
the server's answers end descriptor discovery with an error or at the compared
handle; when they end it elsewhere, the process waits. -/
theorem quit_iff_of_queue_nil (stray : Stray) (server : Server) (state : State)
    (reaches : server.Reaches stray state) (idle : state.queue = []) :
    (state.quit = true ↔ server.QuitsLoop stray) ∧
      (state.exitStatus = none ↔ server.WaitsForever stray) := by
  have turn : ServiceTurn stray server state :=
    reaches.invariant serviceTurn_start fun _ _ runs turn progress => turn.step runs progress
  cases turn with
  | ask turns =>
      have order := turns.order
      rw [idle] at order
      simp [serviceRounds] at order
  | listed listed =>
      have order := listed.order
      rw [idle] at order
      simp [serviceRounds] at order
  | compared compared => exact ⟨compared.quit, compared.waits⟩

/-- One service up to handle `0xffff` with attributes 1 to 3 only. -/
def openEnd : Server :=
  .ofAnswers
    [(.readByGroup 1, [0x11, 6, 1, 0, 0xff, 0xff, 0x00, 0x18]),
      (.findInfo 1, [0x05, 1, 1, 0, 0x00, 0x28, 2, 0, 0x03, 0x28, 3, 0, 0x00, 0x2a])]

theorem quit_iff_openEnd :
    (openEnd.run zeroStray 4).queue = [] ∧
      ((openEnd.run zeroStray 4).quit = true ↔ openEnd.QuitsLoop zeroStray) ∧
      ((openEnd.run zeroStray 4).exitStatus = none ↔ openEnd.WaitsForever zeroStray) := by
  have idle : (openEnd.run zeroStray 4).queue = [] := by decide
  exact ⟨idle, quit_iff_of_queue_nil zeroStray openEnd _ (openEnd.reaches_run zeroStray 4) idle⟩

/-- Every request is answered and the loop still runs. -/
theorem not_quit_openEnd :
    openEnd.Reaches zeroStray (openEnd.run zeroStray 4) ∧
      (openEnd.run zeroStray 4).queue = [] ∧
      (openEnd.run zeroStray 4).quit = false ∧
      (openEnd.run zeroStray 4).exitStatus = none :=
  ⟨openEnd.reaches_run zeroStray 4, by decide, by decide, by decide⟩

end NaiveBTSniffing.Gatttool
