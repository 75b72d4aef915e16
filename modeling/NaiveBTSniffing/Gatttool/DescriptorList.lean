import NaiveBTSniffing.Gatttool.Rounds

/-!
Contract: the descriptor lists that `char_desc_cb` is called with.

A discovery of descriptors is the list of its answers: the status and the unit
that `desc_discovered_cb` is called with, and how many descriptors it can
allocate for that unit. Owns the list that reaches `char_desc_cb` for every
sequence of answers, and when the handle it compares at its end is one of that
list.

Does not own what the rest of the process does meanwhile (`Gatttool.Tool`).
-/

namespace NaiveBTSniffing.Gatttool

open NaiveBTSniffing.Library

/-- `ATT_ECODE_INSUFF_RESOURCES`. -/
def ecodeInsuffResources : UInt8 := 0x11

/-- A call of `desc_discovered_cb`. -/
structure DescAnswer where
  status : UInt8
  pdu : Pdu
  /-- So many calls of `g_try_new0` succeed. -/
  memory : Nat
deriving DecidableEq, Repr

namespace DescAnswer

/-- The descriptors of a response. -/
def found (stray : Stray) (answer : DescAnswer) : List Descriptor :=
  if answer.status ≠ 0 then []
  else match decFindInfoResp stray answer.pdu with
    | none => []
    | some (list, format) => list.data.map (Descriptor.ofEntry stray (decide (format ≠ 0x01)))

/-- `elen` of `dec_find_info_resp`. -/
def entryLength (stray : Stray) (answer : DescAnswer) : Nat :=
  let format := stray.read answer.pdu 1
  if format = 0x01 then 4 else if format = 0x02 then 18 else 2

/-- `num` of `dec_find_info_resp`. -/
def entryCount (stray : Stray) (answer : DescAnswer) : Nat :=
  (answer.pdu.length + 2 ^ 64 - 2) % 2 ^ 64 / answer.entryLength stray % 2 ^ 16

/-- The answer is a Find Information Response with a complete entry, and there is
memory for it. -/
def BringsEntry (stray : Stray) (answer : DescAnswer) : Prop :=
  answer.status = 0 ∧ stray.read answer.pdu 0 = 0x05 ∧ 0 < answer.entryCount stray ∧
    0 < answer.memory

instance (stray : Stray) (answer : DescAnswer) : Decidable (answer.BringsEntry stray) :=
  inferInstanceAs (Decidable (_ ∧ _ ∧ _ ∧ _))

end DescAnswer

/-- `desc_discovered_cb`, which stops at the first descriptor it cannot allocate. -/
def descDiscovered (stray : Stray) (answer : DescAnswer) (dd : DiscoverDesc) :
    Next DiscoverDesc (UInt8 × List Descriptor) :=
  if answer.memory < (answer.found stray).length then
    .ended (ecodeInsuffResources, dd.descriptors ++ (answer.found stray).take answer.memory)
  else descDiscoveredCb stray dd answer.status answer.pdu

/-- `gatt_discover_desc` from this handle hears these answers and then calls
`char_desc_cb` with this status and list. -/
def PassesToCharDescCb (stray : Stray) (optStart : UInt16) (answers : List DescAnswer)
    (status : UInt8) (descriptors : List Descriptor) : Prop :=
  Settles (descDiscovered stray) { start := optStart, descriptors := [] } answers
    (status, descriptors)

/-- The handle that `char_desc_cb` compares is that of a descriptor of its list. -/
def ComparesGiven (stray : Stray) (descriptors : List Descriptor) : Prop :=
  ∃ desc ∈ descriptors, State.comparedHandle stray descriptors = some desc.handle

/-! ## The list -/

/-- What an answer adds to the list. -/
def DescAnswer.added (stray : Stray) (answer : DescAnswer) : List Descriptor :=
  (answer.found stray).take answer.memory

theorem descDiscoveredCb_list (stray : Stray) (dd : DiscoverDesc) (answer : DescAnswer) :
    (∃ start, descDiscoveredCb stray dd answer.status answer.pdu =
        .more { start, descriptors := dd.descriptors ++ answer.found stray }) ∨
      ∃ err, descDiscoveredCb stray dd answer.status answer.pdu =
        .ended (err, dd.descriptors ++ answer.found stray) := by
  unfold descDiscoveredCb DescAnswer.found
  by_cases failed : answer.status = 0
  · rw [if_neg (by rw [failed]; decide), if_neg (by simpa using failed),
      if_neg (by simpa using failed)]
    cases decFindInfoResp stray answer.pdu with
    | none => exact .inr ⟨_, by simp only [List.append_nil]; rfl⟩
    | some response =>
        simp only
        split
        · exact .inr ⟨_, rfl⟩
        · split
          · exact .inl ⟨_, rfl⟩
          · exact .inr ⟨_, rfl⟩
  · simp only [if_pos failed, List.append_nil]
    split
    · exact .inr ⟨_, rfl⟩
    · exact .inr ⟨_, rfl⟩

/-- One answer: the list grows by what the answer adds, whether the discovery goes
on or ends. -/
theorem descDiscovered_list (stray : Stray) (answer : DescAnswer) (dd : DiscoverDesc) :
    (∃ start, descDiscovered stray answer dd =
        .more { start, descriptors := dd.descriptors ++ answer.added stray }) ∨
      ∃ err, descDiscovered stray answer dd =
        .ended (err, dd.descriptors ++ answer.added stray) := by
  unfold descDiscovered DescAnswer.added
  by_cases short : answer.memory < (answer.found stray).length
  · rw [if_pos short]
    exact .inr ⟨_, rfl⟩
  · rw [if_neg short, List.take_of_length_le (by omega)]
    exact descDiscoveredCb_list stray dd answer

/-- `char_desc_cb` gets what all answers have added. -/
theorem descriptors_eq {stray : Stray} {optStart : UInt16} {answers : List DescAnswer}
    {status : UInt8} {descriptors : List Descriptor}
    (passes : PassesToCharDescCb stray optStart answers status descriptors) :
    descriptors = answers.flatMap (DescAnswer.added stray) := by
  have collected := passes.collects DiscoverDesc.descriptors Prod.snd (DescAnswer.added stray)
    (fun dd next answer asks => by
      cases descDiscovered_list stray answer dd with
      | inl goesOn =>
          obtain ⟨start, same⟩ := goesOn
          rw [asks, Next.more.injEq] at same
          rw [same]
      | inr stops =>
          obtain ⟨err, same⟩ := stops
          simp [asks] at same)
    (fun dd result answer ends => by
      cases descDiscovered_list stray answer dd with
      | inl goesOn =>
          obtain ⟨start, same⟩ := goesOn
          simp [ends] at same
      | inr stops =>
          obtain ⟨err, same⟩ := stops
          rw [ends, Next.ended.injEq] at same
          rw [same])
  simpa using collected

/-! ## Entries -/

theorem length_found (stray : Stray) (answer : DescAnswer) :
    (answer.found stray).length =
      if answer.status = 0 ∧ stray.read answer.pdu 0 = 0x05 then answer.entryCount stray else 0 := by
  unfold DescAnswer.found decFindInfoResp
  by_cases ok : answer.status = 0
  · by_cases response : stray.read answer.pdu 0 = 0x05
    · simp [ok, response, DescAnswer.entryCount, DescAnswer.entryLength, entries]
    · simp [ok, response]
  · simp [ok]

theorem added_ne_nil_iff (stray : Stray) (answer : DescAnswer) :
    answer.added stray ≠ [] ↔ answer.BringsEntry stray := by
  have counted := length_found stray answer
  rw [← List.length_pos_iff, DescAnswer.added, List.length_take, counted, DescAnswer.BringsEntry]
  split
  · next response =>
      simp only [response, true_and]
      omega
  · next other =>
      constructor
      · intro positive
        omega
      · intro brings
        exact absurd ⟨brings.1, brings.2.1⟩ other

/-- The units that a server's response is read into hold a complete entry when they
are as long as one. -/
theorem entryCount_pos_iff (stray : Stray) (answer : DescAnswer)
    (least : 2 ≤ answer.pdu.length) (most : answer.pdu.length ≤ mtu) :
    0 < answer.entryCount stray ↔ 2 + answer.entryLength stray ≤ answer.pdu.length := by
  have short : answer.pdu.length ≤ 23 := most
  have wrapped : (answer.pdu.length + 2 ^ 64 - 2) % 2 ^ 64 = answer.pdu.length - 2 := by omega
  unfold DescAnswer.entryCount
  rw [wrapped]
  unfold DescAnswer.entryLength
  simp only
  split
  · omega
  · split <;> omega

/-! ## The comparison -/

theorem comparesGiven_iff (stray : Stray) (descriptors : List Descriptor) :
    ComparesGiven stray descriptors ↔ descriptors ≠ [] := by
  unfold ComparesGiven State.comparedHandle
  constructor
  · intro given
    obtain ⟨desc, member, -⟩ := given
    exact List.ne_nil_of_mem member
  · intro nonempty
    have last := List.getLast?_eq_some_getLast nonempty
    exact ⟨_, List.getLast_mem nonempty, by rw [last]; rfl⟩

/-- Whatever answers a discovery gets, `char_desc_cb` compares the handle of a
descriptor of its list exactly when one of the answers brings an entry. -/
theorem charDescCb_comparesGiven_iff {stray : Stray} {optStart : UInt16}
    {answers : List DescAnswer} {status : UInt8} {descriptors : List Descriptor}
    (passes : PassesToCharDescCb stray optStart answers status descriptors) :
    ComparesGiven stray descriptors ↔ ∃ answer ∈ answers, answer.BringsEntry stray := by
  rw [comparesGiven_iff, descriptors_eq passes, Ne, List.flatMap_eq_nil_iff]
  constructor
  · intro some
    by_contra none
    apply some
    intro answer member
    by_contra adds
    exact none ⟨answer, member, (added_ne_nil_iff stray answer).mp adds⟩
  · intro brings nothing
    obtain ⟨answer, member, entry⟩ := brings
    exact (added_ne_nil_iff stray answer).mpr entry (nothing answer member)

/-- The whole of what `char_desc_cb` does follows: after an entry it does not
depend on what lies behind the unset pointer. -/
theorem charDescCb_congr {stray : Stray} {optStart : UInt16} {answers : List DescAnswer}
    {status : UInt8} {descriptors : List Descriptor}
    (passes : PassesToCharDescCb stray optStart answers status descriptors)
    (brings : ∃ answer ∈ answers, answer.BringsEntry stray) (state : State)
    (descHandle : Option UInt16) :
    State.charDescCb { stray with descHandle } state status descriptors =
      State.charDescCb stray state status descriptors := by
  have nonempty := (comparesGiven_iff stray descriptors).mp
    ((charDescCb_comparesGiven_iff passes).mpr brings)
  unfold State.charDescCb
  rw [List.getLast?_eq_some_getLast nonempty]
  rfl

/-! ## A device without descriptors -/

/-- The first request is answered with Attribute Not Found. -/
def notFound : DescAnswer :=
  { status := ecodeAttrNotFound, pdu := [0x01, 0x04, 0x01, 0x00, 0x0a], memory := 1 }

/-- The first request is answered with a response that holds half an entry. -/
def halfEntry : DescAnswer := { status := 0, pdu := [0x05, 0x01, 0x10, 0x00], memory := 1 }

/-- One entry, for handle `0xffff`. -/
def wholeEntry : DescAnswer :=
  { status := 0, pdu := [0x05, 0x01, 0xff, 0xff, 0x02, 0x29], memory := 1 }

theorem comparesGiven_wholeEntry :
    ∃ descriptors, PassesToCharDescCb zeroStray 1 [wholeEntry] 0 descriptors ∧
      ComparesGiven zeroStray descriptors := by
  have passes : PassesToCharDescCb zeroStray 1 [wholeEntry] 0 (wholeEntry.added zeroStray) :=
    .last (by decide)
  have brings : ∃ answer ∈ [wholeEntry], answer.BringsEntry zeroStray := ⟨wholeEntry, by decide⟩
  exact ⟨_, passes, (charDescCb_comparesGiven_iff passes).mpr brings⟩

theorem not_comparesGiven_notFound :
    ¬ ∀ (answers : List DescAnswer) (status : UInt8) (descriptors : List Descriptor),
      PassesToCharDescCb zeroStray 1 answers status descriptors →
        ComparesGiven zeroStray descriptors := by
  intro always
  have passes : PassesToCharDescCb zeroStray 1 [notFound] 0x0a [] := .last (by decide)
  have given := always [notFound] 0x0a [] passes
  exact (comparesGiven_iff zeroStray []).mp given rfl

example : PassesToCharDescCb zeroStray 1 [halfEntry] 0 [] := .last (by decide)

end NaiveBTSniffing.Gatttool
