import NaiveBTSniffing.Gatttool.AttributeTable
import NaiveBTSniffing.Gatttool.LongRead

/-!
Contract: a server with an attribute table and values.

`Server.Provides` is what is asked of the server; `AttributeTable.server` answers with one
declaration at a time and shows that there is such a server for each table
(`AttributeTable.provides_server`).

Does not own what a run against the server logs (`Gatttool.CompleteLog`).
-/

namespace NaiveBTSniffing.Gatttool

open NaiveBTSniffing.Library

/-! ## What is asked of the server -/

/-- The server answers a read of the handle with an error. -/
def Server.Refuses (server : Server) (handle : UInt16) : Prop :=
  ∃ low high ecode, ecode ≠ 0 ∧ server (.read handle) = [opError, 0x0a, low, high, ecode]

/-- The handles that are read, in the order of the table. -/
def AttributeTable.valueHandles (table : AttributeTable) : List UInt16 :=
  State.readHandles (table.characteristics.map CharDecl.found)

/-- The server declares the table, and gives or refuses the values of the characteristics
that may be read. There are at most 512 of these, the places of
`char_value_handles_to_read`. -/
structure Server.Provides (server : Server) (table : AttributeTable)
    (values : UInt16 → Option (List UInt8)) : Prop where
  declares : server.Declares table
  values : ∀ handle ∈ table.valueHandles, match values handle with
    | some value => server.Holds handle value
    | none => server.Refuses handle
  room : table.valueHandles.length ≤ 512

/-- The server answers each request with a response. -/
def Server.Responds (server : Server) : Prop :=
  ∀ request, ∃ status unit, receive request (server request) false = .answered status unit

/-! ## A server for a table -/

namespace AttributeTable

variable (table : AttributeTable) (values : UInt16 → Option (List UInt8))

/-- The first declaration that is left, or the error that there is none. -/
def nextOf {α : Type} (left : List α) (wide : α → Bool) (entry : α → List UInt8)
    (head : Bool → List UInt8) (request : Request) : Pdu :=
  match left with
  | [] => [opError, request.opcode, 0, 0, ecodeAttrNotFound]
  | item :: _ => head (wide item) ++ entry item

/-- The error code for an attribute that may not be read. -/
def ecodeReadNotPerm : UInt8 := 0x02

/-- One declaration for each request, and the values as far as they fit into a unit. -/
def server : Server
  | .readByGroup start =>
      nextOf (table.serviceListing.since start.toNat) (fun decl => decl.uuid.wide)
        ServiceDecl.entry serviceHead (.readByGroup start)
  | .readByType start =>
      nextOf (table.charListing.since start.toNat) (fun decl => decl.uuid.wide)
        CharDecl.entry charHead (.readByType start)
  | .findInfo start =>
      nextOf (table.attributeListing.since start.toNat) (fun decl => decl.type.wide)
        AttributeDecl.entry attributeHead (.findInfo start)
  | .read handle => match values handle with
    | some value => 0x0b :: partOf value 0
    | none => [opError, 0x0a, 0, 0, ecodeReadNotPerm]
  | .readBlob handle offset => match values handle with
    | some value => 0x0d :: partOf value offset.toNat
    | none => [opError, 0x0c, 0, 0, ecodeReadNotPerm]

private theorem paged_nextOf {α : Type} {listing : Listing α} {wide : α → Bool}
    {entry : α → List UInt8} {head : Bool → List UInt8} {request : Request} {start : UInt16}
    (short : ∀ item, (head (wide item) ++ entry item).length ≤ mtu) :
    PagedAnswer listing wide entry head request start
      (nextOf (listing.since start.toNat) wide entry head request) := by
  cases left : listing.since start.toNat with
  | nil => exact .none 0 0 left rfl
  | cons item more =>
      apply PagedAnswer.page [] item more left
      · simp
      · simp [nextOf]
      · exact short item

theorem declares_server : (table.server values).Declares table where
  services := by
    intro start _
    apply paged_nextOf
    intro decl
    rw [List.length_append, decl.length_entry]
    cases decl.uuid.wide <;> decide
  characteristics := by
    intro start _
    apply paged_nextOf
    intro decl
    rw [List.length_append, decl.length_entry]
    cases decl.uuid.wide <;> decide
  attributes := by
    intro start _
    apply paged_nextOf
    intro decl
    rw [List.length_append, decl.length_entry]
    cases decl.type.wide <;> decide

variable {table values}

theorem provides_server (room : table.valueHandles.length ≤ 512)
    (short : ∀ handle value, values handle = some value → value.length ≤ 512) :
    (table.server values).Provides table values where
  declares := table.declares_server values
  values := by
    intro handle _
    cases known : values handle with
    | some value =>
        have fits := short handle value known
        refine ⟨fits, ?_, ?_⟩
        · simp [server, known]
        · intro offset _
          exact .inl (by simp [server, known])
    | none => exact ⟨0, 0, ecodeReadNotPerm, by decide, by simp [server, known]⟩
  room := room

private theorem answered_nextOf {α : Type} {left : List α} {wide : α → Bool}
    {entry : α → List UInt8} {head : Bool → List UInt8} {request : Request} {opcode : UInt8}
    (heads : ∀ width, ∃ rest, head width = opcode :: rest)
    (response : reqOpcode opcode = some request.opcode) (found : opcode ≠ opError) :
    ∃ status unit, receive request (nextOf left wide entry head request) false =
      .answered status unit := by
  cases left with
  | nil => exact ⟨_, _, receive_of_error request 0 0 ecodeAttrNotFound⟩
  | cons item more =>
      obtain ⟨rest, same⟩ := heads (wide item)
      rw [nextOf, same]
      exact ⟨_, _, receive_of_response _ response found⟩

theorem responds_server (table : AttributeTable) (values : UInt16 → Option (List UInt8)) :
    (table.server values).Responds := by
  intro request
  cases request with
  | readByGroup start => exact answered_nextOf (fun _ => ⟨_, rfl⟩) rfl (by decide)
  | readByType start => exact answered_nextOf (fun _ => ⟨_, rfl⟩) rfl (by decide)
  | findInfo start => exact answered_nextOf (fun _ => ⟨_, rfl⟩) rfl (by decide)
  | read handle =>
      cases known : values handle with
      | some value =>
          simp only [server, known]
          exact ⟨_, _, receive_of_response _ rfl (by decide)⟩
      | none =>
          simp only [server, known]
          exact ⟨_, _, receive_of_error (.read handle) 0 0 ecodeReadNotPerm⟩
  | readBlob handle offset =>
      cases known : values handle with
      | some value =>
          simp only [server, known]
          exact ⟨_, _, receive_of_response _ rfl (by decide)⟩
      | none =>
          simp only [server, known]
          exact ⟨_, _, receive_of_error (.readBlob handle offset) 0 0 ecodeReadNotPerm⟩

end AttributeTable

end NaiveBTSniffing.Gatttool
