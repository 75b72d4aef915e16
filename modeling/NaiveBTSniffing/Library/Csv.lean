import NaiveBTSniffing.Library.Conversation
import NaiveBTSniffing.Library.Text

/-!
Contract: Python's `csv.reader` with its default dialect, on a text file that was
opened with universal newlines.

`records` gives the rows of a text together with the characters each was read
from. Owns what a list of rows looks like after some rows were cut out of the
text (`records_cut`), and how quoted fields and unquoted text are read. Does not
own the limit on the length of a field. Names no program.
-/

namespace NaiveBTSniffing.Library.Csv

/-- The states of the reader between two characters. -/
inductive Mode where
  | startRecord
  | startField
  | inField
  | inQuotedField
  | quoteInQuotedField
deriving DecidableEq, Repr

/-- The reader inside a row: the current field and the fields before it. -/
structure Reader where
  mode : Mode
  field : Text
  fields : List Text
deriving DecidableEq, Repr

namespace Reader

/-- The reader before a row. -/
def fresh : Reader where
  mode := .startRecord
  field := []
  fields := []

/-- `parse_save_field`. -/
def saved (reader : Reader) : List Text := reader.fields ++ [reader.field]

/-- A delimiter ends the field. -/
def delimit (reader : Reader) : Reader where
  mode := .startField
  field := []
  fields := reader.saved

/-- `parse_add_char`. -/
def add (reader : Reader) (mode : Mode) (char : Char) : Reader :=
  { reader with mode, field := reader.field ++ [char] }

/-- The first character of a field. -/
def processFirst (reader : Reader) (char : Char) : Next Reader (List Text) :=
  if char = '\n' then .ended reader.saved
  else if char = '"' then .more { reader with mode := .inQuotedField }
  else if char = ',' then .more reader.delimit
  else .more (reader.add .inField char)

/-- `parse_process_char`; a row ends with a line that ends outside quotes. -/
def processChar (reader : Reader) (char : Char) : Next Reader (List Text) :=
  match reader.mode with
  | .startRecord => if char = '\n' then .ended [] else reader.processFirst char
  | .startField => reader.processFirst char
  | .inField =>
      if char = '\n' then .ended reader.saved
      else if char = ',' then .more reader.delimit
      else .more (reader.add .inField char)
  | .inQuotedField =>
      if char = '"' then .more { reader with mode := .quoteInQuotedField }
      else .more (reader.add .inQuotedField char)
  | .quoteInQuotedField =>
      if char = '"' then .more (reader.add .inQuotedField char)
      else if char = ',' then .more reader.delimit
      else if char = '\n' then .ended reader.saved
      else .more (reader.add .inField char)

end Reader

/-- The rows of a text that follows the characters `raw` of the row begun. -/
def scan : Reader → Text → Text → List (Text × List Text)
  | reader, raw, [] =>
      if reader.mode = .startRecord then [] else [(raw, reader.saved)]
  | reader, raw, char :: rest =>
      match reader.processChar char with
      | .more next => scan next (raw ++ [char]) rest
      | .ended fields => (raw ++ [char], fields) :: scan .fresh [] rest

/-- The rows of a text, each with its characters. -/
def records (text : Text) : List (Text × List Text) := scan .fresh [] text

/-- The fields, if exactly the whole text ends the row. -/
def rowOf : Reader → Text → Option (List Text)
  | _, [] => none
  | reader, char :: rest =>
      match reader.processChar char with
      | .more next => rowOf next rest
      | .ended fields => if rest = [] then some fields else none

example : (records "a,\"b\"\"c\"\n\n".toList).map Prod.snd =
    [["a".toList, "b\"c".toList], []] := by decide

/-! ## Rows one after the other -/

theorem scan_of_rowOf {reader : Reader} {text : Text} {fields : List Text}
    (whole : rowOf reader text = some fields) (raw rest : Text) :
    scan reader raw (text ++ rest) = (raw ++ text, fields) :: records rest := by
  induction text generalizing reader raw with
  | nil => simp [rowOf] at whole
  | cons char text inductionHypothesis =>
      cases processed : reader.processChar char with
      | more next =>
          simp only [rowOf, processed] at whole
          simp only [List.cons_append, scan, processed]
          rw [inductionHypothesis whole (raw ++ [char]), List.append_assoc, List.singleton_append]
      | ended ended =>
          simp only [rowOf, processed] at whole
          by_cases last : text = []
          · rw [if_pos last] at whole
            cases Option.some.inj whole
            simp only [List.cons_append, scan, processed, last, List.nil_append]
            rfl
          · rw [if_neg last] at whole
            exact absurd whole (by simp)

theorem records_append {text : Text} {fields : List Text}
    (whole : rowOf .fresh text = some fields) (rest : Text) :
    records (text ++ rest) = (text, fields) :: records rest :=
  scan_of_rowOf whole [] rest

/-- Texts of whole rows, one after the other. -/
theorem records_flatMap {pieces : List (Text × List Text)}
    (whole : ∀ piece ∈ pieces, rowOf .fresh piece.1 = some piece.2) (rest : Text) :
    records (pieces.flatMap Prod.fst ++ rest) = pieces ++ records rest := by
  induction pieces with
  | nil => rfl
  | cons piece pieces inductionHypothesis =>
      rw [List.flatMap_cons, List.append_assoc,
        records_append (whole piece List.mem_cons_self),
        inductionHypothesis fun piece member => whole piece (List.mem_cons_of_mem _ member),
        List.cons_append]

/-- The rows of a text are whole but for the last one, which the end of the file
may cut. -/
theorem scan_whole {reader : Reader} {raw : Text}
    (scans : ∀ rest, records (raw ++ rest) = scan reader raw rest)
    (rows : ∀ rest, rowOf .fresh (raw ++ rest) = rowOf reader rest) (text : Text) :
    ∃ front last, scan reader raw text = front ++ last ∧
      (∀ piece ∈ front, rowOf .fresh piece.1 = some piece.2) ∧
      (last = [] ∨ ∃ piece, last = [piece] ∧ records piece.1 = [piece]) := by
  induction text generalizing reader raw with
  | nil =>
      refine ⟨[], scan reader raw [], rfl, by simp, ?_⟩
      by_cases between : reader.mode = .startRecord
      · exact Or.inl (by rw [scan, if_pos between])
      · have cut : scan reader raw [] = [(raw, reader.saved)] := by rw [scan, if_neg between]
        refine Or.inr ⟨(raw, reader.saved), cut, ?_⟩
        have again := scans []
        rwa [List.append_nil, cut] at again
  | cons char rest inductionHypothesis =>
      cases processed : reader.processChar char with
      | more next =>
          have onward : ∀ later, scan reader raw (char :: later) =
              scan next (raw ++ [char]) later := by
            intro later
            simp only [scan, processed]
          rw [onward rest]
          refine inductionHypothesis (fun later => ?_) fun later => ?_
          · rw [← onward later, ← scans (char :: later), List.append_assoc,
              List.singleton_append]
          · rw [List.append_assoc, List.singleton_append, rows (char :: later)]
            simp only [rowOf, processed]
      | ended fields =>
          have ends : rowOf .fresh (raw ++ [char]) = some fields := by
            rw [rows [char]]
            simp [rowOf, processed]
          obtain ⟨front, last, split, whole, cut⟩ :=
            @inductionHypothesis .fresh [] (fun _ => rfl) fun _ => rfl
          refine ⟨(raw ++ [char], fields) :: front, last, ?_, ?_, cut⟩
          · simp only [scan, processed, List.cons_append, split]
          · intro piece member
            rcases List.mem_cons.mp member with rfl | member
            · exact ends
            · exact whole piece member

/-- The characters of a row are characters of the text. -/
theorem mem_of_mem_scan {reader : Reader} {raw text : Text} {piece : Text × List Text}
    (row : piece ∈ scan reader raw text) : ∀ char ∈ piece.1, char ∈ raw ++ text := by
  induction text generalizing reader raw with
  | nil =>
      rw [scan] at row
      split at row
      · exact absurd row List.not_mem_nil
      · rw [List.mem_singleton.mp row, List.append_nil]
        exact fun _ member => member
  | cons char rest inductionHypothesis =>
      cases processed : reader.processChar char with
      | more next =>
          simp only [scan, processed] at row
          intro other member
          simpa using inductionHypothesis row other member
      | ended fields =>
          simp only [scan, processed] at row
          intro other member
          rcases List.mem_cons.mp row with rfl | later
          · rw [List.mem_append, List.mem_singleton] at member
            rcases member with inside | rfl
            · exact List.mem_append_left _ inside
            · exact List.mem_append_right _ List.mem_cons_self
          · have inside : other ∈ [] ++ rest := inductionHypothesis later other member
            exact List.mem_append_right _ (List.mem_cons_of_mem _ inside)

/-- When rows are cut out of a text, the reader gives the other rows. -/
theorem records_cut {text : Text} {kept : List (Text × List Text)}
    (sublist : kept.Sublist (records text)) : records (kept.flatMap Prod.fst) = kept := by
  obtain ⟨front, last, split, whole, cut⟩ :=
    @scan_whole .fresh [] (fun _ => rfl) (fun _ => rfl) text
  rw [records, split] at sublist
  obtain ⟨keptFront, keptLast, rfl, inFront, inLast⟩ := List.sublist_append_iff.mp sublist
  rw [List.flatMap_append,
    records_flatMap fun piece member => whole piece (inFront.subset member)]
  have lastAgain : records (keptLast.flatMap Prod.fst) = keptLast := by
    rcases cut with rfl | ⟨piece, rfl, again⟩
    · rw [List.sublist_nil.mp inLast]
      rfl
    · rcases List.sublist_singleton.mp inLast with rfl | rfl
      · rfl
      · simpa using again
  rw [lastAgain]

/-! ## Writing rows -/

/-- A field between quotes. -/
def quoted (field : Text) : Text := '"' :: field ++ ['"']

/-- A row of quoted fields. -/
def quotedRow (fields : List Text) : Text :=
  List.intercalate [','] (fields.map quoted) ++ ['\n']

/-- A text that is read as it stands: between quotes, or as a row of its own. -/
def Plain (text : Text) : Prop := ∀ char ∈ text, char ≠ '"' ∧ char ≠ ',' ∧ char ≠ '\n'

theorem quotedRow_singleton (field : Text) : quotedRow [field] = quoted field ++ ['\n'] := by
  simp [quotedRow]

theorem quotedRow_cons (field next : Text) (rest : List Text) :
    quotedRow (field :: next :: rest) = quoted field ++ ',' :: quotedRow (next :: rest) := by
  simp [quotedRow, List.intercalate]

/-- Besides its fields a row holds quotes, commas and its end. -/
theorem mem_quotedRow {fields : List Text} {char : Char} (member : char ∈ quotedRow fields) :
    char ∈ "\",\n".toList ∨ ∃ field ∈ fields, char ∈ field := by
  induction fields with
  | nil => exact Or.inl (by simp [quotedRow] at member; simp [member])
  | cons field fields inductionHypothesis =>
      have inQuoted : char ∈ quoted field → char ∈ "\",\n".toList ∨ char ∈ field := by
        simp only [quoted, List.mem_append, List.mem_cons]
        rintro ((rfl | inside) | rfl | none)
        · exact Or.inl (by decide)
        · exact Or.inr inside
        · exact Or.inl (by decide)
        · exact absurd none List.not_mem_nil
      cases fields with
      | nil =>
          rw [quotedRow_singleton, List.mem_append] at member
          rcases member with inside | ends
          · exact (inQuoted inside).imp_right fun inside => ⟨field, by simp, inside⟩
          · exact Or.inl (by rw [List.mem_singleton.mp ends]; decide)
      | cons next rest =>
          rw [quotedRow_cons, List.mem_append, List.mem_cons] at member
          rcases member with inside | rfl | inside
          · exact (inQuoted inside).imp_right fun inside => ⟨field, by simp, inside⟩
          · exact Or.inl (by decide)
          · refine (inductionHypothesis inside).imp_right ?_
            rintro ⟨other, isField, inside⟩
            exact ⟨other, List.mem_cons_of_mem _ isField, inside⟩

private theorem rowOf_quotedRest {field : Text} (noQuote : '"' ∉ field) (reader : Reader)
    (inside : reader.mode = .inQuotedField) (rest : Text) :
    rowOf reader (field ++ '"' :: rest) =
      rowOf { reader with mode := .quoteInQuotedField, field := reader.field ++ field } rest := by
  induction field generalizing reader with
  | nil =>
      simp [rowOf, Reader.processChar, inside]
  | cons char field inductionHypothesis =>
      have other : char ≠ '"' := fun same => noQuote (same ▸ List.mem_cons_self)
      have next := inductionHypothesis (fun member => noQuote (List.mem_cons_of_mem _ member))
        (reader.add .inQuotedField char) rfl
      simp only [List.cons_append, rowOf, Reader.processChar, inside, if_neg other]
      rw [next]
      simp [Reader.add]

/-- The reader after an opening quote and a field. -/
private theorem rowOf_quoted {field : Text} (noQuote : '"' ∉ field) (reader : Reader)
    (start : reader.mode = .startRecord ∨ reader.mode = .startField) (rest : Text) :
    rowOf reader (quoted field ++ rest) =
      rowOf { reader with mode := .quoteInQuotedField, field := reader.field ++ field } rest := by
  have opened : reader.processChar '"' = .more { reader with mode := .inQuotedField } := by
    rcases start with start | start
    · simp [Reader.processChar, start, Reader.processFirst]
    · simp [Reader.processChar, start, Reader.processFirst]
  have inside := rowOf_quotedRest noQuote { reader with mode := .inQuotedField } rfl rest
  rw [← inside]
  simp [quoted, rowOf, opened]

theorem rowOf_quotedRow {fields : List Text} (some : fields ≠ [])
    (noQuote : ∀ field ∈ fields, '"' ∉ field) :
    rowOf .fresh (quotedRow fields) = .some fields := by
  have rows : ∀ (fields : List Text) (reader : Reader), fields ≠ [] →
      (∀ field ∈ fields, '"' ∉ field) →
      (reader.mode = .startRecord ∨ reader.mode = .startField) → reader.field = [] →
      rowOf reader (quotedRow fields) = .some (reader.fields ++ fields) := by
    intro fields
    induction fields with
    | nil => exact fun _ some => absurd rfl some
    | cons field fields inductionHypothesis =>
        intro reader _ noQuote start empty
        have own := rowOf_quoted (noQuote field List.mem_cons_self) reader start
        cases fields with
        | nil =>
            rw [quotedRow_singleton, own]
            simp [rowOf, Reader.processChar, Reader.saved, empty]
        | cons next rest =>
            have remaining := inductionHypothesis
              { mode := .startField, field := [], fields := reader.fields ++ [field] }
              (List.cons_ne_nil next rest)
              (fun other member => noQuote other (List.mem_cons_of_mem _ member)) (Or.inr rfl) rfl
            rw [quotedRow_cons, own]
            simp only [rowOf, Reader.processChar, Reader.delimit, Reader.saved, empty,
              List.nil_append, if_neg (by decide : ¬ ',' = '"'), if_pos]
            rw [remaining, List.append_assoc, List.singleton_append]
  simpa [Reader.fresh] using rows fields .fresh some noQuote (Or.inl rfl) rfl

/-- A row that is written with quotes and read back as it is. -/
def Quotable (fields : List Text) : Prop := fields ≠ [] ∧ ∀ field ∈ fields, '"' ∉ field

theorem records_quotedRows {rows : List (List Text)}
    (quotable : ∀ fields ∈ rows, Quotable fields) :
    records (rows.flatMap quotedRow) = rows.map fun fields => (quotedRow fields, fields) := by
  have whole : ∀ piece ∈ rows.map (fun fields => (quotedRow fields, fields)),
      rowOf .fresh piece.1 = some piece.2 := by
    intro piece member
    obtain ⟨fields, row, rfl⟩ := List.mem_map.mp member
    exact rowOf_quotedRow (quotable fields row).1 (quotable fields row).2
  have read := records_flatMap whole []
  rw [List.append_nil, List.flatMap_map] at read
  rw [read]
  exact List.append_nil _

/-- Rows are determined by the text that is written for them. -/
theorem eq_of_quotedRows {first second : List (List Text)}
    (firstQuotable : ∀ fields ∈ first, Quotable fields)
    (secondQuotable : ∀ fields ∈ second, Quotable fields)
    (same : first.flatMap quotedRow = second.flatMap quotedRow) : first = second := by
  have read := congrArg records same
  rw [records_quotedRows firstQuotable, records_quotedRows secondQuotable] at read
  simpa [List.map_map, Function.comp_def] using congrArg (List.map Prod.snd) read

/-- Values that are written as blocks, none of which starts another, are determined by
what is written. -/
theorem eq_of_blocks {Value Row : Type} {block : Value → List Row}
    (some : ∀ value, block value ≠ [])
    (starts : ∀ {value other rest more}, block value ++ rest = block other ++ more →
      value = other)
    {first second : List Value} (same : first.flatMap block = second.flatMap block) :
    first = second := by
  induction first generalizing second with
  | nil =>
      cases second with
      | nil => rfl
      | cons other others =>
          rw [List.flatMap_nil, List.flatMap_cons] at same
          exact absurd (List.append_eq_nil_iff.mp same.symm).1 (some other)
  | cons value values inductionHypothesis =>
      cases second with
      | nil =>
          rw [List.flatMap_nil, List.flatMap_cons] at same
          exact absurd (List.append_eq_nil_iff.mp same).1 (some value)
      | cons other others =>
          rw [List.flatMap_cons, List.flatMap_cons] at same
          cases starts same
          rw [inductionHypothesis (List.append_cancel_left same)]

/-- A plain text is a row with one field. -/
theorem rowOf_plain {text : Text} (some : text ≠ []) (plain : Plain text) :
    rowOf .fresh (text ++ ['\n']) = .some [text] := by
  have rows : ∀ (text : Text) (reader : Reader), Plain text → reader.mode = .inField →
      rowOf reader (text ++ ['\n']) = .some (reader.fields ++ [reader.field ++ text]) := by
    intro text
    induction text with
    | nil =>
        intro reader _ inside
        simp [rowOf, Reader.processChar, inside, Reader.saved]
    | cons char text inductionHypothesis =>
        intro reader plain inside
        obtain ⟨_, noComma, noEnd⟩ := plain char List.mem_cons_self
        have remaining := inductionHypothesis (reader.add .inField char)
          (fun other member => plain other (List.mem_cons_of_mem _ member)) rfl
        simp only [List.cons_append, rowOf, Reader.processChar, inside, if_neg noComma,
          if_neg noEnd]
        rw [remaining]
        simp [Reader.add]
  cases text with
  | nil => exact absurd rfl some
  | cons char text =>
      obtain ⟨noQuote, noComma, noEnd⟩ := plain char List.mem_cons_self
      have remaining := rows text (Reader.fresh.add .inField char)
        (fun other member => plain other (List.mem_cons_of_mem _ member)) rfl
      have first : Reader.fresh.processChar char = .more (Reader.fresh.add .inField char) := by
        simp [Reader.processChar, Reader.fresh, Reader.processFirst, noQuote, noComma, noEnd]
      simp only [List.cons_append, rowOf, first]
      rw [remaining]
      rfl

end NaiveBTSniffing.Library.Csv
