import NaiveBTSniffing.Analysis.TypeCache

/-!
Contract: the importer on arbitrary logs, and the lines it refuses.

A line is what the `csv` reader gives for a row. Owns the exact logs from which
the same rows are stored when the refused lines are cut out. Two things stand
against it: an error that leaves the loop, and the type cache, which a refused
line fills before it is refused and which saves later lines a lookup that fails.
-/

namespace NaiveBTSniffing.Analysis

open NaiveBTSniffing.Library
open NaiveBTSniffing.Library.Text

/-! ## What a line means -/

/-- The address that is looked up for a line of a record, and whether the line
has the new format. -/
def lookedUp (line : List Text) : Option (Text × Bool) :=
  match line with
  | kind :: second :: third :: _ =>
      if (handlerOf kind).isSome then
        some (if second.length = 17 then (second, false) else (third, true))
      else none
  | _ => none

/-- The type that the line gives the address, if it is not cached and can be looked
up. -/
def lineType (query : Query) (line : List Text) : Nat :=
  match line with
  | _ :: second :: _ =>
      if second.length = 17 then (query second).join.getD 9 else typeOfWord second
  | _ => 9

/-- How the handler of a line ends, which does not depend on the type; `none` for
a line that is no record. -/
def outcome (line : List Text) : Option Handled :=
  match line with
  | [] => none
  | kind :: args =>
      (handlerOf kind).map fun handler =>
        match lookedUp line with
        | some (_, new) => handler 0 new args
        | none => .rejected

/-- What an accepted line holds. -/
def lineContent (line : List Text) : Option Content :=
  match outcome line with
  | some (.stored row) => some row.content
  | _ => none

/-- The importer cannot accept the line, whatever the database answers: a field is too
long for the reader, or it is a record with a wrong number of fields, a handle that is
no hexadecimal number (or one too long to be written in decimal) or a value that is no
sequence of bytes. -/
def refused (line : List Text) : Bool :=
  tooLong line || ((outcome line).isSome && (lineContent line).isNone)

/-- An error about the line itself leaves the loop. -/
def aborts (line : List Text) : Bool :=
  tooLong line || decide (outcome line = some .raised)

/-- The address of the line, when its lookup fails, unless the address is cached. -/
def failedLookup (query : Query) (line : List Text) : Option Text :=
  (lookedUp line).bind fun about =>
    if !about.2 && (query about.1).isNone then some about.1 else none

/-- A line of a record gives its address a type, and has something to store if it
is accepted. -/
def lineMeaning (query : Query) : Meaning (List Text) where
  about line := (lookedUp line).map Prod.fst
  given := lineType query
  content := lineContent

/-! ## Logs -/

/-- After these lines an error about the next one leaves the loop: its own, or that of
a lookup of an address that none of them is about. -/
def stops (query : Query) (earlier : List (List Text)) (line : List Text) : Bool :=
  aborts line || (failedLookup query line).any fun bdaddr =>
    ((lineMeaning query).firstGiven earlier bdaddr).isNone

/-- The lines before the first one that an error is about, behind those that have been
read already. -/
def reachedAfter (query : Query) : List (List Text) → List (List Text) → List (List Text)
  | _, [] => []
  | earlier, line :: rest =>
      if stops query earlier line then []
      else line :: reachedAfter query (earlier ++ [line]) rest

/-- The lines before the first one that an error is about. -/
def reached (query : Query) (lines : List (List Text)) : List (List Text) :=
  reachedAfter query [] lines

/-- The lines that are not refused. -/
def accepted (lines : List (List Text)) : List (List Text) :=
  lines.filter fun line => !refused line

/-- The log with all refused lines removed. -/
def withoutRefused (log : Text) : Text :=
  ((Csv.records (translate log)).filter fun piece => !refused piece.2).flatMap Prod.fst

/-- The same rows are stored from the log with all refused lines removed. -/
def SameRows (query : Query) (log : Text) : Prop :=
  ∀ row, row ∈ (importLog query log).rows ↔ row ∈ (importLog query (withoutRefused log)).rows

/-- Every address with a row to store gets its type from an accepted line: the
first line about it and the first accepted one give the same. -/
def TypesKept (query : Query) (lines : List (List Text)) : Prop :=
  ∀ line ∈ reached query lines, ∀ bdaddr, (lineMeaning query).about line = some bdaddr →
    lineContent line ≠ none →
      (lineMeaning query).firstGiven (reached query lines) bdaddr =
        (lineMeaning query).firstGiven (reached query (accepted lines)) bdaddr

/-- What the lines hold is said by the others too, about the same address. -/
def RepeatedIn (query : Query) (lines others : List (List Text)) : Prop :=
  ∀ line ∈ lines, lineContent line ≠ none →
    ∃ other ∈ others,
      (lineMeaning query).about other = (lineMeaning query).about line ∧
        lineContent other = lineContent line

/-- What an accepted line behind an error says was said before it. -/
def NothingBehind (query : Query) (lines : List (List Text)) : Prop :=
  RepeatedIn query (reached query (accepted lines)) (reached query lines)

/-- Without the refused lines nothing is lost: where they alone have cached an address
whose lookup fails, nothing new comes behind it. -/
def NothingLost (query : Query) (lines : List (List Text)) : Prop :=
  RepeatedIn query (reached query lines) (reached query (accepted lines))

/-! ## One line -/

theorem executeInsert_cases (row : Row) :
    executeInsert row = .stored row ∨ executeInsert row = .raised := by
  unfold executeInsert
  split
  · exact .inl rfl
  · exact .inr rfl

/-- A handler does the same for every type. -/
def Handled.withType (bdaddrType : Nat) : Handled → Handled
  | .stored row => .stored { row with deviceBdaddrType := bdaddrType }
  | .rejected => .rejected
  | .raised => .raised

theorem handlerOf_cases {kind : Text} {handler : Nat → Bool → List Text → Handled}
    (known : handlerOf kind = some handler) :
    handler = funcCharacteristic ∨ handler = funcCharValue ∨ handler = funcDescriptors ∨
      handler = funcService := by
  unfold handlerOf at known
  split at known
  · exact Or.inl (Option.some.inj known).symm
  · split at known
    · exact Or.inr (Or.inl (Option.some.inj known).symm)
    · split at known
      · exact Or.inr (Or.inr (Or.inl (Option.some.inj known).symm))
      · split at known
        · exact Or.inr (Or.inr (Or.inr (Option.some.inj known).symm))
        · exact absurd known (by simp)

theorem executeInsert_withType (row : Row) (bdaddrType : Nat) :
    executeInsert { row with deviceBdaddrType := bdaddrType } =
      (executeInsert row).withType bdaddrType := by
  unfold executeInsert
  split <;> rfl

theorem handler_withType {kind : Text} {handler : Nat → Bool → List Text → Handled}
    (known : handlerOf kind = some handler) (bdaddrType : Nat) (new : Bool) (args : List Text) :
    handler bdaddrType new args = (handler 0 new args).withType bdaddrType := by
  rcases handlerOf_cases known with rfl | rfl | rfl | rfl
  · unfold funcCharacteristic
    split
    · split
      · exact executeInsert_withType { deviceBdaddrType := 0, .. } bdaddrType
      · rfl
    · rfl
  · unfold funcCharValue
    split
    · split
      · exact executeInsert_withType { deviceBdaddrType := 0, .. } bdaddrType
      · rfl
    · rfl
  · unfold funcDescriptors
    split
    · split
      · exact executeInsert_withType { deviceBdaddrType := 0, .. } bdaddrType
      · rfl
    · rfl
  · unfold funcService
    split
    · split
      · exact executeInsert_withType { deviceBdaddrType := 0, .. } bdaddrType
      · rfl
    · rfl

/-- A row is stored for the address in the line. -/
theorem handler_bdaddr {kind : Text} {handler : Nat → Bool → List Text → Handled}
    (known : handlerOf kind = some handler) {bdaddrType : Nat} {new : Bool} {args : List Text}
    {row : Row} (stored : handler bdaddrType new args = .stored row) :
    (afterType new args).head? = some row.deviceBdaddr := by
  rcases handlerOf_cases known with rfl | rfl | rfl | rfl
  all_goals
    simp only [funcCharacteristic, funcCharValue, funcDescriptors, funcService] at stored
    split at stored
    · next shape =>
        split at stored
        · rcases executeInsert_cases _ with inserted | fails
          · rw [inserted] at stored
            cases stored
            rw [shape]
            rfl
          · rw [fails] at stored
            exact absurd stored (by simp)
        · exact absurd stored (by simp)
    · exact absurd stored (by simp)

/-- A lookup that fails leaves the loop. -/
theorem importLine_of_failed {query : Query} {importer : Importer} {line : List Text}
    {bdaddr : Text} (failed : failedLookup query line = some bdaddr)
    (uncached : importer.typeCache.lookup bdaddr = none) :
    importLine query importer line = (importer, true) := by
  obtain ⟨⟨own, new⟩, looked, fails⟩ := Option.bind_eq_some_iff.mp failed
  split at fails
  · next both =>
      obtain rfl : own = bdaddr := Option.some.inj fails
      simp only [Bool.and_eq_true, Bool.not_eq_true', Option.isNone_iff_eq_none] at both
      obtain ⟨rfl, noAnswer⟩ := both
      unfold lookedUp at looked
      split at looked
      · split at looked
        · next kind second third more known =>
            obtain ⟨handler, isKnown⟩ := Option.isSome_iff_exists.mp known
            split at looked
            · next old =>
                obtain rfl : second = own := congrArg Prod.fst (Option.some.inj looked)
                simp [importLine, isKnown, lookupDeviceBdaddrType, old, uncached, noAnswer]
            · exact absurd looked (by simp)
        · exact absurd looked (by simp)
      · exact absurd looked (by simp)
  · exact absurd fails (by simp)

/-- The address that is looked up is the first argument behind the type. -/
private theorem head_afterType {kind : Text} {args : List Text} {bdaddr : Text} {new : Bool}
    (looked : lookedUp (kind :: args) = some (bdaddr, new)) :
    (afterType new args).head? = some bdaddr := by
  unfold lookedUp at looked
  split at looked
  · next isLine =>
      obtain ⟨rfl, rfl⟩ := List.cons.inj isLine
      split_ifs at looked
      · cases looked
        rfl
      · cases looked
        rfl
  · exact absurd looked (by simp)

/-- A lookup that is answered caches the type that the line gives the address. -/
private theorem lookup_of_lookedUp {query : Query} {typeCache : Dict Text Nat}
    {line : List Text} {bdaddr : Text} {new : Bool} (looked : lookedUp line = some (bdaddr, new))
    (answered : failedLookup query line = some bdaddr → typeCache.lookup bdaddr ≠ none) :
    lookupDeviceBdaddrType query typeCache line =
      some (some ((cachedType typeCache bdaddr (lineType query line)).1, new),
        (cachedType typeCache bdaddr (lineType query line)).2) := by
  have fails : failedLookup query line =
      if !new && (query bdaddr).isNone then some bdaddr else none := by
    rw [failedLookup, looked]
    rfl
  unfold lookedUp at looked
  split at looked
  · next kind second third more =>
      split_ifs at looked with known old
      · cases looked
        cases cached : typeCache.lookup bdaddr with
        | some type => simp [lookupDeviceBdaddrType, cachedType, old, cached]
        | none =>
            cases answer : query bdaddr with
            | none => exact absurd cached (answered (by simp [fails, answer]))
            | some found =>
                simp [lookupDeviceBdaddrType, lineType, cachedType, old, cached, answer]
      · cases looked
        simp [lookupDeviceBdaddrType, lineType, old]
  · exact absurd looked (by simp)

/-- Otherwise the body of the loop notes what the line means. -/
theorem importLine_eq (query : Query) (importer : Importer) (line : List Text)
    (answered : ∀ bdaddr, failedLookup query line = some bdaddr →
      importer.typeCache.lookup bdaddr ≠ none) :
    importLine query importer line =
      ((lineMeaning query).note importer line, decide (outcome line = some .raised)) := by
  match line with
  | [] => rfl
  | kind :: args =>
      cases known : handlerOf kind with
      | none =>
          have unknown : lookedUp (kind :: args) = none := by
            unfold lookedUp
            split
            · next same =>
                cases same
                simp [known]
            · rfl
          simp [importLine, known, Meaning.note, lineMeaning, unknown, outcome]
      | some handler =>
          cases looked : lookedUp (kind :: args) with
          | none =>
              -- The line is too short for a lookup.
              match args with
              | [] | [_] =>
                  simp [importLine, known, Meaning.note, lineMeaning, lookedUp, outcome,
                    lookupDeviceBdaddrType]
              | second :: third :: more => simp [lookedUp, known] at looked
          | some about =>
              obtain ⟨bdaddr, new⟩ := about
              have cached := lookup_of_lookedUp looked (answered bdaddr)
              have ends : outcome (kind :: args) = some (handler 0 new args) := by
                simp only [outcome, known, looked, Option.map_some]
              have shape := handler_withType known
                (cachedType importer.typeCache bdaddr (lineType query (kind :: args))).1 new args
              simp only [importLine, known, cached, shape, Meaning.note, lineMeaning, looked,
                Option.map_some, lineContent, ends]
              cases handled : handler 0 new args with
              | stored row =>
                  have same := handler_bdaddr known handled
                  rw [head_afterType looked] at same
                  cases Option.some.inj same
                  simp [Handled.withType]
              | rejected => simp [Handled.withType]
              | raised => simp [Handled.withType]

/-! ## Runs -/

theorem rows_note_of_raised (query : Query) (importer : Importer)
    {line : List Text} (raised : outcome line = some .raised) :
    ((lineMeaning query).note importer line).rows = importer.rows := by
  have nothing : (lineMeaning query).content line = none := by
    simp [lineMeaning, lineContent, raised]
  rw [Meaning.note, nothing]
  cases (lineMeaning query).about line <;> simp

/-- The rows are those of the lines before the first error. -/
theorem rows_importLines (query : Query) (lines earlier : List (List Text)) :
    (importLines query lines ((lineMeaning query).noteAll earlier)).rows =
      ((lineMeaning query).noteAll (earlier ++ reachedAfter query earlier lines)).rows := by
  induction lines generalizing earlier with
  | nil => rw [reachedAfter, List.append_nil, importLines]
  | cons line rest inductionHypothesis =>
      have cache := (lineMeaning query).lookup_noteAll earlier
      -- Where the loop ends, nothing is reached.
      have ended : stops query earlier line = true →
          ((lineMeaning query).noteAll
            (earlier ++ reachedAfter query earlier (line :: rest))).rows =
            ((lineMeaning query).noteAll earlier).rows := by
        intro ends
        rw [reachedAfter, if_pos ends, List.append_nil]
      rw [importLines]
      by_cases long : tooLong line = true
      · rw [if_pos long, ended (by simp [stops, aborts, long])]
      · rw [if_neg long]
        by_cases fails : ∃ bdaddr, failedLookup query line = some bdaddr ∧
            (lineMeaning query).firstGiven earlier bdaddr = none
        · obtain ⟨bdaddr, failed, uncached⟩ := fails
          rw [importLine_of_failed failed ((cache bdaddr).trans uncached), if_pos rfl,
            ended (by simp [stops, failed, uncached])]
        · have answered : ∀ bdaddr, failedLookup query line = some bdaddr →
              (lineMeaning query).firstGiven earlier bdaddr ≠ none :=
            fun bdaddr failed uncached => fails ⟨bdaddr, failed, uncached⟩
          rw [importLine_eq query _ line fun bdaddr failed => by
            rw [cache]
            exact answered bdaddr failed]
          by_cases raised : outcome line = some .raised
          · rw [ended (by simp [stops, aborts, raised])]
            simp only [raised, decide_true, if_true]
            exact rows_note_of_raised query _ raised
          · have goes : stops query earlier line = false := by
              rw [stops, Bool.or_eq_false_iff]
              refine ⟨by simp [aborts, long, raised], ?_⟩
              cases failed : failedLookup query line with
              | none => rfl
              | some bdaddr => simpa [Option.isSome_iff_ne_none] using answered bdaddr failed
            rw [reachedAfter, if_neg (Bool.eq_false_iff.mp goes)]
            simp only [raised, decide_false, Bool.false_eq_true, if_false]
            rw [← (lineMeaning query).noteAll_concat, inductionHypothesis, List.append_assoc,
              List.singleton_append]

theorem rows_importLog (query : Query) (log : Text) :
    (importLog query log).rows =
      ((lineMeaning query).noteAll (reached query (logLines log))).rows :=
  rows_importLines query (logLines log) []

/-- Removing the refused lines from the file removes them from what is read. -/
theorem logLines_withoutRefused (log : Text) :
    logLines (withoutRefused log) = accepted (logLines log) := by
  have noReturn : '\r' ∉ withoutRefused log := by
    intro member
    obtain ⟨piece, kept, inside⟩ := List.mem_flatMap.mp member
    exact not_mem_translate log
      (Csv.mem_of_mem_scan (List.mem_of_mem_filter kept) '\r' inside)
  rw [logLines, translate_eq_self noReturn, withoutRefused, Csv.records_cut List.filter_sublist,
    accepted, logLines, List.filter_map]
  rfl

/-- A line with something to store is about an address. -/
theorem about_of_lineContent (query : Query) {line : List Text} {content : Content}
    (holds : lineContent line = some content) :
    ∃ bdaddr, (lineMeaning query).about line = some bdaddr := by
  cases looked : lookedUp line with
  | some about => exact ⟨about.1, by simp [lineMeaning, looked]⟩
  | none =>
      have nothing : lineContent line = none := by
        cases line with
        | nil => rfl
        | cons kind args =>
            cases known : handlerOf kind with
            | none => simp [lineContent, outcome, known]
            | some handler => simp [lineContent, outcome, known, looked]
      rw [nothing] at holds
      exact absurd holds (by simp)

/-- Rows that are stored twice come from lines that say the same. -/
private theorem repeatedIn_of_rows {query : Query} {lines others : List (List Text)}
    (kept : ∀ row ∈ ((lineMeaning query).noteAll lines).rows,
      row ∈ ((lineMeaning query).noteAll others).rows) : RepeatedIn query lines others := by
  intro line member holds
  obtain ⟨content, isContent⟩ := Option.ne_none_iff_exists'.mp holds
  obtain ⟨bdaddr, about⟩ := about_of_lineContent query isContent
  obtain ⟨type, first⟩ := Option.isSome_iff_exists.mp
    ((lineMeaning query).firstGiven_isSome member about)
  have stored := ((lineMeaning query).mem_rows_noteAll lines
    { deviceBdaddrType := type, deviceBdaddr := bdaddr, content }).mpr
      ⟨line, member, about, isContent, first⟩
  obtain ⟨other, inOthers, sameAbout, sameContent, _⟩ :=
    ((lineMeaning query).mem_rows_noteAll others _).mp (kept _ stored)
  exact ⟨other, inOthers, sameAbout.trans about.symm, sameContent.trans isContent.symm⟩

/-- Lines that say the same, of addresses with the same types, store the same rows. -/
private theorem mem_rows_of_repeatedIn {query : Query} {lines others : List (List Text)}
    (repeated : RepeatedIn query lines others)
    (types : ∀ line ∈ lines, ∀ bdaddr, (lineMeaning query).about line = some bdaddr →
      lineContent line ≠ none →
        (lineMeaning query).firstGiven lines bdaddr = (lineMeaning query).firstGiven others bdaddr)
    {row : Row} (stored : row ∈ ((lineMeaning query).noteAll lines).rows) :
    row ∈ ((lineMeaning query).noteAll others).rows := by
  obtain ⟨line, member, about, holds, first⟩ :=
    ((lineMeaning query).mem_rows_noteAll lines row).mp stored
  have some : lineContent line ≠ none := by
    rw [show lineContent line = _ from holds]
    exact Option.some_ne_none _
  obtain ⟨other, inOthers, sameAbout, sameContent⟩ := repeated line member some
  exact ((lineMeaning query).mem_rows_noteAll others row).mpr
    ⟨other, inOthers, sameAbout.trans about, sameContent.trans holds,
      (types line member _ about some).symm.trans first⟩

/-- Cutting out the refused lines leaves the stored rows as they are, if and only
if no refused line decides the type of an address with a row, nothing new follows
the first error, and nothing is lost behind a lookup that only a refused line saves. -/
theorem sameRows_iff (query : Query) (log : Text) :
    SameRows query log ↔
      TypesKept query (logLines log) ∧ NothingBehind query (logLines log) ∧
        NothingLost query (logLines log) := by
  have full := rows_importLog query log
  have cut := rows_importLog query (withoutRefused log)
  rw [logLines_withoutRefused] at cut
  rw [SameRows, full, cut]
  constructor
  · intro same
    refine ⟨?_, repeatedIn_of_rows fun row => (same row).mpr,
      repeatedIn_of_rows fun row => (same row).mp⟩
    intro line member bdaddr about holds
    obtain ⟨content, isContent⟩ := Option.ne_none_iff_exists'.mp holds
    obtain ⟨type, first⟩ := Option.isSome_iff_exists.mp
      ((lineMeaning query).firstGiven_isSome member about)
    have stored := (same { deviceBdaddrType := type, deviceBdaddr := bdaddr, content }).mp
      (((lineMeaning query).mem_rows_noteAll _ _).mpr ⟨line, member, about, isContent, first⟩)
    obtain ⟨_, _, _, _, again⟩ := ((lineMeaning query).mem_rows_noteAll _ _).mp stored
    exact first.trans again.symm
  · rintro ⟨types, behind, lost⟩ row
    refine ⟨mem_rows_of_repeatedIn lost types, mem_rows_of_repeatedIn behind ?_⟩
    intro line member bdaddr about holds
    obtain ⟨earlier, inLog, sameAbout, sameContent⟩ := behind line member holds
    exact (types earlier inLog bdaddr (sameAbout.trans about) (by rwa [sameContent])).symm

/-- A descriptor line whose handle is no number, and a good one. -/
def badHandleFirst : Text :=
  "\"GATTPRINT:DESCRIPTORS\",\"aa:bb:cc:dd:ee:ff\",\"zz\",\"u\"\n".toList ++
    "\"GATTPRINT:DESCRIPTORS\",\"aa:bb:cc:dd:ee:ff\",\"0x0003\",\"u\"\n".toList

/-- The bad line ends the import, and nothing is stored. -/
theorem not_sameRows_badHandleFirst : ¬ SameRows (fun _ => some none) badHandleFirst := by
  intro same
  have stored := (same
    { deviceBdaddrType := 9
      deviceBdaddr := "aa:bb:cc:dd:ee:ff".toList
      content := .descriptor 3 "u".toList }).mpr (by decide)
  exact absurd stored (by decide)

end NaiveBTSniffing.Analysis
