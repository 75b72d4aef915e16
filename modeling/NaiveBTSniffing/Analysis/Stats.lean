import NaiveBTSniffing.Analysis.CompanyName
import NaiveBTSniffing.Library.Histogram

/-!
Contract: the statistics of UUIDs that `TellMeEverything.py` prints.

Both functions count the tokens of the EIR lists, print a section for Bluetooth
Classic, then count and print those of the LE lists. A section is the numbers in
its header, one entry for each token that is printed or reported as skipped, and
the number of tokens with a known name. A list is `none` where the column is
NULL.

Owns when the sections are the histograms of the two tables, and how each section
depends on the other table.
-/

namespace NaiveBTSniffing.Analysis

open NaiveBTSniffing.Library

/-! ## What is printed -/

/-- A line below the header of a section. -/
inductive StatsEntry where
  | line (count : Nat) (uuid info : Text)
  | skipped (uuid : Text)
deriving DecidableEq, Repr

/-- The count and the UUID of a line of the histogram. -/
def StatsEntry.counted : StatsEntry → Option (Text × Nat)
  | .line count uuid _ => some (uuid, count)
  | .skipped _ => none

structure StatsSection where
  /-- "rows of data found" -/
  rows : Nat
  /-- "unique UUIDs found" -/
  unique : Nat
  entries : List StatsEntry
  /-- "matched a company name", "are in the custom_uuid128s.csv database" -/
  matched : Nat
deriving DecidableEq, Repr

/-- What a call prints, and the exception that ends it. -/
structure StatsOutput where
  btc : Option StatsSection
  le : Option StatsSection
  raised : Option Fault
deriving DecidableEq, Repr

/-- The histogram in a section. -/
def histogramOf (printed : Option StatsSection) : List (Text × Nat) :=
  match printed with
  | none => []
  | some statsSection => statsSection.entries.filterMap StatsEntry.counted

/-! ## The two functions -/

/-- What the copies of the counting code do differently. -/
structure StatsCode where
  /-- The tokens of a row of the EIR table, unless the row raises. -/
  eirTokens : Option Text → Except Fault (List Text)
  leTokens : Option Text → List Text
  /-- The body of the loop over the sorted items. -/
  entry : Text × Nat → List StatsEntry
  /-- The name of the token is known. -/
  known : Text → Bool

/-- `str_UUIDs.split(',')`, which NULL does not have. -/
def splitTokens : Option Text → Except Fault (List Text)
  | some strUuids => .ok (strUuids.splitOn ',')
  | none => .error .attributeError

/-- The same after `isinstance(str_UUIDs, str)`. -/
def splitTokensOfStr : Option Text → List Text
  | some strUuids => strUuids.splitOn ','
  | none => []

/-- `seen_btc_uuid16s_hash`, `seen_btc_uuid128s_hash`. -/
def seenBtcHash (code : StatsCode) (rows : List (Option Text)) : Except Fault (Dict Text Nat) :=
  rows.foldlM (fun hash row => (code.eirTokens row).map hash.tally) ∅

/-- `seen_le_uuid16s_hash`, `seen_le_uuid128s_hash`. -/
def seenLeHash (code : StatsCode) (rows : List (Option Text)) : Dict Text Nat :=
  rows.foldl (fun hash row => hash.tally (code.leTokens row)) ∅

def statsSection (code : StatsCode) (rows : List (Option Text)) (seen : Dict Text Nat) :
    StatsSection where
  rows := rows.length
  unique := seen.items.length
  entries := seen.byCount.flatMap code.entry
  matched := seen.byCount.countP fun item => code.known item.1

/-- The LE part stands inside the test for an EIR table that is not empty. -/
def StatsCode.run (code : StatsCode) (eirResult leResult : List (Option Text)) : StatsOutput :=
  if eirResult.length ≠ 0 then
    match seenBtcHash code eirResult with
    | .error fault => { btc := none, le := none, raised := some fault }
    | .ok seen =>
        { btc := some (statsSection code eirResult seen)
          le := some (statsSection code leResult (seenLeHash code leResult))
          raised := none }
  else { btc := none, le := none, raised := none }

section Functions

variable (btMemberUuid16sToNames : Int → Option Text) (customUuid128Hash : Text → Option Text)
  (arg : Text)

/-- The name of a UUID16 token in the member table. -/
def memberName (uuid16 : Text) : Option Text :=
  (Text.parseInt 16 uuid16).bind btMemberUuid16sToNames

def uuid16Code : StatsCode where
  eirTokens := splitTokens
  leTokens := splitTokensOfStr
  entry item :=
    match Text.parseInt 16 item.1 with
    | none => if arg ≠ "quiet".toList then [.skipped item.1] else []
    | some decimalUuid16 =>
        match btMemberUuid16sToNames decimalUuid16 with
        | some name => [.line item.2 item.1 name]
        | none => []
  known uuid16 := (memberName btMemberUuid16sToNames uuid16).isSome

def uuid128Code : StatsCode where
  eirTokens strUuid128s := if strUuid128s = some [] then .ok [] else splitTokens strUuid128s
  leTokens strUuid128s := if strUuid128s = some [] then [] else splitTokensOfStr strUuid128s
  entry item := [.line item.2 item.1 ((customUuid128Hash item.1).getD [])]
  known uuid128 := (customUuid128Hash uuid128).isSome

/-- `get_uuid16_stats`. -/
def getUuid16Stats : List (Option Text) → List (Option Text) → StatsOutput :=
  (uuid16Code btMemberUuid16sToNames arg).run

/-- `get_uuid128_stats`. -/
def getUuid128Stats : List (Option Text) → List (Option Text) → StatsOutput :=
  (uuid128Code customUuid128Hash).run

end Functions

/-! ## What should be printed -/

/-- The tokens of the lists of a table. -/
def tableTokens (rows : List (Option Text)) : List Text := rows.flatMap splitTokensOfStr

/-- The call returns, and each section is the histogram of the non-empty tokens that
are wanted of the radio's own table. -/
structure PrintsHistograms (wanted : Text → Prop) (eirResult leResult : List (Option Text))
    (output : StatsOutput) : Prop where
  returns : output.raised = none
  btc : IsHistogram (fun token => token ≠ [] ∧ wanted token) (tableTokens eirResult)
    (histogramOf output.btc)
  le : IsHistogram (fun token => token ≠ [] ∧ wanted token) (tableTokens leResult)
    (histogramOf output.le)

/-- A list that is neither NULL nor empty has an empty token. -/
def HasEmptyToken (rows : List (Option Text)) : Prop :=
  ∃ strUuids, some strUuids ∈ rows ∧ strUuids ≠ [] ∧ [] ∈ strUuids.splitOn ','

/-- The sections are printed: the EIR table has rows, and none is NULL. -/
def SectionsShown (eirResult : List (Option Text)) : Prop := eirResult ≠ [] ∧ none ∉ eirResult

/-! ## Counting the rows -/

/-- What both functions have in common: the rows of the two tables have the same
tokens, except that NULL raises in the EIR table, and the chosen tokens get a
line. -/
structure StatsCode.Lists (code : StatsCode) (chosen : Text → Bool) : Prop where
  null : code.eirTokens none = .error .attributeError
  text : ∀ strUuids, code.eirTokens (some strUuids) = .ok (code.leTokens (some strUuids))
  entry : ∀ item,
    (code.entry item).filterMap StatsEntry.counted = if chosen item.1 then [item] else []

theorem seenLeHash_eq (code : StatsCode) (rows : List (Option Text)) :
    seenLeHash code rows = Dict.tally ∅ (rows.flatMap code.leTokens) := by
  have continued (hash : Dict Text Nat) :
      rows.foldl (fun hash row => hash.tally (code.leTokens row)) hash =
        hash.tally (rows.flatMap code.leTokens) := by
    induction rows generalizing hash with
    | nil => rfl
    | cons row rows inductionHypothesis =>
        rw [List.foldl_cons, inductionHypothesis, List.flatMap_cons, Dict.tally_append]
  exact continued ∅

theorem StatsCode.Lists.seenBtcHash_eq {code : StatsCode} {chosen : Text → Bool}
    (lists : code.Lists chosen) (rows : List (Option Text)) :
    seenBtcHash code rows =
      if none ∈ rows then .error .attributeError
      else .ok (Dict.tally ∅ (rows.flatMap code.leTokens)) := by
  have continued (hash : Dict Text Nat) :
      rows.foldlM (fun hash row => (code.eirTokens row).map (Dict.tally hash)) hash =
        if none ∈ rows then .error .attributeError
        else .ok (hash.tally (rows.flatMap code.leTokens)) := by
    induction rows generalizing hash with
    | nil => rfl
    | cons row rows inductionHypothesis =>
        rw [List.foldlM_cons]
        cases row with
        | none =>
            rw [lists.null, if_pos List.mem_cons_self]
            rfl
        | some strUuids =>
            rw [lists.text, List.flatMap_cons, Dict.tally_append]
            show rows.foldlM _ (hash.tally (code.leTokens (some strUuids))) = _
            rw [inductionHypothesis]
            simp
  exact continued ∅

theorem StatsCode.Lists.histogramOf_section {code : StatsCode} {chosen : Text → Bool}
    (lists : code.Lists chosen) (rows : List (Option Text)) (seen : Dict Text Nat) :
    histogramOf (some (statsSection code rows seen)) =
      seen.byCount.filter fun item => chosen item.1 := by
  show (seen.byCount.flatMap code.entry).filterMap StatsEntry.counted = _
  induction seen.byCount with
  | nil => rfl
  | cons item items inductionHypothesis =>
      rw [List.flatMap_cons, List.filterMap_append, inductionHypothesis, lists.entry,
        List.filter_cons]
      split <;> rfl

/-! ## The sections -/

theorem StatsCode.Lists.run_nil (code : StatsCode) (leResult : List (Option Text)) :
    code.run [] leResult = { btc := none, le := none, raised := none } := rfl

theorem StatsCode.Lists.run_null {code : StatsCode} {chosen : Text → Bool}
    (lists : code.Lists chosen) {eirResult : List (Option Text)} (null : none ∈ eirResult)
    (leResult : List (Option Text)) :
    code.run eirResult leResult =
      { btc := none, le := none, raised := some .attributeError } := by
  have rows := List.length_pos_of_mem null
  rw [StatsCode.run, if_pos (by omega), lists.seenBtcHash_eq, if_pos null]

theorem StatsCode.Lists.run_shown {code : StatsCode} {chosen : Text → Bool}
    (lists : code.Lists chosen) {eirResult : List (Option Text)} (shown : SectionsShown eirResult)
    (leResult : List (Option Text)) :
    code.run eirResult leResult =
      { btc := some (statsSection code eirResult
          (Dict.tally ∅ (eirResult.flatMap code.leTokens)))
        le := some (statsSection code leResult (Dict.tally ∅ (leResult.flatMap code.leTokens)))
        raised := none } := by
  have rows := List.length_pos_iff.mpr shown.1
  rw [StatsCode.run, if_pos (by omega), lists.seenBtcHash_eq, if_neg shown.2, seenLeHash_eq]

theorem StatsCode.Lists.le_of_not_shown {code : StatsCode} {chosen : Text → Bool}
    (lists : code.Lists chosen) {eirResult : List (Option Text)} (hidden : ¬ SectionsShown eirResult)
    (leResult : List (Option Text)) :
    (code.run eirResult leResult).btc = none ∧ (code.run eirResult leResult).le = none := by
  by_cases null : none ∈ eirResult
  · rw [lists.run_null null]
    exact ⟨rfl, rfl⟩
  · have empty : eirResult = [] := by
      by_contra rows
      exact hidden ⟨rows, null⟩
    rw [empty]
    exact ⟨rfl, rfl⟩

/-- The section of one radio depends on the other table only in whether it is printed
at all, and the one for Bluetooth Classic not even in that. -/
theorem StatsCode.Lists.sections_eq_iff {code : StatsCode} {chosen : Text → Bool}
    (lists : code.Lists chosen) (eirResult otherEir leResult otherLe : List (Option Text)) :
    ((code.run eirResult leResult).le = (code.run otherEir leResult).le ↔
        (SectionsShown eirResult ↔ SectionsShown otherEir)) ∧
      (code.run eirResult leResult).btc = (code.run eirResult otherLe).btc := by
  have section_ne (rows : List (Option Text)) (seen : Dict Text Nat) :
      some (statsSection code rows seen) ≠ none := Option.some_ne_none _
  constructor
  · by_cases shown : SectionsShown eirResult
    · by_cases otherShown : SectionsShown otherEir
      · simp [lists.run_shown, shown, otherShown]
      · simp [lists.run_shown shown, lists.le_of_not_shown otherShown, shown, otherShown]
    · by_cases otherShown : SectionsShown otherEir
      · simp [lists.run_shown otherShown, lists.le_of_not_shown shown, shown, otherShown]
      · simp [lists.le_of_not_shown, shown, otherShown]
  · by_cases shown : SectionsShown eirResult
    · simp [lists.run_shown, shown]
    · simp [lists.le_of_not_shown, shown]

/-! ## The histograms -/

/-- The tokens that are counted are those of the table, except for empty ones. -/
def StatsCode.CountsTokens (code : StatsCode) : Prop :=
  ∀ rows token, token ≠ [] →
    occurrences (rows.flatMap code.leTokens) token = occurrences (tableTokens rows) token

theorem StatsCode.Lists.printsHistograms_iff {code : StatsCode} {chosen : Text → Bool}
    (lists : code.Lists chosen) (counts : code.CountsTokens) {wanted : Text → Prop}
    (isChosen : ∀ token, token ≠ [] → (chosen token = true ↔ wanted token))
    (eirResult leResult : List (Option Text)) :
    PrintsHistograms wanted eirResult leResult (code.run eirResult leResult) ↔
      none ∉ eirResult ∧
        (eirResult = [] → ∀ token ∈ tableTokens leResult, token ≠ [] → ¬ wanted token) ∧
        (eirResult ≠ [] → chosen [] = true →
          [] ∉ eirResult.flatMap code.leTokens ∧ [] ∉ leResult.flatMap code.leTokens) := by
  have sectionRight (rows : List (Option Text)) :
      IsHistogram (fun token => token ≠ [] ∧ wanted token) (tableTokens rows)
          (histogramOf (some (statsSection code rows
            (Dict.tally ∅ (rows.flatMap code.leTokens))))) ↔
        (chosen [] = true → [] ∉ rows.flatMap code.leTokens) := by
    rw [lists.histogramOf_section,
      isHistogram_byCount_iff chosen fun token isWanted => counts rows token isWanted.1]
    constructor
    · intro chosenIffWanted blankChosen blank
      exact ((chosenIffWanted [] blank).mp blankChosen).1 rfl
    · intro noBlank token member
      by_cases blank : token = []
      · subst blank
        constructor
        · intro blankChosen
          exact absurd member (noBlank blankChosen)
        · intro isWanted
          exact absurd rfl isWanted.1
      · rw [isChosen token blank, and_iff_right blank]
  by_cases null : none ∈ eirResult
  · rw [lists.run_null null]
    constructor
    · intro prints
      exact absurd prints.returns (by simp)
    · intro all
      exact absurd null all.1
  · by_cases empty : eirResult = []
    · subst empty
      rw [StatsCode.Lists.run_nil]
      constructor
      · intro prints
        have nothing := isHistogram_nil_iff.mp prints.le
        exact ⟨null, fun _ token member nonempty isWanted =>
          nothing token member ⟨nonempty, isWanted⟩, fun some => absurd rfl some⟩
      · intro all
        constructor
        · rfl
        · exact isHistogram_nil_iff.mpr fun token member => absurd member List.not_mem_nil
        · exact isHistogram_nil_iff.mpr fun token member isWanted =>
            all.2.1 rfl token member isWanted.1 isWanted.2
    · rw [lists.run_shown ⟨empty, null⟩]
      constructor
      · intro prints
        refine ⟨null, fun none => absurd none empty, fun _ blankChosen => ?_⟩
        exact ⟨(sectionRight eirResult).mp prints.btc blankChosen,
          (sectionRight leResult).mp prints.le blankChosen⟩
      · intro all
        constructor
        · rfl
        · exact (sectionRight eirResult).mpr fun blankChosen => (all.2.2 empty blankChosen).1
        · exact (sectionRight leResult).mpr fun blankChosen => (all.2.2 empty blankChosen).2

/-! ## Tokens of the rows -/

private theorem splitTokensOfStr_nil : splitTokensOfStr (some []) = [[]] := by decide

/-- Leaving out the rows that are empty texts leaves out empty tokens only. -/
theorem occurrences_leTokens (customUuid128Hash : Text → Option Text) (rows : List (Option Text))
    {token : Text} (nonempty : token ≠ []) :
    occurrences (rows.flatMap (uuid128Code customUuid128Hash).leTokens) token =
      occurrences (tableTokens rows) token := by
  induction rows with
  | nil => rfl
  | cons row rows inductionHypothesis =>
      rw [tableTokens, List.flatMap_cons, List.flatMap_cons, occurrences_append,
        occurrences_append, inductionHypothesis]
      show occurrences (if row = some [] then [] else splitTokensOfStr row) token + _ = _
      by_cases blank : row = some []
      · rw [if_pos blank, blank, splitTokensOfStr_nil]
        have absent : occurrences [[]] token = 0 := by
          have notIn : ¬ 0 < occurrences [[]] token := by
            rw [occurrences_pos_iff, List.mem_singleton]
            exact nonempty
          omega
        rw [absent]
        rfl
      · rw [if_neg blank]
        rfl

theorem nil_mem_leTokens_iff (customUuid128Hash : Text → Option Text)
    (rows : List (Option Text)) :
    [] ∈ rows.flatMap (uuid128Code customUuid128Hash).leTokens ↔ HasEmptyToken rows := by
  rw [List.mem_flatMap, HasEmptyToken]
  constructor
  · intro counted
    obtain ⟨row, member, inRow⟩ := counted
    change [] ∈ (if row = some [] then [] else splitTokensOfStr row) at inRow
    split at inRow
    · exact absurd inRow List.not_mem_nil
    · next notBlank =>
        cases row with
        | none => exact absurd inRow List.not_mem_nil
        | some strUuids =>
            exact ⟨strUuids, member, fun blank => notBlank (by rw [blank]), inRow⟩
  · intro empty
    obtain ⟨strUuids, member, notBlank, inRow⟩ := empty
    refine ⟨some strUuids, member, ?_⟩
    show [] ∈ (if some strUuids = some [] then [] else splitTokensOfStr (some strUuids))
    rw [if_neg (by simpa using notBlank)]
    exact inRow

/-! ## The two functions -/

section Functions

variable (btMemberUuid16sToNames : Int → Option Text) (customUuid128Hash : Text → Option Text)
  (arg : Text)

theorem uuid16Code_lists :
    (uuid16Code btMemberUuid16sToNames arg).Lists
      fun token => (memberName btMemberUuid16sToNames token).isSome where
  null := rfl
  text _ := rfl
  entry item := by
    unfold uuid16Code memberName
    simp only
    split
    · next unread =>
        rw [unread]
        simp only [Option.bind_none, Option.isSome_none]
        split <;> rfl
    · next decimalUuid16 read =>
        rw [read, Option.bind_some]
        split
        · next name listed =>
            rw [listed]
            rfl
        · next unlisted =>
            rw [unlisted]
            rfl

theorem uuid128Code_lists : (uuid128Code customUuid128Hash).Lists fun _ => true where
  null := rfl
  text strUuids := by
    show (if some strUuids = some [] then _ else _) = Except.ok (if some strUuids = some [] then _ else _)
    split <;> rfl
  entry item := rfl

/-- For all contents of the two tables: each function prints the histograms of both
tables exactly when no EIR list is NULL, there are EIR rows or no LE token to print,
and, for UUID128s, no list that is printed has an empty token. The LE section
depends on the EIR table exactly in whether that has rows and none of them NULL, the
one for Bluetooth Classic does not depend on the LE table. -/
theorem uuidStats_right_iff (eirResult leResult : List (Option Text)) :
    (PrintsHistograms (fun token => (memberName btMemberUuid16sToNames token).isSome = true)
          eirResult leResult (getUuid16Stats btMemberUuid16sToNames arg eirResult leResult) ↔
        none ∉ eirResult ∧
          (eirResult = [] → ∀ token ∈ tableTokens leResult,
            memberName btMemberUuid16sToNames token = none)) ∧
      (PrintsHistograms (fun _ => True) eirResult leResult
          (getUuid128Stats customUuid128Hash eirResult leResult) ↔
        none ∉ eirResult ∧ (eirResult = [] → ∀ token ∈ tableTokens leResult, token = []) ∧
          (eirResult ≠ [] → ¬ HasEmptyToken eirResult ∧ ¬ HasEmptyToken leResult)) ∧
      ∀ stats ∈ [getUuid16Stats btMemberUuid16sToNames arg, getUuid128Stats customUuid128Hash],
        ∀ otherEir otherLe,
          ((stats eirResult leResult).le = (stats otherEir leResult).le ↔
              (SectionsShown eirResult ↔ SectionsShown otherEir)) ∧
            (stats eirResult leResult).btc = (stats eirResult otherLe).btc := by
  have blankUnknown : memberName btMemberUuid16sToNames [] = none := rfl
  refine ⟨?_, ?_, ?_⟩
  · rw [getUuid16Stats, (uuid16Code_lists btMemberUuid16sToNames arg).printsHistograms_iff
      (fun _ _ _ => rfl) fun _ _ => Iff.rfl, blankUnknown]
    simp only [Option.isSome_none, Bool.false_eq_true, false_implies, implies_true, and_true]
    apply and_congr_right'
    apply imp_congr_right
    intro _
    apply forall₂_congr
    intro token _
    rw [Bool.not_eq_true, Option.isSome_eq_false_iff, Option.isNone_iff_eq_none]
    constructor
    · intro unknown
      by_cases blank : token = []
      · rw [blank]
        exact blankUnknown
      · exact unknown blank
    · intro unknown _
      exact unknown
  · rw [getUuid128Stats, (uuid128Code_lists customUuid128Hash).printsHistograms_iff
      (fun rows _ nonempty => occurrences_leTokens customUuid128Hash rows nonempty)
      (fun _ _ => ⟨fun _ => trivial, fun _ => rfl⟩)]
    simp only [nil_mem_leTokens_iff, not_true_eq_false, imp_false, not_not, forall_const]
  · intro stats member otherEir otherLe
    rw [List.mem_cons, List.mem_singleton] at member
    cases member with
    | inl uuid16 =>
        rw [uuid16]
        exact (uuid16Code_lists btMemberUuid16sToNames arg).sections_eq_iff _ _ _ _
    | inr uuid128 =>
        rw [uuid128]
        exact (uuid128Code_lists customUuid128Hash).sections_eq_iff _ _ _ _

end Functions

/-! ## A database without Bluetooth Classic devices -/

/-- The member table, of one company. -/
def oneMember (uuid16 : Int) : Option Text :=
  if uuid16 = 0xfe9f then some "Google".toList else none

theorem not_printsHistograms_leOnly :
    ¬ ∀ eirResult leResult : List (Option Text),
      PrintsHistograms (fun token => (memberName oneMember token).isSome = true) eirResult leResult
        (getUuid16Stats oneMember [] eirResult leResult) := by
  intro always
  have printed := (always [] [some "0xfe9f".toList]).le
  have listed := isHistogram_nil_iff.mp printed "0xfe9f".toList (by decide)
  exact listed ⟨by decide, by decide⟩

/-- The LE row `,` of an empty list of two tokens. -/
example : (getUuid128Stats (fun _ => none) [some "aa".toList] [some ",".toList]).le =
    some { rows := 1, unique := 1, entries := [.line 2 [] []], matched := 0 } := by decide

end NaiveBTSniffing.Analysis
