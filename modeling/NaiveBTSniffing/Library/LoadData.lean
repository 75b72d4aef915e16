import Mathlib.Data.List.Infix
import NaiveBTSniffing.Library.Text

/-!
Contract: MySQL's `LOAD DATA` reader for fields terminated by a comma and enclosed
by double quotes, with lines terminated by a line feed and the default escape
character, a backslash.

`readColumns` reads a given number of columns from the line a text begins with.
Owns how many commas the columns of a line can hold (`commas_le_of_readColumns`)
and which values survive between two quotes (`readsBack_line_iff`). Does not own
character sets or the conversion of a column to its type. Names no program.
-/

namespace NaiveBTSniffing.Library.LoadData

/-- The character that an escaped character stands for. -/
def unescape (char : Char) : Char :=
  if char = 'n' then '\n'
  else if char = 't' then '\t'
  else if char = 'r' then '\r'
  else if char = 'b' then '\x08'
  else if char = '0' then '\x00'
  else if char = 'Z' then '\x1a'
  else char

/-- What one field gives: its characters, whether its quotes were closed,
whether it held `\N`, and the text behind the comma that ended it, if one did. -/
structure Field where
  kept : Text
  enclosed : Bool
  foundNull : Bool
  next : Option Text
deriving DecidableEq, Repr

namespace Field

def keep (char : Char) (field : Field) : Field :=
  { field with kept := char :: field.kept }

def escaped (char : Char) (field : Field) : Field :=
  { field with kept := unescape char :: field.kept, foundNull := field.foundNull || char == 'N' }

def ended (enclosed : Bool) (next : Option Text) : Field where
  kept := []
  enclosed := enclosed
  foundNull := false
  next := next

/-- The value of a column: an unenclosed `NULL` and a lone `\N` are null. -/
def value (field : Field) : Option Text :=
  if field.enclosed = false ∧ field.kept = "NULL".toList then none
  else if field.kept.length = 1 ∧ field.foundNull = true then none
  else some field.kept

@[simp] theorem kept_keep (char : Char) (field : Field) :
    (field.keep char).kept = char :: field.kept := rfl

@[simp] theorem enclosed_keep (char : Char) (field : Field) :
    (field.keep char).enclosed = field.enclosed := rfl

@[simp] theorem next_keep (char : Char) (field : Field) :
    (field.keep char).next = field.next := rfl

@[simp] theorem kept_escaped (char : Char) (field : Field) :
    (field.escaped char).kept = unescape char :: field.kept := rfl

@[simp] theorem enclosed_escaped (char : Char) (field : Field) :
    (field.escaped char).enclosed = field.enclosed := rfl

@[simp] theorem next_escaped (char : Char) (field : Field) :
    (field.escaped char).next = field.next := rfl

@[simp] theorem kept_ended (enclosed : Bool) (next : Option Text) :
    (ended enclosed next).kept = [] := rfl

@[simp] theorem enclosed_ended (enclosed : Bool) (next : Option Text) :
    (ended enclosed next).enclosed = enclosed := rfl

@[simp] theorem next_ended (enclosed : Bool) (next : Option Text) :
    (ended enclosed next).next = next := rfl

theorem kept_of_value {field : Field} {text : Text} (read : field.value = some text) :
    field.kept = text := by
  unfold value at read
  split at read
  · cases read
  · split at read
    · cases read
    · exact Option.some.inj read

theorem value_enclosed {field : Field} (enclosed : field.enclosed = true)
    (plain : field.foundNull = false) : field.value = some field.kept := by
  simp [value, enclosed, plain]

end Field

/-- What the reader of an enclosed field has just taken. -/
inductive Mode where
  | inside
  | quote
  | escape
deriving DecidableEq, Repr

/-- The rest of an enclosed field. A quote ends it before a comma, a line feed
or the end of the file; before another quote the two stand for one; before
anything else it is an ordinary character. -/
def readEnclosed : Mode → Text → Field
  | .inside, [] => .ended false none
  | .quote, [] => .ended true none
  | .escape, [] => (Field.ended false none).keep '\\'
  | .inside, char :: rest =>
      if char = '\\' then readEnclosed .escape rest
      else if char = '"' then readEnclosed .quote rest
      else (readEnclosed .inside rest).keep char
  | .quote, char :: rest =>
      if char = '"' then (readEnclosed .inside rest).keep '"'
      else if char = ',' then .ended true (some rest)
      else if char = '\n' then .ended true none
      else if char = '\\' then (readEnclosed .escape rest).keep '"'
      else ((readEnclosed .inside rest).keep char).keep '"'
  | .escape, char :: rest => (readEnclosed .inside rest).escaped char

/-- The rest of an unenclosed field; `escape` after a backslash. -/
def readPlain (escape : Bool) : Text → Field
  | [] => if escape then (Field.ended false none).keep '\\' else .ended false none
  | char :: rest =>
      if escape then (readPlain false rest).escaped char
      else if char = '\\' then readPlain true rest
      else if char = '\n' then .ended false none
      else if char = ',' then .ended false (some rest)
      else (readPlain false rest).keep char

/-- One field. A quote that is never closed is part of the value. -/
def readField : Text → Field
  | [] => .ended false none
  | char :: rest =>
      if char = '"' then
        if (readEnclosed .inside rest).enclosed then readEnclosed .inside rest
        else (readEnclosed .inside rest).keep '"'
      else readPlain false (char :: rest)

/-- The columns of the line that the text begins with: as many as asked for,
fewer if the line has fewer fields; what else the line holds is skipped. -/
def readColumns : Nat → Text → List (Option Text)
  | 0, _ => []
  | _ + 1, [] => []
  | columns + 1, char :: rest =>
      (readField (char :: rest)).value ::
        (readField (char :: rest)).next.elim [] (readColumns columns)

/-- Whatever lines follow, the line is loaded as exactly this row. -/
def ReadsBack (line : Text) (row : List Text) : Prop :=
  ∀ rest : Text, readColumns row.length (line ++ '\n' :: rest) = row.map some

example : readColumns 3 "\"a\"\"b\",,\"c\\\\,\"x,\"\n\"d\"\n".toList =
    [some "a\"b".toList, some [], some "c\\,\"x,".toList] := by decide +kernel

/-! ## Characters between two quotes -/

/-- How the characters between two quotes are kept. -/
inductive Keeps : Text → Text → Prop where
  | nil : Keeps [] []
  | escape (char : Char) {raw kept : Text} (more : Keeps raw kept) :
      Keeps ('\\' :: char :: raw) (unescape char :: kept)
  | doubled {raw kept : Text} (more : Keeps raw kept) : Keeps ('"' :: '"' :: raw) ('"' :: kept)
  | quote {char : Char} {raw kept : Text} (noQuote : char ≠ '"') (noComma : char ≠ ',')
      (noBreak : char ≠ '\n') (more : Keeps (char :: raw) kept) :
      Keeps ('"' :: char :: raw) ('"' :: kept)
  | plain {char : Char} {raw kept : Text} (noEscape : char ≠ '\\') (noQuote : char ≠ '"')
      (more : Keeps raw kept) : Keeps (char :: raw) (char :: kept)

/-- A value that stands between quotes for itself. -/
structure Verbatim (text : Text) : Prop where
  noEscape : '\\' ∉ text
  noDoubled : ¬ ['"', '"'] <:+: text
  noComma : ¬ ['"', ','] <:+: text
  noBreak : ¬ ['"', '\n'] <:+: text
  noLast : ¬ ['"'] <:+ text

instance (text : Text) : Decidable (Verbatim text) :=
  decidable_of_iff
    ('\\' ∉ text ∧ ¬ ['"', '"'] <:+: text ∧ ¬ ['"', ','] <:+: text ∧
      ¬ ['"', '\n'] <:+: text ∧ ¬ ['"'] <:+ text)
    ⟨fun all => ⟨all.1, all.2.1, all.2.2.1, all.2.2.2.1, all.2.2.2.2⟩,
      fun verbatim => ⟨verbatim.noEscape, verbatim.noDoubled, verbatim.noComma, verbatim.noBreak,
        verbatim.noLast⟩⟩

namespace Verbatim

theorem nil : Verbatim [] where
  noEscape := List.not_mem_nil
  noDoubled := by simp
  noComma := by simp
  noBreak := by simp
  noLast := by simp

theorem cons_plain_iff {char : Char} (noQuote : char ≠ '"') (text : Text) :
    Verbatim (char :: text) ↔ char ≠ '\\' ∧ Verbatim text := by
  have pair (second : Char) : ['"', second] <:+: char :: text ↔ ['"', second] <:+: text := by
    rw [List.infix_cons_iff, List.cons_prefix_cons]
    exact or_iff_right fun both => noQuote both.1.symm
  have last : ['"'] <:+ char :: text ↔ ['"'] <:+ text := by
    rw [List.suffix_cons_iff]
    exact or_iff_right fun same => noQuote (List.cons.inj same).1.symm
  constructor
  · intro verbatim
    exact ⟨fun same => verbatim.noEscape (same ▸ List.mem_cons_self), {
      noEscape := fun inside => verbatim.noEscape (List.mem_cons_of_mem _ inside)
      noDoubled := fun inside => verbatim.noDoubled ((pair _).mpr inside)
      noComma := fun inside => verbatim.noComma ((pair _).mpr inside)
      noBreak := fun inside => verbatim.noBreak ((pair _).mpr inside)
      noLast := fun inside => verbatim.noLast (last.mpr inside) }⟩
  · intro both
    exact {
      noEscape := fun inside =>
        (List.mem_cons.mp inside).elim (fun same => both.1 same.symm) both.2.noEscape
      noDoubled := fun inside => both.2.noDoubled ((pair _).mp inside)
      noComma := fun inside => both.2.noComma ((pair _).mp inside)
      noBreak := fun inside => both.2.noBreak ((pair _).mp inside)
      noLast := fun inside => both.2.noLast (last.mp inside) }

theorem not_quote_only : ¬ Verbatim ['"'] := fun verbatim => verbatim.noLast List.suffix_rfl

theorem cons_quote_iff (char : Char) (text : Text) :
    Verbatim ('"' :: char :: text) ↔
      char ≠ '"' ∧ char ≠ ',' ∧ char ≠ '\n' ∧ Verbatim (char :: text) := by
  have pair (second : Char) :
      ['"', second] <:+: '"' :: char :: text ↔
        char = second ∨ ['"', second] <:+: char :: text := by
    rw [List.infix_cons_iff, List.cons_prefix_cons, List.cons_prefix_cons]
    simp [eq_comm]
  have last : ['"'] <:+ '"' :: char :: text ↔ ['"'] <:+ char :: text := by
    rw [List.suffix_cons_iff]
    exact or_iff_right (by simp)
  constructor
  · intro verbatim
    refine ⟨fun same => verbatim.noDoubled ((pair _).mpr (.inl same)),
      fun same => verbatim.noComma ((pair _).mpr (.inl same)),
      fun same => verbatim.noBreak ((pair _).mpr (.inl same)), ?_⟩
    exact {
      noEscape := fun inside => verbatim.noEscape (List.mem_cons_of_mem _ inside)
      noDoubled := fun inside => verbatim.noDoubled ((pair _).mpr (.inr inside))
      noComma := fun inside => verbatim.noComma ((pair _).mpr (.inr inside))
      noBreak := fun inside => verbatim.noBreak ((pair _).mpr (.inr inside))
      noLast := fun inside => verbatim.noLast (last.mpr inside) }
  · rintro ⟨noQuote, noComma, noBreak, verbatim⟩
    exact {
      noEscape := fun inside =>
        (List.mem_cons.mp inside).elim (fun same => by cases same) verbatim.noEscape
      noDoubled := fun inside => ((pair _).mp inside).elim noQuote verbatim.noDoubled
      noComma := fun inside => ((pair _).mp inside).elim noComma verbatim.noComma
      noBreak := fun inside => ((pair _).mp inside).elim noBreak verbatim.noBreak
      noLast := fun inside => verbatim.noLast (last.mp inside) }

end Verbatim

theorem unescape_eq_comma_iff (char : Char) : unescape char = ',' ↔ char = ',' := by
  constructor
  · intro same
    unfold unescape at same
    repeat' split at same
    all_goals first
      | exact same
      | exact absurd same (by decide)
  · intro same
    rw [same]
    decide

namespace Keeps

variable {raw kept : Text}

theorem length_le (keeps : Keeps raw kept) : kept.length ≤ raw.length := by
  induction keeps with
  | nil => exact Nat.le_refl _
  | escape char more inductionHypothesis =>
      simp only [List.length_cons]
      omega
  | doubled more inductionHypothesis =>
      simp only [List.length_cons]
      omega
  | quote noQuote noComma noBreak more inductionHypothesis =>
      simp only [List.length_cons] at inductionHypothesis ⊢
      omega
  | plain noEscape noQuote more inductionHypothesis =>
      simp only [List.length_cons]
      omega

/-- No comma is lost or made. -/
theorem commas (keeps : Keeps raw kept) : kept.count ',' = raw.count ',' := by
  induction keeps with
  | nil => rfl
  | escape char more inductionHypothesis =>
      have same : (unescape char == ',') = (char == ',') := by
        rw [Bool.eq_iff_iff, beq_iff_eq, beq_iff_eq, unescape_eq_comma_iff]
      rw [List.count_cons, List.count_cons_of_ne (show '\\' ≠ ',' by decide), List.count_cons, same,
        inductionHypothesis]
  | doubled more inductionHypothesis =>
      rw [List.count_cons_of_ne (by decide), List.count_cons_of_ne (by decide),
        List.count_cons_of_ne (by decide), inductionHypothesis]
  | quote noQuote noComma noBreak more inductionHypothesis =>
      rw [List.count_cons_of_ne (by decide), List.count_cons_of_ne (by decide),
        inductionHypothesis]
  | plain noEscape noQuote more inductionHypothesis =>
      rw [List.count_cons, List.count_cons, inductionHypothesis]

/-- A line feed is not lost. -/
theorem break_mem (keeps : Keeps raw kept) (inside : '\n' ∈ raw) : '\n' ∈ kept := by
  induction keeps with
  | nil => exact inside
  | escape char more inductionHypothesis =>
      rcases List.mem_cons.mp inside with same | inside
      · cases same
      · rcases List.mem_cons.mp inside with same | inside
        · rw [← same]
          exact List.mem_cons_self
        · exact List.mem_cons_of_mem _ (inductionHypothesis inside)
  | doubled more inductionHypothesis =>
      apply List.mem_cons_of_mem
      apply inductionHypothesis
      simpa using inside
  | quote noQuote noComma noBreak more inductionHypothesis =>
      apply List.mem_cons_of_mem
      apply inductionHypothesis
      simpa using inside
  | plain noEscape noQuote more inductionHypothesis =>
      rcases List.mem_cons.mp inside with same | inside
      · rw [← same]
        exact List.mem_cons_self
      · exact List.mem_cons_of_mem _ (inductionHypothesis inside)

/-- What keeps its length stands for itself. -/
theorem verbatim_of_length (keeps : Keeps raw kept) (whole : raw.length ≤ kept.length) :
    raw = kept ∧ Verbatim raw := by
  induction keeps with
  | nil => exact ⟨rfl, Verbatim.nil⟩
  | escape char more inductionHypothesis =>
      have shorter := more.length_le
      simp only [List.length_cons] at whole
      omega
  | doubled more inductionHypothesis =>
      have shorter := more.length_le
      simp only [List.length_cons] at whole
      omega
  | @quote char raw kept noQuote noComma noBreak more inductionHypothesis =>
      have tail := inductionHypothesis (by simpa using whole)
      exact ⟨congrArg _ tail.1,
        (Verbatim.cons_quote_iff char raw).mpr ⟨noQuote, noComma, noBreak, tail.2⟩⟩
  | plain noEscape noQuote more inductionHypothesis =>
      have tail := inductionHypothesis (by simpa using whole)
      exact ⟨congrArg _ tail.1, (Verbatim.cons_plain_iff noQuote _).mpr ⟨noEscape, tail.2⟩⟩

end Keeps

/-- The character that a mode has taken already. -/
def Mode.taken : Mode → Text
  | .inside => []
  | .quote => ['"']
  | .escape => ['\\']

/-- What follows a closing quote, and the text behind the comma if it is one. -/
inductive Closes : Text → Option Text → Prop where
  | file : Closes [] none
  | line (rest : Text) : Closes ('\n' :: rest) none
  | field (rest : Text) : Closes (',' :: rest) (some rest)

/-- How an enclosed field was read: up to a closing quote, or to the end of the file. -/
inductive Encloses : Text → Field → Prop where
  | closed (raw : Text) {ending : Text} {field : Field} (enclosed : field.enclosed = true)
      (keeps : Keeps raw field.kept) (closes : Closes ending field.next) :
      Encloses (raw ++ '"' :: ending) field
  | unclosed {text : Text} {field : Field} (enclosed : field.enclosed = false)
      (next : field.next = none) (commas : field.kept.count ',' = text.count ',')
      (breaks : '\n' ∈ text → '\n' ∈ field.kept) : Encloses text field

namespace Encloses

variable {text rest : Text} {field wider : Field}

/-- Characters that are kept as one character, whatever follows them. -/
theorem step (rawFirst : Text) {keptFirst : Char}
    (first : ∀ {raw kept : Text}, Keeps raw kept → Keeps (rawFirst ++ raw) (keptFirst :: kept))
    (kept : wider.kept = keptFirst :: field.kept) (enclosed : wider.enclosed = field.enclosed)
    (next : wider.next = field.next) (encloses : Encloses text field) :
    Encloses (rawFirst ++ text) wider := by
  cases encloses with
  | closed raw closed keeps closes =>
      rw [← List.append_assoc]
      exact .closed _ (enclosed.trans closed) (kept ▸ first keeps) (next ▸ closes)
  | unclosed unclosed last commas breaks =>
      have alone := first Keeps.nil
      rw [List.append_nil] at alone
      apply Encloses.unclosed (enclosed.trans unclosed) (next.trans last)
      · rw [kept, ← List.singleton_append, List.count_append, List.count_append, alone.commas,
          commas]
      · intro inside
        rw [kept, ← List.singleton_append, List.mem_append]
        exact (List.mem_append.mp inside).imp alone.break_mem breaks

/-- A quote that stands for itself. -/
theorem quote {char : Char} (noQuote : char ≠ '"') (noComma : char ≠ ',') (noBreak : char ≠ '\n')
    (encloses : Encloses (char :: rest) field) :
    Encloses ('"' :: char :: rest) (field.keep '"') := by
  generalize whole : char :: rest = text at encloses
  cases encloses with
  | closed raw closed keeps closes =>
      cases raw with
      | nil => exact absurd (List.cons.inj whole).1 noQuote
      | cons first raw =>
          have same : char = first := (List.cons.inj whole).1
          rw [← same] at keeps ⊢
          exact .closed ('"' :: char :: raw) closed (.quote noQuote noComma noBreak keeps) closes
  | unclosed unclosed last commas breaks =>
      show Encloses ('"' :: text) (field.keep '"')
      apply Encloses.unclosed (by exact unclosed) (by exact last)
      · rw [Field.kept_keep, List.count_cons_of_ne (by decide), commas,
          List.count_cons_of_ne (by decide)]
      · intro inside
        apply List.mem_cons_of_mem
        apply breaks
        simpa using inside

end Encloses

/-- What the reader of an enclosed field does with any text. -/
theorem readEnclosed_encloses (mode : Mode) (text : Text) :
    Encloses (mode.taken ++ text) (readEnclosed mode text) := by
  induction text generalizing mode with
  | nil =>
      cases mode with
      | inside => exact .unclosed rfl rfl rfl id
      | quote => exact .closed [] rfl .nil .file
      | escape => exact .unclosed rfl rfl rfl id
  | cons char rest inductionHypothesis =>
      cases mode with
      | inside =>
          unfold readEnclosed
          split
          · rename_i same
            rw [same]
            exact inductionHypothesis .escape
          · rename_i noEscape
            split
            · rename_i same
              rw [same]
              exact inductionHypothesis .quote
            · rename_i noQuote
              exact (inductionHypothesis .inside).step [char] (.plain noEscape noQuote) rfl rfl rfl
      | quote =>
          unfold readEnclosed
          split
          · rename_i same
            rw [same]
            exact (inductionHypothesis .inside).step ['"', '"'] .doubled rfl rfl rfl
          · rename_i noQuote
            split
            · rename_i same
              rw [same]
              exact .closed [] rfl .nil (.field rest)
            · rename_i noComma
              split
              · rename_i same
                rw [same]
                exact .closed [] rfl .nil (.line rest)
              · rename_i noBreak
                split
                · rename_i same
                  rw [same] at noQuote noComma noBreak ⊢
                  exact (inductionHypothesis .escape).quote noQuote noComma noBreak
                · rename_i noEscape
                  have plain : Encloses (char :: rest) ((readEnclosed .inside rest).keep char) :=
                    (inductionHypothesis .inside).step [char] (.plain noEscape noQuote) rfl rfl rfl
                  exact plain.quote noQuote noComma noBreak
      | escape =>
          exact (inductionHypothesis .inside).step ['\\', char] (.escape char) rfl rfl rfl

theorem readEnclosed_quote {char : Char} (noQuote : char ≠ '"') (noComma : char ≠ ',')
    (noBreak : char ≠ '\n') (rest : Text) :
    readEnclosed .inside ('"' :: char :: rest) =
      (readEnclosed .inside (char :: rest)).keep '"' := by
  simp only [readEnclosed, if_neg noQuote, if_neg noComma, if_neg noBreak,
    if_neg (show ¬ '"' = '\\' by decide), if_true]
  by_cases escape : char = '\\'
  · rw [if_pos escape, if_pos escape]
  · rw [if_neg escape, if_neg escape]

theorem readEnclosed_plain {char : Char} (noEscape : char ≠ '\\') (noQuote : char ≠ '"')
    (rest : Text) :
    readEnclosed .inside (char :: rest) = (readEnclosed .inside rest).keep char := by
  simp only [readEnclosed, if_neg noEscape, if_neg noQuote]

/-- A verbatim value is read up to the quote behind it. -/
theorem readEnclosed_verbatim {text ending : Text} {next : Option Text} (verbatim : Verbatim text)
    (closes : readEnclosed .quote ending = .ended true next) :
    readEnclosed .inside (text ++ '"' :: ending) = text.foldr Field.keep (.ended true next) := by
  induction text with
  | nil =>
      rw [List.nil_append, List.foldr_nil, ← closes]
      simp only [readEnclosed, if_neg (show ¬ '"' = '\\' by decide), if_true]
  | cons char text inductionHypothesis =>
      by_cases quote : char = '"'
      · rw [quote] at verbatim ⊢
        cases text with
        | nil => exact absurd verbatim Verbatim.not_quote_only
        | cons second text =>
            obtain ⟨noQuote, noComma, noBreak, tail⟩ :=
              (Verbatim.cons_quote_iff second text).mp verbatim
            rw [List.foldr_cons, ← inductionHypothesis tail]
            exact readEnclosed_quote noQuote noComma noBreak _
      · have both := (Verbatim.cons_plain_iff quote text).mp verbatim
        rw [List.foldr_cons, ← inductionHypothesis both.2]
        exact readEnclosed_plain both.1 quote _

theorem foldr_keep (text : Text) (enclosed : Bool) (next : Option Text) :
    text.foldr Field.keep (.ended enclosed next) =
      { kept := text, enclosed, foundNull := false, next } := by
  induction text with
  | nil => rfl
  | cons char text inductionHypothesis =>
      rw [List.foldr_cons, inductionHypothesis]
      rfl

/-- A separator that a value of these characters cannot have taken along. -/
def Separates (separator : Char) (text kept : Text) : Prop :=
  separator = ',' ∧ kept.count ',' ≤ text.count ',' ∨ separator = '\n' ∧ '\n' ∉ kept

namespace Separates

variable {separator : Char} {text tail kept : Text}

theorem ne_quote (separates : Separates separator text kept) : separator ≠ '"' := by
  rcases separates with ⟨same, -⟩ | ⟨same, -⟩
  · rw [same]
    decide
  · rw [same]
    decide

/-- Reading past the closing quote takes the separator along. -/
theorem not_past (separates : Separates separator text kept)
    (commas : kept.count ',' = (text ++ '"' :: separator :: tail).count ',')
    (breaks : '\n' ∈ text ++ '"' :: separator :: tail → '\n' ∈ kept) : False := by
  rcases separates with ⟨same, fewer⟩ | ⟨same, none⟩
  · rw [same, List.count_append, List.count_cons_of_ne (by decide), List.count_cons_self] at commas
    omega
  · apply none
    apply breaks
    rw [same]
    simp

/-- Of two ways to close a field, the one that keeps enough is the first. -/
theorem verbatim_of_keeps {raw ending : Text} (separates : Separates separator text kept)
    (long : text.length ≤ kept.length) (keeps : Keeps raw kept)
    (whole : raw ++ '"' :: ending = text ++ '"' :: separator :: tail) :
    text = kept ∧ Verbatim text := by
  have shorter := keeps.length_le
  rcases List.append_eq_append_iff.mp whole with ⟨past, longer, -⟩ | ⟨past, longer, ending⟩
  · have lengths := congrArg List.length longer
    rw [List.length_append] at lengths
    have none : past = [] := List.length_eq_zero_iff.mp (by omega)
    rw [none, List.append_nil] at longer
    rw [longer] at long ⊢
    exact keeps.verbatim_of_length long
  · cases past with
    | nil =>
        rw [List.append_nil] at longer
        rw [longer] at keeps
        exact keeps.verbatim_of_length long
    | cons first past =>
        have same := (List.cons.inj ending).1
        have behind := (List.cons.inj ending).2
        cases past with
        | nil => exact absurd (List.cons.inj behind).1 separates.ne_quote
        | cons second past =>
            rw [longer, ← same, ← (List.cons.inj behind).1] at keeps
            exact (separates.not_past keeps.commas keeps.break_mem).elim

/-- If a field that was written between quotes gives a value that is no shorter,
then the value is what was written and stands for itself. -/
theorem verbatim_of_kept (separates : Separates separator text kept)
    (long : text.length ≤ kept.length)
    (read : (readField ('"' :: (text ++ '"' :: separator :: tail))).kept = kept) :
    text = kept ∧ Verbatim text := by
  generalize whole : text ++ '"' :: separator :: tail = behind at read
  have encloses := readEnclosed_encloses .inside behind
  simp only [readField, if_true] at read
  generalize readEnclosed .inside behind = field at encloses read
  simp only [Mode.taken, List.nil_append] at encloses
  cases encloses with
  | closed raw closed keeps closes =>
      rw [if_pos closed] at read
      rw [read] at keeps
      exact separates.verbatim_of_keeps long keeps whole.symm
  | unclosed unclosed last commas breaks =>
      rw [if_neg (by simp [unclosed]), Field.kept_keep] at read
      rw [← whole] at commas breaks
      rw [← read] at separates
      exfalso
      apply separates.not_past
      · rw [List.count_cons_of_ne (by decide), commas]
      · exact fun inside => List.mem_cons_of_mem _ (breaks inside)

end Separates

/-! ## Commas of a line -/

/-- A comma that ended a field is spent with it. -/
theorem Closes.commas {ending : Text} {next : Option Text} (closes : Closes ending next) :
    next.elim 0 (fun rest => rest.count ',' + 1) ≤ ending.count ',' := by
  cases closes with
  | file => exact Nat.le_refl _
  | line rest => exact Nat.zero_le _
  | field rest => rw [List.count_cons_self, Option.elim_some]

theorem Encloses.commas {text : Text} {field : Field} (encloses : Encloses text field) :
    field.kept.count ',' + field.next.elim 0 (fun rest => rest.count ',' + 1) ≤
      text.count ',' := by
  cases encloses with
  | closed raw closed keeps closes =>
      have behind := closes.commas
      rw [List.count_append, List.count_cons_of_ne (by decide), keeps.commas]
      omega
  | unclosed unclosed last commas breaks =>
      rw [last, Option.elim_none, commas]
      omega

theorem readPlain_commas (escape : Bool) (text : Text) :
    (readPlain escape text).kept.count ',' +
        (readPlain escape text).next.elim 0 (fun rest => rest.count ',' + 1) ≤
      text.count ',' := by
  induction text generalizing escape with
  | nil => cases escape <;> simp [readPlain]
  | cons char rest inductionHypothesis =>
      unfold readPlain
      split
      · have more := inductionHypothesis false
        have same : (unescape char == ',') = (char == ',') := by
          rw [Bool.eq_iff_iff, beq_iff_eq, beq_iff_eq, unescape_eq_comma_iff]
        rw [Field.kept_escaped, Field.next_escaped, List.count_cons, List.count_cons, same]
        omega
      · split
        · have more := inductionHypothesis true
          rw [List.count_cons]
          omega
        · split
          · exact Nat.zero_le _
          · split
            · rename_i same
              rw [same, List.count_cons_self]
              simp
            · have more := inductionHypothesis false
              rw [Field.kept_keep, Field.next_keep, List.count_cons, List.count_cons]
              omega

theorem readField_commas (text : Text) :
    (readField text).kept.count ',' +
        (readField text).next.elim 0 (fun rest => rest.count ',' + 1) ≤
      text.count ',' := by
  cases text with
  | nil => exact Nat.le_refl _
  | cons char rest =>
      simp only [readField]
      split
      · have inside := (readEnclosed_encloses .inside rest).commas
        simp only [Mode.taken, List.nil_append] at inside
        rename_i quote
        rw [quote, List.count_cons_of_ne (by decide)]
        split
        · exact inside
        · rw [Field.kept_keep, Field.next_keep, List.count_cons_of_ne (by decide)]
          exact inside
      · exact readPlain_commas false (char :: rest)

/-- The commas of the columns and those between them all stand in the text. -/
theorem commas_le_of_readColumns {values : List Text} {text : Text} (nonempty : values ≠ [])
    (read : readColumns values.length text = values.map some) :
    values.flatten.count ',' + values.length ≤ text.count ',' + 1 := by
  induction values generalizing text with
  | nil => exact absurd rfl nonempty
  | cons value values inductionHypothesis =>
      cases text with
      | nil => cases read
      | cons char rest =>
          have spent := readField_commas (char :: rest)
          have first := Field.kept_of_value (List.cons.inj read).1
          have others := (List.cons.inj read).2
          rw [first] at spent
          simp only [List.flatten_cons, List.count_append, List.length_cons]
          cases values with
          | nil =>
              simp only [List.flatten_nil, List.count_nil, List.length_nil]
              omega
          | cons second values =>
              cases next : (readField (char :: rest)).next with
              | none =>
                  rw [next] at others
                  cases others
              | some behind =>
                  rw [next] at others spent
                  have more := inductionHypothesis (List.cons_ne_nil _ _) others
                  simp only [Option.elim_some] at spent
                  simp only [List.flatten_cons, List.count_append, List.length_cons] at more ⊢
                  omega

/-! ## Lines of fields -/

/-- A field between quotes; an absent one is empty. -/
def fieldText : Option Text → Text
  | none => []
  | some text => '"' :: (text ++ ['"'])

/-- The fields with a comma between each two. -/
def line (fields : List (Option Text)) : Text := [','].intercalate (fields.map fieldText)

/-- The value a field should be read back as. -/
def asRead (field : Option Text) : Text := field.getD []

theorem line_singleton (field : Option Text) : line [field] = fieldText field := by
  simp [line, List.intercalate]

theorem line_cons_cons (first second : Option Text) (fields : List (Option Text)) :
    line (first :: second :: fields) = fieldText first ++ ',' :: line (second :: fields) := by
  simp [line, List.intercalate_cons_cons]

theorem line_none_append (second : Option Text) (fields : List (Option Text)) (rest : Text) :
    line (none :: second :: fields) ++ rest = ',' :: (line (second :: fields) ++ rest) := by
  rw [line_cons_cons, fieldText, List.nil_append, List.cons_append]

theorem line_some_append (text : Text) (second : Option Text) (fields : List (Option Text))
    (rest : Text) :
    line (some text :: second :: fields) ++ rest =
      '"' :: (text ++ '"' :: ',' :: (line (second :: fields) ++ rest)) := by
  rw [line_cons_cons]
  simp [fieldText]

theorem line_append {front back : List (Option Text)} (some : front ≠ []) (more : back ≠ []) :
    line (front ++ back) = line front ++ ',' :: line back := by
  induction front with
  | nil => exact absurd rfl some
  | cons first front inductionHypothesis =>
      cases front with
      | nil =>
          cases back with
          | nil => exact absurd rfl more
          | cons second back =>
              rw [List.singleton_append, line_cons_cons, line_singleton]
      | cons second front =>
          have others := inductionHypothesis (List.cons_ne_nil _ _)
          rw [List.cons_append] at others
          rw [List.cons_append, List.cons_append, line_cons_cons, line_cons_cons, others,
            List.append_assoc, List.cons_append]

theorem line_last_append (text rest : Text) :
    line [some text] ++ rest = '"' :: (text ++ '"' :: rest) := by
  rw [line_singleton]
  simp [fieldText]

theorem readColumns_absent_comma (columns : Nat) (rest : Text) :
    readColumns (columns + 1) (',' :: rest) = some [] :: readColumns columns rest := rfl

theorem readColumns_absent_break (columns : Nat) (rest : Text) :
    readColumns (columns + 1) ('\n' :: rest) = [some []] := rfl

private theorem readField_verbatim {text ending : Text} {next : Option Text}
    (verbatim : Verbatim text) (closes : readEnclosed .quote ending = .ended true next) :
    readField ('"' :: (text ++ '"' :: ending)) =
      { kept := text, enclosed := true, foundNull := false, next } := by
  have inside := readEnclosed_verbatim verbatim closes
  rw [foldr_keep] at inside
  simp only [readField, inside, if_true]

theorem readColumns_verbatim_comma {text : Text} (verbatim : Verbatim text) (columns : Nat)
    (rest : Text) :
    readColumns (columns + 1) ('"' :: (text ++ '"' :: ',' :: rest)) =
      some text :: readColumns columns rest := by
  have closes : readEnclosed .quote (',' :: rest) = .ended true (some rest) := rfl
  rw [readColumns, readField_verbatim verbatim closes, Field.value_enclosed rfl rfl,
    Option.elim_some]

theorem readColumns_verbatim_break {text : Text} (verbatim : Verbatim text) (columns : Nat)
    (rest : Text) :
    readColumns (columns + 1) ('"' :: (text ++ '"' :: '\n' :: rest)) = [some text] := by
  have closes : readEnclosed .quote ('\n' :: rest) = .ended true none := rfl
  rw [readColumns, readField_verbatim verbatim closes, Field.value_enclosed rfl rfl,
    Option.elim_none]

/-- A first column that is read as no shorter a value was written verbatim. -/
theorem verbatim_of_readColumns {columns : Nat} {text tail kept : Text} {separator : Char}
    {others : List (Option Text)} (separates : Separates separator text kept)
    (long : text.length ≤ kept.length)
    (read : readColumns (columns + 1) ('"' :: (text ++ '"' :: separator :: tail)) =
      some kept :: others) :
    text = kept ∧ Verbatim text := by
  rw [readColumns] at read
  exact separates.verbatim_of_kept long (Field.kept_of_value (List.cons.inj read).1)

/-- The fields of a line are read back. -/
theorem readsBack_of_verbatim {fields : List (Option Text)} (nonempty : fields ≠ [])
    (verbatim : ∀ text, some text ∈ fields → Verbatim text) :
    ReadsBack (line fields) (fields.map asRead) := by
  intro rest
  induction fields with
  | nil => exact absurd rfl nonempty
  | cons field fields inductionHypothesis =>
      cases fields with
      | nil =>
          cases field with
          | none => exact readColumns_absent_break 0 rest
          | some text =>
              rw [line_last_append]
              exact readColumns_verbatim_break (verbatim text List.mem_cons_self) 0 rest
      | cons second fields =>
          have others := inductionHypothesis (List.cons_ne_nil _ _)
            fun text inside => verbatim text (List.mem_cons_of_mem _ inside)
          rw [List.map_cons, List.length_cons]
          cases field with
          | none =>
              rw [line_none_append, readColumns_absent_comma, others]
              rfl
          | some text =>
              rw [line_some_append, readColumns_verbatim_comma (verbatim text List.mem_cons_self), others]
              rfl

/-- What is read back was verbatim. -/
theorem verbatim_of_readsBack {fields : List (Option Text)}
    (oneLine : ∀ text, some text ∈ fields → '\n' ∉ text)
    (read : readColumns fields.length (line fields ++ ['\n']) =
      fields.map fun field => some (asRead field)) :
    ∀ text, some text ∈ fields → Verbatim text := by
  induction fields with
  | nil => exact fun text inside => absurd inside List.not_mem_nil
  | cons field fields inductionHypothesis =>
      intro text inside
      cases fields with
      | nil =>
          rw [List.mem_singleton] at inside
          rw [← inside, line_last_append] at read
          have separates : Separates '\n' text text :=
            .inr ⟨rfl, oneLine text (inside ▸ List.mem_cons_self)⟩
          exact (verbatim_of_readColumns separates (Nat.le_refl _) read).2
      | cons second fields =>
          have others := inductionHypothesis
            fun text inside => oneLine text (List.mem_cons_of_mem _ inside)
          rw [List.length_cons] at read
          cases field with
          | none =>
              rw [line_none_append, readColumns_absent_comma] at read
              apply others (List.cons.inj read).2
              exact (List.mem_cons.mp inside).resolve_left (by simp)
          | some first =>
              rw [line_some_append] at read
              have separates : Separates ',' first first := .inl ⟨rfl, Nat.le_refl _⟩
              have verbatim := (verbatim_of_readColumns separates (Nat.le_refl _) read).2
              rw [readColumns_verbatim_comma verbatim] at read
              rcases List.mem_cons.mp inside with same | inside
              · rw [Option.some.inj same]
                exact verbatim
              · exact others (List.cons.inj read).2 text inside

/-- A line of fields is loaded as its fields exactly if each of them is verbatim. -/
theorem readsBack_line_iff {fields : List (Option Text)} (nonempty : fields ≠ [])
    (oneLine : ∀ text, some text ∈ fields → '\n' ∉ text) :
    ReadsBack (line fields) (fields.map asRead) ↔ ∀ text, some text ∈ fields → Verbatim text := by
  constructor
  · intro back
    apply verbatim_of_readsBack oneLine
    have read := back []
    rw [List.length_map, List.map_map] at read
    exact read
  · exact readsBack_of_verbatim nonempty

/-- The commas of a line: one between each two fields, and those of the fields. -/
theorem commas_line {fields : List (Option Text)} (nonempty : fields ≠ []) :
    (line fields).count ',' + 1 = (fields.map asRead).flatten.count ',' + fields.length := by
  have own (field : Option Text) : (fieldText field).count ',' = (asRead field).count ',' := by
    cases field with
    | none => rfl
    | some text =>
        rw [fieldText, List.count_cons_of_ne (by decide), List.count_append,
          List.count_cons_of_ne (by decide), List.count_nil]
        rfl
  induction fields with
  | nil => exact absurd rfl nonempty
  | cons field fields inductionHypothesis =>
      cases fields with
      | nil => simp [line_singleton, own]
      | cons second fields =>
          have others := inductionHypothesis (List.cons_ne_nil _ _)
          rw [line_cons_cons, List.count_append, List.count_cons_self, own]
          simp only [List.map_cons, List.flatten_cons, List.count_append, List.length_cons]
            at others ⊢
          omega

end NaiveBTSniffing.Library.LoadData
