import Mathlib.Data.List.Basic
import Mathlib.Data.List.Infix
import NaiveBTSniffing.Library.Text

/-!
Contract: the lines that iterating a Python text file yields.

The file is open with universal newlines: `\r\n` and `\r` are read as `\n`, and
each line keeps the `\n` that ends it. Owns how the lines of a text relate to
the lines of its parts: a cut at the end of a line changes nothing
(`lines_append`), any other cut makes one line more (`length_lines_append`).
-/

namespace NaiveBTSniffing.Library.Text

/-- Universal newlines. -/
def translate : Text → Text
  | [] => []
  | '\r' :: '\n' :: rest => '\n' :: translate rest
  | '\r' :: rest => '\n' :: translate rest
  | char :: rest => char :: translate rest

/-- One more character at the front of the first line. -/
def startWith (char : Char) : List Text → List Text
  | [] => [[char]]
  | line :: more => (char :: line) :: more

/-- Pieces that end after each `\n`, and what follows the last one. -/
def breakLines : Text → List Text
  | [] => []
  | char :: rest =>
      if char = '\n' then [char] :: breakLines rest else startWith char (breakLines rest)

/-- The lines of a text, the last one possibly without its end. -/
def lines (text : Text) : List Text := breakLines (translate text)

/-- The lines of a text of which more is expected: only those that have ended. A
`\r` at the very end may still become `\r\n`. -/
def endedLines (text : Text) : List Text :=
  (breakLines (translate (if text.getLast? = some '\r' then text.dropLast else text))).filter
    fun line => decide (line.getLast? = some '\n')

/-- The first text ends where a line of the two texts together ends. -/
def EndsLine (first rest : Text) : Prop :=
  first.getLast? = some '\n' ∨ (first.getLast? = some '\r' ∧ rest.head? ≠ some '\n')

instance (first rest : Text) : Decidable (EndsLine first rest) :=
  inferInstanceAs (Decidable (_ ∨ _))

/-! ## Breaking -/

theorem startWith_append (char : Char) {first : List Text} (rest : List Text)
    (some : first ≠ []) : startWith char (first ++ rest) = startWith char first ++ rest := by
  cases first with
  | nil => exact absurd rfl some
  | cons line more => rfl

theorem length_startWith (char : Char) {lines : List Text} (some : lines ≠ []) :
    (startWith char lines).length = lines.length := by
  cases lines with
  | nil => exact absurd rfl some
  | cons line more => rfl

@[simp] theorem breakLines_nil : breakLines [] = [] := rfl

theorem breakLines_newline (rest : Text) :
    breakLines ('\n' :: rest) = ['\n'] :: breakLines rest := rfl

theorem breakLines_cons {char : Char} (rest : Text) (inside : char ≠ '\n') :
    breakLines (char :: rest) = startWith char (breakLines rest) := by
  rw [breakLines, if_neg inside]

theorem breakLines_ne_nil {text : Text} (some : text ≠ []) : breakLines text ≠ [] := by
  cases text with
  | nil => exact absurd rfl some
  | cons char rest =>
      by_cases newline : char = '\n'
      · subst newline
        rw [breakLines_newline]
        exact List.cons_ne_nil _ _
      · rw [breakLines_cons rest newline]
        cases breakLines rest <;> exact List.cons_ne_nil _ _

/-- The last character of a text with at least two characters. -/
private theorem getLast?_cons_of_ne_nil (char : Char) {rest : Text} (some : rest ≠ []) :
    (char :: rest).getLast? = rest.getLast? := by
  obtain ⟨last, isLast⟩ := Option.isSome_iff_exists.mp (List.getLast?_isSome.mpr some)
  rw [List.getLast?_cons, isLast, Option.getD_some]

theorem flatten_startWith (char : Char) (lines : List Text) :
    (startWith char lines).flatten = char :: lines.flatten := by
  cases lines <;> rfl

/-- The pieces together are the text. -/
theorem flatten_breakLines (text : Text) : (breakLines text).flatten = text := by
  induction text with
  | nil => rfl
  | cons char rest inductionHypothesis =>
      rw [breakLines]
      split
      · next newline => rw [List.flatten_cons, inductionHypothesis, newline]; rfl
      · rw [flatten_startWith, inductionHypothesis]

/-- A line stands in the text. -/
theorem infix_of_mem_lines {line text : Text} (member : line ∈ lines text) :
    line <:+: translate text := by
  have inside := List.infix_of_mem_flatten member
  rwa [lines, flatten_breakLines] at inside

theorem breakLines_append {first : Text} (rest : Text)
    (ends : first = [] ∨ first.getLast? = some '\n') :
    breakLines (first ++ rest) = breakLines first ++ breakLines rest := by
  induction first with
  | nil => rfl
  | cons char first inductionHypothesis =>
      have last : (char :: first).getLast? = some '\n' := by simpa using ends
      have endsRest : first = [] ∨ first.getLast? = some '\n' := by
        by_cases empty : first = []
        · exact Or.inl empty
        · rw [getLast?_cons_of_ne_nil char empty] at last
          exact Or.inr last
      have remaining := inductionHypothesis endsRest
      by_cases newline : char = '\n'
      · subst newline
        rw [List.cons_append, breakLines_newline, breakLines_newline, remaining,
          List.cons_append]
      · have some : first ≠ [] := by
          rintro rfl
          exact newline (by simpa using last)
        rw [List.cons_append, breakLines_cons _ newline, breakLines_cons _ newline, remaining,
          startWith_append char _ (breakLines_ne_nil some)]

/-- A cut inside a line makes one line more. -/
theorem length_breakLines_append {first rest : Text} (started : first ≠ [])
    (inside : first.getLast? ≠ some '\n') (more : rest ≠ []) :
    (breakLines first).length + (breakLines rest).length =
      (breakLines (first ++ rest)).length + 1 := by
  induction first with
  | nil => exact absurd rfl started
  | cons char first inductionHypothesis =>
      by_cases empty : first = []
      · subst empty
        have different : char ≠ '\n' := by
          rintro rfl
          exact inside rfl
        rw [List.singleton_append, breakLines_cons _ different, breakLines_cons _ different,
          length_startWith char (breakLines_ne_nil more)]
        simp [startWith, Nat.add_comm]
      · rw [getLast?_cons_of_ne_nil char empty] at inside
        have remaining := inductionHypothesis empty inside
        by_cases newline : char = '\n'
        · subst newline
          rw [List.cons_append, breakLines_newline, breakLines_newline, List.length_cons,
            List.length_cons]
          omega
        · rw [List.cons_append, breakLines_cons _ newline, breakLines_cons _ newline,
            length_startWith char (breakLines_ne_nil empty),
            length_startWith char (breakLines_ne_nil (by simp [empty]))]
          exact remaining

/-! ## Translating -/

@[simp] theorem translate_nil : translate [] = [] := rfl

theorem translate_return_newline (rest : Text) :
    translate ('\r' :: '\n' :: rest) = '\n' :: translate rest := rfl

theorem translate_return {rest : Text} (alone : rest.head? ≠ some '\n') :
    translate ('\r' :: rest) = '\n' :: translate rest := by
  apply translate.eq_3
  rintro _ rfl
  exact alone rfl

theorem translate_cons {char : Char} (rest : Text) (other : char ≠ '\r') :
    translate (char :: rest) = char :: translate rest :=
  translate.eq_4 char rest (fun _ same _ => other same) other

theorem translate_eq_self {text : Text} (noReturn : '\r' ∉ text) : translate text = text := by
  induction text with
  | nil => rfl
  | cons char rest inductionHypothesis =>
      have other : char ≠ '\r' := fun same => noReturn (same ▸ List.mem_cons_self)
      rw [translate_cons rest other,
        inductionHypothesis fun member => noReturn (List.mem_cons_of_mem _ member)]

theorem not_mem_translate (text : Text) : '\r' ∉ translate text := by
  induction text using translate.induct with
  | case1 => exact List.not_mem_nil
  | case2 rest inductionHypothesis =>
      rw [translate_return_newline]
      simpa using inductionHypothesis
  | case3 rest other inductionHypothesis =>
      rw [translate.eq_3 rest other]
      simpa using inductionHypothesis
  | case4 char rest notPair notReturn inductionHypothesis =>
      rw [translate_cons rest notReturn]
      simpa [Ne.symm notReturn] using inductionHypothesis

theorem getLast?_translate (text : Text) :
    (translate text).getLast? =
      text.getLast?.map fun char => if char = '\r' then '\n' else char := by
  induction text using translate.induct with
  | case1 => rfl
  | case2 rest inductionHypothesis =>
      rw [translate_return_newline, List.getLast?_cons, inductionHypothesis, List.getLast?_cons,
        List.getLast?_cons]
      cases rest.getLast? <;> simp
  | case3 rest other inductionHypothesis =>
      rw [translate.eq_3 rest other, List.getLast?_cons, inductionHypothesis, List.getLast?_cons]
      cases rest.getLast? <;> simp
  | case4 char rest notPair notReturn inductionHypothesis =>
      rw [translate_cons rest notReturn, List.getLast?_cons, inductionHypothesis,
        List.getLast?_cons]
      cases rest.getLast? with
      | none => simp [show char ≠ '\r' from notReturn]
      | some last => simp

theorem translate_append {first rest : Text}
    (apart : ¬ (first.getLast? = some '\r' ∧ rest.head? = some '\n')) :
    translate (first ++ rest) = translate first ++ translate rest := by
  -- A character in front does not change which character is last.
  have shorter : ∀ {char : Char} {first : Text},
      ¬ ((char :: first).getLast? = some '\r' ∧ rest.head? = some '\n') →
        ¬ (first.getLast? = some '\r' ∧ rest.head? = some '\n') := by
    intro char first apart together
    apply apart
    rw [List.getLast?_cons, together.1]
    exact ⟨rfl, together.2⟩
  induction first using translate.induct with
  | case1 => rfl
  | case2 first inductionHypothesis =>
      rw [List.cons_append, List.cons_append, translate_return_newline, translate_return_newline,
        inductionHypothesis (shorter (shorter apart)), List.cons_append]
  | case3 first other inductionHypothesis =>
      have alone : (first ++ rest).head? ≠ some '\n' := by
        cases first with
        | nil => exact fun newline => apart ⟨rfl, newline⟩
        | cons char more =>
            intro newline
            obtain rfl : char = '\n' := Option.some.inj newline
            exact other more rfl
      rw [List.cons_append, translate_return alone, inductionHypothesis (shorter apart),
        translate.eq_3 first other, List.cons_append]
  | case4 char first notPair notReturn inductionHypothesis =>
      rw [List.cons_append, translate_cons _ notReturn, translate_cons _ notReturn,
        inductionHypothesis (shorter apart), List.cons_append]

@[simp] theorem translate_eq_nil {text : Text} : translate text = [] ↔ text = [] := by
  rw [← List.getLast?_eq_none_iff, getLast?_translate, Option.map_eq_none_iff,
    List.getLast?_eq_none_iff]

/-! ## Lines of two texts -/

@[simp] theorem lines_nil : lines [] = [] := rfl

/-- A cut at the end of a line changes no line. -/
theorem lines_append {first rest : Text} (ends : EndsLine first rest) :
    lines (first ++ rest) = lines first ++ lines rest := by
  have apart : ¬ (first.getLast? = some '\r' ∧ rest.head? = some '\n') := by
    rintro ⟨last, head⟩
    rcases ends with newline | ⟨_, alone⟩
    · rw [newline] at last
      exact absurd last (by decide)
    · exact alone head
  have last : (translate first).getLast? = some '\n' := by
    rw [getLast?_translate]
    rcases ends with newline | ⟨carriage, _⟩
    · rw [newline]
      rfl
    · rw [carriage]
      rfl
  rw [lines, translate_append apart, breakLines_append _ (Or.inr last)]
  rfl

/-- What stands in front of a text without a line break of its own belongs to the
first line. -/
theorem lines_append_inside {front text line : Text} {more : List Text}
    (oneLine : ∀ char ∈ front, char ≠ '\n' ∧ char ≠ '\r') (split : lines text = line :: more) :
    lines (front ++ text) = (front ++ line) :: more := by
  induction front with
  | nil => exact split
  | cons char front inductionHypothesis =>
      obtain ⟨noNewline, noReturn⟩ := oneLine char List.mem_cons_self
      have rest := inductionHypothesis fun other member =>
        oneLine other (List.mem_cons_of_mem _ member)
      unfold lines at rest ⊢
      rw [List.cons_append, translate_cons _ noReturn, breakLines_cons _ noNewline, rest]
      rfl

theorem lines_ne_nil {text : Text} (some : text ≠ []) : lines text ≠ [] :=
  breakLines_ne_nil (by simpa using some)

/-- Any other cut makes one line more. -/
theorem length_lines_append {first rest : Text} (started : first ≠ []) (more : rest ≠ [])
    (inside : ¬ EndsLine first rest) :
    (lines first).length + (lines rest).length = (lines (first ++ rest)).length + 1 := by
  by_cases pair : first.getLast? = some '\r' ∧ rest.head? = some '\n'
  · obtain ⟨before, rfl⟩ : ∃ before, first = before ++ ['\r'] :=
      List.getLast?_eq_some_iff.mp pair.1
    obtain ⟨after, rfl⟩ : ∃ after, rest = '\n' :: after := List.head?_eq_some_iff.mp pair.2
    have whole : before ++ ['\r'] ++ '\n' :: after = before ++ '\r' :: '\n' :: after := by simp
    have single : translate ['\r'] = ['\n'] := rfl
    rw [whole, lines, lines, lines, translate_append (by simp), translate_append (by simp),
      translate_return_newline, translate_cons after (by decide), single]
    have joined : translate before ++ '\n' :: translate after =
        (translate before ++ ['\n']) ++ translate after := by simp
    have ended : breakLines (translate before ++ ['\n'] ++ translate after) =
        breakLines (translate before ++ ['\n']) ++ breakLines (translate after) :=
      breakLines_append _ (Or.inr (by simp))
    rw [joined, ended, breakLines_newline, List.length_append, List.length_cons]
    omega
  · have notLast : (translate first).getLast? ≠ some '\n' := by
      rw [getLast?_translate]
      intro newline
      obtain ⟨char, last, translated⟩ := Option.map_eq_some_iff.mp newline
      split at translated
      · next carriage =>
          subst carriage
          exact inside (Or.inr ⟨last, fun head => pair ⟨last, head⟩⟩)
      · subst translated
        exact inside (Or.inl last)
    rw [lines, lines, lines, translate_append pair]
    exact length_breakLines_append (by simpa using started) notLast (by simpa using more)

end NaiveBTSniffing.Library.Text
