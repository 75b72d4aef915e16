import Mathlib.Algebra.Group.Nat.Defs
import Mathlib.Data.List.DropRight

/-!
Contract: the text functions of Python's `str` and `int` that the launcher and
the importers use, on lists of characters.

`split` and `strip` follow `str.split()` and `str.strip()` without arguments:
white space is Unicode white space. `parseInt` follows `int(text, base)` of
CPython 3.11 with its default settings, for the bases 10 and 16: surrounding
white space, one sign, the optional `0x` of base 16, decimal digits of every
script, single underscores between digits, and at most 4300 digits in base 10.
`int` drops less white space than `strip`: U+001C to U+001F stay.
-/

namespace NaiveBTSniffing.Library

/-- A character string. -/
abbrev Text : Type := List Char

namespace Text

/-- Code points of the white space that `str.isspace` accepts. -/
def spaceCodes : List Nat :=
  [0x9, 0xa, 0xb, 0xc, 0xd, 0x1c, 0x1d, 0x1e, 0x1f, 0x20, 0x85, 0xa0, 0x1680, 0x2000, 0x2001,
    0x2002, 0x2003, 0x2004, 0x2005, 0x2006, 0x2007, 0x2008, 0x2009, 0x200a, 0x2028, 0x2029,
    0x202f, 0x205f, 0x3000]

def isSpace (char : Char) : Bool := spaceCodes.contains char.toNat

/-- `text.split()`. -/
def split (text : Text) : List Text :=
  (text.splitOnP isSpace).filter fun word => !word.isEmpty

/-- `text.strip()`. -/
def strip (text : Text) : Text :=
  (text.dropWhile isSpace).rdropWhile isSpace

/-! ## Words -/

/-- A text that `split` leaves in one piece. -/
structure IsWord (text : Text) : Prop where
  nonempty : text ≠ []
  noSpace : ∀ char ∈ text, isSpace char = false

instance (text : Text) : Decidable (IsWord text) :=
  have : Decidable (∀ char ∈ text, isSpace char = false) := List.decidableBAll _ text
  decidable_of_iff (text ≠ [] ∧ ∀ char ∈ text, isSpace char = false)
    ⟨fun both => ⟨both.1, both.2⟩, fun word => ⟨word.nonempty, word.noSpace⟩⟩

/-- White space separates words. -/
theorem split_append_space (first rest : Text) {space : Char} (blank : isSpace space = true) :
    split (first ++ space :: rest) = split first ++ split rest := by
  unfold split
  rw [List.splitOnP_append_cons first rest blank, List.filter_append]

theorem split_space_cons (rest : Text) {space : Char} (blank : isSpace space = true) :
    split (space :: rest) = split rest :=
  split_append_space [] rest blank

theorem split_word {word : Text} (isWord : IsWord word) : split word = [word] := by
  have whole : word.splitOnP isSpace = [word] :=
    List.splitOnP_eq_singleton fun char member => by simp [isWord.noSpace char member]
  rw [split, whole]
  simp [isWord.nonempty]

theorem split_word_cons {word : Text} (isWord : IsWord word) (rest : Text) :
    split (word ++ ' ' :: rest) = word :: split rest := by
  rw [split_append_space word rest (by decide), split_word isWord, List.singleton_append]

/-- No piece holds a character that was split on. -/
theorem not_of_mem_splitOnP {isSeparator : Char → Bool} {text piece : Text}
    (member : piece ∈ text.splitOnP isSeparator) : ∀ char ∈ piece, isSeparator char = false := by
  induction text generalizing piece with
  | nil =>
      obtain rfl : piece = [] := by simpa using member
      exact fun char inside => absurd inside List.not_mem_nil
  | cons first rest inductionHypothesis =>
      rw [List.splitOnP_cons_eq_if_modifyHead] at member
      split at member
      · rcases List.mem_cons.mp member with rfl | later
        · exact fun char inside => absurd inside List.not_mem_nil
        · exact inductionHypothesis later
      · next notSeparator =>
          cases pieces : rest.splitOnP isSeparator with
          | nil => exact absurd pieces (List.splitOnP_ne_nil _ _)
          | cons head tail =>
              rw [pieces] at member inductionHypothesis
              rcases List.mem_cons.mp member with rfl | later
              · intro char inside
                rcases List.mem_cons.mp inside with rfl | old
                · simpa using notSeparator
                · exact inductionHypothesis List.mem_cons_self char old
              · exact inductionHypothesis (List.mem_cons_of_mem _ later)

/-- What `split` yields are words. -/
theorem isWord_of_mem_split {text word : Text} (member : word ∈ split text) : IsWord word := by
  obtain ⟨piece, some⟩ := List.mem_filter.mp member
  exact ⟨by simpa using some, not_of_mem_splitOnP piece⟩

/-- `split` does not see the white space that `strip` drops. -/
theorem split_strip (text : Text) : split (strip text) = split text := by
  have dropFront : ∀ text, split (text.dropWhile isSpace) = split text := by
    intro text
    induction text with
    | nil => rfl
    | cons char rest inductionHypothesis =>
        by_cases blank : isSpace char = true
        · rw [List.dropWhile_cons_of_pos blank, inductionHypothesis, split_space_cons rest blank]
        · rw [List.dropWhile_cons_of_neg blank]
  have dropBack : ∀ text, split (text.rdropWhile isSpace) = split text := by
    intro text
    induction text using List.reverseRecOn with
    | nil => rfl
    | append_singleton rest char inductionHypothesis =>
        by_cases blank : isSpace char = true
        · rw [List.rdropWhile_concat_pos _ _ _ blank, inductionHypothesis,
            split_append_space rest [] blank]
          simp [split]
        · rw [List.rdropWhile_concat_neg _ _ _ blank]
  rw [strip, dropBack, dropFront]

private theorem trim_eq_self {blank : Char → Bool} {text : Text}
    (noSpace : ∀ char ∈ text, blank char = false) :
    (text.dropWhile blank).rdropWhile blank = text := by
  have front : text.dropWhile blank = text := by
    cases text with
    | nil => rfl
    | cons char rest =>
        exact List.dropWhile_cons_of_neg (by simp [noSpace char List.mem_cons_self])
  rw [front, List.rdropWhile_eq_self_iff]
  intro nonempty
  simp [noSpace _ (List.getLast_mem nonempty)]

/-- A text without white space is its own `strip`. -/
theorem strip_eq_self {text : Text} (noSpace : ∀ char ∈ text, isSpace char = false) :
    strip text = text :=
  trim_eq_self noSpace

theorem strip_word {word : Text} (isWord : IsWord word) : strip word = word :=
  strip_eq_self isWord.noSpace

/-! ## Numbers -/

/-- The white space that `int` drops: that of C in ASCII characters, and beyond
ASCII what `str.isspace` accepts. -/
def isNumberSpace (char : Char) : Bool :=
  if char.toNat < 0x80 then [0x9, 0xa, 0xb, 0xc, 0xd, 0x20].contains char.toNat
  else isSpace char

/-- The text that `int` reads the number from. -/
def stripNumber (text : Text) : Text :=
  (text.dropWhile isNumberSpace).rdropWhile isNumberSpace

theorem isNumberSpace_of_not_isSpace {char : Char} (notSpace : isSpace char = false) :
    isNumberSpace char = false := by
  unfold isNumberSpace
  split
  · by_contra blank
    have code := List.contains_iff_mem.mp (Bool.of_not_eq_false blank)
    have space : isSpace char = true := by
      simp only [List.mem_cons, List.not_mem_nil, or_false] at code
      simp only [isSpace, spaceCodes, List.contains_iff_mem, List.mem_cons]
      omega
    exact absurd space (Bool.eq_false_iff.mp notSpace)
  · exact notSpace

theorem stripNumber_eq_self {text : Text} (noSpace : ∀ char ∈ text, isSpace char = false) :
    stripNumber text = text :=
  trim_eq_self fun char member => isNumberSpace_of_not_isSpace (noSpace char member)

/-- The zero of each run of ten decimal digits. -/
def zeroCodes : List Nat :=
  [0x30, 0x660, 0x6f0, 0x7c0, 0x966, 0x9e6, 0xa66, 0xae6, 0xb66, 0xbe6, 0xc66, 0xce6, 0xd66,
    0xde6, 0xe50, 0xed0, 0xf20, 0x1040, 0x1090, 0x17e0, 0x1810, 0x1946, 0x19d0, 0x1a80, 0x1a90,
    0x1b50, 0x1bb0, 0x1c40, 0x1c50, 0xa620, 0xa8d0, 0xa900, 0xa9d0, 0xa9f0, 0xaa50, 0xabf0,
    0xff10, 0x104a0, 0x10d30, 0x11066, 0x110f0, 0x11136, 0x111d0, 0x112f0, 0x11450, 0x114d0,
    0x11650, 0x116c0, 0x11730, 0x118e0, 0x11950, 0x11c50, 0x11d50, 0x11da0, 0x16a60, 0x16ac0,
    0x16b50, 0x1d7ce, 0x1d7d8, 0x1d7e2, 0x1d7ec, 0x1d7f6, 0x1e140, 0x1e2f0, 0x1e950, 0x1fbf0]

/-- The value of a decimal digit. -/
def decimalValue (char : Char) : Option Nat :=
  (zeroCodes.find? fun first => first ≤ char.toNat && char.toNat < first + 10).map
    fun first => char.toNat - first

/-- The value of a digit, with the Latin letters as the digits from ten on. -/
def digitValue (char : Char) : Option Nat :=
  if 'a' ≤ char ∧ char ≤ 'z' then some (char.toNat - 'a'.toNat + 10)
  else if 'A' ≤ char ∧ char ≤ 'Z' then some (char.toNat - 'A'.toNat + 10)
  else decimalValue char

/-- The value of a digit below `base`. -/
def digitBelow (base : Nat) (char : Char) : Option Nat :=
  (digitValue char).filter (· < base)

/-- Digits after the first one: `_` only stands between two digits. -/
def parseDigits (base : Nat) : Nat → Text → Option Nat
  | value, [] => some value
  | value, '_' :: char :: rest =>
      (digitBelow base char).bind fun digit => parseDigits base (base * value + digit) rest
  | value, char :: rest =>
      (digitBelow base char).bind fun digit => parseDigits base (base * value + digit) rest

/-- `sys.int_info.default_max_str_digits`. -/
def maxStrDigits : Nat := 4300

/-- `str(value)`, or `none` where it raises `ValueError`: not more than the limit of
digits after the sign. -/
def formatInt (value : Int) : Option Text :=
  let digits := Nat.toDigits 10 value.natAbs
  if digits.length ≤ maxStrDigits then
    some (if value < 0 then '-' :: digits else digits)
  else none

theorem formatInt_isSome_of_lt {value width : Nat} (fits : value < 10 ^ width)
    (positive : 0 < width) (short : width ≤ maxStrDigits) : (formatInt value).isSome = true := by
  have digits : (Nat.toDigits 10 value).length ≤ maxStrDigits :=
    ((Nat.length_toDigits_le_iff (by decide) positive).mpr fits).trans short
  simp [formatInt, digits]

/-- The limit on the number of digits, leading zeros among them; base 16, a power
of two, has none. -/
def withinLimit (base : Nat) (digits : Text) : Bool :=
  base == 16 || digits.countP (· != '_') ≤ maxStrDigits

@[simp] theorem withinLimit_sixteen (digits : Text) : withinLimit 16 digits = true := rfl

/-- An unsigned number: at least one digit, and not more than the limit. -/
def parseNat (base : Nat) : Text → Option Nat
  | [] => none
  | char :: rest =>
      if withinLimit base (char :: rest) then
        (digitBelow base char).bind fun digit => parseDigits base digit rest
      else none

/-- The value in lower-case hexadecimal digits, with zeros in front up to the
width: the format `%0<width>x`. -/
def hexPadded (width value : Nat) : Text :=
  (Nat.toDigits 16 value).leftpad width '0'

/-- Drop the `0x` that base 16 allows, and one underscore after it. -/
def dropPrefix (base : Nat) : Text → Text
  | '0' :: 'x' :: '_' :: rest => if base = 16 then rest else '0' :: 'x' :: '_' :: rest
  | '0' :: 'X' :: '_' :: rest => if base = 16 then rest else '0' :: 'X' :: '_' :: rest
  | '0' :: 'x' :: rest => if base = 16 then rest else '0' :: 'x' :: rest
  | '0' :: 'X' :: rest => if base = 16 then rest else '0' :: 'X' :: rest
  | text => text

/-- `int(text, base)`, or `none` where it raises `ValueError`. -/
def parseInt (base : Nat) (text : Text) : Option Int :=
  match stripNumber text with
  | '-' :: rest => (parseNat base (dropPrefix base rest)).map fun value => -(value : Int)
  | '+' :: rest => (parseNat base (dropPrefix base rest)).map Int.ofNat
  | rest => (parseNat base (dropPrefix base rest)).map Int.ofNat

example : parseInt 10 "-1_0".toList = some (-10) := by decide

example : parseInt 16 "0x00ff".toList = some 255 := by decide

/-- `int` refuses the separators that `strip` would drop. -/
example : parseInt 16 "4\u001f".toList = none ∧ strip "4\u001f".toList = "4".toList := by decide

example : split " a  bc\n".toList = ["a".toList, "bc".toList] := by decide

end Text

end NaiveBTSniffing.Library
