import Mathlib.Data.List.Basic
import NaiveBTSniffing.Library.Text

/-!
Contract: UTF-8 text as bytes, and bytes read as text as far as they go.

`decode` gives the characters that are complete and the bytes after them; the
code of a single character is the one of Lean's `String`. Owns how a cut through
encoded text decodes (`encode_cut`, `decode_encode_append`).
-/

namespace NaiveBTSniffing.Library.Utf8

/-- The bytes of a text. -/
def encode (text : Text) : List UInt8 := text.flatMap String.utf8EncodeChar

/-- The first character and the bytes after it, or `none` when the bytes do not
begin with a whole character. -/
def decodeFirst (bytes : List UInt8) : Option (Char × List UInt8) :=
  (bytes.toByteArray.utf8DecodeChar? 0).map fun char => (char, bytes.drop char.utf8Size)

/-- At most `fuel` characters and the bytes after them. -/
def decodeUpTo : Nat → List UInt8 → Text × List UInt8
  | 0, bytes => ([], bytes)
  | fuel + 1, bytes =>
      match decodeFirst bytes with
      | none => ([], bytes)
      | some (char, rest) =>
          (char :: (decodeUpTo fuel rest).1, (decodeUpTo fuel rest).2)

/-- The characters of the bytes, and the bytes that do not make up a character. -/
def decode (bytes : List UInt8) : Text × List UInt8 := decodeUpTo bytes.length bytes

@[simp] theorem encode_nil : encode [] = [] := rfl

@[simp] theorem encode_cons (char : Char) (text : Text) :
    encode (char :: text) = String.utf8EncodeChar char ++ encode text := rfl

@[simp] theorem encode_append (first rest : Text) :
    encode (first ++ rest) = encode first ++ encode rest :=
  List.flatMap_append

theorem encode_eq_nil {text : Text} : encode text = [] ↔ text = [] := by
  cases text with
  | nil => simp
  | cons char rest => simp

/-- Every character takes at least one byte. -/
theorem length_le_encode (text : Text) : text.length ≤ (encode text).length := by
  induction text with
  | nil => simp
  | cons char rest inductionHypothesis =>
      have one := char.utf8Size_pos
      simp only [encode_cons, List.length_append, List.length_cons, String.length_utf8EncodeChar]
      omega

/-- An encoded character decodes to itself. -/
theorem decodeFirst_encodeChar_append (char : Char) (rest : List UInt8) :
    decodeFirst (String.utf8EncodeChar char ++ rest) = some (char, rest) := by
  have decoded : (String.utf8EncodeChar char ++ rest).toByteArray.utf8DecodeChar? 0 =
      some char := by
    rw [List.toByteArray_append]
    exact ByteArray.utf8DecodeChar?_utf8EncodeChar_append
  rw [decodeFirst, decoded, Option.map_some, ← String.length_utf8EncodeChar, List.drop_left]

theorem eq_of_decodeFirst {bytes rest : List UInt8} {char : Char}
    (decoded : decodeFirst bytes = some (char, rest)) :
    bytes = String.utf8EncodeChar char ++ rest := by
  obtain ⟨_, found, same⟩ := Option.map_eq_some_iff.mp decoded
  cases same
  obtain ⟨more, begins⟩ := ByteArray.exists_of_utf8DecodeChar?_eq_some found
  have listed : bytes = String.utf8EncodeChar char ++ more.data.toList := by
    have data := congrArg (fun array : ByteArray => array.data.toList) begins
    simpa using data
  rw [listed, ← String.length_utf8EncodeChar, List.drop_left]

/-- Part of a character is no character. -/
theorem decodeFirst_part {char : Char} {part more : List UInt8}
    (whole : part ++ more = String.utf8EncodeChar char) (unfinished : more ≠ []) :
    decodeFirst part = none := by
  cases decoded : decodeFirst part with
  | none => rfl
  | some result =>
      obtain ⟨other, rest⟩ := result
      have begins := eq_of_decodeFirst decoded
      have both : decodeFirst (String.utf8EncodeChar char ++ []) = some (other, rest ++ more) := by
        rw [List.append_nil, ← whole, begins, List.append_assoc, decodeFirst_encodeChar_append]
      rw [decodeFirst_encodeChar_append, Option.some.injEq, Prod.mk.injEq] at both
      exact absurd (List.append_eq_nil_iff.mp both.2.symm).2 unfinished

@[simp] theorem decodeFirst_nil : decodeFirst [] = none := by decide

theorem decode_encode_append (text : Text) {part : List UInt8} (stuck : decodeFirst part = none) :
    decode (encode text ++ part) = (text, part) := by
  have enough : ∀ fuel, text.length ≤ fuel →
      decodeUpTo fuel (encode text ++ part) = (text, part) := by
    induction text with
    | nil =>
        intro fuel _
        cases fuel with
        | zero => rfl
        | succ fuel => simp [decodeUpTo, stuck]
    | cons char rest inductionHypothesis =>
        intro fuel long
        cases fuel with
        | zero => exact absurd long (by simp)
        | succ fuel =>
            have remaining := inductionHypothesis fuel (by simpa using long)
            rw [encode_cons, List.append_assoc]
            simp only [decodeUpTo, decodeFirst_encodeChar_append, remaining]
  apply enough
  have short := length_le_encode text
  rw [List.length_append]
  omega

@[simp] theorem decode_encode (text : Text) : decode (encode text) = (text, []) := by
  simpa using decode_encode_append text decodeFirst_nil

/-- A cut through encoded text falls between two characters or into one. -/
theorem encode_cut {text : Text} {first rest : List UInt8} (cut : encode text = first ++ rest) :
    (∃ before after, text = before ++ after ∧ first = encode before ∧ rest = encode after) ∨
      ∃ before part, first = encode before ++ part ∧ part ≠ [] ∧ rest ≠ [] ∧
        decodeFirst part = none := by
  induction text generalizing first with
  | nil =>
      obtain ⟨rfl, rfl⟩ := List.append_eq_nil_iff.mp cut.symm
      exact Or.inl ⟨[], [], rfl, rfl, rfl⟩
  | cons char text inductionHypothesis =>
      rw [encode_cons, List.append_eq_append_iff] at cut
      rcases cut with ⟨more, rfl, cutRest⟩ | ⟨more, inside, rfl⟩
      · rcases inductionHypothesis cutRest with
          ⟨before, after, rfl, rfl, rfl⟩ | ⟨before, part, rfl, started, unfinished, stuck⟩
        · exact Or.inl ⟨char :: before, after, rfl, rfl, rfl⟩
        · exact Or.inr ⟨char :: before, part, by simp, started, unfinished, stuck⟩
      · by_cases atEnd : more = []
        · subst atEnd
          exact Or.inl ⟨[char], text, rfl, by simpa using inside.symm, by simp⟩
        · by_cases atStart : first = []
          · subst atStart
            exact Or.inl ⟨[], char :: text, rfl, rfl, by
              rw [encode_cons, inside, List.nil_append]⟩
          · exact Or.inr ⟨[], first, rfl, atStart, by simp [atEnd],
              decodeFirst_part inside.symm atEnd⟩

end NaiveBTSniffing.Library.Utf8
