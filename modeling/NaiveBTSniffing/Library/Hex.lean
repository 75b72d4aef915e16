import NaiveBTSniffing.Library.Text

/-!
Contract: hexadecimal texts are read back as the numbers and bytes they were
written for.

`hexPadded` is the `%0<width>x` of C; `parseInt` with base 16 and `unhexlify` are
the `int(text, 16)` and the `binascii.unhexlify` of Python. Names no program.
-/

namespace NaiveBTSniffing.Library.Text

/-- The value of an ASCII hexadecimal digit. -/
def hexDigit (char : Char) : Option Nat :=
  if '0' ≤ char ∧ char ≤ '9' then some (char.toNat - '0'.toNat)
  else if 'a' ≤ char ∧ char ≤ 'f' then some (char.toNat - 'a'.toNat + 10)
  else if 'A' ≤ char ∧ char ≤ 'F' then some (char.toNat - 'A'.toNat + 10)
  else none

/-- `binascii.unhexlify(text)`, or `none` where it raises an error: for an odd
number of characters and for anything but a digit. -/
def unhexlify : Text → Option (List UInt8)
  | [] => some []
  | [_] => none
  | high :: low :: rest =>
      (hexDigit high).bind fun highValue =>
        (hexDigit low).bind fun lowValue =>
          (unhexlify rest).map fun bytes => UInt8.ofNat (16 * highValue + lowValue) :: bytes

/-! ## Digits -/

/-- The characters that `toDigits 16` writes. -/
def IsHexText (text : Text) : Prop :=
  ∀ char ∈ text, char ∈ "0123456789abcdef".toList

theorem digitChar_mem {digit : Nat} (below : digit < 16) :
    digit.digitChar ∈ "0123456789abcdef".toList := by
  revert digit
  decide

theorem digitBelow_digitChar {digit : Nat} (below : digit < 16) :
    digitBelow 16 digit.digitChar = some digit := by
  revert digit
  decide

theorem hexDigit_digitChar {digit : Nat} (below : digit < 16) :
    hexDigit digit.digitChar = some digit := by
  revert digit
  decide

theorem isHexText_toDigits (value : Nat) : IsHexText (Nat.toDigits 16 value) := by
  induction value using Nat.strongRecOn with
  | _ value inductionHypothesis =>
      rw [Nat.toDigits_eq_if (by decide)]
      split
      · next small =>
          intro char member
          rw [List.mem_singleton.mp member]
          exact digitChar_mem small
      · next large =>
          intro char member
          rcases List.mem_append.mp member with front | last
          · exact inductionHypothesis (value / 16) (by omega) char front
          · rw [List.mem_singleton.mp last]
            exact digitChar_mem (Nat.mod_lt _ (by decide))

theorem isHexText_hexPadded (width value : Nat) : IsHexText (hexPadded width value) := by
  intro char member
  rcases List.mem_append.mp member with zero | digit
  · rw [List.eq_of_mem_replicate zero]
    decide
  · exact isHexText_toDigits value char digit

/-- As many digits as the width, when the value fits. -/
theorem length_hexPadded {width value : Nat} (some : 0 < width) (fits : value < 16 ^ width) :
    (hexPadded width value).length = width := by
  have short := (Nat.length_toDigits_le_iff (by decide) some).mpr fits
  rw [hexPadded, List.leftpad, List.length_append, List.length_replicate]
  omega

/-! ## Reading numbers -/

theorem parseDigits_cons {base value digit : Nat} {char : Char} (rest : Text)
    (isDigit : digitBelow base char = some digit) (other : char ≠ '_') :
    parseDigits base value (char :: rest) = parseDigits base (base * value + digit) rest := by
  rw [parseDigits]
  · rw [isDigit, Option.bind_some]
  · rintro next more rfl
    exact absurd rfl other

/-- The value of more digits after a value. -/
def hexValue (value : Nat) (text : Text) : Nat :=
  text.foldl (fun value char => 16 * value + (digitBelow 16 char).getD 0) value

theorem digitBelow_of_mem {char : Char} (member : char ∈ "0123456789abcdef".toList) :
    digitBelow 16 char = some ((digitBelow 16 char).getD 0) ∧ char ≠ '_' := by
  have digits : "0123456789abcdef".toList.all (fun char =>
      digitBelow 16 char == some ((digitBelow 16 char).getD 0) && char != '_') = true := by decide
  simpa using List.all_eq_true.mp digits char member

theorem parseDigits_eq_hexValue {text : Text} (hex : IsHexText text) (value : Nat) :
    parseDigits 16 value text = some (hexValue value text) := by
  induction text generalizing value with
  | nil => rfl
  | cons char rest inductionHypothesis =>
      obtain ⟨isDigit, other⟩ := digitBelow_of_mem (hex char List.mem_cons_self)
      rw [parseDigits_cons rest isDigit other,
        inductionHypothesis fun char member => hex char (List.mem_cons_of_mem _ member)]
      rfl

theorem hexValue_toDigits (value : Nat) : hexValue 0 (Nat.toDigits 16 value) = value := by
  induction value using Nat.strongRecOn with
  | _ value inductionHypothesis =>
      rw [Nat.toDigits_eq_if (by decide)]
      split
      · next small => simp [hexValue, digitBelow_digitChar small]
      · next large =>
          have front := inductionHypothesis (value / 16) (by omega)
          have last := digitBelow_digitChar (Nat.mod_lt value (by decide : 0 < 16))
          rw [hexValue] at front ⊢
          rw [List.foldl_append, front, List.foldl_cons, List.foldl_nil, last, Option.getD_some]
          exact Nat.div_add_mod value 16

theorem hexValue_hexPadded (width value : Nat) : hexValue 0 (hexPadded width value) = value := by
  have zeros : ∀ count, hexValue 0 (List.replicate count '0') = 0 := by
    intro count
    induction count with
    | zero => rfl
    | succ count inductionHypothesis =>
        rw [List.replicate_succ]
        exact inductionHypothesis
  have digits := hexValue_toDigits value
  have front := zeros (width - (Nat.toDigits 16 value).length)
  rw [hexValue] at digits front ⊢
  rw [hexPadded, List.leftpad, List.foldl_append, front, digits]

theorem hexValue_append (value : Nat) (first rest : Text) :
    hexValue value (first ++ rest) = hexValue (hexValue value first) rest :=
  List.foldl_append

/-- A value in front of a text counts as often as the digits allow. -/
theorem hexValue_eq_add (value : Nat) (text : Text) :
    hexValue value text = 16 ^ text.length * value + hexValue 0 text := by
  induction text generalizing value with
  | nil => simp [hexValue]
  | cons char rest inductionHypothesis =>
      have first (start : Nat) : hexValue start (char :: rest) =
          hexValue (16 * start + (digitBelow 16 char).getD 0) rest := rfl
      rw [first value, first 0, inductionHypothesis (16 * value + _),
        inductionHypothesis (16 * 0 + _), List.length_cons, Nat.pow_succ, Nat.mul_add, Nat.mul_zero,
        Nat.zero_add, ← Nat.mul_assoc, Nat.add_assoc]

theorem hexPadded_ne_nil (width value : Nat) : hexPadded width value ≠ [] := by
  intro empty
  exact Nat.toDigits_ne_nil (List.append_eq_nil_iff.mp empty).2

theorem isSpace_of_mem {char : Char} (member : char ∈ 'x' :: "0123456789abcdef".toList) :
    isSpace char = false := by
  have word : IsWord ('x' :: "0123456789abcdef".toList) := by decide
  exact word.noSpace char member

/-- `int(text, 16)` of a number written with `0x`. -/
theorem parseInt_hexPadded (width value : Nat) :
    parseInt 16 ('0' :: 'x' :: hexPadded width value) = some (value : Int) := by
  have hex := isHexText_hexPadded width value
  have noSpace : ∀ char ∈ '0' :: 'x' :: hexPadded width value, isSpace char = false := by
    intro char member
    simp only [List.mem_cons] at member
    rcases member with rfl | rfl | member
    · decide
    · decide
    · exact isSpace_of_mem (List.mem_cons_of_mem _ (hex char member))
  obtain ⟨first, rest, digits⟩ := List.exists_cons_of_ne_nil (hexPadded_ne_nil width value)
  rw [parseInt, stripNumber_eq_self noSpace]
  have whole := hexValue_hexPadded width value
  rw [digits] at hex whole ⊢
  obtain ⟨isDigit, other⟩ := digitBelow_of_mem (hex first List.mem_cons_self)
  have dropped : dropPrefix 16 ('0' :: 'x' :: first :: rest) = first :: rest := by
    rw [dropPrefix]
    · simp
    · rintro more same
      exact other (List.cons.inj same).1
  change (parseNat 16 (dropPrefix 16 ('0' :: 'x' :: first :: rest))).map Int.ofNat = _
  rw [dropped, parseNat, if_pos (withinLimit_sixteen _), isDigit, Option.bind_some,
    parseDigits_eq_hexValue (fun char member => hex char (List.mem_cons_of_mem _ member))]
  simp only [hexValue, List.foldl_cons, Nat.mul_zero, Nat.zero_add] at whole ⊢
  rw [whole]
  rfl

/-- `int(text, 16)` of digits alone. -/
theorem parseInt_hexText {text : Text} (hex : IsHexText text) (nonempty : text ≠ []) :
    parseInt 16 text = some (hexValue 0 text : Int) := by
  have noSpace : ∀ char ∈ text, isSpace char = false := fun char member =>
    isSpace_of_mem (List.mem_cons_of_mem _ (hex char member))
  have noMark (char : Char) (member : char ∈ text) :
      char ≠ '-' ∧ char ≠ '+' ∧ char ≠ 'x' ∧ char ≠ 'X' := by
    have digits : "0123456789abcdef".toList.all (fun char =>
        char != '-' && char != '+' && char != 'x' && char != 'X') = true := by decide
    simpa [and_assoc] using List.all_eq_true.mp digits char (hex char member)
  have whole : dropPrefix 16 text = text := by
    unfold dropPrefix
    split
    · exact absurd rfl (noMark 'x' (by simp)).2.2.1
    · exact absurd rfl (noMark 'X' (by simp)).2.2.2
    · exact absurd rfl (noMark 'x' (by simp)).2.2.1
    · exact absurd rfl (noMark 'X' (by simp)).2.2.2
    · rfl
  rw [parseInt, stripNumber_eq_self noSpace]
  split
  · exact absurd rfl (noMark '-' List.mem_cons_self).1
  · exact absurd rfl (noMark '+' List.mem_cons_self).2.1
  · rw [whole]
    cases text with
    | nil => exact absurd rfl nonempty
    | cons first rest =>
        obtain ⟨isDigit, other⟩ := digitBelow_of_mem (hex first List.mem_cons_self)
        rw [parseNat, if_pos (withinLimit_sixteen _), isDigit, Option.bind_some,
          parseDigits_eq_hexValue fun char member => hex char (List.mem_cons_of_mem _ member)]
        simp only [hexValue, List.foldl_cons, Nat.mul_zero, Nat.zero_add]
        rfl

/-! ## Reading bytes -/

theorem hexPadded_byte {value : Nat} (byte : value < 256) :
    hexPadded 2 value = [(value / 16).digitChar, (value % 16).digitChar] := by
  rw [hexPadded, Nat.toDigits_eq_if (by decide)]
  split
  · next small =>
      rw [Nat.div_eq_of_lt small, Nat.mod_eq_of_lt small]
      rfl
  · next large =>
      rw [Nat.toDigits_of_lt_base (by omega)]
      rfl

/-- `binascii.unhexlify` of bytes written with `%02x`. -/
theorem unhexlify_hexPadded (bytes : List UInt8) :
    unhexlify (bytes.flatMap fun byte => hexPadded 2 byte.toNat) = some bytes := by
  induction bytes with
  | nil => rfl
  | cons byte rest inductionHypothesis =>
      have small := byte.toNat_lt
      rw [List.flatMap_cons, hexPadded_byte small, List.cons_append, List.cons_append,
        List.nil_append, unhexlify, hexDigit_digitChar (by omega),
        hexDigit_digitChar (Nat.mod_lt _ (by decide)), inductionHypothesis]
      simp only [Option.bind_some, Option.map_some, Nat.div_add_mod, UInt8.ofNat_toNat]

end NaiveBTSniffing.Library.Text
