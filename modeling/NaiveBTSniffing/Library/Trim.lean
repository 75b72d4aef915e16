import NaiveBTSniffing.Library.Text

/-!
Contract: texts up to surrounding white space and the case of letters.

`stripLowered` is Python's `text.strip().lower()` for texts whose letters are
ASCII. It is idempotent, and does not see white space put around the text. Names
no program.
-/

namespace NaiveBTSniffing.Library.Text

/-- `text.strip().lower()`. -/
def stripLowered (text : Text) : Text := (strip text).map Char.toLower

/-! ## Stripping -/

private theorem rdropWhile_map {p : Char → Bool} {change : Char → Char} (text : Text)
    (keeps : ∀ char, p (change char) = p char) :
    (text.map change).rdropWhile p = (text.rdropWhile p).map change := by
  have same : p ∘ change = p := funext keeps
  unfold List.rdropWhile
  rw [← List.map_reverse, List.dropWhile_map, same, List.map_reverse]

/-- A change of characters that keeps white space commutes with stripping. -/
theorem strip_map {change : Char → Char} (keeps : ∀ char, isSpace (change char) = isSpace char)
    (text : Text) : strip (text.map change) = (strip text).map change := by
  have same : isSpace ∘ change = isSpace := funext keeps
  rw [strip, List.dropWhile_map, same, rdropWhile_map _ keeps, strip]

theorem strip_strip (text : Text) : strip (strip text) = strip text := by
  have front : (strip text).dropWhile isSpace = strip text := by
    have dropped : (text.dropWhile isSpace).dropWhile isSpace = text.dropWhile isSpace :=
      List.dropWhile_idempotent _ _
    unfold strip
    rw [List.dropWhile_eq_self_iff] at dropped ⊢
    intro some
    have initial := List.rdropWhile_prefix isSpace (text.dropWhile isSpace)
    have shorter := initial.length_le
    rw [initial.getElem some]
    exact dropped (by omega)
  rw [strip, front, strip, List.rdropWhile_idempotent]

/-- White space around a text is stripped. -/
theorem strip_padded {before after : Text} (text : Text)
    (blankBefore : ∀ char ∈ before, isSpace char = true)
    (blankAfter : ∀ char ∈ after, isSpace char = true) :
    strip (before ++ text ++ after) = strip text := by
  have back (front : Text) : (front ++ after).rdropWhile isSpace = front.rdropWhile isSpace := by
    unfold List.rdropWhile
    rw [List.reverse_append, List.dropWhile_append_of_pos]
    intro char member
    exact blankAfter char (List.mem_reverse.mp member)
  rw [strip, List.append_assoc, List.dropWhile_append_of_pos blankBefore, strip]
  by_cases blank : ∀ char ∈ text, isSpace char = true
  · have nothing : text.dropWhile isSpace = [] := List.dropWhile_eq_nil_iff.mpr blank
    have all : (text ++ after).dropWhile isSpace = [] := by
      apply List.dropWhile_eq_nil_iff.mpr
      intro char member
      cases List.mem_append.mp member with
      | inl inText => exact blank char inText
      | inr inAfter => exact blankAfter char inAfter
    rw [nothing, all]
  · have some : text.dropWhile isSpace ≠ [] := fun nothing =>
      blank (List.dropWhile_eq_nil_iff.mp nothing)
    have split : (text ++ after).dropWhile isSpace = text.dropWhile isSpace ++ after := by
      rw [List.dropWhile_append, if_neg (by simpa using some)]
    rw [split, back]

/-! ## Letters -/

/-- `toLower` moves a capital letter and leaves every other character alone. -/
theorem toLower_cases (char : Char) :
    (65 ≤ char.toNat ∧ char.toNat ≤ 90 ∧ char.toLower.toNat = char.toNat + 32) ∨
      ¬ (65 ≤ char.toNat ∧ char.toNat ≤ 90) ∧ char.toLower = char := by
  unfold Char.toLower
  by_cases upper : char.val ≥ 'A'.val ∧ char.val ≤ 'Z'.val
  · have least : 65 ≤ char.toNat := upper.1
    have most : char.toNat ≤ 90 := upper.2
    left
    rw [dif_pos upper]
    refine ⟨least, most, ?_⟩
    show (char.val + ('a'.val - 'A'.val)).toNat = _
    rw [UInt32.toNat_add]
    show (char.toNat + 32) % 2 ^ 32 = _
    omega
  · right
    rw [dif_neg upper]
    exact ⟨upper, rfl⟩

/-- Lower case neither makes nor removes white space. -/
theorem isSpace_toLower (char : Char) : isSpace char.toLower = isSpace char := by
  have notSpace (code : Nat) (within : 65 ≤ code ∧ code ≤ 122) :
      spaceCodes.contains code = false := by
    rw [List.contains_eq_mem, decide_eq_false_iff_not]
    intro member
    simp only [spaceCodes, List.mem_cons, List.not_mem_nil, or_false] at member
    omega
  cases toLower_cases char with
  | inl moved =>
      rw [isSpace, isSpace, moved.2.2, notSpace _ (by omega), notSpace _ (by omega)]
  | inr kept => rw [kept.2]

theorem toLower_toLower (char : Char) : char.toLower.toLower = char.toLower := by
  cases toLower_cases char.toLower with
  | inl movedAgain =>
      cases toLower_cases char with
      | inl moved => omega
      | inr kept =>
          rw [kept.2] at movedAgain
          exact absurd ⟨movedAgain.1, movedAgain.2.1⟩ kept.1
  | inr kept => exact kept.2

theorem stripLowered_stripLowered (text : Text) :
    stripLowered (stripLowered text) = stripLowered text := by
  rw [stripLowered, stripLowered, strip_map isSpace_toLower, strip_strip, List.map_map]
  congr 1
  funext char
  exact toLower_toLower char

/-- White space around a text and the case of its letters do not matter. -/
theorem stripLowered_padded {before after text word : Text}
    (blankBefore : ∀ char ∈ before, isSpace char = true)
    (blankAfter : ∀ char ∈ after, isSpace char = true) (isWord : IsWord word)
    (letters : text.map Char.toLower = word) :
    stripLowered (before ++ text ++ after) = word := by
  rw [stripLowered, strip_padded text blankBefore blankAfter, ← strip_map isSpace_toLower, letters,
    strip_word isWord]

end NaiveBTSniffing.Library.Text
