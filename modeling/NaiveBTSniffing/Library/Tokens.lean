import NaiveBTSniffing.Library.Trim

/-!
Contract: which tokens of a text hold a pattern.

A pattern without the separator stands in a text exactly when it stands in one of the
tokens between the separators. The characters of the text may be changed first, as where
letters of either case are told as one. Names no program.
-/

namespace NaiveBTSniffing.Library.Text

variable {separator : Char} {pattern text front back : Text} {change : Char → Char}

/-- An occurrence does not reach beyond a separator. -/
theorem infix_append_separator (without : separator ∉ pattern) :
    pattern <:+: front ++ separator :: back ↔ pattern <:+: front ∨ pattern <:+: back := by
  have startsEmpty {part : Text} (starts : part <+: separator :: back)
      (inside : ∀ char ∈ part, char ∈ pattern) : part = [] := by
    rcases List.prefix_cons_iff.mp starts with empty | ⟨rest, rfl, _⟩
    · exact empty
    · exact absurd (inside separator List.mem_cons_self) without
  constructor
  · intro inside
    rcases List.infix_append_iff.mp inside with
      within | within | ⟨first, second, rfl, ends, starts⟩
    · exact .inl within
    · rcases List.infix_cons_iff.mp within with starts | later
      · rw [startsEmpty starts fun char member => member]
        exact .inl List.nil_infix
      · exact .inr later
    · rw [startsEmpty starts fun char member => List.mem_append_right _ member,
        List.append_nil]
      exact .inl ends.isInfix
  · rintro (within | within)
    · exact List.infix_append_of_infix_left within
    · exact List.infix_append_of_infix_right (List.infix_cons within)

/-- The changed text holds the pattern if and only if one of its changed tokens does. -/
theorem infix_map_iff_exists_token (without : separator ∉ pattern)
    (keeps : change separator = separator) :
    pattern <:+: text.map change ↔
      ∃ token ∈ text.splitOn separator, pattern <:+: token.map change := by
  induction size : text.length using Nat.strongRecOn generalizing text with
  | _ count inductionHypothesis =>
      by_cases separated : separator ∈ text
      · obtain ⟨front, back, rfl, first⟩ := List.eq_append_cons_of_mem separated
        have shorter : back.length < count := by
          rw [← size, List.length_append, List.length_cons]
          omega
        rw [List.splitOn_append_cons_self_of_not_mem first, List.map_append, List.map_cons, keeps,
          infix_append_separator without, inductionHypothesis _ shorter rfl]
        simp
      · rw [List.splitOn_eq_singleton separated]
        simp

/-- A text no longer than the pattern holds it only as a whole. -/
theorem infix_iff_eq (short : text.length ≤ pattern.length) :
    pattern <:+: text ↔ text = pattern := by
  constructor
  · exact fun inside => (inside.eq_of_length_le short).symm
  · rintro rfl
    exact List.infix_rfl

end NaiveBTSniffing.Library.Text
