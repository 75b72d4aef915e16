import Mathlib.Data.List.Nodup

/-!
Contract: a table whose rows have different keys.

`insertIgnore` adds a row unless the table has one with the same key, and `insertAll`
does so for one row after the other. When two keys are the same is the server's business,
so `same` is a parameter. Owns which rows are in the table afterwards.

Names no table and no column.
-/

namespace NaiveBTSniffing.Library

variable {α : Type}

/-- `INSERT IGNORE`: a row whose key is there already is dropped. -/
def insertIgnore (same : α → α → Bool) (table : List α) (row : α) : List α :=
  if table.any fun stored => same stored row then table else table ++ [row]

def insertAll (same : α → α → Bool) (table rows : List α) : List α :=
  rows.foldl (insertIgnore same) table

section Insert

variable {same : α → α → Bool} {table rows : List α}

theorem insertIgnore_of_same {row : α} (stored : ∃ other ∈ table, same other row = true) :
    insertIgnore same table row = table := by
  rw [insertIgnore, if_pos (List.any_eq_true.mpr stored)]

theorem insertIgnore_of_new {row : α} (new : ∀ stored ∈ table, same stored row = false) :
    insertIgnore same table row = table ++ [row] := by
  rw [insertIgnore, if_neg]
  intro some
  obtain ⟨stored, member, equal⟩ := List.any_eq_true.mp some
  rw [new stored member] at equal
  exact absurd equal (by decide)

/-- The row is dropped or added. -/
theorem insertIgnore_cases (same : α → α → Bool) (table : List α) (row : α) :
    (∃ other ∈ table, same other row = true) ∧ insertIgnore same table row = table ∨
      (∀ stored ∈ table, same stored row = false) ∧
        insertIgnore same table row = table ++ [row] := by
  by_cases stored : ∃ other ∈ table, same other row = true
  · exact .inl ⟨stored, insertIgnore_of_same stored⟩
  · have new : ∀ other ∈ table, same other row = false := by
      intro other member
      by_contra equal
      exact stored ⟨other, member, by simpa using equal⟩
    exact .inr ⟨new, insertIgnore_of_new new⟩

theorem subset_insertAll (same : α → α → Bool) (table rows : List α) :
    table ⊆ insertAll same table rows := by
  induction rows generalizing table with
  | nil => exact List.Subset.refl table
  | cons row rows inductionHypothesis =>
      apply List.Subset.trans _ (inductionHypothesis (insertIgnore same table row))
      rcases insertIgnore_cases same table row with ⟨-, dropped⟩ | ⟨-, added⟩
      · rw [dropped]
        exact List.Subset.refl table
      · rw [added]
        exact List.subset_append_left table [row]

theorem mem_or_mem_of_mem_insertAll {row : α} (member : row ∈ insertAll same table rows) :
    row ∈ table ∨ row ∈ rows := by
  induction rows generalizing table with
  | nil => exact .inl member
  | cons first rows inductionHypothesis =>
      rcases inductionHypothesis member with inside | later
      · rcases insertIgnore_cases same table first with ⟨-, dropped⟩ | ⟨-, added⟩
        · rw [dropped] at inside
          exact .inl inside
        · rw [added] at inside
          rcases List.mem_append.mp inside with before | this
          · exact .inl before
          · rw [List.mem_singleton.mp this]
            exact .inr List.mem_cons_self
      · exact .inr (List.mem_cons_of_mem first later)

/-- Each inserted row has a row with its key in the table. -/
theorem exists_same_of_mem (refl : ∀ row, same row row = true) {row : α} (member : row ∈ rows) :
    ∃ stored ∈ insertAll same table rows, same stored row = true := by
  induction rows generalizing table with
  | nil => exact absurd member List.not_mem_nil
  | cons first rows inductionHypothesis =>
      rcases List.mem_cons.mp member with rfl | later
      · have stays := subset_insertAll same (insertIgnore same table row) rows
        rcases insertIgnore_cases same table row with ⟨stored, dropped⟩ | ⟨-, added⟩
        · obtain ⟨other, inside, equal⟩ := stored
          exact ⟨other, stays (by rwa [dropped]), equal⟩
        · exact ⟨row, stays (by simp [added]), refl row⟩
      · exact inductionHypothesis later

theorem pairwise_insertAll
    (different : table.Pairwise fun first second => same first second = false) :
    (insertAll same table rows).Pairwise fun first second => same first second = false := by
  induction rows generalizing table with
  | nil => exact different
  | cons row rows inductionHypothesis =>
      apply inductionHypothesis
      rcases insertIgnore_cases same table row with ⟨-, dropped⟩ | ⟨new, added⟩
      · rwa [dropped]
      · rw [added]
        apply List.pairwise_append.mpr
        refine ⟨different, List.pairwise_singleton _ row, fun stored member other last => ?_⟩
        rw [List.mem_singleton.mp last]
        exact new stored member

/-- Rows that cannot share a key with others are inserted as if there were no others. -/
theorem filter_insertAll {keep : α → Bool}
    (respects : ∀ first second, same first second = true → keep first = keep second)
    (table rows : List α) :
    (insertAll same table rows).filter keep =
      insertAll same (table.filter keep) (rows.filter keep) := by
  induction rows generalizing table with
  | nil => rfl
  | cons row rows inductionHypothesis =>
      have first : insertAll same table (row :: rows) =
          insertAll same (insertIgnore same table row) rows := rfl
      rw [first, inductionHypothesis]
      by_cases kept : keep row = true
      · have one : (insertIgnore same table row).filter keep =
            insertIgnore same (table.filter keep) row := by
          rcases insertIgnore_cases same table row with ⟨stored, dropped⟩ | ⟨new, added⟩
          · obtain ⟨other, member, equal⟩ := stored
            have inside : other ∈ table.filter keep :=
              List.mem_filter.mpr ⟨member, (respects other row equal).trans kept⟩
            rw [dropped, insertIgnore_of_same ⟨other, inside, equal⟩]
          · have newInside : ∀ stored ∈ table.filter keep, same stored row = false :=
              fun stored member => new stored (List.mem_filter.mp member).1
            rw [added, insertIgnore_of_new newInside, List.filter_append,
              List.filter_cons_of_pos kept, List.filter_nil]
        rw [one, List.filter_cons_of_pos kept]
        rfl
      · have one : (insertIgnore same table row).filter keep = table.filter keep := by
          rcases insertIgnore_cases same table row with ⟨-, dropped⟩ | ⟨-, added⟩
          · rw [dropped]
          · rw [added, List.filter_append, List.filter_cons_of_neg kept, List.filter_nil,
              List.append_nil]
        rw [one, List.filter_cons_of_neg kept]

/-- A table that was empty holds each row once, if no two of them share a key. -/
theorem perm_insertAll (refl : ∀ row, same row row = true) {wanted : List α}
    (nodup : wanted.Nodup) (inserted : ∀ row, row ∈ rows ↔ row ∈ wanted)
    (keys : ∀ first ∈ wanted, ∀ second ∈ wanted, same first second = true → first = second) :
    (insertAll same [] rows).Perm wanted := by
  have stored : ∀ row ∈ insertAll same [] rows, row ∈ wanted := by
    intro row member
    rcases mem_or_mem_of_mem_insertAll member with none | some
    · exact absurd none List.not_mem_nil
    · exact (inserted row).mp some
  have once : (insertAll same [] rows).Nodup := by
    apply List.Pairwise.imp _ (pairwise_insertAll List.Pairwise.nil)
    rintro first second different rfl
    rw [refl first] at different
    exact absurd different (by decide)
  apply (List.perm_ext_iff_of_nodup once nodup).mpr
  intro row
  refine ⟨stored row, fun member => ?_⟩
  obtain ⟨other, inside, equal⟩ := exists_same_of_mem refl ((inserted row).mpr member)
  rw [← keys other (stored other inside) row member equal]
  exact inside

end Insert

end NaiveBTSniffing.Library
