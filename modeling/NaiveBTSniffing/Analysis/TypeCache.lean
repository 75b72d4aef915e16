import NaiveBTSniffing.Analysis.ParseGattprint

/-!
Contract: a run of the importer that no error ends, as what its lines mean.

Each item is about an address or about none, gives the address a type and may
hold something to store. Owns that the first item about an address decides the
type of all its rows (`lookup_noteAll`, `mem_rows_noteAll`).
-/

namespace NaiveBTSniffing.Analysis

open NaiveBTSniffing.Library

variable {ι : Type}

/-- What an item means: the address it is about, the type that it gives the address,
and what it stores. -/
structure Meaning (ι : Type) where
  about : ι → Option Text
  given : ι → Nat
  content : ι → Option Content

namespace Meaning

variable (meaning : Meaning ι)

/-- The importer after one more item. -/
def note (importer : Importer) (item : ι) : Importer :=
  match meaning.about item with
  | none => importer
  | some bdaddr =>
      let found := cachedType importer.typeCache bdaddr (meaning.given item)
      { typeCache := found.2
        rows := importer.rows ++ (meaning.content item).toList.map fun content =>
          { deviceBdaddrType := found.1, deviceBdaddr := bdaddr, content } }

/-- The importer after the items, one after the other. -/
def noteAll (items : List ι) : Importer := items.foldl meaning.note .initial

/-- The type that the first item about an address gives it. -/
def firstGiven (items : List ι) (bdaddr : Text) : Option Nat :=
  (items.find? fun item => decide (meaning.about item = some bdaddr)).map meaning.given

theorem noteAll_concat (items : List ι) (item : ι) :
    meaning.noteAll (items ++ [item]) = meaning.note (meaning.noteAll items) item := by
  simp [noteAll]

theorem firstGiven_concat (items : List ι) (item : ι) (bdaddr : Text) :
    meaning.firstGiven (items ++ [item]) bdaddr =
      (meaning.firstGiven items bdaddr).or
        (if meaning.about item = some bdaddr then some (meaning.given item) else none) := by
  rw [firstGiven, firstGiven, List.find?_append]
  cases items.find? fun item => decide (meaning.about item = some bdaddr) with
  | some first => rfl
  | none =>
      by_cases own : meaning.about item = some bdaddr
      · simp [own]
      · simp [own]

theorem firstGiven_isSome {items : List ι} {item : ι} {bdaddr : Text} (member : item ∈ items)
    (own : meaning.about item = some bdaddr) : (meaning.firstGiven items bdaddr).isSome := by
  rw [firstGiven, Option.isSome_map, List.find?_isSome]
  exact ⟨item, member, by simp [own]⟩

/-- The cache holds what the first item about each address gave it. -/
theorem lookup_noteAll (items : List ι) (bdaddr : Text) :
    (meaning.noteAll items).typeCache.lookup bdaddr = meaning.firstGiven items bdaddr := by
  induction items using List.reverseRecOn with
  | nil => rfl
  | append_singleton items item inductionHypothesis =>
      rw [noteAll_concat, firstGiven_concat, ← inductionHypothesis, note]
      cases subject : meaning.about item with
      | none => simp
      | some own =>
          simp only [Option.some.injEq, cachedType]
          by_cases same : own = bdaddr
          · subst same
            cases cached : (meaning.noteAll items).typeCache.lookup own with
            | some type => simp [cached]
            | none => simp
          · cases (meaning.noteAll items).typeCache.lookup own with
            | some type => simp [same]
            | none =>
                simp only [if_neg same, Option.or_none]
                exact Dict.lookup_setItem_ne _ _ (Ne.symm same)

/-- The rows that one more item adds. -/
theorem rows_noteAll_concat {items : List ι} {item : ι} {bdaddr : Text}
    (own : meaning.about item = some bdaddr) :
    (meaning.noteAll (items ++ [item])).rows =
      (meaning.noteAll items).rows ++ (meaning.content item).toList.map fun content =>
        { deviceBdaddrType := (meaning.firstGiven items bdaddr).getD (meaning.given item)
          deviceBdaddr := bdaddr
          content } := by
  rw [noteAll_concat, note, own, ← lookup_noteAll]
  simp only [cachedType]
  cases (meaning.noteAll items).typeCache.lookup bdaddr <;> rfl

/-- Rows that were inserted stay. -/
theorem rows_noteAll_append (before after : List ι) :
    ∃ later, (meaning.noteAll (before ++ after)).rows = (meaning.noteAll before).rows ++ later := by
  induction after using List.reverseRecOn with
  | nil => exact ⟨[], by simp⟩
  | append_singleton after item inductionHypothesis =>
      obtain ⟨later, same⟩ := inductionHypothesis
      rw [← List.append_assoc, noteAll_concat, note]
      cases meaning.about item with
      | none => exact ⟨later, same⟩
      | some own =>
          simp only [same, List.append_assoc]
          exact ⟨_, rfl⟩

/-- The rows are what the items hold, each with the type that the first item
about its address gave. -/
theorem mem_rows_noteAll (items : List ι) (row : Row) :
    row ∈ (meaning.noteAll items).rows ↔
      ∃ item ∈ items, meaning.about item = some row.deviceBdaddr ∧
        meaning.content item = some row.content ∧
        meaning.firstGiven items row.deviceBdaddr = some row.deviceBdaddrType := by
  induction items using List.reverseRecOn with
  | nil => simp [noteAll, Importer.initial]
  | append_singleton items item inductionHypothesis =>
      have lookup := meaning.lookup_noteAll items
      have later : ∀ bdaddr type, meaning.firstGiven items bdaddr = some type →
          meaning.firstGiven (items ++ [item]) bdaddr = some type := by
        intro bdaddr type first
        rw [firstGiven_concat, first, Option.some_or]
      rw [noteAll_concat, note]
      constructor
      · intro member
        cases subject : meaning.about item with
        | none =>
            simp only [subject] at member
            obtain ⟨other, inside, about, holds, first⟩ := inductionHypothesis.mp member
            exact ⟨other, List.mem_append_left _ inside, about, holds, later _ _ first⟩
        | some own =>
            simp only [subject] at member
            rcases List.mem_append.mp member with inside | new
            · obtain ⟨other, inside, about, holds, first⟩ := inductionHypothesis.mp inside
              exact ⟨other, List.mem_append_left _ inside, about, holds, later _ _ first⟩
            · obtain ⟨content, holds, rfl⟩ := List.mem_map.mp new
              refine ⟨item, by simp, subject, Option.mem_toList.mp holds, ?_⟩
              rw [firstGiven_concat, ← lookup own, if_pos subject, cachedType]
              cases (meaning.noteAll items).typeCache.lookup own <;> rfl
      · rintro ⟨other, member, about, holds, first⟩
        have earlier : other ∈ items →
            row ∈ (meaning.noteAll items).rows := by
          intro inside
          obtain ⟨type, known⟩ := Option.isSome_iff_exists.mp
            (meaning.firstGiven_isSome inside about)
          have same := later _ _ known
          rw [first] at same
          exact inductionHypothesis.mpr ⟨other, inside, about, holds, known.trans same.symm⟩
        rcases List.mem_append.mp member with inside | last
        · cases meaning.about item with
          | none => exact earlier inside
          | some own => exact List.mem_append_left _ (earlier inside)
        · rw [List.mem_singleton] at last
          subst last
          rw [about, holds]
          refine List.mem_append_right _ (List.mem_map.mpr ⟨row.content, by simp, ?_⟩)
          rw [firstGiven_concat, if_pos about, ← lookup] at first
          have type : (cachedType (meaning.noteAll items).typeCache row.deviceBdaddr
              (meaning.given other)).1 = row.deviceBdaddrType := by
            rw [cachedType]
            cases cached : (meaning.noteAll items).typeCache.lookup row.deviceBdaddr with
            | some known =>
                rw [cached] at first
                exact Option.some.inj first
            | none =>
                rw [cached] at first
                exact Option.some.inj first
          rw [type]

end Meaning

end NaiveBTSniffing.Analysis
