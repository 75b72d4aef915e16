import Mathlib.Data.List.Induction

/-!
Contract: the latest item of a history that meets a condition.

The condition may look at what came before the item. `latest_append_singleton`
says what one more item does, so that a statement about the latest item of a
list can be carried along a run. Names no program.
-/

namespace NaiveBTSniffing.Library

variable {α : Type}

/-- In the history, `item` is the last one that is wanted after what came before
it; `earlier` and `later` are the rest of the history. -/
structure Latest (wanted : List α → α → Prop) (history earlier : List α) (item : α)
    (later : List α) : Prop where
  parts : history = earlier ++ item :: later
  here : wanted earlier item
  last : ∀ middle other rest, later = middle ++ other :: rest →
    ¬ wanted (earlier ++ item :: middle) other

variable {wanted : List α → α → Prop} {history earlier later : List α} {item last : α}

theorem not_latest_nil : ¬ Latest wanted [] earlier item later := by
  intro latest
  have parts := latest.parts
  simp at parts

/-- One more item that is wanted is the latest one. -/
theorem latest_append_wanted (hit : wanted history last) :
    Latest wanted (history ++ [last]) earlier item later ↔
      earlier = history ∧ item = last ∧ later = [] := by
  constructor
  · intro latest
    rcases List.eq_nil_or_concat later with rfl | ⟨sooner, final, rfl⟩
    · have same := List.append_inj' latest.parts rfl
      exact ⟨same.1.symm, (List.cons.inj same.2).1.symm, rfl⟩
    · have same : history ++ [last] = (earlier ++ item :: sooner) ++ [final] := by
        rw [latest.parts]
        simp
      obtain ⟨rest, finals⟩ := List.append_inj' same rfl
      obtain rfl : last = final := (List.cons.inj finals).1
      apply absurd (rest ▸ hit)
      exact latest.last sooner last [] (by simp)
  · rintro ⟨rfl, rfl, rfl⟩
    exact ⟨rfl, hit, fun middle other rest split => absurd split (by simp)⟩

/-- One more item that is not wanted leaves the latest one. -/
theorem latest_append_other (miss : ¬ wanted history last) :
    Latest wanted (history ++ [last]) earlier item later ↔
      ∃ sooner, later = sooner ++ [last] ∧ Latest wanted history earlier item sooner := by
  constructor
  · intro latest
    rcases List.eq_nil_or_concat later with rfl | ⟨sooner, final, rfl⟩
    · obtain ⟨rfl, items⟩ := List.append_inj' latest.parts rfl
      obtain rfl : last = item := (List.cons.inj items).1
      exact absurd latest.here miss
    · have same : history ++ [last] = (earlier ++ item :: sooner) ++ [final] := by
        rw [latest.parts]
        simp
      obtain ⟨rest, finals⟩ := List.append_inj' same rfl
      obtain rfl : last = final := (List.cons.inj finals).1
      refine ⟨sooner, by simp, rest, latest.here, fun middle other others split => ?_⟩
      exact latest.last middle other (others ++ [last]) (by simp [split])
  · rintro ⟨sooner, rfl, latest⟩
    refine ⟨by simp [latest.parts], latest.here, fun middle other rest split => ?_⟩
    rcases List.eq_nil_or_concat rest with rfl | ⟨between, final, rfl⟩
    · obtain ⟨rfl, finals⟩ := List.append_inj' split rfl
      obtain rfl : last = other := (List.cons.inj finals).1
      rwa [← latest.parts]
    · have same : sooner ++ [last] = (middle ++ other :: between) ++ [final] := by
        rw [split]
        simp
      exact latest.last middle other between (List.append_inj' same rfl).1

/-- Some item has been wanted exactly where there is a latest one. -/
theorem exists_latest_iff :
    (∃ earlier item later, Latest wanted history earlier item later) ↔
      ∃ earlier item later, history = earlier ++ item :: later ∧ wanted earlier item := by
  constructor
  · intro ⟨earlier, item, later, latest⟩
    exact ⟨earlier, item, later, latest.parts, latest.here⟩
  · intro ⟨earlier, item, later, parts, here⟩
    induction history using List.reverseRecOn generalizing later with
    | nil => simp at parts
    | append_singleton history last inductionHypothesis =>
        by_cases hit : wanted history last
        · exact ⟨history, last, [], (latest_append_wanted hit).mpr ⟨rfl, rfl, rfl⟩⟩
        · rcases List.eq_nil_or_concat later with rfl | ⟨sooner, final, rfl⟩
          · obtain ⟨rfl, items⟩ := List.append_inj' parts rfl
            obtain rfl : last = item := (List.cons.inj items).1
            exact absurd here hit
          · have same : history ++ [last] = (earlier ++ item :: sooner) ++ [final] := by
              rw [parts]
              simp
            obtain ⟨first, found, after, latest⟩ :=
              inductionHypothesis sooner (List.append_inj' same rfl).1
            exact ⟨first, found, after ++ [last],
              (latest_append_other hit).mpr ⟨after, rfl, latest⟩⟩

/-- There is only one latest item. -/
theorem Latest.unique {otherEarlier otherLater : List α} {other : α}
    (first : Latest wanted history earlier item later)
    (second : Latest wanted history otherEarlier other otherLater) :
    earlier = otherEarlier ∧ item = other ∧ later = otherLater := by
  induction history using List.reverseRecOn generalizing later otherLater with
  | nil => exact absurd first not_latest_nil
  | append_singleton history last inductionHypothesis =>
      by_cases hit : wanted history last
      · obtain ⟨rfl, rfl, rfl⟩ := (latest_append_wanted hit).mp first
        obtain ⟨rfl, rfl, rfl⟩ := (latest_append_wanted hit).mp second
        exact ⟨rfl, rfl, rfl⟩
      · obtain ⟨sooner, rfl, before⟩ := (latest_append_other hit).mp first
        obtain ⟨otherSooner, rfl, otherBefore⟩ := (latest_append_other hit).mp second
        obtain ⟨sameEarlier, sameItem, sameLater⟩ := inductionHypothesis before otherBefore
        exact ⟨sameEarlier, sameItem, congrArg (fun items => items ++ [last]) sameLater⟩

end NaiveBTSniffing.Library
