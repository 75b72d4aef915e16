import Mathlib.Data.List.Basic
import NaiveBTSniffing.Library.Conversation

/-!
Contract: a list that a client asks for page by page.

The items of a `Listing` take up ranges of places that follow one another. A client
that keeps the pages and asks again from behind the last item that it has seen ends with
the whole list, however the pages are cut (`Pages.converses`).

Names no program and no encoding: `seen` is what the client keeps of an item.
-/

namespace NaiveBTSniffing.Library

variable {α β σ ρ : Type}

/-- Items in the order of the places that they take up. -/
structure Listing (α : Type) where
  items : List α
  first : α → Nat
  last : α → Nat
  ordered : ∀ item ∈ items, first item ≤ last item
  apart : items.Pairwise fun earlier later => last earlier < first later

namespace Listing

variable (listing : Listing α)

/-- The items from a place on. -/
def since (start : Nat) : List α :=
  listing.items.filter fun item => decide (start ≤ listing.first item)

variable {listing} {start : Nat} {item : α}

theorem mem_since : item ∈ listing.since start ↔ item ∈ listing.items ∧ start ≤ listing.first item := by
  simp [since]

theorem since_of_le (all : ∀ item ∈ listing.items, start ≤ listing.first item) :
    listing.since start = listing.items :=
  List.filter_eq_self.mpr fun item member => decide_eq_true (all item member)

/-- Behind a page come the items that the page has left over. -/
theorem since_behind {front more : List α} (page : listing.since start = front ++ item :: more) :
    listing.since (listing.last item + 1) = more := by
  have apart : (front ++ item :: more).Pairwise
      fun earlier later => listing.last earlier < listing.first later :=
    page ▸ listing.apart.sublist List.filter_sublist
  obtain ⟨_, behindItem, beforeItem⟩ := List.pairwise_append.mp apart
  have inside : item ∈ listing.since start := page ▸ List.mem_append_right _ List.mem_cons_self
  have least := (mem_since.mp inside).2
  have rises := listing.ordered item (mem_since.mp inside).1
  have narrower : listing.since (listing.last item + 1) =
      (listing.since start).filter fun other => decide (listing.last item + 1 ≤ listing.first other) := by
    unfold since
    rw [List.filter_filter]
    apply List.filter_congr
    intro other _
    rw [← Bool.decide_and, decide_eq_decide]
    omega
  have seenFront : front.filter (fun other => decide (listing.last item + 1 ≤ listing.first other)) =
      [] := by
    apply List.filter_eq_nil_iff.mpr
    intro other member
    have before := beforeItem other member item List.mem_cons_self
    have inFront : other ∈ listing.since start := page ▸ List.mem_append_left _ member
    have rises := listing.ordered other (mem_since.mp inFront).1
    simp only [decide_eq_true_eq]
    omega
  have leftOver : more.filter (fun other => decide (listing.last item + 1 ≤ listing.first other)) =
      more := by
    apply List.filter_eq_self.mpr
    intro other member
    exact decide_eq_true (List.rel_of_pairwise_cons behindItem member)
  rw [narrower, page, List.filter_append, seenFront, List.nil_append,
    List.filter_cons_of_neg (by simp only [decide_eq_true_eq]; omega), leftOver]

end Listing

/-- What one answer brings a client that is in the middle of a listing: the end, or a page
of what is left. -/
structure Pages (listing : Listing α) (seen : α → β) (answered : σ → Next σ ρ) (start : σ → Nat)
    (held : σ → List β) (outcome : List β → ρ) : Prop where
  none : ∀ state, 0 < start state → listing.since (start state) = [] →
    answered state = .ended (outcome (held state))
  page : ∀ state, 0 < start state → listing.since (start state) ≠ [] →
    ∃ front item more, listing.since (start state) = front ++ item :: more ∧
      ((∃ next, answered state = .more next ∧ start next = listing.last item + 1 ∧
        held next = held state ++ (front ++ [item]).map seen) ∨
        (more = [] ∧ answered state = .ended (outcome (held state ++ (front ++ [item]).map seen))))

/-- The client ends with what it had and all items from its place on. -/
theorem Pages.converses {listing : Listing α} {seen : α → β} {answered : σ → Next σ ρ}
    {start : σ → Nat} {held : σ → List β} {outcome : List β → ρ}
    (pages : Pages listing seen answered start held outcome) (state : σ)
    (begun : 0 < start state) :
    ∃ count, Converses answered state count
      (outcome (held state ++ (listing.since (start state)).map seen)) := by
  induction left : (listing.since (start state)).length using Nat.strongRecOn generalizing state with
  | _ length inductionHypothesis =>
      by_cases nothing : listing.since (start state) = []
      · rw [nothing, List.map_nil, List.append_nil]
        exact ⟨1, .last (pages.none state begun nothing)⟩
      · obtain ⟨front, item, more, split, ⟨next, asks, further, keeps⟩ | ⟨rfl, ends⟩⟩ :=
          pages.page state begun nothing
        · have behind := Listing.since_behind split
          rw [← further] at behind
          have fewer : more.length < length := by
            rw [← left, split, List.length_append, List.length_cons]
            omega
          obtain ⟨count, rest⟩ := inductionHypothesis more.length fewer next (by omega)
            (by rw [behind])
          refine ⟨count + 1, .more asks ?_⟩
          rw [keeps, behind, List.append_assoc, ← List.map_append, List.append_assoc,
            List.singleton_append, ← split] at rest
          exact rest
        · refine ⟨1, .last ?_⟩
          rw [split]
          exact ends

end NaiveBTSniffing.Library
