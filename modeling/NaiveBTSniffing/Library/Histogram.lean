import Mathlib.Data.List.Sort
import Mathlib.Data.List.Lemmas
import NaiveBTSniffing.Library.Dict

/-!
Contract: counting keys in a dictionary and listing them by their count.

`tally` counts a list of keys into a dictionary, `byCount` lists the items of a
dictionary in descending order of their counts, equal ones in the order of the
dictionary. `IsHistogram` says what such a list should be, for the keys that are
wanted. Names no program.
-/

namespace NaiveBTSniffing.Library

variable {κ : Type} [DecidableEq κ]

/-- How often the key is in the list. -/
def occurrences (keys : List κ) (key : κ) : Nat := keys.count key

theorem occurrences_pos_iff {keys : List κ} {key : κ} : 0 < occurrences keys key ↔ key ∈ keys :=
  List.count_pos_iff

theorem occurrences_append (first rest : List κ) (key : κ) :
    occurrences (first ++ rest) key = occurrences first key + occurrences rest key :=
  List.count_append

namespace Dict

/-- `d[key] += 1`, or `d[key] = 1` for a new key. -/
def bump (dict : Dict κ Nat) (key : κ) : Dict κ Nat :=
  match dict.lookup key with
  | some count => dict.setItem key (count + 1)
  | none => dict.setItem key 1

/-- Count these keys on top of what the dictionary holds. -/
def tally (dict : Dict κ Nat) (keys : List κ) : Dict κ Nat := keys.foldl bump dict

/-- `d.items()`. -/
def items {ν : Type} (dict : Dict κ ν) : List (κ × ν) :=
  dict.entries.map fun entry => (entry.1, entry.2)

/-- `sorted(d.items(), key=lambda item: item[1], reverse=True)`. -/
def byCount (dict : Dict κ Nat) : List (κ × Nat) :=
  dict.items.insertionSort fun left right => right.2 ≤ left.2

/-- The number that a dictionary of counts has for a key. -/
def countOf (dict : Dict κ Nat) (key : κ) : Nat := (dict.lookup key).getD 0

/-- Only keys that have been counted are in the dictionary. -/
def Counted (dict : Dict κ Nat) : Prop := ∀ key count, dict.lookup key = some count → 0 < count

/-! ## Counting -/

theorem lookup_bump (dict : Dict κ Nat) (key query : κ) :
    (dict.bump key).lookup query =
      if query = key then some (dict.countOf key + 1) else dict.lookup query := by
  unfold bump countOf
  cases held : dict.lookup key with
  | none => simp [lookup_setItem]
  | some count => simp [lookup_setItem]

theorem countOf_bump (dict : Dict κ Nat) (key query : κ) :
    (dict.bump key).countOf query = dict.countOf query + if query = key then 1 else 0 := by
  rw [countOf, lookup_bump]
  by_cases same : query = key
  · rw [if_pos same, if_pos same, same]
    rfl
  · rw [if_neg same, if_neg same]
    rfl

theorem countOf_tally (dict : Dict κ Nat) (keys : List κ) (query : κ) :
    (dict.tally keys).countOf query = dict.countOf query + occurrences keys query := by
  induction keys generalizing dict with
  | nil => rfl
  | cons key keys inductionHypothesis =>
      show ((dict.bump key).tally keys).countOf query = _
      rw [inductionHypothesis, countOf_bump, occurrences, occurrences, List.count_cons]
      by_cases same : query = key
      · rw [if_pos same, if_pos (by simp [same])]
        omega
      · rw [if_neg same, if_neg (by simp [Ne.symm same])]
        omega

theorem tally_append (dict : Dict κ Nat) (first rest : List κ) :
    dict.tally (first ++ rest) = (dict.tally first).tally rest :=
  List.foldl_append

theorem counted_bump {dict : Dict κ Nat} (counted : dict.Counted) (key : κ) :
    (dict.bump key).Counted := by
  intro query count held
  rw [lookup_bump] at held
  split at held
  · rw [Option.some.injEq] at held
    omega
  · exact counted query count held

theorem counted_tally {dict : Dict κ Nat} (counted : dict.Counted) (keys : List κ) :
    (dict.tally keys).Counted := by
  induction keys generalizing dict with
  | nil => exact counted
  | cons key keys inductionHypothesis => exact inductionHypothesis (counted_bump counted key)

omit [DecidableEq κ] in
theorem counted_empty [DecidableEq κ] : (∅ : Dict κ Nat).Counted := by
  intro key count held
  simp at held

/-- What a dictionary of counts holds for a key, from its number. -/
theorem Counted.lookup_eq_some_iff {dict : Dict κ Nat} (counted : dict.Counted) (key : κ)
    (count : Nat) : dict.lookup key = some count ↔ count = dict.countOf key ∧ 0 < count := by
  unfold countOf
  constructor
  · intro held
    rw [held]
    exact ⟨rfl, counted key count held⟩
  · intro both
    obtain ⟨same, positive⟩ := both
    cases held : dict.lookup key with
    | none =>
        rw [held, Option.getD_none] at same
        omega
    | some other =>
        rw [held, Option.getD_some] at same
        rw [same]

/-! ## Items -/

theorem mem_items_iff {ν : Type} (dict : Dict κ ν) (key : κ) (value : ν) :
    (key, value) ∈ dict.items ↔ dict.lookup key = some value := by
  unfold items
  rw [List.mem_map]
  constructor
  · intro listed
    obtain ⟨entry, member, same⟩ := listed
    cases same
    exact AList.mem_lookup_iff.mpr member
  · intro held
    exact ⟨⟨key, value⟩, AList.mem_lookup_iff.mp held, rfl⟩

omit [DecidableEq κ] in
theorem nodup_items {ν : Type} (dict : Dict κ ν) : (dict.items.map Prod.fst).Nodup := by
  have keys : dict.items.map Prod.fst = dict.keys := by
    unfold items AList.keys List.keys
    rw [List.map_map]
    rfl
  rw [keys]
  exact dict.keys_nodup

omit [DecidableEq κ] in
theorem pairwise_byCount (dict : Dict κ Nat) :
    dict.byCount.Pairwise fun first second => second.2 ≤ first.2 := by
  have total : Std.Total fun first second : κ × Nat => second.2 ≤ first.2 :=
    ⟨fun first second => by omega⟩
  have transitive : IsTrans (κ × Nat) fun first second => second.2 ≤ first.2 :=
    ⟨fun first second third => by omega⟩
  exact List.pairwise_insertionSort _ _

omit [DecidableEq κ] in
theorem perm_byCount (dict : Dict κ Nat) : dict.byCount.Perm dict.items :=
  List.perm_insertionSort _ _

end Dict

/-! ## Histograms -/

/-- The lines are the wanted keys of the list with the number of their occurrences,
each once, in descending order of the number. -/
structure IsHistogram (wanted : κ → Prop) (keys : List κ) (lines : List (κ × Nat)) : Prop where
  mem_iff : ∀ key count,
    (key, count) ∈ lines ↔ wanted key ∧ key ∈ keys ∧ count = occurrences keys key
  once : (lines.map Prod.fst).Nodup
  descending : lines.Pairwise fun first second => second.2 ≤ first.2

/-- Nothing is a histogram of keys of which none is wanted. -/
theorem isHistogram_nil_iff {wanted : κ → Prop} {keys : List κ} :
    IsHistogram wanted keys [] ↔ ∀ key ∈ keys, ¬ wanted key := by
  constructor
  · intro histogram key member isWanted
    have listed := (histogram.mem_iff key (occurrences keys key)).mpr ⟨isWanted, member, rfl⟩
    exact absurd listed List.not_mem_nil
  · intro none
    constructor
    · intro key count
      constructor
      · intro listed
        exact absurd listed List.not_mem_nil
      · intro all
        exact absurd all.1 (none key all.2.1)
    · exact List.nodup_nil
    · exact List.Pairwise.nil

theorem Dict.mem_byCount_tally_iff (keys : List κ) (key : κ) (count : Nat) :
    (key, count) ∈ Dict.byCount (Dict.tally ∅ keys) ↔ key ∈ keys ∧ count = occurrences keys key := by
  have counted := Dict.counted_tally Dict.counted_empty keys
  have number : (Dict.tally ∅ keys).countOf key = occurrences keys key := by
    rw [Dict.countOf_tally, Dict.countOf, AList.lookup_empty, Option.getD_none, Nat.zero_add]
  rw [(Dict.perm_byCount _).mem_iff, Dict.mem_items_iff, counted.lookup_eq_some_iff, number]
  constructor
  · intro both
    refine ⟨?_, both.1⟩
    apply occurrences_pos_iff.mp
    omega
  · intro both
    have positive := occurrences_pos_iff.mpr both.1
    exact ⟨both.2, by omega⟩

/-- Counting some keys and listing the chosen ones yields the histogram of the
wanted keys of another list exactly when the chosen keys are the wanted ones. -/
theorem isHistogram_byCount_iff {wanted : κ → Prop} {keys counted : List κ} (chosen : κ → Bool)
    (agree : ∀ key, wanted key → occurrences counted key = occurrences keys key) :
    IsHistogram wanted keys
        ((Dict.byCount (Dict.tally ∅ counted)).filter fun item => chosen item.1) ↔
      ∀ key ∈ counted, chosen key = true ↔ wanted key := by
  have listed (key : κ) (count : Nat) :
      (key, count) ∈ (Dict.byCount (Dict.tally ∅ counted)).filter (fun item => chosen item.1) ↔
        (key ∈ counted ∧ count = occurrences counted key) ∧ chosen key = true := by
    rw [List.mem_filter, Dict.mem_byCount_tally_iff]
  constructor
  · intro histogram key member
    constructor
    · intro isChosen
      have line := (listed key (occurrences counted key)).mpr ⟨⟨member, rfl⟩, isChosen⟩
      exact ((histogram.mem_iff _ _).mp line).1
    · intro isWanted
      have occurs : 0 < occurrences keys key := by
        rw [← agree key isWanted]
        exact occurrences_pos_iff.mpr member
      have line := (histogram.mem_iff key (occurrences keys key)).mpr
        ⟨isWanted, occurrences_pos_iff.mp occurs, rfl⟩
      exact ((listed _ _).mp line).2
  · intro chosenIffWanted
    constructor
    · intro key count
      rw [listed]
      constructor
      · intro line
        have isWanted := (chosenIffWanted key line.1.1).mp line.2
        have occurs := occurrences_pos_iff.mpr line.1.1
        rw [agree key isWanted] at occurs
        exact ⟨isWanted, occurrences_pos_iff.mp occurs, by rw [line.1.2, agree key isWanted]⟩
      · intro all
        have occurs := occurrences_pos_iff.mpr all.2.1
        rw [← agree key all.1] at occurs
        have member := occurrences_pos_iff.mp occurs
        exact ⟨⟨member, by rw [all.2.2, agree key all.1]⟩, (chosenIffWanted key member).mpr all.1⟩
    · have once : ((Dict.byCount (Dict.tally ∅ counted)).map Prod.fst).Nodup :=
        ((Dict.perm_byCount _).map _).nodup_iff.mpr (Dict.nodup_items _)
      exact once.sublist (List.filter_sublist.map _)
    · exact (Dict.pairwise_byCount _).sublist List.filter_sublist

end NaiveBTSniffing.Library
