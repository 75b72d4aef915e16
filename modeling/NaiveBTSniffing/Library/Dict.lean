import Mathlib.Data.List.AList

/-!
Contract: a mutable dictionary that remembers insertion order.

A dictionary is an association list without duplicate keys. `setItem` replaces
the value of a present key in place and puts a new key at the end; deletion and
lookup are those of `AList`. Owns the lookup laws of `setItem`.
-/

namespace NaiveBTSniffing.Library

variable {κ ν : Type} [DecidableEq κ]

/-- Keys in insertion order, each with one value. -/
abbrev Dict (κ ν : Type) : Type := AList fun _ : κ => ν

namespace Dict

/-- `d[key] = value`. -/
def setItem (dict : Dict κ ν) (key : κ) (value : ν) : Dict κ ν :=
  dict.replace key value ∪ AList.singleton key value

private theorem dlookup_skip {key query : κ} (different : ¬ query = key) (value : ν)
    (entries : List (Σ _ : κ, ν)) :
    List.dlookup query (⟨key, value⟩ :: entries) = entries.dlookup query :=
  List.dlookup_cons_ne (β := fun _ => ν) entries ⟨key, value⟩ different

private theorem dlookup_kreplace (key query : κ) (value : ν) (entries : List (Σ _ : κ, ν)) :
    (entries.kreplace key value).dlookup query =
      if query = key ∧ key ∈ entries.keys then some value else entries.dlookup query := by
  induction entries with
  | nil => simp [List.kreplace, List.keys]
  | cons entry rest inductionHypothesis =>
      obtain ⟨name, old⟩ := entry
      by_cases first : key = name
      · subst first
        have replaced : List.kreplace key value (⟨key, old⟩ :: rest) = ⟨key, value⟩ :: rest :=
          List.lookmap_cons_some _ _ (by simp)
        rw [replaced]
        by_cases same : query = key
        · subst same; simp
        · rw [dlookup_skip same, dlookup_skip same]
          simp [same]
      · have kept : List.kreplace key value (⟨name, old⟩ :: rest) =
            ⟨name, old⟩ :: List.kreplace key value rest :=
          List.lookmap_cons_none _ _ (by simp [first])
        rw [kept]
        by_cases same : query = name
        · subst same
          have different : ¬ query = key := fun equal => first equal.symm
          simp [different]
        · rw [dlookup_skip same, dlookup_skip same, inductionHypothesis]
          simp [List.keys_cons, first]

@[grind =] theorem lookup_setItem (dict : Dict κ ν) (key query : κ) (value : ν) :
    (dict.setItem key value).lookup query =
      if query = key then some value else dict.lookup query := by
  have replaced : (dict.replace key value).lookup query =
      if query = key ∧ key ∈ dict then some value else dict.lookup query := by
    simpa [AList.mem_keys, AList.keys, AList.lookup, AList.replace] using
      dlookup_kreplace key query value dict.entries
  unfold setItem
  by_cases present : query ∈ dict
  · rw [AList.lookup_union_left (by simpa using present), replaced]
    by_cases same : query = key
    · subst same; simp [present]
    · simp [same]
  · rw [AList.lookup_union_right (by simpa using present)]
    by_cases same : query = key
    · subst same
      simp [AList.lookup, AList.singleton_entries]
    · have missing : dict.lookup query = none := AList.lookup_eq_none.mpr present
      rw [if_neg same, missing, AList.lookup_eq_none]
      simpa [AList.mem_keys, AList.keys, AList.singleton_entries] using same

@[simp] theorem lookup_setItem_self (dict : Dict κ ν) (key : κ) (value : ν) :
    (dict.setItem key value).lookup key = some value := by
  simp [lookup_setItem]

theorem lookup_setItem_ne (dict : Dict κ ν) {key query : κ} (value : ν)
    (different : query ≠ key) : (dict.setItem key value).lookup query = dict.lookup query := by
  simp [lookup_setItem, different]

@[simp, grind =] theorem mem_setItem (dict : Dict κ ν) (key query : κ) (value : ν) :
    query ∈ dict.setItem key value ↔ query = key ∨ query ∈ dict := by
  rw [← AList.lookup_isSome, lookup_setItem]
  by_cases same : query = key
  · simp [same]
  · simp [same, AList.lookup_isSome]

/-- The keys of a dictionary that a loop fills. -/
theorem mem_foldl_setItem {ι : Type} (key : ι → κ) (value : ι → ν) (items : List ι)
    (dict : Dict κ ν) (query : κ) :
    query ∈ items.foldl (fun filled item => filled.setItem (key item) (value item)) dict ↔
      (∃ item ∈ items, key item = query) ∨ query ∈ dict := by
  induction items generalizing dict with
  | nil => simp
  | cons first rest inductionHypothesis =>
      rw [List.foldl_cons, inductionHypothesis, mem_setItem, List.exists_mem_cons_iff,
        eq_comm (a := query), or_left_comm, or_assoc]

omit [DecidableEq κ] in
/-- Membership in a family of dictionaries with one member replaced. -/
@[simp, grind =] theorem mem_update {ι : Type} [DecidableEq ι] (family : ι → Dict κ ν) (index query : ι)
    (dict : Dict κ ν) (key : κ) :
    key ∈ Function.update family index dict query ↔
      if query = index then key ∈ dict else key ∈ family query := by
  rw [Function.update_apply]
  split <;> rfl

/-- Looking up in a family of dictionaries with one member replaced. -/
theorem lookup_update {ι : Type} [DecidableEq ι] (family : ι → Dict κ ν)
    (index query : ι) (dict : Dict κ ν) (key : κ) :
    (Function.update family index dict query).lookup key =
      if query = index then dict.lookup key else (family query).lookup key := by
  rw [Function.update_apply]
  split <;> rfl

theorem mem_iff_lookup (dict : Dict κ ν) (key : κ) :
    key ∈ dict ↔ ∃ value, dict.lookup key = some value := by
  rw [← AList.lookup_isSome, Option.isSome_iff_exists]

attribute [grind =] AList.mem_erase

instance [DecidableEq ν] : DecidableEq (Dict κ ν) := fun left right =>
  decidable_of_iff (left.entries = right.entries)
    ⟨AList.ext, fun same => congrArg AList.entries same⟩

end Dict

end NaiveBTSniffing.Library
