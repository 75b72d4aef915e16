import NaiveBTSniffing.Library.Dict
import NaiveBTSniffing.Library.Text

/-!
Contract: the list of addresses that `main` of `TellMeEverything.py` makes its reports for.

Each search returns the keys of a dictionary, so its result has no duplicates and
is never `None`. `main` puts `--bdaddr` and the results of the searches that are
on into one list, and then removes the results of the two negative searches.

Owns that list and when each of its addresses is in it once. Does not own the
queries of the searches (`Analysis.OuiSearch`) nor what is printed for an
address (`Analysis.Report`).
-/

namespace NaiveBTSniffing.Analysis.Search

open NaiveBTSniffing.Library

/-! ## Searches -/

/-- `bdaddr_hash.keys()`. -/
abbrev HashKeys : Type := { bdaddrs : List Text // bdaddrs.Nodup }

/-- `bdaddr_hash`, filled from the results of the queries. -/
def hashKeys (results : List (List Text)) : HashKeys :=
  let hash : Dict Text Nat :=
    results.flatten.foldl (fun hash bdaddr => Dict.setItem hash bdaddr 1) ∅
  ⟨hash.keys, hash.keys_nodup⟩

/-- `get_bdaddrs_by_name_regex` on the rows of its three queries. -/
def getBdaddrsByNameRegex (eirResult rspResult leResult : List Text) : HashKeys :=
  hashKeys [eirResult, rspResult, leResult]

/-- What each search returns for a regular expression. -/
structure Searches where
  getBdaddrsByBdaddrRegex : Text → HashKeys
  getBdaddrsByNameRegex : Text → HashKeys
  getBdaddrsByCompanyRegex : Text → HashKeys
  getBdaddrsByMsdRegex : Text → HashKeys
  getBdaddrsByUuid128Regex : Text → HashKeys

/-- The search options; an empty text is an option that is not given. -/
structure Options where
  bdaddr : Option Text
  bdaddrregex : Text
  nameregex : Text
  companyregex : Text
  msdregex : Text
  uuid128regex : Text
  notcompanyregex : Text
  notnameregex : Text

/-! ## The list -/

/-- `bdaddrs += bdaddrs_tmp`. -/
def extend (regex : Text) (search : Text → HashKeys) (bdaddrs : List Text) : List Text :=
  if regex ≠ [] then bdaddrs ++ (search regex).val else bdaddrs

/-- The loop that fills `updated_bdaddrs`. -/
def updatedBdaddrs (bdaddrsToRemove : HashKeys) (bdaddrs : List Text) : List Text :=
  bdaddrs.foldl
    (fun updated value =>
      if bdaddrsToRemove.val.contains value then updated else updated ++ [value]) []

/-- A negative filter. -/
def exclude (regex : Text) (search : Text → HashKeys) (bdaddrs : List Text) : List Text :=
  if regex ≠ [] then updatedBdaddrs (search regex) bdaddrs else bdaddrs

section Main

variable (options : Options) (searches : Searches)

/-- `bdaddrs` before the negative filters. -/
def collected : List Text :=
  let bdaddrs := options.bdaddr.toList
  let bdaddrs := extend options.bdaddrregex searches.getBdaddrsByBdaddrRegex bdaddrs
  let bdaddrs := extend options.nameregex searches.getBdaddrsByNameRegex bdaddrs
  let bdaddrs := extend options.companyregex searches.getBdaddrsByCompanyRegex bdaddrs
  let bdaddrs := extend options.msdregex searches.getBdaddrsByMsdRegex bdaddrs
  extend options.uuid128regex searches.getBdaddrsByUuid128Regex bdaddrs

def excludeCompanies : List Text → List Text :=
  exclude options.notcompanyregex searches.getBdaddrsByCompanyRegex

def excludeNames : List Text → List Text :=
  exclude options.notnameregex searches.getBdaddrsByNameRegex

/-- The addresses that `main` lists for its reports, in their order. A report that raises ends
the loop over them (`Analysis.Report`). -/
def mainBdaddrs : List Text :=
  excludeNames options searches (excludeCompanies options searches (collected options searches))

/-! ## What the options ask for -/

/-- What a search contributes when it is on. -/
def found (regex : Text) (search : Text → HashKeys) : List Text :=
  if regex ≠ [] then (search regex).val else []

/-- The positive sources. -/
def sources : List (List Text) :=
  [options.bdaddr.toList,
    found options.bdaddrregex searches.getBdaddrsByBdaddrRegex,
    found options.nameregex searches.getBdaddrsByNameRegex,
    found options.companyregex searches.getBdaddrsByCompanyRegex,
    found options.msdregex searches.getBdaddrsByMsdRegex,
    found options.uuid128regex searches.getBdaddrsByUuid128Regex]

/-- The address is in the result of a negative search. -/
def Removed (bdaddr : Text) : Prop :=
  bdaddr ∈ found options.notcompanyregex searches.getBdaddrsByCompanyRegex ∨
    bdaddr ∈ found options.notnameregex searches.getBdaddrsByNameRegex

instance : DecidablePred (Removed options searches) := fun _ =>
  inferInstanceAs (Decidable (_ ∨ _))

/-- `main` lists the union of the positive sources without the negative results,
each address once, and the filters may be swapped. -/
structure ReportsSearch : Prop where
  mem_iff : ∀ bdaddr, bdaddr ∈ mainBdaddrs options searches ↔
    (∃ source ∈ sources options searches, bdaddr ∈ source) ∧ ¬ Removed options searches bdaddr
  once : (mainBdaddrs options searches).Nodup
  commute : ∀ bdaddrs, excludeNames options searches (excludeCompanies options searches bdaddrs) =
    excludeCompanies options searches (excludeNames options searches bdaddrs)

/-- An address that two positive sources share is in a negative result. -/
def SharedRemoved : Prop :=
  (sources options searches).Pairwise fun first second =>
    ∀ bdaddr ∈ first, bdaddr ∈ second → Removed options searches bdaddr

end Main

/-! ## Dictionaries of addresses -/

theorem mem_hashKeys (results : List (List Text)) (bdaddr : Text) :
    bdaddr ∈ (hashKeys results).val ↔ ∃ result ∈ results, bdaddr ∈ result := by
  show bdaddr ∈ AList.keys _ ↔ _
  rw [← AList.mem_keys, Dict.mem_foldl_setItem (fun bdaddr => bdaddr) fun _ => 1]
  simp

/-! ## The filters -/

theorem extend_eq (regex : Text) (search : Text → HashKeys) (bdaddrs : List Text) :
    extend regex search bdaddrs = bdaddrs ++ found regex search := by
  unfold extend found
  split
  · rfl
  · rw [List.append_nil]

theorem updatedBdaddrs_eq (bdaddrsToRemove : HashKeys) (bdaddrs : List Text) :
    updatedBdaddrs bdaddrsToRemove bdaddrs =
      bdaddrs.filter fun value => decide (value ∉ bdaddrsToRemove.val) := by
  have continued (updated : List Text) :
      bdaddrs.foldl (fun updated value =>
          if bdaddrsToRemove.val.contains value then updated else updated ++ [value]) updated =
        updated ++ bdaddrs.filter fun value => decide (value ∉ bdaddrsToRemove.val) := by
    induction bdaddrs generalizing updated with
    | nil => simp
    | cons value rest inductionHypothesis =>
        rw [List.foldl_cons, inductionHypothesis]
        by_cases toRemove : value ∈ bdaddrsToRemove.val
        · simp [toRemove]
        · simp [toRemove]
  exact continued []

theorem exclude_eq (regex : Text) (search : Text → HashKeys) (bdaddrs : List Text) :
    exclude regex search bdaddrs =
      bdaddrs.filter fun value => decide (value ∉ found regex search) := by
  unfold exclude found
  split
  · exact updatedBdaddrs_eq _ _
  · simp

variable (options : Options) (searches : Searches)

theorem excludeNames_excludeCompanies (bdaddrs : List Text) :
    excludeNames options searches (excludeCompanies options searches bdaddrs) =
      bdaddrs.filter fun bdaddr => decide (¬ Removed options searches bdaddr) := by
  rw [excludeNames, excludeCompanies, exclude_eq, exclude_eq, List.filter_filter]
  apply List.filter_congr
  intro bdaddr _
  simp [Removed, Bool.and_comm]

theorem excludeCompanies_excludeNames (bdaddrs : List Text) :
    excludeCompanies options searches (excludeNames options searches bdaddrs) =
      bdaddrs.filter fun bdaddr => decide (¬ Removed options searches bdaddr) := by
  rw [excludeNames, excludeCompanies, exclude_eq, exclude_eq, List.filter_filter]
  apply List.filter_congr
  intro bdaddr _
  simp [Removed]

theorem collected_eq : collected options searches = (sources options searches).flatten := by
  unfold collected sources
  simp only [extend_eq, List.flatten_cons, List.flatten_nil, List.append_nil, List.append_assoc]

theorem mainBdaddrs_eq :
    mainBdaddrs options searches =
      (sources options searches).flatten.filter fun bdaddr =>
        decide (¬ Removed options searches bdaddr) := by
  rw [mainBdaddrs, excludeNames_excludeCompanies, collected_eq]

/-! ## Each address once -/

theorem nodup_found (regex : Text) (search : Text → HashKeys) : (found regex search).Nodup := by
  unfold found
  split
  · exact (search regex).property
  · exact List.nodup_nil

theorem nodup_of_mem_sources {source : List Text} (member : source ∈ sources options searches) :
    source.Nodup := by
  rw [sources, List.mem_cons] at member
  cases member with
  | inl given =>
      subst given
      cases options.bdaddr with
      | none => exact List.nodup_nil
      | some bdaddr => exact List.nodup_singleton bdaddr
  | inr searched =>
      simp only [List.mem_cons, List.not_mem_nil, or_false] at searched
      rcases searched with rfl | rfl | rfl | rfl | rfl
      all_goals exact nodup_found _ _

/-- What is kept of several lists has no duplicates when no list has and what two
lists share is not kept. -/
theorem nodup_filter_flatten_iff {Member : Type} {keep : Member → Bool}
    {lists : List (List Member)} (each : ∀ list ∈ lists, list.Nodup) :
    (lists.flatten.filter keep).Nodup ↔
      lists.Pairwise fun first second =>
        ∀ member ∈ first, member ∈ second → keep member = false := by
  rw [List.filter_flatten, List.nodup_flatten, List.pairwise_map]
  have filtered : ∀ list ∈ lists.map (List.filter keep), list.Nodup := by
    intro list member
    rw [List.mem_map] at member
    obtain ⟨source, inLists, same⟩ := member
    rw [← same]
    exact (each source inLists).filter keep
  rw [and_iff_right filtered]
  have shared (first second : List Member) :
      (first.filter keep).Disjoint (second.filter keep) ↔
        ∀ member ∈ first, member ∈ second → keep member = false := by
    simp only [List.Disjoint, List.mem_filter, and_imp]
    constructor
    · intro disjoint member inFirst inSecond
      cases kept : keep member with
      | false => rfl
      | true => exact (disjoint inFirst kept inSecond kept).elim
    · intro dropped member inFirst kept inSecond _
      rw [dropped member inFirst inSecond] at kept
      cases kept
  simp only [shared]

/-- The right addresses are listed for all options and results, and each of them
once exactly when what two sources share is removed. -/
theorem reportsSearch_iff_sharedRemoved :
    ReportsSearch options searches ↔ SharedRemoved options searches := by
  have once : (mainBdaddrs options searches).Nodup ↔ SharedRemoved options searches := by
    rw [mainBdaddrs_eq,
      nodup_filter_flatten_iff fun _ member => nodup_of_mem_sources options searches member]
    simp only [decide_eq_false_iff_not, not_not]
    rfl
  constructor
  · intro reports
    exact once.mp reports.once
  · intro sharedRemoved
    constructor
    · intro bdaddr
      rw [mainBdaddrs_eq, List.mem_filter, List.mem_flatten, decide_eq_true_eq]
    · exact once.mpr sharedRemoved
    · intro bdaddrs
      rw [excludeNames_excludeCompanies, excludeCompanies_excludeNames]

/-! ## A device that two searches find -/

/-- One device, with a name and with a company. -/
def oneDevice : Searches where
  getBdaddrsByBdaddrRegex _ := hashKeys []
  getBdaddrsByNameRegex _ := getBdaddrsByNameRegex ["AA".toList] [] ["AA".toList]
  getBdaddrsByCompanyRegex _ := hashKeys [["AA".toList]]
  getBdaddrsByMsdRegex _ := hashKeys []
  getBdaddrsByUuid128Regex _ := hashKeys []

/-- `--nameregex x --companyregex y`. -/
def nameAndCompany : Options where
  bdaddr := none
  bdaddrregex := []
  nameregex := "x".toList
  companyregex := "y".toList
  msdregex := []
  uuid128regex := []
  notcompanyregex := []
  notnameregex := []

theorem not_reportsSearch_nameAndCompany :
    ¬ ∀ (options : Options) (searches : Searches), ReportsSearch options searches := by
  intro always
  have once := (always nameAndCompany oneDevice).once
  revert once
  decide

end NaiveBTSniffing.Analysis.Search
