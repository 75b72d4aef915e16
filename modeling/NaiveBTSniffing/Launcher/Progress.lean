import NaiveBTSniffing.Library.Interleaving.Debt
import NaiveBTSniffing.Launcher.Remaining

/-!
Contract: a pass of a worker that comes to an end has done some work.

While no line comes in, the first address of the snapshot is either deleted or
selected, and both lower `workLeft`; a pass over an empty snapshot does not end,
because nothing gets tracked. So every pass that ends has lowered `workLeft`
(`pass_owes`).
-/

namespace NaiveBTSniffing.Launcher

open NaiveBTSniffing.Library
open NaiveBTSniffing.Library.Interleaving
open NaiveBTSniffing.Library.Interleaving.Prog

/-- What the other threads leave alone: as long as the work left is the same, so are
the tracked addresses and their remaining attempts. -/
structure ProgressRely (settings : Settings) (radio : Radio) (before after : Data) : Prop where
  le : workLeft settings radio after ≤ workLeft settings radio before
  counted : ∀ bdaddr ∈ before.deviceConnectAttempts, bdaddr ∈ after.deviceConnectAttempts
  kept : workLeft settings radio after = workLeft settings radio before →
    (∀ bdaddr, bdaddr ∈ after.bdaddrs radio ↔ bdaddr ∈ before.bdaddrs radio) ∧
      ∀ bdaddr ∈ before.bdaddrs radio, remaining settings after bdaddr = remaining settings before bdaddr

theorem QuietStep.progressRely {settings : Settings} {radio : Radio} {before after : Data}
    (step : QuietStep settings radio before after) : ProgressRely settings radio before after where
  le := step.workLeft_le
  counted := step.spends.counted
  kept := fun same => by
    obtain ⟨tracked, left⟩ := step.lightens.weight_le.2 same
    apply And.intro
    · intro bdaddr
      rw [← mem_keySet, ← mem_keySet]
      exact Finset.ext_iff.mp tracked bdaddr
    · exact fun bdaddr member => left bdaddr (mem_keySet.mpr member)

/-- Less than `bound` is left to do. -/
def progressDebt (settings : Settings) (radio : Radio) (bound : Nat) : Debt Data Site where
  settled := fun data => workLeft settings radio data < bound
  rely := ProgressRely settings radio
  passes := fun _ => True
  relyRefl := fun _ =>
    { le := Nat.le_refl _
      counted := fun _ member => member
      kept := fun _ => ⟨fun _ => Iff.rfl, fun _ _ => rfl⟩ }
  relyTrans := fun first second =>
    { le := second.le.trans first.le
      counted := fun bdaddr member => second.counted bdaddr (first.counted bdaddr member)
      kept := fun same => by
        have early := first.le
        have late := second.le
        obtain ⟨sameFirst, leftFirst⟩ := first.kept (by omega)
        obtain ⟨sameSecond, leftSecond⟩ := second.kept (by omega)
        refine ⟨fun bdaddr => (sameSecond bdaddr).trans (sameFirst bdaddr), fun bdaddr member => ?_⟩
        rw [leftSecond bdaddr ((sameFirst bdaddr).mpr member), leftFirst bdaddr member] }

section Pass

variable {settings : Settings} {radio : Radio} {bound : Nat} {data : Data} {bdaddr : Text}

/-! ## What lowers the work left -/

theorem workLeft_delete (member : bdaddr ∈ data.bdaddrs radio) :
    workLeft settings radio (data.delete radio bdaddr) < workLeft settings radio data := by
  have lightens : (places settings radio data).Lightens
      (places settings radio (data.delete radio bdaddr)) :=
    { fewer := fun _ => Nat.le_refl _
      tracked := fun other there => by
        have kept : other ∈ (data.delete radio bdaddr).bdaddrs radio := mem_keySet.mp there
        exact .inl (mem_keySet.mpr (by simp at kept; exact kept.2))
      parked := fun _ there => there
      moving := fun _ moves => .inl moves }
  apply lt_of_le_of_ne lightens.weight_le.1
  intro same
  have there : bdaddr ∈ keySet ((data.delete radio bdaddr).bdaddrs radio) := by
    show bdaddr ∈ (places settings radio (data.delete radio bdaddr)).tracked
    rw [(lightens.weight_le.2 same).1]
    exact mem_keySet.mpr member
  simpa using mem_keySet.mp there

theorem workLeft_select (member : bdaddr ∈ data.bdaddrs radio) {attempts : Int}
    (present : data.deviceConnectAttempts.lookup bdaddr = some attempts)
    (left : 0 < remaining settings data bdaddr) :
    workLeft settings radio (data.select radio bdaddr attempts) < workLeft settings radio data := by
  have spends : Spends settings data (data.select radio bdaddr attempts) := .of_select present
  have lightens : (places settings radio data).Lightens
      (places settings radio (data.select radio bdaddr attempts)) :=
    { fewer := spends.fewer
      tracked := fun _ there => .inl there
      parked := fun _ there => there
      moving := fun _ moves => .inl moves }
  apply lt_of_le_of_ne lightens.weight_le.1
  intro same
  have kept := (lightens.weight_le.2 same).2 bdaddr (mem_keySet.mpr member)
  have below := (remaining_pos present).mp left
  simp only [places, remaining, present, Data.select, Data.record, Data.setAttempts,
    Dict.lookup_setItem_self, attemptsLeft] at kept
  omega

/-! ## What a pass knows while it has done nothing -/

/-- As long as the work left is `bound`, exactly these addresses are tracked, and each
of them has a counter. -/
structure Unchanged (settings : Settings) (radio : Radio) (bound : Nat) (tracked : List Text)
    (data : Data) : Prop where
  le : workLeft settings radio data ≤ bound
  kept : workLeft settings radio data = bound →
    (∀ bdaddr, bdaddr ∈ data.bdaddrs radio ↔ bdaddr ∈ tracked) ∧
      ∀ bdaddr ∈ tracked, bdaddr ∈ data.deviceConnectAttempts

variable {tracked : List Text}

theorem Unchanged.rely {before after : Data} (unchanged : Unchanged settings radio bound tracked before)
    (relied : ProgressRely settings radio before after) :
    Unchanged settings radio bound tracked after where
  le := relied.le.trans unchanged.le
  kept := fun same => by
    have early := unchanged.le
    have late := relied.le
    obtain ⟨exactly, counted⟩ := unchanged.kept (by omega)
    obtain ⟨still, _⟩ := relied.kept (by omega)
    exact ⟨fun bdaddr => (still bdaddr).trans (exactly bdaddr),
      fun bdaddr member => relied.counted bdaddr (counted bdaddr member)⟩

/-- The facts, in a state that is not settled. -/
theorem Unchanged.now (unchanged : Unchanged settings radio bound tracked data)
    (unsettled : ¬ (progressDebt settings radio bound).settled data) :
    workLeft settings radio data = bound ∧
      (∀ bdaddr, bdaddr ∈ data.bdaddrs radio ↔ bdaddr ∈ tracked) ∧
      ∀ bdaddr ∈ tracked, bdaddr ∈ data.deviceConnectAttempts := by
  have same : workLeft settings radio data = bound :=
    le_antisymm unchanged.le (Nat.not_lt.mp unsettled)
  exact ⟨same, unchanged.kept same⟩

/-! ## One pass -/

/-- The debt of the worker of this radio. -/
private abbrev owed (settings : Settings) (radio : Radio) (bound : Nat) : Debt Data Site :=
  progressDebt settings radio bound

private theorem readRssis_owes {pending : List Text} (listed : ∀ bdaddr ∈ pending, bdaddr ∈ tracked)
    (unchanged : Unchanged settings radio bound tracked data) :
    (readRssis radio pending).Owes (owed settings radio bound)
      (fun rssis now => rssis.map Prod.fst = pending ∧
        Unchanged settings radio bound tracked now) data := by
  induction pending generalizing data with
  | nil => exact fun now relied => ⟨rfl, unchanged.rely relied⟩
  | cons bdaddr rest inductionHypothesis =>
      refine owes_bind (fun _ now => Unchanged settings radio bound tracked now)
        (Rule.owes_demand trivial fun now relied unsettled => .inr ?_) fun stored now here => ?_
      · have later := unchanged.rely relied
        have member : bdaddr ∈ now.bdaddrs radio :=
          ((later.now unsettled).2.1 bdaddr).mpr (listed bdaddr (by simp))
        obtain ⟨value, seen⟩ := (Dict.mem_iff_lookup _ _).mp member
        refine ⟨value, seen, fun last further => ?_⟩
        have same : Unchanged settings radio bound tracked (now.setSortPending radio rest) :=
          ⟨later.le, later.kept⟩
        exact same.rely further
      · refine owes_bind _ (inductionHypothesis (fun other member => listed other (by simp [member]))
          here) fun rssis last reached => ?_
        exact fun final relied => ⟨by simp [reached.1], reached.2.rely relied⟩

/-- The sort finds every address that it looks up. -/
private theorem sortedBdaddrs_owes (le : workLeft settings radio data ≤ bound)
    (counted : ∀ bdaddr ∈ data.bdaddrs radio, bdaddr ∈ data.deviceConnectAttempts) :
    (sortedBdaddrs radio).Owes (owed settings radio bound)
      (fun sorted now => Unchanged settings radio bound sorted now) data := by
  have start : Unchanged settings radio bound (data.bdaddrs radio).keys data :=
    ⟨le, fun _ => ⟨fun _ => AList.mem_keys, fun bdaddr member =>
      counted bdaddr (AList.mem_keys.mpr member)⟩⟩
  refine owes_bind (fun keys now => Unchanged settings radio bound keys now)
    (Rule.owes_exchange trivial fun now later relied unsettled further => ?_) fun keys now here => ?_
  · obtain ⟨_, exactly, counts⟩ := (start.rely relied).now unsettled
    have same : Unchanged settings radio bound (now.bdaddrs radio).keys
        ((now.setSortPending radio (now.bdaddrs radio).keys).setUnvisited radio
          (now.bdaddrs radio).keys) := by
      refine ⟨(start.rely relied).le, fun _ => ⟨fun _ => AList.mem_keys, fun bdaddr member => ?_⟩⟩
      exact counts bdaddr ((exactly bdaddr).mp (AList.mem_keys.mpr member))
    exact same.rely further
  · refine owes_bind _ (readRssis_owes (fun _ member => member) here) fun rssis last reached => ?_
    obtain ⟨names, unchanged⟩ := reached
    have listed : ∀ bdaddr, bdaddr ∈ sortByRssi rssis ↔ bdaddr ∈ keys := by
      intro bdaddr
      rw [← names]
      simp [sortByRssi]
    have same : Unchanged settings radio bound (sortByRssi rssis) last := by
      refine ⟨unchanged.le, fun equal => ?_⟩
      obtain ⟨exactly, counts⟩ := unchanged.kept equal
      exact ⟨fun bdaddr => (exactly bdaddr).trans (listed bdaddr).symm,
        fun bdaddr member => counts bdaddr ((listed bdaddr).mp member)⟩
    refine owes_bind (fun _ now => Unchanged settings radio bound (sortByRssi rssis) now)
      ⟨trivial, fun now relied _ _ => .inr fun later further => ?_⟩
      fun _ now here => fun later relied => here.rely relied
    have kept := same.rely relied
    have updated : Unchanged settings radio bound (sortByRssi rssis)
        (now.setUnvisited radio (sortByRssi rssis)) := ⟨kept.le, kept.kept⟩
    exact updated.rely further

/-- Deleting a tracked address settles the debt. -/
private theorem skip_owes (listed : bdaddr ∈ tracked)
    (unchanged : Unchanged settings radio bound tracked data) :
    (lockedDeleteFromDict radio bdaddr).Owes (owed settings radio bound) (fun _ _ => False) data := by
  apply owes_withLock
  refine owes_bind (fun found now => found = true ∧ Unchanged settings radio bound tracked now)
    (owes_await trivial fun now later relied unsettled further => ?_)
    fun found now reached => owes_ite (fun _ => ?_) fun missing => absurd reached.1 missing
  · have kept := unchanged.rely relied
    exact ⟨decide_eq_true (((kept.now unsettled).2.1 bdaddr).mpr listed), kept.rely further⟩
  · refine Rule.owes_demand trivial fun later relied unsettled => .inl ?_
    obtain ⟨same, exactly, _⟩ := (reached.2.rely relied).now unsettled
    show workLeft settings radio (later.delete radio bdaddr) < bound
    rw [← same]
    exact workLeft_delete ((exactly bdaddr).mpr listed)

/-- The attempts of the address are not used up, unless the debt is settled. -/
private def NotUsedUp (settings : Settings) (radio : Radio) (bound : Nat) (bdaddr : Text)
    (data : Data) : Prop :=
  workLeft settings radio data = bound → 0 < remaining settings data bdaddr

/-- Counting one of the remaining attempts settles the debt. -/
private theorem countAttempt_owes (listed : bdaddr ∈ tracked)
    (unchanged : Unchanged settings radio bound tracked data)
    (left : NotUsedUp settings radio bound bdaddr data) :
    (countAttempt radio bdaddr).Owes (owed settings radio bound) (fun _ _ => False) data := by
  refine Rule.owes_demand trivial fun now relied unsettled => .inl ?_
  obtain ⟨same, exactly, counts⟩ := (unchanged.rely relied).now unsettled
  obtain ⟨attempts, present⟩ := (Dict.mem_iff_lookup _ _).mp (counts bdaddr listed)
  have equal : workLeft settings radio data = bound := by
    have early := unchanged.le
    have late := relied.le
    omega
  have member : bdaddr ∈ data.bdaddrs radio := ((unchanged.kept equal).1 bdaddr).mpr listed
  have still := (relied.kept (same.trans equal.symm)).2 bdaddr member
  simp only [present]
  show workLeft settings radio (now.select radio bdaddr attempts) < bound
  rw [← same]
  apply workLeft_select ((exactly bdaddr).mpr listed) present
  rw [still]
  exact left equal

private theorem shouldSkip_owes (listed : bdaddr ∈ tracked)
    (unchanged : Unchanged settings radio bound tracked data) :
    (shouldSkip settings radio bdaddr).Owes (owed settings radio bound)
      (fun skipped now => Unchanged settings radio bound tracked now ∧
        (skipped = false → NotUsedUp settings radio bound bdaddr now)) data := by
  refine owes_ite (fun _ => fun now relied => ⟨unchanged.rely relied, by simp⟩) fun _ => ?_
  refine owes_bind (fun (attempts : Int) now => Unchanged settings radio bound tracked now ∧
      (attempts < settings.maxConnectAttempts → NotUsedUp settings radio bound bdaddr now))
    (Rule.owes_demand trivial fun now relied unsettled => .inr ?_) fun attempts now reached => ?_
  · have kept := unchanged.rely relied
    obtain ⟨same, exactly, counts⟩ := kept.now unsettled
    obtain ⟨attempts, present⟩ := (Dict.mem_iff_lookup _ _).mp (counts bdaddr listed)
    refine ⟨attempts, present, fun later further => ?_⟩
    -- Whether the verdict is recorded makes no difference to the dictionaries.
    have relied : ProgressRely settings radio now later := by
      simp only [present] at further
      split at further
      · exact ⟨further.le, further.counted, further.kept⟩
      · exact further
    refine ⟨kept.rely relied, fun below equal => ?_⟩
    rw [(relied.kept (equal.trans same.symm)).2 bdaddr ((exactly bdaddr).mpr listed)]
    exact (remaining_pos present).mpr below
  · intro later relied
    refine ⟨reached.1.rely relied, fun visits equal => ?_⟩
    have below : attempts < settings.maxConnectAttempts := by simpa using visits
    have early := reached.1.le
    have late := relied.le
    have same : workLeft settings radio now = bound := by omega
    have member := ((reached.1.kept same).1 bdaddr).mpr listed
    rw [(relied.kept (equal.trans same.symm)).2 bdaddr member]
    exact reached.2 below same

/-- The loop settles the debt at its first address. -/
private theorem visit_owes {stages reprioritizeBdaddr : Text → Code Unit} {total skipCount : Nat}
    {rest : List Text} (listed : bdaddr ∈ tracked)
    (unchanged : Unchanged settings radio bound tracked data) :
    (visit settings radio stages reprioritizeBdaddr total skipCount (bdaddr :: rest)).Owes
      (owed settings radio bound) (fun _ _ => False) data := by
  refine owes_bind (fun _ now => Unchanged settings radio bound tracked now)
    ⟨trivial, fun now relied _ _ => .inr fun later further => ?_⟩ fun _ now here => ?_
  · have kept := unchanged.rely relied
    have updated : Unchanged settings radio bound tracked (now.setUnvisited radio rest) :=
      ⟨kept.le, kept.kept⟩
    exact updated.rely further
  · refine owes_bind _ (shouldSkip_owes listed here) fun skipped later reached => ?_
    refine owes_ite (fun _ => ?_) fun visits => ?_
    · exact owes_bind_of_never (owes_bind_of_never (skip_owes listed reached.1))
    · apply owes_bind_of_never
      apply owes_bind_of_never
      exact countAttempt_owes listed reached.1 (reached.2 (by simpa using visits))

/-- A pass that comes to its end has lowered the work left. -/
theorem pass_owes (le : workLeft settings radio data ≤ bound)
    (counted : ∀ bdaddr ∈ data.bdaddrs radio, bdaddr ∈ data.deviceConnectAttempts) :
    (threadFunction settings radio).Owes (progressDebt settings radio bound)
      (fun _ _ => False) data := by
  rw [threadFunction_eq]
  refine owes_bind _ (sortedBdaddrs_owes le counted) fun sorted now unchanged => ?_
  cases sorted with
  | nil =>
      -- Nothing is tracked and nothing gets tracked: the busy wait does not end.
      refine ⟨trivial, fun later relied unsettled waits => ?_⟩
      obtain ⟨_, exactly, _⟩ := (unchanged.rely relied).now unsettled
      have nothing : (later.bdaddrs radio).keys = [] :=
        List.eq_nil_iff_forall_not_mem.mpr fun bdaddr member =>
          List.not_mem_nil ((exactly bdaddr).mp (AList.mem_keys.mpr member))
      simp [nothing] at waits
  | cons first rest => exact owes_bind_of_never (visit_owes (by simp) unchanged)

end Pass

end NaiveBTSniffing.Launcher
