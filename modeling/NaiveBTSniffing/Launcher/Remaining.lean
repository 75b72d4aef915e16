import Mathlib.Algebra.BigOperators.Group.Finset.Basic
import Mathlib.Algebra.Order.BigOperators.Group.Finset
import NaiveBTSniffing.Launcher.SharedAttempts
import NaiveBTSniffing.Launcher.Transfers

/-!
Contract: what is left to do for a worker, while no line comes in.

`workLeft` weighs the addresses of a radio: those tracked, the one that the worker
is moving, and those deprioritized, each with the attempts that its counter still
allows. No step but the monitor's raises it, and a step that leaves it alone leaves
the tracked addresses and their remaining attempts alone (`quiet_of_choice`).

Does not own that a pass of a worker lowers it (`Progress`).
-/

namespace NaiveBTSniffing.Launcher

open NaiveBTSniffing.Library
open NaiveBTSniffing.Library.Interleaving

/-- The attempts that the counter of the address still allows. -/
def remaining (settings : Settings) (data : Data) (bdaddr : Text) : Nat :=
  (attemptsLeft settings (data.deviceConnectAttempts.lookup bdaddr)).toNat

theorem remaining_pos {settings : Settings} {data : Data} {bdaddr : Text} {attempts : Int}
    (present : data.deviceConnectAttempts.lookup bdaddr = some attempts) :
    0 < remaining settings data bdaddr ↔ attempts < settings.maxConnectAttempts := by
  simp only [remaining, present, attemptsLeft]
  omega

/-- The addresses that a dictionary has. -/
abbrev keySet {ν : Type} (dict : Dict Text ν) : Finset Text := dict.keys.toFinset

/-! ## The weight of three places -/

/-- Where the addresses of a radio are, and what each may still cost. -/
structure Places where
  tracked : Finset Text
  moving : Option Text
  parked : Finset Text
  left : Text → Nat

namespace Places

/-- An address weighs the more the farther it is from being tracked. -/
def weight (places : Places) : Nat :=
  ∑ bdaddr ∈ places.tracked, (places.left bdaddr + 1) +
    ∑ bdaddr ∈ places.moving.toFinset, (places.left bdaddr + 2) +
    ∑ bdaddr ∈ places.parked, (places.left bdaddr + 3)

/-- No counter allows more, nothing gets tracked but what was being moved, and
nothing is being moved but what has just been taken out. -/
structure Lightens (before after : Places) : Prop where
  fewer : ∀ bdaddr, after.left bdaddr ≤ before.left bdaddr
  tracked : ∀ bdaddr ∈ after.tracked, bdaddr ∈ before.tracked ∨
    (before.moving = some bdaddr ∧ after.moving = none)
  parked : after.parked ⊆ before.parked
  moving : ∀ bdaddr, after.moving = some bdaddr →
    before.moving = some bdaddr ∨ (bdaddr ∈ before.parked ∧ bdaddr ∉ after.parked)

variable {before after : Places}

private theorem sum_le (fewer : ∀ bdaddr, after.left bdaddr ≤ before.left bdaddr)
    {early late : Finset Text} (within : late ⊆ early) (extra : Nat) :
    ∑ bdaddr ∈ late, (after.left bdaddr + extra) ≤ ∑ bdaddr ∈ early, (before.left bdaddr + extra) :=
  (Finset.sum_le_sum fun bdaddr _ => Nat.add_le_add_right (fewer bdaddr) extra).trans
    (Finset.sum_le_sum_of_subset within)

/-- The address that was being moved is tracked now. -/
private theorem Lightens.lt_of_arrived (lightens : before.Lightens after) {bdaddr : Text}
    (member : bdaddr ∈ after.tracked) (fresh : bdaddr ∉ before.tracked) :
    after.weight < before.weight := by
  obtain ⟨moved, arrived⟩ := (lightens.tracked bdaddr member).resolve_left fresh
  have within : after.tracked ⊆ insert bdaddr before.tracked := by
    intro other there
    rcases lightens.tracked other there with old | ⟨same, _⟩
    · exact Finset.mem_insert_of_mem old
    · have equal : other = bdaddr := Option.some.inj (same.symm.trans moved)
      exact Finset.mem_insert.mpr (.inl equal)
  have first := sum_le lightens.fewer within 1
  have last := sum_le lightens.fewer lightens.parked 3
  rw [Finset.sum_insert fresh] at first
  unfold weight
  rw [moved, arrived]
  simp only [Option.toFinset_some, Option.toFinset_none, Finset.sum_singleton, Finset.sum_empty]
  omega

/-- An address has just been taken out of the deprioritized ones. -/
private theorem Lightens.lt_of_taken (lightens : before.Lightens after)
    (within : after.tracked ⊆ before.tracked) {bdaddr : Text} (moves : after.moving = some bdaddr)
    (there : bdaddr ∈ before.parked) (gone : bdaddr ∉ after.parked) :
    after.weight < before.weight := by
  have first := sum_le lightens.fewer within 1
  have less : after.parked ⊆ before.parked.erase bdaddr := fun other member =>
    Finset.mem_erase.mpr ⟨fun same => gone (same ▸ member), lightens.parked member⟩
  have last := sum_le lightens.fewer less 3
  have whole := Finset.sum_erase_add before.parked (fun bdaddr => before.left bdaddr + 3) there
  have fewer := lightens.fewer bdaddr
  unfold weight
  rw [moves]
  simp only [Option.toFinset_some, Finset.sum_singleton]
  omega

/-- Fewer or lighter tracked addresses weigh less. -/
private theorem Lightens.eq_of_sum (lightens : before.Lightens after)
    (within : after.tracked ⊆ before.tracked)
    (same : ∑ bdaddr ∈ after.tracked, (after.left bdaddr + 1) =
      ∑ bdaddr ∈ before.tracked, (before.left bdaddr + 1)) :
    after.tracked = before.tracked ∧ ∀ bdaddr ∈ before.tracked,
      after.left bdaddr = before.left bdaddr := by
  have all : after.tracked = before.tracked := by
    by_contra different
    obtain ⟨bdaddr, there, gone⟩ := Finset.exists_of_ssubset (within.ssubset_of_ne different)
    have less : ∑ bdaddr ∈ after.tracked, (before.left bdaddr + 1) <
        ∑ bdaddr ∈ before.tracked, (before.left bdaddr + 1) :=
      Finset.sum_lt_sum_of_subset within there gone (Nat.succ_pos _) fun _ _ _ => Nat.zero_le _
    have fewer := sum_le lightens.fewer (Finset.Subset.refl after.tracked) 1
    omega
  refine ⟨all, fun bdaddr member => ?_⟩
  rw [all] at same
  have each := (Finset.sum_eq_sum_iff_of_le fun bdaddr _ =>
    Nat.add_le_add_right (lightens.fewer bdaddr) 1).mp same bdaddr member
  omega

/-- The weight does not grow, and if it stays the same, nothing has changed for the
tracked addresses. -/
theorem Lightens.weight_le (lightens : before.Lightens after) :
    after.weight ≤ before.weight ∧ (after.weight = before.weight →
      after.tracked = before.tracked ∧ ∀ bdaddr ∈ before.tracked,
        after.left bdaddr = before.left bdaddr) := by
  by_cases within : after.tracked ⊆ before.tracked
  · by_cases taken : ∃ bdaddr, after.moving = some bdaddr ∧ bdaddr ∈ before.parked ∧
        bdaddr ∉ after.parked
    · obtain ⟨bdaddr, moves, there, gone⟩ := taken
      have less := lightens.lt_of_taken within moves there gone
      exact ⟨less.le, fun same => absurd same less.ne⟩
    · have still : after.moving.toFinset ⊆ before.moving.toFinset := by
        intro bdaddr member
        have moves : after.moving = some bdaddr := by simpa using member
        have same := (lightens.moving bdaddr moves).resolve_right
          fun fresh => taken ⟨bdaddr, moves, fresh⟩
        simp [same]
      have first := sum_le lightens.fewer within 1
      have middle := sum_le lightens.fewer still 2
      have last := sum_le lightens.fewer lightens.parked 3
      unfold weight
      refine ⟨by omega, fun same => lightens.eq_of_sum within ?_⟩
      omega
  · obtain ⟨bdaddr, member, fresh⟩ := Finset.not_subset.mp within
    have less := lightens.lt_of_arrived member fresh
    exact ⟨less.le, fun same => absurd same less.ne⟩

end Places

/-! ## Quiet steps -/

/-- The places of a radio's addresses. -/
def places (settings : Settings) (radio : Radio) (data : Data) : Places where
  tracked := keySet (data.bdaddrs radio)
  moving := data.ghost.reprioritizing radio
  parked := keySet (data.deprioritizedBdaddrs radio)
  left := remaining settings data

/-- What is left to do for the worker of the radio. -/
def workLeft (settings : Settings) (radio : Radio) (data : Data) : Nat :=
  (places settings radio data).weight

section Steps

variable {settings : Settings} {radio : Radio} {before after : Data} {held : List Lock}

theorem mem_keySet {ν : Type} {dict : Dict Text ν} {bdaddr : Text} :
    bdaddr ∈ keySet dict ↔ bdaddr ∈ dict := by
  simp [keySet, AList.mem_keys]

/-- A step that gives no counter more attempts, and takes no counter away. -/
structure Spends (settings : Settings) (before after : Data) : Prop where
  fewer : ∀ bdaddr, remaining settings after bdaddr ≤ remaining settings before bdaddr
  counted : ∀ bdaddr ∈ before.deviceConnectAttempts, bdaddr ∈ after.deviceConnectAttempts

theorem Spends.of_same (same : after.deviceConnectAttempts = before.deviceConnectAttempts) :
    Spends settings before after :=
  ⟨fun bdaddr => by simp [remaining, same], fun bdaddr member => by rwa [same]⟩

theorem Spends.of_select {own : Radio} {bdaddr : Text} {attempts : Int}
    (present : before.deviceConnectAttempts.lookup bdaddr = some attempts) :
    Spends settings before (before.select own bdaddr attempts) where
  fewer := fun other => by
    by_cases same : other = bdaddr
    · subst same
      simp only [remaining, present, Data.select, Data.record, Data.setAttempts,
        Dict.lookup_setItem_self, attemptsLeft]
      omega
    · simp [remaining, Dict.lookup_setItem_ne _ _ same]
  counted := fun other member => by simp [member]

private theorem Spends.of_worker {own : Radio} (step : WorkerStep own held before after) :
    Spends settings before after := by
  cases step with
  | sort step => exact .of_same step.deviceConnectAttempts
  | loop step => exact .of_same (OnlyDeletes.of_loop step).deviceConnectAttempts
  | collect step =>
      cases step with
      | same => exact .of_same rfl
      | countAttempt present => exact .of_select present
      | stage _ step => exact .of_same (OnlyDeletes.of_stage step).deviceConnectAttempts
  | unpark => exact .of_same rfl
  | retrack => exact .of_same rfl

/-- What a step of another thread than the monitor does. -/
structure QuietStep (settings : Settings) (radio : Radio) (before after : Data) : Prop where
  spends : Spends settings before after
  lightens : (places settings radio before).Lightens (places settings radio after)

private theorem quiet_of_transfer {thread : ThreadId}
    (transfer : Transfer settings thread before after) (other : thread ≠ .monitor)
    (spends : Spends settings before after)
    (parked : ∀ bdaddr ∈ after.deprioritizedBdaddrs radio,
      bdaddr ∈ before.deprioritizedBdaddrs radio) : QuietStep settings radio before after where
  spends := spends
  lightens :=
    { fewer := spends.fewer
      tracked := fun bdaddr member => by
        by_cases old : bdaddr ∈ before.bdaddrs radio
        · exact .inl (mem_keySet.mpr old)
        · rcases transfer.tracked radio bdaddr old (mem_keySet.mp member) with ⟨monitor, _⟩ | moved
          · exact absurd monitor other
          · exact .inr moved.2
      parked := fun bdaddr member => mem_keySet.mpr (parked bdaddr (mem_keySet.mp member))
      moving := fun bdaddr moves =>
        (transfer.reprioritizing radio bdaddr moves).imp id fun taken =>
          ⟨mem_keySet.mpr taken.1, fun there => taken.2 (mem_keySet.mp there)⟩ }

end Steps

/-- While the monitor rests, no step gives a worker more to do. -/
theorem quiet_of_choice {settings : Settings} {before after : Config Lock ThreadId Data Site}
    (reachable : (launcher settings).Reachable initial before)
    {choice : Choice ThreadId Outside (Option Text)}
    (stepped : (launcher settings).step choice before = some after)
    (others : choice ≠ .run .monitor) (radio : Radio) :
    QuietStep settings radio before.shared.data after.shared.data := by
  cases choice with
  | run thread =>
      have transfer : Transfer settings thread before.shared.data after.shared.data :=
        transfer_of_choice reachable stepped fun other same => (Choice.run.inj same).symm
      have other : thread ≠ .monitor := fun same => others (by rw [same])
      obtain ⟨held, _, step⟩ := threadStep_of_run reachable stepped
      cases thread with
      | monitor => exact absurd rfl other
      | worker own =>
          exact quiet_of_transfer transfer other (.of_worker step.1) fun _ => step.1.deprioritized
      | tool number =>
          obtain ⟨process, tool⟩ := step
          have deletes := OnlyDeletes.of_tool tool
          apply quiet_of_transfer transfer other (.of_same deletes.deviceConnectAttempts)
          intro bdaddr member
          rwa [deletes.deprioritizedBdaddrs] at member
  | start thread input =>
      have transfer : Transfer settings (.worker radio) before.shared.data after.shared.data :=
        transfer_of_choice reachable stepped (by simp)
      rcases System.steps_of_choice stepped with ⟨_, _, _, impossible, _⟩ |
        ⟨_, _, _, _, _, _, rfl⟩ | ⟨_, _, impossible, _⟩
      · simp at impossible
      · exact quiet_of_transfer transfer (by simp) (.of_same rfl) fun _ => id
      · simp at impossible
  | environment event =>
      have transfer : Transfer settings (.worker radio) before.shared.data after.shared.data :=
        transfer_of_choice reachable stepped (by simp)
      rcases System.steps_of_choice stepped with ⟨_, _, _, impossible, _⟩ |
        ⟨_, _, _, impossible, _⟩ | ⟨_, _, same, happened, rfl⟩
      · simp at impossible
      · simp at impossible
      · obtain ⟨_, _, _, _, _, rfl⟩ := environment_frame happened
        exact quiet_of_transfer transfer (by simp) (.of_same rfl) fun _ => id

theorem QuietStep.workLeft_le {settings : Settings} {radio : Radio} {before after : Data}
    (step : QuietStep settings radio before after) :
    workLeft settings radio after ≤ workLeft settings radio before :=
  step.lightens.weight_le.1

end NaiveBTSniffing.Launcher
