import NaiveBTSniffing.Library.Interleaving.Debt
import NaiveBTSniffing.Launcher.Transfers

/-!
Contract: waiting for a new device while deprioritized ones are left.

A worker takes a deprioritized address when it has skipped every address of a
pass. `not_starved_of_run` says that it never waits with an empty tracked and a
non-empty deprioritized dictionary in runs in which nothing but its deletion of
the last skipped address empties the tracked dictionary of the radio while its
deprioritized one is not empty. `waits_starved` is a run in which `process_line`
empties it: the worker waits although a deprioritized device is left.
-/

namespace NaiveBTSniffing.Launcher

open NaiveBTSniffing.Library
open NaiveBTSniffing.Library.Interleaving
open NaiveBTSniffing.Library.Interleaving.Prog

/-! ## The runs considered -/

/-- Nothing is tracked, although something is deprioritized. -/
def Starved (radio : Radio) (data : Data) : Prop :=
  (data.bdaddrs radio).keys = [] ∧ (data.deprioritizedBdaddrs radio).keys ≠ []

instance (radio : Radio) : DecidablePred (Starved radio) := fun data =>
  inferInstanceAs (Decidable
    ((data.bdaddrs radio).keys = [] ∧ (data.deprioritizedBdaddrs radio).keys ≠ []))

/-- The worker is in its busy wait. -/
def InBusyWait (radio : Radio) (config : Config Lock ThreadId Data Site) : Prop :=
  (config.thread (.worker radio)).standsAt = some (.busyWait radio)

instance (radio : Radio) : DecidablePred (InBusyWait radio) := fun config =>
  inferInstanceAs (Decidable
    ((config.thread (.worker radio)).standsAt = some (.busyWait radio)))

/-- The worker has just dealt with the last address of a pass in which it skipped
all of them, and turns to the deprioritized ones. -/
def TurnsToDeprioritized (radio : Radio) (config : Config Lock ThreadId Data Site) : Prop :=
  ∃ rest : Unit → Code Unit, config.thread (.worker radio) =
    .release (.bdaddrs radio) (reprioritizeFirst radio (reprioritize .ble radio) >>= rest)

/-- If the step empties the tracked dictionary while the deprioritized one is not
empty, then the worker turns to the deprioritized addresses. -/
def EmptiesInTurn (radio : Radio) (before after : Config Lock ThreadId Data Site) : Prop :=
  (before.shared.data.bdaddrs radio).keys ≠ [] → Starved radio after.shared.data →
    TurnsToDeprioritized radio after

/-- Runs whose steps all satisfy this. -/
def RefilledRun (settings : Settings) (radio : Radio) :
    Config Lock ThreadId Data Site → Config Lock ThreadId Data Site → Prop :=
  Relation.ReflTransGen fun before after =>
    (launcher settings).Steps before after ∧ EmptiesInTurn radio before after

theorem RefilledRun.reachable {settings : Settings} {radio : Radio}
    {before after : Config Lock ThreadId Data Site} (run : RefilledRun settings radio before after) :
    (launcher settings).Reachable before after :=
  Relation.ReflTransGen.mono (fun _ _ stepped => ⟨stepped.1, trivial⟩) _ _ run

/-! ## The worker's turn -/

/-- A starved worker owes one address to its tracked dictionary before it waits. -/
def refillDebt (radio : Radio) : Debt Data Site where
  settled := fun data => ¬ Starved radio data
  rely := fun before after =>
    ∀ bdaddr ∈ before.deprioritizedBdaddrs radio, bdaddr ∈ after.deprioritizedBdaddrs radio
  passes := fun site => site ≠ .busyWait radio
  relyRefl := fun _ _ member => member
  relyTrans := fun first second bdaddr member => second bdaddr (first bdaddr member)

section Turn

variable {radio : Radio} {bdaddr : Text} {data : Data}

private theorem passes_step : (refillDebt radio).passes .step := by
  simp [refillDebt]

/-- The move of an address that is there ends with a tracked address. -/
private theorem unpark_owes (parked : bdaddr ∈ data.deprioritizedBdaddrs radio) :
    (unpark radio bdaddr).Owes (refillDebt radio) (fun _ _ => False) data := by
  refine owes_bind (fun _ now => bdaddr ∈ now.deprioritizedBdaddrs radio)
    (Rule.owes_demand passes_step fun now relied _ => .inr ?_) fun stored now there => ?_
  · obtain ⟨stored, seen⟩ := (Dict.mem_iff_lookup _ _).mp (relied bdaddr parked)
    exact ⟨stored, seen, fun later further => further bdaddr (relied bdaddr parked)⟩
  · refine owes_bind (fun _ _ => True)
      (Rule.owes_demand passes_step fun later relied _ => .inr ?_) fun _ _ _ => ?_
    · obtain ⟨again, seen⟩ := (Dict.mem_iff_lookup _ _).mp (relied bdaddr there)
      exact ⟨(), by simp [seen], fun _ _ => trivial⟩
    · refine ⟨by simp [refillDebt], fun later _ _ _ => .inl fun starved => ?_⟩
      have tracked : bdaddr ∈
          (later.retrack radio bdaddr (stored.1, stored.2.1)).bdaddrs radio := by simp
      have listed := AList.mem_keys.mp tracked
      rw [starved.1] at listed
      exact List.not_mem_nil listed

private theorem reprioritize_owes (parked : bdaddr ∈ data.deprioritizedBdaddrs radio) :
    (reprioritize .ble radio bdaddr).Owes (refillDebt radio) (fun _ _ => False) data := by
  apply owes_withLock
  apply owes_withLock
  refine owes_bind (fun found now => found = true ∧ bdaddr ∈ now.deprioritizedBdaddrs radio)
    (owes_await passes_step fun now later relied _ further => ?_) fun found now holds => ?_
  · have there := relied bdaddr parked
    exact ⟨decide_eq_true there, further bdaddr there⟩
  · exact owes_ite (fun _ => unpark_owes holds.2) fun missing => absurd holds.1 missing

/-- As long as the worker is starved, its turn to the deprioritized addresses
finds one. -/
private theorem turn_owes :
    (reprioritizeFirst radio (reprioritize .ble radio)).Owes (refillDebt radio)
      (fun _ _ => False) data := by
  refine owes_bind (fun found _ => found = true)
    (owes_await passes_step fun now _ _ unsettled _ => ?_)
    fun found now holds => owes_ite (fun _ => ?_) fun missing => absurd holds missing
  · have starved : Starved radio now := not_not.mp unsettled
    simpa [List.isEmpty_iff] using starved.2
  · refine owes_bind (fun first later => first ∈ later.deprioritizedBdaddrs radio)
      (Rule.owes_demand passes_step fun later _ unsettled => .inr ?_)
      fun first later there => reprioritize_owes there
    have starved : Starved radio later := not_not.mp unsettled
    obtain ⟨first, rest, keys⟩ := List.exists_cons_of_ne_nil starved.2
    have there : first ∈ later.deprioritizedBdaddrs radio :=
      AList.mem_keys.mpr (by rw [keys]; exact List.mem_cons_self)
    exact ⟨first, by rw [keys]; rfl, fun last further => further first there⟩

end Turn

/-! ## Runs -/

/-- The worker is in debt while it is starved. -/
private abbrev Fed (radio : Radio) (config : Config Lock ThreadId Data Site) : Prop :=
  (refillDebt radio).Covered (fun thread => thread = .worker radio) config

private theorem fed_step {settings : Settings} {radio : Radio}
    {before after : Config Lock ThreadId Data Site}
    (reachable : (launcher settings).Reachable initial before) (fed : Fed radio before)
    (stepped : (launcher settings).Steps before after) (admitted : EmptiesInTurn radio before after) :
    Fed radio after := by
  obtain ⟨choice, chosen⟩ := stepped
  refine Debt.Covered.step fed chosen (fun thread own others bdaddr parked => ?_)
    fun settled unsettled => ⟨.worker radio, rfl, ?_⟩
  · subst own
    exact staysDeprioritized_of_choice reachable chosen others parked
  · have starved : Starved radio after.shared.data := not_not.mp unsettled
    obtain ⟨rest, turns⟩ : TurnsToDeprioritized radio after := by
      apply admitted _ starved
      -- Only a tracked address can be deprioritized.
      intro nothing
      obtain ⟨bdaddr, rest, keys⟩ := List.exists_cons_of_ne_nil starved.2
      have parked : bdaddr ∈ after.shared.data.deprioritizedBdaddrs radio :=
        AList.mem_keys.mpr (by rw [keys]; exact List.mem_cons_self)
      have fresh : bdaddr ∉ before.shared.data.deprioritizedBdaddrs radio := fun already => by
        have wasStarved : Starved radio before.shared.data :=
          ⟨nothing, List.ne_nil_of_mem (AList.mem_keys.mp already)⟩
        exact settled wasStarved
      obtain ⟨_, transfer⟩ := transfer_of_steps reachable ⟨choice, chosen⟩
      have tracked := AList.mem_keys.mp (transfer.deprioritized radio bdaddr fresh parked).1
      rw [nothing] at tracked
      exact List.not_mem_nil tracked
    rw [turns]
    exact owes_bind_of_never turn_owes

/-- In a run in which only the worker's turn empties the tracked dictionary of the
radio, the worker never waits starved. -/
theorem not_starved_of_run (settings : Settings) (radio : Radio)
    {config : Config Lock ThreadId Data Site} (run : RefilledRun settings radio initial config)
    (waits : InBusyWait radio config) : ¬ Starved radio config.shared.data := by
  have fed : Fed radio config := by
    clear waits
    induction run with
    | refl => exact .inl fun starved => starved.2 rfl
    | tail earlier stepped inductionHypothesis =>
        exact fed_step (RefilledRun.reachable earlier) inductionHypothesis stepped.1 stepped.2
  intro starved
  obtain ⟨thread, rfl, owes⟩ := fed.resolve_left (not_not.mpr starved)
  unfold InBusyWait at waits
  cases program : config.thread (.worker radio) with
  | act site guard update next =>
      rw [program] at waits owes
      exact owes.1 (Option.some.inj waits)
  | _ => simp [program, Prog.standsAt] at waits

private def appleDevice : Text := deviceLine chgWord "AA ManufacturerData Key: 0x004c".toList

/-- While the worker waits, two devices appear and one of them is deprioritized. -/
theorem not_starved_of_run_two : ∃ config,
    RefilledRun .shipped .ble initial config ∧ InBusyWait .ble config ∧
      (config.shared.data.deprioritizedBdaddrs .ble).keys ≠ [] ∧
      ¬ Starved .ble config.shared.data := by
  have waits : leads .shipped (fun _ after => ¬ Starved .ble after)
      (Schedule.pass .ble 2 ++ Schedule.handed (deviceLine newWord "AA BLE public A".toList) 5 ++
        Schedule.handed (deviceLine newWord "BB BLE public B".toList) 5 ++
        Schedule.handed appleDevice 12) initial
      (fun config => decide (InBusyWait .ble config ∧
        (config.shared.data.deprioritizedBdaddrs .ble).keys ≠ [])) = true := by
    decide
  obtain ⟨config, run, holds⟩ := run_of_leads waits
  obtain ⟨waiting, parked⟩ := of_decide_eq_true holds
  have refilled : RefilledRun .shipped .ble initial config :=
    Relation.ReflTransGen.mono (fun _ _ stepped =>
      ⟨stepped.1, fun _ starved => absurd starved stepped.2⟩) _ _ run
  exact ⟨config, refilled, waiting, parked, not_starved_of_run .shipped .ble refilled waiting⟩

/-- The only device is deprioritized before the worker's first pass: every line
is processed, and the worker waits for another one. -/
theorem waits_starved : ¬ ∀ (settings : Settings) (config : Config Lock ThreadId Data Site),
    (launcher settings).Reachable initial config → config.thread .monitor = .done () →
    ∀ radio, InBusyWait radio config → (config.shared.data.bdaddrs radio).keys = [] →
      (config.shared.data.deprioritizedBdaddrs radio).keys = [] := by
  intro refilled
  have waits : leads .shipped (fun _ _ => True)
      (Schedule.handed (deviceLine newWord "AA BLE public A".toList) 5 ++
        Schedule.handed appleDevice 12 ++ Schedule.pass .ble 2) initial
      (fun config => decide (InBusyWait .ble config ∧ Starved .ble config.shared.data ∧
        config.ended .monitor = true ∧ (config.thread .monitor).isRaised = false)) = true := by
    decide
  obtain ⟨config, reachable, holds⟩ := run_of_leads waits
  obtain ⟨waiting, starved, ended, alive⟩ := of_decide_eq_true holds
  have resting : config.thread .monitor = .done () := by
    unfold Config.ended at ended
    cases program : config.thread .monitor <;> simp_all [Prog.ended, Prog.isRaised]
  exact starved.2 (refilled .shipped config reachable resting .ble waiting starved.1)

end NaiveBTSniffing.Launcher
