import NaiveBTSniffing.Launcher.ConnectAttempts
import NaiveBTSniffing.Launcher.Moves
import NaiveBTSniffing.Launcher.Transfers

/-!
Contract: tracked or deprioritized, not both.

`apart_of_run` says that no address is in both dictionaries of a radio, except
between the two halves of `process_line`'s own move, in every run in which no
[NEW] line about an address is handed over while the address is deprioritized.
`not_apart` is a run with such a line: the [NEW] branch does not look at the
deprioritized dictionary.

Does not own when an address is lost from both dictionaries (`Moves`).
-/

namespace NaiveBTSniffing.Launcher

open NaiveBTSniffing.Library
open NaiveBTSniffing.Library.Interleaving

/-! ## The runs considered -/

/-- The address is deprioritized, or the worker of the radio is just taking it
out. -/
def SetAside (radio : Radio) (bdaddr : Text) (data : Data) : Prop :=
  bdaddr ∈ data.deprioritizedBdaddrs radio ∨ data.ghost.reprioritizing radio = some bdaddr

instance (radio : Radio) (bdaddr : Text) : DecidablePred (SetAside radio bdaddr) := fun data =>
  inferInstanceAs (Decidable (bdaddr ∈ data.deprioritizedBdaddrs radio ∨
    data.ghost.reprioritizing radio = some bdaddr))

/-- No line that announces the address on the radio is handed over while the
address is set aside. -/
def NotAnnouncedAside (settings : Settings) (radio : Radio) (bdaddr : Text)
    (before after : Data) : Prop :=
  SetAside radio bdaddr before → ∀ event ∈ after.ghost.trace.drop before.ghost.trace.length,
    announcement settings event ≠ some (bdaddr, radio)

instance (settings : Settings) (radio : Radio) (bdaddr : Text) :
    DecidableRel (NotAnnouncedAside settings radio bdaddr) := fun before after =>
  inferInstanceAs (Decidable (SetAside radio bdaddr before →
    ∀ event ∈ after.ghost.trace.drop before.ghost.trace.length,
      announcement settings event ≠ some (bdaddr, radio)))

theorem announcement_line (settings : Settings) (line : Text) :
    announcement settings (.line line) =
      (command settings.lower (Text.split line)).announcedOn := by
  simp only [announcement]
  cases command settings.lower (Text.split line) <;> rfl

/-! ## The invariant -/

/-- The address is in both dictionaries only in the middle of `process_line`'s
move, also while the worker takes it out, and it is not announced while it is
set aside. -/
structure Apart (settings : Settings) (radio : Radio) (bdaddr : Text) (data : Data) : Prop where
  both : bdaddr ∈ data.bdaddrs radio → SetAside radio bdaddr data →
    data.ghost.deprioritizing = some (radio, bdaddr)
  moving : data.ghost.reprioritizing radio = some bdaddr →
    bdaddr ∉ data.deprioritizedBdaddrs radio
  announced : Announced settings radio bdaddr data → ¬ SetAside radio bdaddr data

section Step

variable {settings : Settings} {radio : Radio} {bdaddr : Text} {thread : ThreadId}
variable {before after : Data}

/-- An address is set aside by `process_line`, from the tracked dictionary. -/
private theorem parked_of_setAside (transfer : Transfer settings thread before after)
    (fresh : ¬ SetAside radio bdaddr before) (aside : SetAside radio bdaddr after) :
    bdaddr ∈ before.bdaddrs radio ∧ before.ghost.deprioritizing = none ∧
      after.ghost.deprioritizing = some (radio, bdaddr) ∧
      ∃ more, lastCommand settings before = .manufacturerData bdaddr more := by
  rcases aside with parked | moving
  · exact transfer.deprioritized radio bdaddr (fun there => fresh (.inl there)) parked
  · rcases transfer.reprioritizing radio bdaddr moving with already | there
    · exact absurd (.inr already) fresh
    · exact absurd (.inl there.1) fresh

private theorem not_announced_of_vendor {more : List Text}
    (vendor : lastCommand settings before = .manufacturerData bdaddr more) :
    ¬ Announced settings radio bdaddr before := by
  rw [Announced, vendor]
  simp [Command.announcedOn]

private theorem Apart.announced_step (apart : Apart settings radio bdaddr before)
    (transfer : Transfer settings thread before after)
    (admitted : NotAnnouncedAside settings radio bdaddr before after)
    (later : Announced settings radio bdaddr after) : ¬ SetAside radio bdaddr after := by
  intro aside
  rcases transfer.line with same | ⟨line, _, same⟩
  · have sooner : Announced settings radio bdaddr before := by rwa [Announced, same] at later
    obtain ⟨_, _, _, more, vendor⟩ :=
      parked_of_setAside transfer (apart.announced sooner) aside
    exact not_announced_of_vendor vendor sooner
  · subst same
    apply admitted aside (.line line) (by simp)
    rw [announcement_line, ← lastCommand_of_line settings
      (rfl : (before.record (.line line)).ghost.trace = before.ghost.trace ++ [.line line])]
    exact later

private theorem Apart.both_step (apart : Apart settings radio bdaddr before)
    (transfer : Transfer settings thread before after) (tracked : bdaddr ∈ after.bdaddrs radio)
    (aside : SetAside radio bdaddr after) :
    after.ghost.deprioritizing = some (radio, bdaddr) := by
  by_cases already : SetAside radio bdaddr before
  · by_cases wasTracked : bdaddr ∈ before.bdaddrs radio
    · have parking := apart.both wasTracked already
      rcases transfer.deprioritizing with same | none | ⟨own, other, move, untracked⟩
      · rw [same, parking]
      · simp [none] at parking
      · obtain ⟨rfl, rfl⟩ : own = radio ∧ other = bdaddr := by
          simpa using move.symm.trans parking
        exact absurd tracked untracked
    -- What a worker has just put back is in neither half of a move any more.
    · rcases transfer.tracked radio bdaddr wasTracked tracked with ⟨_, sooner⟩ | ⟨_, moving, moved⟩
      · exact absurd already (apart.announced sooner)
      · rcases aside with parked | still
        · exact absurd (transfer.deprioritized radio bdaddr (apart.moving moving) parked).1
            wasTracked
        · simp [moved] at still
  · exact (parked_of_setAside transfer already aside).2.2.1

private theorem Apart.moving_step (apart : Apart settings radio bdaddr before)
    (transfer : Transfer settings thread before after)
    (moving : after.ghost.reprioritizing radio = some bdaddr) :
    bdaddr ∉ after.deprioritizedBdaddrs radio := by
  rcases transfer.reprioritizing radio bdaddr moving with already | ⟨_, gone⟩
  · intro parked
    obtain ⟨wasTracked, resting, _⟩ :=
      transfer.deprioritized radio bdaddr (apart.moving already) parked
    have parking := apart.both wasTracked (.inr already)
    simp [resting] at parking
  · exact gone

private theorem Apart.step (apart : Apart settings radio bdaddr before)
    (transfer : Transfer settings thread before after)
    (admitted : NotAnnouncedAside settings radio bdaddr before after) :
    Apart settings radio bdaddr after :=
  ⟨apart.both_step transfer, apart.moving_step transfer,
    apart.announced_step transfer admitted⟩

end Step

private theorem apart_initial (settings : Settings) (radio : Radio) (bdaddr : Text) :
    Apart settings radio bdaddr initial.shared.data where
  both := fun member => absurd member (AList.notMem_empty _)
  moving := fun _ => AList.notMem_empty _
  announced := fun impossible => by
    simp [Announced, lastCommand, initial, Data.empty, Command.announcedOn] at impossible

/-! ## Who is in the middle of a move -/

/-- `process_line` moves an address while it holds the lock of the tracked
dictionary. -/
theorem locked_of_deprioritizing (settings : Settings) {config : Config Lock ThreadId Data Site}
    (reachable : (launcher settings).Reachable initial config) {radio : Radio} {bdaddr : Text}
    (moving : config.shared.data.ghost.deprioritizing = some (radio, bdaddr)) :
    config.shared.holder (.bdaddrs radio) = some .monitor := by
  -- The contract for BLE asks nothing of a run.
  have lawful := movesContract_lawful settings .ble
  have holdsAt : ∀ {config}, (launcher settings).Reachable initial config →
      ∃ held, (movesContract .ble).Holds config held := fun reachable =>
    lawful.holds_of_run (Relation.ReflTransGen.mono (fun _ _ stepped =>
      ⟨stepped.1, fun impossible => by simp at impossible⟩) _ _ reachable)
      (movesContract_initial .ble)
  induction reachable with
  | refl => simp [initial, Data.empty] at moving
  | @tail before after earlier stepped inductionHypothesis =>
      obtain ⟨_, holdsLater⟩ := holdsAt (Relation.ReflTransGen.tail earlier stepped)
      have taken : after.shared.holder (.bdaddrs radio) ≠ none := fun free =>
        holdsLater.free _ free radio bdaddr rfl moving
      have owned : before.shared.holder (.bdaddrs radio) = some .monitor := by
        obtain ⟨choice, chosen⟩ := stepped.1
        rcases System.steps_of_choice chosen with ⟨thread, _, _, rfl, _, _⟩ |
          ⟨_, _, _, _, _, _, rfl⟩ | ⟨_, _, _, happened, rfl⟩
        · obtain ⟨held, holds⟩ := holdsAt earlier
          have promise := lawful.promise holds chosen fun impossible => by simp at impossible
          rcases promise.locked radio bdaddr moving with already | member
          · exact inductionHypothesis already
          · by_cases monitor : thread = .monitor
            · subst monitor
              exact (holds.owns.iff _ _).mpr member
            · exact inductionHypothesis ((promise.deprioritizing monitor).symm.trans moving)
        · exact inductionHypothesis moving
        · apply inductionHypothesis
          obtain ⟨_, _, _, _, _, rfl⟩ := environment_frame happened
          exact moving
      rcases System.holder_of_steps stepped.1 (.bdaddrs radio) with same | free | free
      · exact same.trans owned
      · simp [free] at owned
      · exact absurd free taken

/-! ## Runs -/

/-- In every run in which an address is not announced while it is set aside, it
is in both dictionaries only while `process_line` moves it under the lock; and
along every run it stays deprioritized until the worker takes it out. -/
theorem apart_of_run (settings : Settings) (radio : Radio) (bdaddr : Text)
    {config : Config Lock ThreadId Data Site}
    (run : (launcher settings).Run (NotAnnouncedAside settings radio bdaddr) initial config) :
    (bdaddr ∈ config.shared.data.bdaddrs radio →
      bdaddr ∈ config.shared.data.deprioritizedBdaddrs radio →
      config.shared.data.ghost.deprioritizing = some (radio, bdaddr) ∧
        config.shared.holder (.bdaddrs radio) = some .monitor) ∧
    (bdaddr ∈ config.shared.data.deprioritizedBdaddrs radio →
      ∀ later, (launcher settings).Run
        (fun _ after => after.ghost.reprioritizing radio ≠ some bdaddr) config later →
      bdaddr ∈ later.shared.data.deprioritizedBdaddrs radio) := by
  have reachable := run.reachable
  constructor
  · have apart : Apart settings radio bdaddr config.shared.data := by
      clear reachable
      induction run with
      | refl => exact apart_initial settings radio bdaddr
      | tail earlier stepped inductionHypothesis =>
          obtain ⟨_, transfer⟩ := transfer_of_steps (System.Run.reachable earlier) stepped.1
          exact inductionHypothesis.step transfer stepped.2
    intro tracked parked
    have moving := apart.both tracked (.inl parked)
    exact ⟨moving, locked_of_deprioritizing settings reachable moving⟩
  · intro parked later onward
    induction onward with
    | refl => exact parked
    | @tail middle _ earlier stepped inductionHypothesis =>
        by_contra missing
        have onward : (launcher settings).Run
            (fun _ after => after.ghost.reprioritizing radio ≠ some bdaddr) config middle := earlier
        obtain ⟨_, transfer⟩ := transfer_of_steps (reachable.trans onward.reachable) stepped.1
        exact stepped.2 (transfer.released radio bdaddr inductionHypothesis missing).2

private def appleWords : Text := "AA ManufacturerData Key: 0x004c".toList

private def newAgain : Text := deviceLine newWord "AA BLE public A".toList

/-- An Apple device is deprioritized and disappears. -/
theorem apart_of_run_deleted : ∃ config,
    (launcher .shipped).Run (NotAnnouncedAside .shipped .ble "aa".toList) initial config ∧
      "aa".toList ∈ config.shared.data.deprioritizedBdaddrs .ble ∧
      "aa".toList ∉ config.shared.data.bdaddrs .ble ∧
      ∀ later, (launcher .shipped).Run
        (fun _ after => after.ghost.reprioritizing .ble ≠ some "aa".toList) config later →
      "aa".toList ∈ later.shared.data.deprioritizedBdaddrs .ble := by
  have leaves : leads .shipped (NotAnnouncedAside .shipped .ble "aa".toList)
      (Schedule.handed newAgain 5 ++ Schedule.handed (deviceLine chgWord appleWords) 12 ++
        Schedule.handed (deviceLine delWord "AA BLE public A".toList) 4) initial
      (fun config => decide ("aa".toList ∈ config.shared.data.deprioritizedBdaddrs .ble ∧
        config.shared.data.ghost.deprioritizing = none)) = true := by
    decide
  obtain ⟨config, run, holds⟩ := run_of_leads leaves
  obtain ⟨parked, resting⟩ := of_decide_eq_true holds
  have apart := apart_of_run .shipped .ble "aa".toList run
  refine ⟨config, run, parked, fun tracked => ?_, apart.2 parked⟩
  have moving := (apart.1 tracked parked).1
  simp [resting] at moving

/-- A deprioritized device is announced a second time: it is in both
dictionaries, and no lock is taken. -/
theorem not_apart : ¬ ∀ (settings : Settings) (config : Config Lock ThreadId Data Site),
    (launcher settings).Reachable initial config →
    (∀ radio, config.shared.holder (.bdaddrs radio) = none) → ∀ radio bdaddr,
    ¬ (bdaddr ∈ config.shared.data.bdaddrs radio ∧
      bdaddr ∈ config.shared.data.deprioritizedBdaddrs radio) := by
  intro apart
  have meets : leads .shipped (fun _ _ => True)
      (Schedule.handed newAgain 5 ++ Schedule.handed (deviceLine chgWord appleWords) 12 ++
        Schedule.handed newAgain 5) initial
      (fun config => decide ((∀ radio, config.shared.holder (.bdaddrs radio) = none) ∧
        "aa".toList ∈ config.shared.data.bdaddrs .ble ∧
        "aa".toList ∈ config.shared.data.deprioritizedBdaddrs .ble)) = true := by
    decide
  obtain ⟨config, reachable, holds⟩ := run_of_leads meets
  obtain ⟨free, both⟩ := of_decide_eq_true holds
  exact apart .shipped config reachable free .ble _ both

end NaiveBTSniffing.Launcher
