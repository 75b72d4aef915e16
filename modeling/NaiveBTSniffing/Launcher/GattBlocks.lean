import NaiveBTSniffing.Launcher.State

/-!
Contract: the shape of `GATTprint.log`.

A well-formed log is a sequence of blocks: an ATTEMPT line for an address, the
lines of the process launched for it, and one outcome line; only the last block
may be unfinished. `scan` reads a log line by line and accepts exactly while it
has this shape, so that a step that appends a line is judged by the state that
the scan has reached. `blocks_of_scan` gives the blocks of an accepted log.

Does not own which steps append lines (`GattLog`).
-/

namespace NaiveBTSniffing.Launcher

open NaiveBTSniffing.Library

/-! ## Blocks -/

/-- SUCCESS, FAILURE with a code, or FAILURE TIMEOUT for the address. -/
def IsOutcome (bdaddr : Text) (line : LogLine) : Prop :=
  line = .success bdaddr ∨ (∃ retCode, line = .failure retCode bdaddr) ∨
    line = .failureTimeout bdaddr

structure Block where
  bdaddr : Text
  /-- Lines of processes, with the number of the process. -/
  outputs : List (Nat × Text)
  outcome : Option LogLine

namespace Block

def lines (block : Block) : List LogLine :=
  .attempt block.bdaddr :: block.outputs.map (fun output => .output output.1 output.2) ++
    block.outcome.toList

/-- The block of the attempt for which this process was launched, if it was. -/
structure WellFormed (process : Option (Nat × Text)) (block : Block) : Prop where
  written : ∀ output ∈ block.outputs, process = some (output.1, block.bdaddr)
  outcome : ∀ line, block.outcome = some line → IsOutcome block.bdaddr line

end Block

/-- The log consists of these blocks, one for each of the processes and possibly
one more. A process is given by its number and its address. -/
structure IsBlocks (processes : List (Nat × Text)) (log : List LogLine) (blocks : List Block) :
    Prop where
  lines : log = blocks.flatMap Block.lines
  wellFormed : ∀ (index : Nat) (block : Block), blocks[index]? = some block →
    block.WellFormed processes[index]?
  finished : ∀ block ∈ blocks.dropLast, block.outcome.isSome

/-! ## Reading a log -/

/-- What has been read: the number of blocks, and the address of the unfinished
one. -/
structure Scan where
  blocks : Nat
  opened : Option Text
deriving DecidableEq

/-- The next line, or `none` where it does not belong. -/
def Scan.line (processes : List (Nat × Text)) : Scan → LogLine → Option Scan
  | ⟨blocks, none⟩, .attempt bdaddr => some ⟨blocks + 1, some bdaddr⟩
  | ⟨blocks, some bdaddr⟩, .output number _ =>
      if processes[blocks - 1]? = some (number, bdaddr) then some ⟨blocks, some bdaddr⟩ else none
  | ⟨blocks, some bdaddr⟩, .success other
  | ⟨blocks, some bdaddr⟩, .failure _ other
  | ⟨blocks, some bdaddr⟩, .failureTimeout other =>
      if other = bdaddr then some ⟨blocks, none⟩ else none
  | _, _ => none

def scan (processes : List (Nat × Text)) (log : List LogLine) : Option Scan :=
  log.foldlM (Scan.line processes) ⟨0, none⟩

section Scan

variable {processes : List (Nat × Text)} {log : List LogLine} {line : LogLine} {state after : Scan}
variable {bdaddr : Text}

theorem scan_append : scan processes (log ++ [line]) =
    (scan processes log).bind fun state => state.line processes line := by
  simp [scan, List.foldlM_append]

theorem scan_next (read : scan processes log = some state)
    (accepted : state.line processes line = some after) :
    scan processes (log ++ [line]) = some after := by
  rw [scan_append, read]
  exact accepted

theorem Scan.line_outcome {blocks : Nat} (outcome : IsOutcome bdaddr line) :
    Scan.line processes ⟨blocks, some bdaddr⟩ line = some ⟨blocks, none⟩ := by
  rcases outcome with rfl | ⟨_, rfl⟩ | rfl <;> simp [Scan.line]

/-- What the scan of a line tells. -/
theorem Scan.line_cases (accepted : state.line processes line = some after) :
    (∃ bdaddr, state.opened = none ∧ line = .attempt bdaddr ∧
        after = ⟨state.blocks + 1, some bdaddr⟩) ∨
      (∃ bdaddr number text, state.opened = some bdaddr ∧ line = .output number text ∧
        processes[state.blocks - 1]? = some (number, bdaddr) ∧ after = state) ∨
      ∃ bdaddr, state.opened = some bdaddr ∧ IsOutcome bdaddr line ∧
        after = ⟨state.blocks, none⟩ := by
  obtain ⟨blocks, opened⟩ := state
  cases opened with
  | none =>
      cases line with
      | attempt bdaddr => exact .inl ⟨bdaddr, rfl, rfl, (Option.some.inj accepted).symm⟩
      | _ => simp [Scan.line] at accepted
  | some bdaddr =>
      cases line with
      | attempt other => simp [Scan.line] at accepted
      | output number text =>
          obtain ⟨launched, same⟩ := Option.ite_none_right_eq_some.mp accepted
          obtain rfl := Option.some.inj same
          exact .inr (.inl ⟨bdaddr, number, text, rfl, rfl, launched, rfl⟩)
      | success other =>
          obtain ⟨rfl, same⟩ := Option.ite_none_right_eq_some.mp accepted
          obtain rfl := Option.some.inj same
          exact .inr (.inr ⟨other, rfl, .inl rfl, rfl⟩)
      | failure retCode other =>
          obtain ⟨rfl, same⟩ := Option.ite_none_right_eq_some.mp accepted
          obtain rfl := Option.some.inj same
          exact .inr (.inr ⟨other, rfl, .inr (.inl ⟨retCode, rfl⟩), rfl⟩)
      | failureTimeout other =>
          obtain ⟨rfl, same⟩ := Option.ite_none_right_eq_some.mp accepted
          obtain rfl := Option.some.inj same
          exact .inr (.inr ⟨other, rfl, .inr (.inr rfl), rfl⟩)

/-- One more launched process invalidates nothing that was read. -/
theorem scan_launch (launched : Nat × Text) (read : scan processes log = some state) :
    scan (processes ++ [launched]) log = some state := by
  induction log using List.reverseRecOn generalizing state with
  | nil => exact read
  | append_singleton earlier line inductionHypothesis =>
      rw [scan_append] at read
      obtain ⟨middle, readEarlier, accepted⟩ := Option.bind_eq_some_iff.mp read
      refine scan_next (inductionHypothesis readEarlier) ?_
      obtain ⟨blocks, opened⟩ := middle
      rcases Scan.line_cases accepted with
        ⟨bdaddr, rfl, rfl, rfl⟩ | ⟨bdaddr, number, text, rfl, rfl, started, rfl⟩ |
        ⟨bdaddr, rfl, outcome, rfl⟩
      · rfl
      · have inside := (List.getElem?_eq_some_iff.mp started).1
        simp [Scan.line, List.getElem?_append_left inside, started]
      · exact Scan.line_outcome outcome

end Scan

/-! ## The blocks of an accepted log -/

namespace IsBlocks

variable {processes : List (Nat × Text)} {log : List LogLine} {blocks earlier : List Block}

/-- An ATTEMPT line opens a block after finished ones. -/
theorem attempt (isBlocks : IsBlocks processes log blocks) (bdaddr : Text)
    (finished : ∀ block ∈ blocks, block.outcome.isSome) :
    IsBlocks processes (log ++ [.attempt bdaddr]) (blocks ++ [⟨bdaddr, [], none⟩]) where
  lines := by simp [isBlocks.lines, Block.lines]
  wellFormed := by
    intro index block found
    rcases Nat.lt_or_ge index blocks.length with inside | outside
    · rw [List.getElem?_append_left inside] at found
      exact isBlocks.wellFormed index block found
    · rw [List.getElem?_append_right outside] at found
      obtain ⟨_, rfl⟩ := List.getElem?_eq_some_iff.mp found
      exact ⟨by simp, by simp⟩
  finished := by simpa using finished

/-- A line that extends the last block. -/
theorem extend {last next : Block} {line : LogLine}
    (isBlocks : IsBlocks processes log (earlier ++ [last]))
    (lines : next.lines = last.lines ++ [line])
    (wellFormed : last.WellFormed processes[earlier.length]? →
      next.WellFormed processes[earlier.length]?) :
    IsBlocks processes (log ++ [line]) (earlier ++ [next]) where
  lines := by simp [isBlocks.lines, lines]
  wellFormed := by
    intro index block found
    rcases Nat.lt_or_ge index earlier.length with inside | outside
    · rw [List.getElem?_append_left inside] at found
      exact isBlocks.wellFormed index block (by rw [List.getElem?_append_left inside, found])
    · rw [List.getElem?_append_right outside] at found
      obtain ⟨atEnd, rfl⟩ := List.getElem?_eq_some_iff.mp found
      obtain rfl : index = earlier.length := by simp at atEnd; omega
      simpa using wellFormed (isBlocks.wellFormed _ last (by simp))
  finished := by simpa using isBlocks.finished

end IsBlocks

/-- What the state of a scan says about the blocks read so far. -/
structure Scan.Describes (state : Scan) (blocks : List Block) : Prop where
  length : blocks.length = state.blocks
  closed : state.opened = none → ∀ block ∈ blocks, block.outcome.isSome
  opened : ∀ bdaddr, state.opened = some bdaddr → ∃ earlier outputs,
    blocks = earlier ++ [⟨bdaddr, outputs, none⟩]

/-- A log that the scan accepts consists of blocks. -/
theorem blocks_of_scan {processes : List (Nat × Text)} {log : List LogLine} {state : Scan}
    (read : scan processes log = some state) :
    ∃ blocks, IsBlocks processes log blocks ∧ state.Describes blocks := by
  induction log using List.reverseRecOn generalizing state with
  | nil =>
      obtain rfl := Option.some.inj read
      exact ⟨[], ⟨rfl, by simp, by simp⟩, ⟨rfl, by simp, by simp⟩⟩
  | append_singleton earlier line inductionHypothesis =>
      rw [scan_append] at read
      obtain ⟨middle, readEarlier, accepted⟩ := Option.bind_eq_some_iff.mp read
      obtain ⟨blocks, isBlocks, describes⟩ := inductionHypothesis readEarlier
      rcases middle.line_cases accepted with
        ⟨bdaddr, closed, rfl, rfl⟩ | ⟨bdaddr, number, text, opened, rfl, started, rfl⟩ |
        ⟨bdaddr, opened, outcome, rfl⟩
      · refine ⟨_, isBlocks.attempt bdaddr (describes.closed closed),
          ⟨by simp [describes.length], by simp, fun other same => ?_⟩⟩
        obtain rfl : bdaddr = other := Option.some.inj same
        exact ⟨blocks, [], rfl⟩
      · obtain ⟨before, outputs, rfl⟩ := describes.opened bdaddr opened
        have here : before.length = state.blocks - 1 := by simp [← describes.length]
        refine ⟨before ++ [⟨bdaddr, outputs ++ [(number, text)], none⟩], isBlocks.extend
          (by simp [Block.lines]) fun wellFormed => ⟨fun output member => ?_, by simp⟩,
          ⟨by simp [← describes.length], by simp [opened], fun other same => ?_⟩⟩
        · rcases List.mem_append.mp member with old | new
          · exact wellFormed.written output old
          · obtain rfl := List.mem_singleton.mp new
            rw [here, started]
        · obtain rfl : bdaddr = other := Option.some.inj (opened.symm.trans same)
          exact ⟨before, _, rfl⟩
      · obtain ⟨before, outputs, rfl⟩ := describes.opened bdaddr opened
        refine ⟨before ++ [⟨bdaddr, outputs, some line⟩], isBlocks.extend
          (by simp [Block.lines]) fun wellFormed => ⟨wellFormed.written, fun other same => ?_⟩,
          ⟨by simp [← describes.length], fun _ block member => ?_, by simp⟩⟩
        · obtain rfl : line = other := Option.some.inj same
          exact outcome
        · rcases List.mem_append.mp member with old | new
          · exact isBlocks.finished block (by simpa using old)
          · obtain rfl := List.mem_singleton.mp new
            rfl

end NaiveBTSniffing.Launcher
