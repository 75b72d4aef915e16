import NaiveBTSniffing.Launcher.HandleLines
import NaiveBTSniffing.Library.Lines
import NaiveBTSniffing.Library.Utf8

/-!
Contract: how `main` reads the bluetoothctl log while another process appends to
it.

Each pass opens the file, goes to `bt_file_position`, hands every line up to the
end of the file to `process_line` and notes the position reached. A pass is one
uninterrupted read: nothing is appended while it goes on. Owns the condition on
the points where the passes end under which the lines handed over are the lines
of the whole log.

Does not own `process_line`, which may end the script on a line.
-/

namespace NaiveBTSniffing.Launcher

open NaiveBTSniffing.Library

/-- What `for line in file` does from a file position to the end of the file: the
lines it yields, and whether it comes to its end. At the end of the file the
decoder refuses the first bytes of an unfinished character; the lines that have
ended are yielded before. -/
def iterate (bytes : List UInt8) : List Text × Bool :=
  if (Utf8.decode bytes).2.isEmpty then (Text.lines (Utf8.decode bytes).1, true)
  else (Text.endedLines (Utf8.decode bytes).1, false)

/-- The passes of `main` over the log, one after each appended chunk, from the
content of the file and `bt_file_position`: the lines that the passes hand over,
and whether none of them ended the script. -/
def readPasses (file : List UInt8) (btFilePosition : Nat) :
    List (List UInt8) → List Text × Bool
  | [] => ([], true)
  | chunk :: later =>
      let pass := iterate ((file ++ chunk).drop btFilePosition)
      if pass.2 then
        let others := readPasses (file ++ chunk) (file ++ chunk).length later
        (pass.1 ++ others.1, others.2)
      else pass

/-- What `main` hands to `process_line` as long as that returns, and whether no
pass ended the script. -/
def handed (chunks : List (List UInt8)) : List Text × Bool :=
  let reads := readPasses [] 0 chunks
  (reads.1.map Text.strip, reads.2)

/-- The shared data after `main` has read all chunks and no other thread moved, or
`none` where the script has ended. -/
def monitor (settings : Settings) (chunks : List (List UInt8)) (data : Data) : Option Data :=
  let reads := readPasses [] 0 chunks
  (handleLines settings reads.1 data).bind fun after => if reads.2 then some after else none

/-- The bytes end between two characters, after a line. -/
def EndsLogLine (first rest : List UInt8) : Prop :=
  (Utf8.decode first).2 = [] ∧ Text.EndsLine (Utf8.decode first).1 (Utf8.decode rest).1

instance (first rest : List UInt8) : Decidable (EndsLogLine first rest) :=
  inferInstanceAs (Decidable (_ ∧ _))

/-- Every pass that reads something, when there is more to come, ends after a
line. -/
def PassesEndLines : List (List UInt8) → Prop
  | [] => True
  | chunk :: later =>
      (chunk ≠ [] → later.flatten ≠ [] → EndsLogLine chunk later.flatten) ∧ PassesEndLines later

instance decidablePassesEndLines :
    (chunks : List (List UInt8)) → Decidable (PassesEndLines chunks)
  | [] => inferInstanceAs (Decidable True)
  | _ :: later =>
      have := decidablePassesEndLines later
      inferInstanceAs (Decidable (_ ∧ _))

/-! ## One pass -/

/-- A pass over whole characters yields their lines. -/
theorem iterate_encode (text : Text) : iterate (Utf8.encode text) = (Text.lines text, true) := by
  simp [iterate]

/-- A pass that ends inside a character ends the script. -/
theorem iterate_part (text : Text) {part : List UInt8} (started : part ≠ [])
    (stuck : Utf8.decodeFirst part = none) : (iterate (Utf8.encode text ++ part)).2 = false := by
  simp [iterate, Utf8.decode_encode_append text stuck, started]

/-- What the passes read does not depend on what was read before. -/
private theorem readPasses_from (file : List UInt8) (chunks : List (List UInt8)) :
    readPasses file file.length chunks = readPasses [] 0 chunks := by
  have anywhere : ∀ other : List UInt8,
      readPasses file file.length chunks = readPasses other other.length chunks := by
    induction chunks generalizing file with
    | nil => exact fun _ => rfl
    | cons chunk later inductionHypothesis =>
        intro other
        simp only [readPasses, List.drop_left]
        rw [inductionHypothesis (file ++ chunk) (other ++ chunk)]
  exact anywhere []

/-- A pass reads what was appended since the last one. -/
theorem readPasses_cons (chunk : List UInt8) (later : List (List UInt8)) :
    readPasses [] 0 (chunk :: later) =
      if (iterate chunk).2 then
        ((iterate chunk).1 ++ (readPasses [] 0 later).1, (readPasses [] 0 later).2)
      else iterate chunk := by
  rw [← readPasses_from chunk later]
  rfl

/-- The first pass, when it ends between two characters. -/
private theorem readPasses_encode_cons (before : Text) (later : List (List UInt8)) :
    readPasses [] 0 (Utf8.encode before :: later) =
      (Text.lines before ++ (readPasses [] 0 later).1, (readPasses [] 0 later).2) := by
  rw [readPasses_cons, iterate_encode]
  rfl

/-! ## All passes -/

/-- A cut between two characters that does not divide a line. -/
private def Parted (before after : Text) : Prop :=
  before ≠ [] → after ≠ [] → Text.EndsLine before after

private theorem endsLogLine_iff (before after : Text) :
    (Utf8.encode before ≠ [] → Utf8.encode after ≠ [] →
      EndsLogLine (Utf8.encode before) (Utf8.encode after)) ↔ Parted before after := by
  simp [EndsLogLine, Parted, Utf8.encode_eq_nil]

private theorem lines_of_parted {before after : Text} (parted : Parted before after) :
    Text.lines (before ++ after) = Text.lines before ++ Text.lines after := by
  by_cases started : before = []
  · subst started
    rfl
  · by_cases more : after = []
    · subst more
      simp
    · exact Text.lines_append (parted started more)

private theorem length_lines_of_not_parted {before after : Text}
    (divided : ¬ Parted before after) :
    (Text.lines before).length + (Text.lines after).length =
      (Text.lines (before ++ after)).length + 1 := by
  unfold Parted at divided
  push Not at divided
  exact Text.length_lines_append divided.1 divided.2.1 divided.2.2

private theorem length_lines_le (before after : Text) :
    (Text.lines (before ++ after)).length ≤
      (Text.lines before).length + (Text.lines after).length := by
  by_cases parted : Parted before after
  · rw [lines_of_parted parted, List.length_append]
  · have longer := length_lines_of_not_parted parted
    omega

/-- Passes that end after lines yield the lines of the log. -/
theorem readPasses_of_passesEndLines {log : Text} {chunks : List (List UInt8)}
    (written : chunks.flatten = Utf8.encode log) (ends : PassesEndLines chunks) :
    readPasses [] 0 chunks = (Text.lines log, true) := by
  induction chunks generalizing log with
  | nil =>
      obtain rfl : log = [] := Utf8.encode_eq_nil.mp written.symm
      rfl
  | cons chunk later inductionHypothesis =>
      obtain ⟨endsHere, endsLater⟩ := ends
      rcases Utf8.encode_cut written.symm with
        ⟨before, after, rfl, rfl, rest⟩ | ⟨before, part, rfl, started, unfinished, stuck⟩
      · rw [rest, endsLogLine_iff] at endsHere
        rw [readPasses_encode_cons, inductionHypothesis rest endsLater, lines_of_parted endsHere]
      · have whole := (endsHere (by simp [started]) unfinished).1
        rw [Utf8.decode_encode_append before stuck] at whole
        exact absurd whole started

/-- The passes never yield fewer lines than the log has, and as many only when
they end after lines. -/
theorem passesEndLines_of_length {log : Text} {chunks : List (List UInt8)}
    (written : chunks.flatten = Utf8.encode log)
    (finished : (readPasses [] 0 chunks).2 = true) :
    (Text.lines log).length ≤ (readPasses [] 0 chunks).1.length ∧
      ((readPasses [] 0 chunks).1.length = (Text.lines log).length → PassesEndLines chunks) := by
  induction chunks generalizing log with
  | nil =>
      obtain rfl : log = [] := Utf8.encode_eq_nil.mp written.symm
      exact ⟨Nat.le_refl _, fun _ => trivial⟩
  | cons chunk later inductionHypothesis =>
      rcases Utf8.encode_cut written.symm with
        ⟨before, after, rfl, rfl, rest⟩ | ⟨before, part, rfl, started, unfinished, stuck⟩
      · rw [readPasses_encode_cons] at finished ⊢
        obtain ⟨least, enough⟩ := inductionHypothesis rest finished
        have total := length_lines_le before after
        rw [List.length_append]
        refine ⟨by omega, fun same => ?_⟩
        have parted : Parted before after := by
          by_contra divided
          have longer := length_lines_of_not_parted divided
          omega
        rw [lines_of_parted parted, List.length_append] at same
        refine ⟨?_, enough (by omega)⟩
        rw [rest, endsLogLine_iff]
        exact parted
      · have ended := iterate_part before started stuck
        rw [readPasses_cons, ended] at finished
        exact absurd finished (by simp [ended])

/-- `main` hands over the lines of the whole log exactly when its passes end
after lines; the shared data is then what the log read in one pass gives. -/
theorem handed_iff_passesEndLines (settings : Settings) (log : Text)
    (chunks : List (List UInt8)) (written : chunks.flatten = Utf8.encode log) :
    (handed chunks = ((Text.lines log).map Text.strip, true) ↔ PassesEndLines chunks) ∧
      (PassesEndLines chunks → ∀ data,
        monitor settings chunks data = monitor settings [Utf8.encode log] data) := by
  refine ⟨⟨fun same => ?_, fun ends => ?_⟩, fun ends data => ?_⟩
  · obtain ⟨sameLines, finished⟩ := Prod.mk.inj same
    have sameLength := congrArg List.length sameLines
    rw [List.length_map, List.length_map] at sameLength
    exact (passesEndLines_of_length written finished).2 sameLength
  · rw [handed, readPasses_of_passesEndLines written ends]
  · have once : readPasses [] 0 [Utf8.encode log] = (Text.lines log, true) :=
      readPasses_of_passesEndLines (by simp) (by simp [PassesEndLines])
    rw [monitor, monitor, readPasses_of_passesEndLines written ends, once]

/-- Two lines, with the passes between them. -/
theorem handed_two_lines :
    (handed [Utf8.encode "a\n".toList, Utf8.encode "b\n".toList] =
        ((Text.lines "a\nb\n".toList).map Text.strip, true) ↔
      PassesEndLines [Utf8.encode "a\n".toList, Utf8.encode "b\n".toList]) ∧
    (PassesEndLines [Utf8.encode "a\n".toList, Utf8.encode "b\n".toList] → ∀ data,
      monitor Settings.shipped [Utf8.encode "a\n".toList, Utf8.encode "b\n".toList] data =
        monitor Settings.shipped [Utf8.encode "a\nb\n".toList] data) :=
  handed_iff_passesEndLines Settings.shipped "a\nb\n".toList _ (by decide)

/-! ## A pass that ends inside a word -/

/-- The beginning of a [NEW] line, as a flush may leave it. -/
def cutNewLine : Text := deviceLine newWord "AA:BB:CC:DD:EE:FF BLE ran".toList

/-- The rest of that line. -/
def cutNewLineRest : Text := "dom headset\n".toList

/-- The address type that `ble_bdaddrs` holds for the device of that line. -/
def typeOfCutLine (data : Data) : Option Text :=
  ((data.bdaddrs .ble).lookup "aa:bb:cc:dd:ee:ff".toList).map Prod.fst

/-- Cut inside the word `random`, the line gives the device the type `ran`. -/
theorem not_handed_of_cut_in_word :
    ¬ ∀ (settings : Settings) (log : Text) (chunks : List (List UInt8)),
      chunks.flatten = Utf8.encode log →
        handed chunks = ((Text.lines log).map Text.strip, true) ∧
          ∀ data, monitor settings chunks data = monitor settings [Utf8.encode log] data := by
  intro always
  have written : [Utf8.encode cutNewLine, Utf8.encode cutNewLineRest].flatten =
      Utf8.encode (cutNewLine ++ cutNewLineRest) := by
    rw [Utf8.encode_append]
    simp
  have same := (always Settings.shipped _ _ written).2 Data.empty
  have whole : (monitor Settings.shipped [Utf8.encode (cutNewLine ++ cutNewLineRest)]
      Data.empty).bind typeOfCutLine = some "random".toList := by decide
  have cut : (monitor Settings.shipped [Utf8.encode cutNewLine, Utf8.encode cutNewLineRest]
      Data.empty).bind typeOfCutLine = some "ran".toList := by decide
  rw [same, whole] at cut
  exact absurd cut (by decide)

end NaiveBTSniffing.Launcher
