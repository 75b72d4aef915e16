import Mathlib.Data.List.Forall2
import NaiveBTSniffing.Gps.LatLong

/-!
Contract: which lines of a log `gpspipe2mysql.py` prints a row for.

A line is the time of the host up to the first `": "` and a JSON report behind
it. It is a position when the report has the members `time`, `lat` and `lon`.
`numberedRows` is the importer's loop with each row numbered by the line that it
is printed for.

Owns when exactly the positions have rows, with the right values, and the loop
reaches the end of the log.
-/

namespace NaiveBTSniffing.Gps

open NaiveBTSniffing.Library

/-! ## Lines -/

/-- What stands before and behind the first `": "`. -/
def splitFirst : Text → Option (Text × Text)
  | [] => none
  | ':' :: ' ' :: rest => some ([], rest)
  | char :: rest => (splitFirst rest).map fun parts => (char :: parts.1, parts.2)

/-- The report has a time, a latitude and a longitude. -/
def IsPosition (report : Json) : Prop :=
  (report.get "time".toList).isSome ∧ (report.get "lat".toList).isSome ∧
    (report.get "lon".toList).isSome

/-- The report of a line. -/
def lineReport (line : Text) : Option Json :=
  (splitFirst line).bind fun parts => Json.loads parts.2

def HasPosition (line : Text) : Prop := ∃ report ∈ lineReport line, IsPosition report

instance : DecidablePred IsPosition := fun _ => inferInstanceAs (Decidable (_ ∧ _ ∧ _))

instance : DecidablePred HasPosition := fun line =>
  inferInstanceAs (Decidable (∃ report ∈ lineReport line, _))

/-- The time of the host without its leading `+`. -/
def withoutPlus : Text → Text
  | '+' :: rest => rest
  | host => host

/-- A point or the letter for the zone, which end the seconds of a time. -/
def endsSeconds (code : Nat) : Bool := code == '.'.toNat || code == 'Z'.toNat

/-- The time of a report up to the second, with a blank between date and time. -/
def ownTime (time : List Nat) : List Nat :=
  (time.takeWhile fun code => !endsSeconds code).map
    fun code => if code = 'T'.toNat then ' '.toNat else code

/-- The row has the times and the position of the line. -/
structure RowFor (line : Text) (row : Row) : Prop where
  host : ∃ parts, splitFirst line = some parts ∧ row.hosttime = withoutPlus parts.1
  report : ∃ report, lineReport line = some report ∧
    (∃ time, report.get "time".toList = some (.string time) ∧ row.gpstime = ownTime time.codes) ∧
    report.get "lat".toList = some row.lat ∧ report.get "lon".toList = some row.lon

/-! ## The loop -/

/-- The rows with the numbers of their lines, up to the first line that raises. -/
def numberedRows : Nat → List Text → List (Nat × Row)
  | _, [] => []
  | number, line :: rest =>
      if "lat".toList <:+: line then
        match lineRow line with
        | some row => (number, row) :: numberedRows (number + 1) rest
        | none => []
      else numberedRows (number + 1) rest

/-- The loop ends with an exception before the end of the log. -/
def stopsEarly : List Text → Bool
  | [] => false
  | line :: rest =>
      if "lat".toList <:+: line then
        match lineRow line with
        | some _ => stopsEarly rest
        | none => true
      else stopsEarly rest

/-- A line of the log and a printed row belong together. -/
def Belongs (line : Text × Nat) (row : Nat × Row) : Prop :=
  line.2 = row.1 ∧ RowFor line.1 row.2

/-- The lines with a position, each with its number. -/
def positionLines (first : Nat) (lines : List Text) : List (Text × Nat) :=
  (lines.zipIdx first).filter fun line => decide (HasPosition line.1)

/-- The rows are in order exactly one for each line with a position, and the loop
does not stop early. -/
structure PrintsPositions (log : Text) : Prop where
  rows : List.Forall₂ Belongs (positionLines 0 (Text.lines log))
    (numberedRows 1 ((Text.lines log).drop 1))
  completes : stopsEarly ((Text.lines log).drop 1) = false

/-! ## The condition -/

/-- The time is a string whose last five code points start with the point or the
letter after the seconds. -/
def EndsInFraction (report : Json) : Prop :=
  ∃ time, report.get "time".toList = some (.string time) ∧
    (time.codes.takeWhile fun code => !endsSeconds code).length = time.codes.length - 5

/-- The importer can use the line: its host time is empty or starts with `+`, its
report is a position whose time ends in a fraction of three digits and the zone, and
no further `": "` stands in it. -/
def Usable (line : Text) : Prop :=
  ∃ host payload report, splitFirst line = some (host, payload) ∧
    (host = [] ∨ host.head? = some '+') ∧ splitFirst payload = none ∧
    Json.loads payload = some report ∧ IsPosition report ∧ EndsInFraction report

/-- A line with the letters `lat` can be used, and no other line has a position. -/
def Handled (line : Text) : Prop :=
  ("lat".toList <:+: line → Usable line) ∧ (¬ "lat".toList <:+: line → ¬ HasPosition line)

/-! ## The rows -/

/-- The numbers aside, the loop is that of the importer. -/
theorem map_snd_numberedRows (number : Nat) (lines : List Text) :
    (numberedRows number lines).map Prod.snd = rowsOf lines := by
  induction lines generalizing number with
  | nil => rfl
  | cons line rest inductionHypothesis =>
      rw [numberedRows, rowsOf]
      split
      · cases lineRow line with
        | none => rfl
        | some row =>
            simp only
            rw [List.map_cons, inductionHypothesis]
      · exact inductionHypothesis (number + 1)

theorem splitColon_eq (line : Text) :
    splitColon line =
      match splitFirst line with
      | some parts => parts.1 :: splitColon parts.2
      | none => [line] := by
  fun_induction splitFirst line with
  | case1 => rfl
  | case2 rest => rfl
  | case3 char rest notSeparator inductionHypothesis =>
      rw [splitColon, inductionHypothesis]
      · cases splitFirst rest <;> rfl
      · exact notSeparator

theorem splitFirst_eq {line host payload : Text} (parts : splitFirst line = some (host, payload)) :
    line = host ++ ':' :: ' ' :: payload := by
  fun_induction splitFirst line generalizing host with
  | case1 => cases parts
  | case2 rest =>
      cases parts
      rfl
  | case3 char rest notSeparator inductionHypothesis =>
      obtain ⟨⟨front, behind⟩, found, same⟩ := Option.map_eq_some_iff.mp parts
      cases same
      rw [inductionHypothesis found, List.cons_append]

theorem splitColon_of_none {payload : Text} (none : splitFirst payload = none) :
    splitColon payload = [payload] := by
  rw [splitColon_eq, none]

/-- Dropping the first character drops a leading `+` when there is no other. -/
theorem drop_one_eq_iff (host : Text) :
    host.drop 1 = withoutPlus host ↔ host = [] ∨ host.head? = some '+' := by
  cases host with
  | nil => exact ⟨fun _ => .inl rfl, fun _ => rfl⟩
  | cons first rest =>
      by_cases plus : first = '+'
      · subst plus
        exact ⟨fun _ => .inr rfl, fun _ => rfl⟩
      · have kept : withoutPlus (first :: rest) = first :: rest := by
          rw [withoutPlus]
          intro other same
          exact plus (List.cons.inj same).1
        rw [kept]
        constructor
        · intro dropped
          exact absurd dropped.symm (List.cons_ne_self first rest)
        · intro either
          cases either with
          | inl empty => cases empty
          | inr head => exact absurd (Option.some.inj head) plus

/-- Five code points are dropped; they are what ends the seconds when as many stand
there. -/
theorem mysqlTime_eq_ownTime_iff (time : List Nat) :
    mysqlTime time = ownTime time ↔
      (time.takeWhile fun code => !endsSeconds code).length = time.length - 5 := by
  have written : mysqlTime time =
      (time.take (time.length - 5)).map
        fun code => if code = 'T'.toNat then ' '.toNat else code := by
    rw [mysqlTime, List.length_map, ← List.map_take]
  rw [written, ownTime]
  constructor
  · intro same
    have lengths := congrArg List.length same
    rw [List.length_map, List.length_map, List.length_take] at lengths
    omega
  · intro lengths
    rw [← lengths, ← List.prefix_iff_eq_take.mp (List.takeWhile_prefix _)]

theorem reportRow_eq_some_iff {hosttime : Text} {report : Json} {row : Row} :
    reportRow hosttime report = some row ↔
      ∃ time lat lon, report.get "time".toList = some (.string time) ∧
        report.get "lat".toList = some lat ∧ report.get "lon".toList = some lon ∧
        row = { hosttime, gpstime := mysqlTime time.codes, lat, lon } := by
  constructor
  · intro built
    simp only [reportRow, Option.bind_eq_bind, Option.bind_eq_some_iff] at built
    obtain ⟨value, isTime, built⟩ := built
    split at built
    · next time =>
        simp only [Option.bind_eq_some_iff] at built
        obtain ⟨lat, isLat, lon, isLon, same⟩ := built
        exact ⟨time, lat, lon, isTime, isLat, isLon, (Option.some.inj same).symm⟩
    · cases built
  · intro parts
    obtain ⟨time, lat, lon, isTime, isLat, isLon, same⟩ := parts
    simp only [reportRow, isTime, isLat, isLon, same]
    rfl

/-- A line can be used exactly when it has a position and its row is right. -/
theorem usable_iff (line : Text) :
    Usable line ↔ HasPosition line ∧ ∃ row, lineRow line = some row ∧ RowFor line row := by
  constructor
  · intro usable
    obtain ⟨host, payload, report, parts, plus, noMore, loaded, position, fraction⟩ := usable
    obtain ⟨time, isTime, fives⟩ := fraction
    obtain ⟨lat, isLat⟩ := Option.isSome_iff_exists.mp position.2.1
    obtain ⟨lon, isLon⟩ := Option.isSome_iff_exists.mp position.2.2
    have reported : lineReport line = some report := by
      rw [lineReport, parts]
      exact loaded
    have pieces : splitColon line = [host, payload] := by
      rw [splitColon_eq, parts]
      exact congrArg (List.cons host) (splitColon_of_none noMore)
    have built : reportRow (host.drop 1) report =
        some { hosttime := host.drop 1, gpstime := mysqlTime time.codes, lat, lon } :=
      reportRow_eq_some_iff.mpr ⟨time, lat, lon, isTime, isLat, isLon, rfl⟩
    have printed : lineRow line =
        some { hosttime := host.drop 1, gpstime := mysqlTime time.codes, lat, lon } := by
      rw [← built, lineRow, jsonPart, pieces]
      show (Json.loads payload >>= _) = _
      rw [loaded]
      rfl
    refine ⟨⟨report, reported, position⟩, _, printed, ?_, ?_⟩
    · exact ⟨_, parts, (drop_one_eq_iff host).mpr plus⟩
    · exact ⟨report, reported, ⟨time, isTime, (mysqlTime_eq_ownTime_iff _).mpr fives⟩, isLat, isLon⟩
  · intro right
    obtain ⟨⟨report, reported, position⟩, row, printed, rowFor⟩ := right
    obtain ⟨⟨host, payload⟩, parts, loaded⟩ := Option.bind_eq_some_iff.mp reported
    simp only [lineRow, Option.bind_eq_bind, Option.bind_eq_some_iff] at printed
    obtain ⟨part, isPart, data, loadedPart, built⟩ := printed
    have pieces : splitColon line = host :: splitColon payload := by
      rw [splitColon_eq, parts]
    have noMore : splitFirst payload = none := by
      cases more : splitFirst payload with
      | none => rfl
      | some others =>
          obtain ⟨front, behind⟩ := others
          have isFront : part = front := by
            rw [jsonPart, pieces, splitColon_eq payload, more] at isPart
            exact (Option.some.inj isPart).symm
          rw [isFront] at loadedPart
          rw [splitFirst_eq more, Json.loads_colon _ loadedPart] at loaded
          cases loaded
    have isPayload : part = payload := by
      rw [jsonPart, pieces, splitColon_of_none noMore] at isPart
      exact (Option.some.inj isPart).symm
    have sameReport : data = report := by
      rw [isPayload, loaded] at loadedPart
      exact (Option.some.inj loadedPart).symm
    rw [pieces, sameReport] at built
    obtain ⟨time, lat, lon, isTime, isLat, isLon, same⟩ := reportRow_eq_some_iff.mp built
    refine ⟨host, payload, report, parts, ?_, noMore, loaded, position, time, isTime, ?_⟩
    · obtain ⟨others, sameParts, hosttime⟩ := rowFor.host
      rw [parts] at sameParts
      cases sameParts
      rw [same] at hosttime
      exact (drop_one_eq_iff host).mp hosttime
    · obtain ⟨other, otherReported, ⟨ownOther, isOwn, gpstime⟩, _, _⟩ := rowFor.report
      rw [reported] at otherReported
      cases otherReported
      rw [isTime] at isOwn
      cases isOwn
      rw [same] at gpstime
      exact (mysqlTime_eq_ownTime_iff _).mp gpstime

/-! ## The log -/

theorem positionLines_cons (number : Nat) (line : Text) (rest : List Text) :
    (HasPosition line ∧
        positionLines number (line :: rest) = (line, number) :: positionLines (number + 1) rest) ∨
      ¬ HasPosition line ∧ positionLines number (line :: rest) = positionLines (number + 1) rest := by
  by_cases position : HasPosition line
  · exact .inl ⟨position, by simp [positionLines, List.zipIdx_cons, position]⟩
  · exact .inr ⟨position, by simp [positionLines, List.zipIdx_cons, position]⟩

theorem le_of_mem_positionLines {number : Nat} {lines : List Text} {line : Text × Nat}
    (member : line ∈ positionLines number lines) : number ≤ line.2 :=
  List.le_snd_of_mem_zipIdx (List.mem_of_mem_filter member)

theorem le_of_mem_numberedRows {number : Nat} {lines : List Text} {row : Nat × Row}
    (member : row ∈ numberedRows number lines) : number ≤ row.1 := by
  induction lines generalizing number with
  | nil => exact absurd member List.not_mem_nil
  | cons line rest inductionHypothesis =>
      rw [numberedRows] at member
      split at member
      · split at member
        · rw [List.mem_cons] at member
          cases member with
          | inl first =>
              rw [first]
          | inr later =>
              have further := inductionHypothesis later
              omega
        · exact absurd member List.not_mem_nil
      · have further := inductionHypothesis member
        omega

/-- A line with a position before all rows has none. -/
theorem not_forall₂_of_line_before {number : Nat} {line : Text} {lines : List (Text × Nat)}
    {rest : List Text} :
    ¬ List.Forall₂ Belongs ((line, number) :: lines) (numberedRows (number + 1) rest) := by
  intro rows
  cases printed : numberedRows (number + 1) rest with
  | nil =>
      rw [printed] at rows
      cases rows
  | cons row others =>
      rw [printed, List.forall₂_cons] at rows
      have later := le_of_mem_numberedRows (by rw [printed]; exact List.mem_cons_self)
      have same : number = row.1 := rows.1.1
      omega

/-- A row before all lines with a position belongs to none. -/
theorem not_forall₂_of_row_before {number : Nat} {row : Row} {rows : List (Nat × Row)}
    {rest : List Text} :
    ¬ List.Forall₂ Belongs (positionLines (number + 1) rest) ((number, row) :: rows) := by
  intro belong
  cases positions : positionLines (number + 1) rest with
  | nil =>
      rw [positions] at belong
      cases belong
  | cons line others =>
      rw [positions, List.forall₂_cons] at belong
      have later := le_of_mem_positionLines (by rw [positions]; exact List.mem_cons_self)
      have same : line.2 = number := belong.1.1
      omega

/-- The loop prints the rows of the lines that it looks at exactly when it handles
each of them. -/
theorem rows_iff_handled (number : Nat) (lines : List Text) :
    (List.Forall₂ Belongs (positionLines number lines) (numberedRows number lines) ∧
        stopsEarly lines = false) ↔
      ∀ line ∈ lines, Handled line := by
  induction lines generalizing number with
  | nil => simp [positionLines, numberedRows, stopsEarly]
  | cons line rest inductionHypothesis =>
      rw [List.forall_mem_cons, ← inductionHypothesis (number + 1), numberedRows, stopsEarly]
      by_cases lat : "lat".toList <:+: line
      · rw [if_pos lat, if_pos lat]
        have handled : Handled line ↔ Usable line :=
          ⟨fun both => both.1 lat, fun usable => ⟨fun _ => usable, fun other => absurd lat other⟩⟩
        rw [handled, usable_iff]
        cases printed : lineRow line with
        | none =>
            constructor
            · intro both
              cases both.2
            · intro both
              obtain ⟨⟨_, row, same, _⟩, _⟩ := both
              cases same
        | some row =>
            simp only
            cases positionLines_cons number line rest with
            | inl position =>
                rw [position.2, List.forall₂_cons, and_assoc]
                apply and_congr_left'
                constructor
                · intro belongs
                  exact ⟨position.1, row, rfl, belongs.2⟩
                · intro right
                  obtain ⟨_, other, same, rowFor⟩ := right
                  cases same
                  exact ⟨rfl, rowFor⟩
            | inr noPosition =>
                rw [noPosition.2]
                constructor
                · intro both
                  exact absurd both.1 not_forall₂_of_row_before
                · intro both
                  exact absurd both.1.1 noPosition.1
      · rw [if_neg lat, if_neg lat]
        have handled : Handled line ↔ ¬ HasPosition line :=
          ⟨fun both => both.2 lat, fun none => ⟨fun isLat => absurd isLat lat, fun _ => none⟩⟩
        rw [handled]
        cases positionLines_cons number line rest with
        | inl position =>
            rw [position.2]
            constructor
            · intro both
              exact absurd both.1 not_forall₂_of_line_before
            · intro both
              exact absurd position.1 both.1
        | inr noPosition =>
            rw [noPosition.2, and_iff_right noPosition.1]

/-- For every log: the positions have their rows and the loop reaches the end exactly
when the first line has no position and each further line is handled. -/
theorem printsPositions_iff_handled (log : Text) :
    PrintsPositions log ↔
      (∀ first ∈ (Text.lines log).head?, ¬ HasPosition first) ∧
        ∀ line ∈ (Text.lines log).drop 1, Handled line := by
  cases lines : Text.lines log with
  | nil =>
      constructor
      · intro _
        exact ⟨fun first member => by simp at member, fun line member => by simp at member⟩
      · intro _
        constructor
        · rw [lines]
          exact List.Forall₂.nil
        · rw [lines]
          rfl
  | cons first rest =>
      have unfolded : PrintsPositions log ↔
          List.Forall₂ Belongs (positionLines 0 (first :: rest)) (numberedRows 1 rest) ∧
            stopsEarly rest = false := by
        constructor
        · intro prints
          have rows := prints.rows
          have completes := prints.completes
          rw [lines] at rows completes
          exact ⟨rows, completes⟩
        · intro both
          constructor
          · rw [lines]
            exact both.1
          · rw [lines]
            exact both.2
      have firstOnly : (∀ line ∈ (first :: rest).head?, ¬ HasPosition line) ↔
          ¬ HasPosition first := by simp
      rw [unfolded, firstOnly, List.drop_one, List.tail_cons, ← rows_iff_handled 1]
      cases positionLines_cons 0 first rest with
      | inl position =>
          rw [position.2]
          constructor
          · intro both
            exact absurd both.1 not_forall₂_of_line_before
          · intro both
            exact absurd position.1 both.1
      | inr noPosition =>
          rw [noPosition.2, and_iff_right noPosition.1]

/-! ## A log of one line -/

/-- A log that starts with a position. -/
def onePosition : Text :=
  ("+2020-05-16 19:33:39: \x7b\"class\":\"TPV\",\"time\":\"2020-05-16T19:33:39.000Z\"," ++
    "\"lat\":39.06,\"lon\":-76.91\x7d\n").toList

theorem not_printsPositions_onePosition : ¬ ∀ log : Text, PrintsPositions log := by
  intro always
  have sameNumber := (always onePosition).rows.length_eq
  revert sameNumber
  decide +kernel

/-- As the second line the position has its row. -/
example : (numberedRows 1 ((Text.lines ("+x: 0\n".toList ++ onePosition)).drop 1)).map Prod.fst =
    [1] := by decide +kernel

end NaiveBTSniffing.Gps
