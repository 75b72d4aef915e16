import NaiveBTSniffing.Library.Json
import NaiveBTSniffing.Library.Lines

/-!
Contract: `gpspipe2mysql.py` and `delete_gps_files_lacking_lat_long.py` on the
same log.

The importer filters the lines of a log by a substring, takes what stands
between the first and the second `": "` as JSON and prints a row for each report
with a position; it ends with an exception at the first report it cannot use.
The other script deletes the logs in whose whole text `,"lat":` does not occur.

Owns: both scripts on a log, and that no deleted log of compact reports has a
row. The four values of a row are kept as the report has them; how `print`
formats them is left out.
-/

namespace NaiveBTSniffing.Gps

open NaiveBTSniffing.Library

/-! ## gpspipe2mysql.py -/

/-- `line.split(': ')`. -/
def splitColon : Text → List Text
  | [] => [[]]
  | ':' :: ' ' :: rest => [] :: splitColon rest
  | char :: rest => Text.startWith char (splitColon rest)

/-- What the importer prints for one report. -/
structure Row where
  hosttime : Text
  gpstime : List Nat
  lat : Json
  lon : Json

/-- `gpstime.replace("T"," ")[:-5]`. -/
def mysqlTime (time : List Nat) : List Nat :=
  let replaced := time.map fun code => if code = 'T'.toNat then ' '.toNat else code
  replaced.take (replaced.length - 5)

/-- The values of a report, or `none` where one is missing or `time` is not a
string: an exception. -/
def reportRow (hosttime : Text) (data : Json) : Option Row := do
  let .string time ← data.get "time".toList | none
  let lat ← data.get "lat".toList
  let lon ← data.get "lon".toList
  some { hosttime, gpstime := mysqlTime time.codes, lat, lon }

/-- The part of a line that is read as JSON: `stuff[1]`. -/
def jsonPart (line : Text) : Option Text := (splitColon line)[1]?

/-- The row of a line that passed the filter, or `none` where the script raises. -/
def lineRow (line : Text) : Option Row := do
  let part ← jsonPart line
  let data ← Json.loads part
  reportRow ((splitColon line).headD [] |>.drop 1) data

/-- The rows of the lines, up to the first one that raises. -/
def rowsOf : List Text → List Row
  | [] => []
  | line :: rest =>
      if "lat".toList <:+: line then
        match lineRow line with
        | some row => row :: rowsOf rest
        | none => []
      else rowsOf rest

/-- The rows that the importer prints for a log: the loop reads a new line before
it uses one, so the first line is never looked at. -/
def gpspipe2mysql (log : Text) : List Row := rowsOf ((Text.lines log).drop 1)

/-! ## delete_gps_files_lacking_lat_long.py -/

/-- An entry of the directory. -/
structure Entry where
  filename : Text
  isFile : Bool
  content : Text
deriving DecidableEq

/-- `os.path.isfile(file_path) and filename.endswith(".txt")`. -/
def Entry.isLog (entry : Entry) : Bool := entry.isFile && ".txt".toList.isSuffixOf entry.filename

/-- What the script looks for in a log. -/
def latMember : Text := ",\"lat\":".toList

/-- The script deletes the entry. -/
def Entry.deleted (entry : Entry) : Bool :=
  entry.isLog && !decide (latMember <:+: Text.translate entry.content)

/-- `main`: the entries that are left of a directory. -/
def deleteGpsFilesLackingLatLong (entries : List Entry) : List Entry :=
  entries.filter fun entry => !entry.deleted

/-! ## Reports -/

/-- The name of the first member of an object. -/
def firstName : Json → Option (List Nat)
  | .object ((first, _) :: _) => some first.codes
  | _ => none

/-- Where a member has this name, the name is written without escapes. -/
def WritesPlainly (name : Text) : Json → Prop
  | .object members => ∀ member ∈ members, member.1.codes = Json.codesOf name →
      member.1.written = name
  | _ => True

instance (name : Text) (report : Json) : Decidable (WritesPlainly name report) :=
  match report with
  | .object members => inferInstanceAs (Decidable (∀ member ∈ members, _ → _))
  | .null | .bool _ | .number _ | .string _ | .array _ => isTrue trivial

/-- Every JSON report of the log is compact and starts with the member `class`. -/
def CompactLog (log : Text) : Prop :=
  ∀ line ∈ Text.lines log, ∀ part ∈ jsonPart line, ∀ report ∈ Json.loads part,
    Json.Compact part ∧ firstName report = some (Json.codesOf "class".toList)

instance (log : Text) : Decidable (CompactLog log) :=
  inferInstanceAs (Decidable (∀ line ∈ Text.lines log, ∀ part ∈ jsonPart line,
    ∀ report ∈ Json.loads part, _ ∧ _))

/-- No report of the log writes the member name `lat` with escapes. -/
def PlainLog (log : Text) : Prop :=
  ∀ line ∈ Text.lines log, ∀ part ∈ jsonPart line, ∀ report ∈ Json.loads part,
    WritesPlainly "lat".toList report

instance (log : Text) : Decidable (PlainLog log) :=
  inferInstanceAs (Decidable (∀ line ∈ Text.lines log, ∀ part ∈ jsonPart line,
    ∀ report ∈ Json.loads part, _))

/-! ## No row is lost -/

/-- What `splitColon` yields stands in the line. -/
private theorem splitColon_inside (line : Text) :
    ∃ first others, splitColon line = first :: others ∧ first <+: line ∧
      ∀ other ∈ others, other <:+: line := by
  fun_induction splitColon line with
  | case1 => exact ⟨[], [], rfl, List.prefix_refl _, by simp⟩
  | case2 rest inductionHypothesis =>
      obtain ⟨first, others, pieces, front, inside⟩ := inductionHypothesis
      refine ⟨[], splitColon rest, rfl, List.nil_prefix, ?_⟩
      intro other member
      rw [pieces] at member
      have within : other <:+: rest := by
        rcases List.mem_cons.mp member with rfl | later
        · exact front.isInfix
        · exact inside other later
      exact within.trans ((List.suffix_cons _ _).trans (List.suffix_cons _ _)).isInfix
  | case3 char rest _ inductionHypothesis =>
      obtain ⟨first, others, pieces, front, inside⟩ := inductionHypothesis
      refine ⟨char :: first, others, ?_, List.cons_prefix_cons.mpr ⟨rfl, front⟩, ?_⟩
      · rw [pieces]
        rfl
      · intro other member
        exact (inside other member).trans (List.suffix_cons _ _).isInfix

private theorem jsonPart_inside {line part : Text} (found : jsonPart line = some part) :
    part <:+: line := by
  obtain ⟨first, others, pieces, _, inside⟩ := splitColon_inside line
  rw [jsonPart, pieces] at found
  exact inside part (List.mem_of_getElem? found)

private theorem lat_of_reportRow {hosttime : Text} {report : Json} {row : Row}
    (built : reportRow hosttime report = some row) :
    ∃ lat, report.get "lat".toList = some lat := by
  simp only [reportRow, Option.bind_eq_bind, Option.bind_eq_some_iff] at built
  obtain ⟨time, _, remaining⟩ := built
  split at remaining
  · obtain ⟨lat, found, _⟩ := Option.bind_eq_some_iff.mp remaining
    exact ⟨lat, found⟩
  · exact absurd remaining (by simp)

/-- A row comes from a line whose report has a member `lat`. -/
private theorem report_of_row {lines : List Text} {row : Row} (member : row ∈ rowsOf lines) :
    ∃ line ∈ lines, ∃ part report lat, jsonPart line = some part ∧
      Json.loads part = some report ∧ report.get "lat".toList = some lat := by
  induction lines with
  | nil => exact absurd member List.not_mem_nil
  | cons line rest inductionHypothesis =>
      have later : row ∈ rowsOf rest → ∃ line' ∈ line :: rest, ∃ part report lat,
          jsonPart line' = some part ∧ Json.loads part = some report ∧
            report.get "lat".toList = some lat := by
        intro member
        obtain ⟨other, isLater, found⟩ := inductionHypothesis member
        exact ⟨other, List.mem_cons_of_mem _ isLater, found⟩
      rw [rowsOf] at member
      split at member
      · split at member
        · next printed here =>
            rcases List.mem_cons.mp member with rfl | isLater
            · simp only [lineRow, Option.bind_eq_bind, Option.bind_eq_some_iff] at here
              obtain ⟨part, isPart, report, loaded, built⟩ := here
              obtain ⟨lat, found⟩ := lat_of_reportRow built
              exact ⟨line, List.mem_cons_self, part, report, lat, isPart, loaded, found⟩
            · exact later isLater
        · exact absurd member List.not_mem_nil
      · exact later member

/-- A compact report that starts with `class` writes a plain `lat` after a comma. -/
private theorem latMember_of_report {part : Text} {report lat : Json}
    (compact : Json.Compact part) (loaded : Json.loads part = some report)
    (starts : firstName report = some (Json.codesOf "class".toList))
    (plain : WritesPlainly "lat".toList report) (found : report.get "lat".toList = some lat) :
    latMember <:+: part := by
  have whole : Json.read id part = some report := by
    obtain ⟨value, readValue⟩ := Option.isSome_iff_exists.mp compact
    rw [readValue, ← loaded, Json.loads_of_compact readValue]
  cases report with
  | object members =>
      obtain ⟨member, isLat, _⟩ := Option.map_eq_some_iff.mp found
      have named : member.1.codes = Json.codesOf "lat".toList := by
        simpa using List.find?_some isLat
      have inside : member ∈ members := by
        simpa using List.mem_of_find?_eq_some isLat
      have written := plain member inside named
      have later : member ∈ members.tail := by
        cases members with
        | nil => exact absurd inside List.not_mem_nil
        | cons first rest =>
            rcases List.mem_cons.mp inside with rfl | isLater
            · have same : Json.codesOf "lat".toList = Json.codesOf "class".toList :=
                named.symm.trans (Option.some.inj starts)
              exact absurd same (by decide)
            · exact isLater
      have placed := Json.writes_name whole member later
      rwa [Json.writesName, written] at placed
  | _ => exact absurd starts (by simp [firstName])

/-- A deleted log of compact reports that write `lat` plainly has no row. -/
theorem no_rows_of_deleted (entries : List Entry) {entry : Entry} (listed : entry ∈ entries)
    (compact : CompactLog entry.content) (plain : PlainLog entry.content)
    (gone : entry ∉ deleteGpsFilesLackingLatLong entries) :
    gpspipe2mysql entry.content = [] := by
  have deleted : entry.deleted = true := by
    by_contra kept
    exact gone (List.mem_filter.mpr ⟨listed, by simpa using kept⟩)
  have lacks : ¬ latMember <:+: Text.translate entry.content := by
    have both := (Bool.and_eq_true _ _).mp deleted
    simpa using both.2
  apply List.eq_nil_iff_forall_not_mem.mpr
  intro row member
  obtain ⟨line, isLine, part, report, lat, isPart, loaded, found⟩ := report_of_row member
  have ofLog : line ∈ Text.lines entry.content := List.mem_of_mem_drop isLine
  obtain ⟨tight, starts⟩ := compact line ofLog part isPart report loaded
  have inPart := latMember_of_report tight loaded starts
    (plain line ofLog part isPart report loaded) found
  exact lacks (inPart.trans ((jsonPart_inside isPart).trans (Text.infix_of_mem_lines ofLog)))

private def stamped (report : String) : Text :=
  "+2020-05-16 19:33:39: ".toList ++ report.toList ++ ['\n']

/-- A log whose second report has no position. -/
private def withoutPosition : Entry where
  filename := "a.txt".toList
  isFile := true
  content := stamped "\x7b\"class\":\"VERSION\"\x7d" ++
    stamped "\x7b\"class\":\"SKY\",\"time\":\"2020-05-16T19:33:39.000Z\"\x7d"

theorem no_rows_of_deleted_sky : gpspipe2mysql withoutPosition.content = [] :=
  no_rows_of_deleted [withoutPosition] (by decide) (by decide +kernel) (by decide +kernel)
    (by decide +kernel)

/-- A log whose second report has a position, the name `lat` written with an
escape. -/
private def withEscape : Entry where
  filename := "a.txt".toList
  isFile := true
  content := stamped "\x7b\"class\":\"VERSION\"\x7d" ++
    stamped ("\x7b\"class\":\"lat\",\"time\":\"2020-05-16T19:33:39.000Z\"," ++
      "\"l\\u0061t\":39.06,\"lon\":-76.91\x7d")

/-- The log with the escape is deleted, and the importer has a row for it. -/
theorem row_of_deleted : ¬ ∀ (entries : List Entry), ∀ entry ∈ entries,
    CompactLog entry.content → entry ∉ deleteGpsFilesLackingLatLong entries →
    gpspipe2mysql entry.content = [] := by
  intro lost
  have none := lost [withEscape] withEscape List.mem_cons_self (by decide +kernel)
    (by decide +kernel)
  have printed : (gpspipe2mysql withEscape.content).length = 1 := by decide +kernel
  rw [none] at printed
  exact absurd printed (by decide)

end NaiveBTSniffing.Gps
