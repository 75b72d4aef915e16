import Mathlib.Data.List.Find
import NaiveBTSniffing.Library.Text

/-!
Contract: reading a JSON text, as Python's `json.loads` does.

The reader takes the function that skips white space between two tokens:
`skipSpace` gives the reader of the language, the identity the reader of compact
texts, in which tokens follow each other directly. A string and a number keep
how they were written beside what they mean. Neither the digits of a number nor the
depth of nesting has a limit here, as they have in CPython.

Owns: the reader, that its answer does not depend on its fuel
(`scanValue_fuel`), and where the names of an object stand in a compact text
(`writes_name`). Does not own the printing of values. Names no program.
-/

namespace NaiveBTSniffing.Library

/-- A string of a JSON text: the characters between its quotes, and the code
points that it means. -/
structure JsonString where
  written : Text
  codes : List Nat
deriving DecidableEq, Repr

inductive Json where
  | null
  | bool (value : Bool)
  | number (written : Text)
  | string (text : JsonString)
  | array (items : List Json)
  | object (members : List (JsonString × Json))

namespace Json

/-- The code points of a text. -/
def codesOf (text : Text) : List Nat := text.map Char.toNat

/-! ## Strings -/

/-- What a character stands for after a backslash. -/
def escapeCode : Char → Option Nat
  | '"' => some 0x22
  | '\\' => some 0x5c
  | '/' => some 0x2f
  | 'b' => some 0x8
  | 'f' => some 0xc
  | 'n' => some 0xa
  | 'r' => some 0xd
  | 't' => some 0x9
  | _ => none

/-- The value of an ASCII hexadecimal digit. -/
def hexCode (char : Char) : Option Nat :=
  if '0' ≤ char ∧ char ≤ '9' then some (char.toNat - '0'.toNat)
  else if 'a' ≤ char ∧ char ≤ 'f' then some (char.toNat - 'a'.toNat + 10)
  else if 'A' ≤ char ∧ char ≤ 'F' then some (char.toNat - 'A'.toNat + 10)
  else none

/-- The code unit that four digits after `\u` stand for. -/
def unitCode (first second third fourth : Char) : Option Nat := do
  some (((← hexCode first) * 16 + (← hexCode second)) * 256 +
    (← hexCode third) * 16 + (← hexCode fourth))

/-- A surrogate pair is one code point; a surrogate on its own stays. -/
def mergeSurrogates : List Nat → List Nat
  | [] => []
  | [code] => [code]
  | high :: low :: rest =>
      if 0xd800 ≤ high ∧ high ≤ 0xdbff ∧ 0xdc00 ≤ low ∧ low ≤ 0xdfff then
        (0x10000 + (high - 0xd800) * 0x400 + (low - 0xdc00)) :: mergeSurrogates rest
      else high :: mergeSurrogates (low :: rest)

/-- The characters up to the closing quote, their code units, and what follows
the quote. -/
def scanUnits : Text → Option (JsonString × Text)
  | [] => none
  | '"' :: after => some (⟨[], []⟩, after)
  | '\\' :: 'u' :: first :: second :: third :: fourth :: rest => do
      let code ← unitCode first second third fourth
      let (text, after) ← scanUnits rest
      some (⟨'\\' :: 'u' :: first :: second :: third :: fourth :: text.written,
        code :: text.codes⟩, after)
  | '\\' :: char :: rest => do
      let code ← escapeCode char
      let (text, after) ← scanUnits rest
      some (⟨'\\' :: char :: text.written, code :: text.codes⟩, after)
  | char :: rest =>
      if char.toNat < 0x20 then none
      else do
        let (text, after) ← scanUnits rest
        some (⟨char :: text.written, char.toNat :: text.codes⟩, after)

/-- A string, its opening quote taken. -/
def scanString (text : Text) : Option (JsonString × Text) :=
  (scanUnits text).map fun scanned =>
    (⟨scanned.1.written, mergeSurrogates scanned.1.codes⟩, scanned.2)

/-! ## Numbers -/

def isDigit (char : Char) : Bool := '0' ≤ char && char ≤ '9'

/-- At least one digit. -/
def scanDigits (text : Text) : Option (Text × Text) :=
  if text.takeWhile isDigit = [] then none
  else some (text.takeWhile isDigit, text.dropWhile isDigit)

/-- The digits before the point: a single zero, or no zero in front. -/
def scanInteger : Text → Option (Text × Text)
  | '0' :: rest => some (['0'], rest)
  | text => scanDigits text

/-- The point and the digits after it, if both are there. -/
def scanFraction : Text → Text × Text
  | '.' :: rest =>
      match scanDigits rest with
      | some (digits, after) => ('.' :: digits, after)
      | none => ([], '.' :: rest)
  | text => ([], text)

/-- Digits with a sign in front or not. -/
def scanSigned : Text → Option (Text × Text)
  | '+' :: rest => (scanDigits rest).map fun scanned => ('+' :: scanned.1, scanned.2)
  | '-' :: rest => (scanDigits rest).map fun scanned => ('-' :: scanned.1, scanned.2)
  | text => scanDigits text

/-- The exponent, if it is complete. -/
def scanExponent : Text → Text × Text
  | [] => ([], [])
  | char :: rest =>
      if char = 'e' ∨ char = 'E' then
        match scanSigned rest with
        | some (digits, after) => (char :: digits, after)
        | none => ([], char :: rest)
      else ([], char :: rest)

def scanUnsigned (text : Text) : Option (Text × Text) :=
  (scanInteger text).map fun scanned =>
    (scanned.1 ++ (scanFraction scanned.2).1 ++ (scanExponent (scanFraction scanned.2).2).1,
      (scanExponent (scanFraction scanned.2).2).2)

def scanNumber : Text → Option (Text × Text)
  | '-' :: rest => (scanUnsigned rest).map fun scanned => ('-' :: scanned.1, scanned.2)
  | text => scanUnsigned text

/-- The words that stand for values; Python reads the last three, too. -/
def words : List (Text × Json) :=
  [("null".toList, .null), ("true".toList, .bool true), ("false".toList, .bool false),
    ("NaN".toList, .number "NaN".toList), ("Infinity".toList, .number "Infinity".toList),
    ("-Infinity".toList, .number "-Infinity".toList)]

/-- A word or a number. -/
def scanPlain (text : Text) : Option (Json × Text) :=
  match words.find? fun word => word.1.isPrefixOf text with
  | some word => some (word.2, text.drop word.1.length)
  | none => (scanNumber text).map fun scanned => (.number scanned.1, scanned.2)

/-! ## Values -/

/-- The white space of JSON. -/
def skipSpace (text : Text) : Text :=
  text.dropWhile fun char => " \t\n\r".toList.contains char

mutual

/-- A value and what follows it. -/
def scanValue (skip : Text → Text) : Nat → Text → Option (Json × Text)
  | 0, _ => none
  | _ + 1, [] => none
  | fuel + 1, char :: rest =>
      if char = '"' then (scanString rest).map fun scanned => (.string scanned.1, scanned.2)
      else if char = '{' then
        match skip rest with
        | '}' :: after => some (.object [], after)
        | '"' :: name =>
            (scanMembers skip fuel name).map fun scanned => (.object scanned.1, scanned.2)
        | _ => none
      else if char = '[' then
        match skip rest with
        | ']' :: after => some (.array [], after)
        | items => (scanItems skip fuel items).map fun scanned => (.array scanned.1, scanned.2)
      else scanPlain (char :: rest)

/-- The members of an object, the opening quote of the first name taken. -/
def scanMembers (skip : Text → Text) :
    Nat → Text → Option (List (JsonString × Json) × Text)
  | 0, _ => none
  | fuel + 1, text =>
      (scanString text).bind fun name =>
        match skip name.2 with
        | ':' :: value =>
            (scanValue skip fuel (skip value)).bind fun value =>
              match skip value.2 with
              | '}' :: after => some ([(name.1, value.1)], after)
              | ',' :: more =>
                  match skip more with
                  | '"' :: next =>
                      (scanMembers skip fuel next).map fun scanned =>
                        ((name.1, value.1) :: scanned.1, scanned.2)
                  | _ => none
              | _ => none
        | _ => none

/-- The items of an array. -/
def scanItems (skip : Text → Text) : Nat → Text → Option (List Json × Text)
  | 0, _ => none
  | fuel + 1, text =>
      (scanValue skip fuel text).bind fun value =>
        match skip value.2 with
        | ']' :: after => some ([value.1], after)
        | ',' :: more =>
            (scanItems skip fuel (skip more)).map fun scanned =>
              (value.1 :: scanned.1, scanned.2)
        | _ => none

end

/-- The value of a whole text: white space may stand before and after it. -/
def read (skip : Text → Text) (text : Text) : Option Json :=
  (scanValue skip (2 * text.length + 1) (skip text)).bind fun scanned =>
    if skipSpace scanned.2 = [] then some scanned.1 else none

/-- `json.loads`, or `none` where it raises. -/
def loads (text : Text) : Option Json := read skipSpace text

/-- `value[name]` of an object: of equal names the last one counts. -/
def get (name : Text) : Json → Option Json
  | .object members =>
      (members.reverse.find? fun member => member.1.codes == codesOf name).map Prod.snd
  | _ => none

/-! ## What a reader consumes -/

/-- `after` is what is left of `text` when at least one character was taken. -/
def Rest (after text : Text) : Prop := ∃ taken, taken ≠ [] ∧ text = taken ++ after

theorem Rest.suffix {after text : Text} (rest : Rest after text) : after <:+ text := by
  obtain ⟨taken, _, same⟩ := rest
  exact ⟨taken, same.symm⟩

theorem Rest.length_lt {after text : Text} (rest : Rest after text) :
    after.length < text.length := by
  obtain ⟨taken, some, rfl⟩ := rest
  have := List.length_pos_of_ne_nil some
  simp only [List.length_append]
  omega

theorem Rest.of_cons {after text : Text} (suffix : after <:+ text) (char : Char) :
    Rest after (char :: text) := by
  obtain ⟨taken, rfl⟩ := suffix
  exact ⟨char :: taken, List.cons_ne_nil _ _, rfl⟩

theorem Rest.trans_suffix {after between text : Text} (rest : Rest after between)
    (suffix : between <:+ text) : Rest after text := by
  obtain ⟨taken, some, rfl⟩ := rest
  obtain ⟨front, rfl⟩ := suffix
  exact ⟨front ++ taken, by simp [some], by simp⟩

theorem Rest.of_suffix {after between text : Text} (rest : Rest between text)
    (suffix : after <:+ between) : Rest after text := by
  obtain ⟨taken, some, rfl⟩ := rest
  obtain ⟨more, rfl⟩ := suffix
  exact ⟨taken ++ more, by simp [some], by simp⟩

theorem scanUnits_eq {text after : Text} {string : JsonString}
    (scanned : scanUnits text = some (string, after)) :
    text = string.written ++ '"' :: after := by
  fun_induction scanUnits text generalizing string with
  | case1 => simp at scanned
  | case2 rest =>
      obtain ⟨rfl, rfl⟩ := Prod.ext_iff.mp (Option.some.inj scanned)
      rfl
  | case3 first second third fourth rest inductionHypothesis =>
      simp only [Option.bind_eq_bind, Option.bind_eq_some_iff] at scanned
      obtain ⟨code, _, ⟨tail, final⟩, scannedRest, same⟩ := scanned
      obtain ⟨rfl, rfl⟩ := Prod.ext_iff.mp (Option.some.inj same)
      rw [inductionHypothesis scannedRest]
      rfl
  | case4 char rest _ inductionHypothesis =>
      simp only [Option.bind_eq_bind, Option.bind_eq_some_iff] at scanned
      obtain ⟨code, _, ⟨tail, final⟩, scannedRest, same⟩ := scanned
      obtain ⟨rfl, rfl⟩ := Prod.ext_iff.mp (Option.some.inj same)
      rw [inductionHypothesis scannedRest]
      rfl
  | case5 char rest _ _ _ control => simp at scanned
  | case6 char rest _ _ _ _ inductionHypothesis =>
      simp only [Option.bind_eq_bind, Option.bind_eq_some_iff] at scanned
      obtain ⟨⟨tail, final⟩, scannedRest, same⟩ := scanned
      obtain ⟨rfl, rfl⟩ := Prod.ext_iff.mp (Option.some.inj same)
      rw [inductionHypothesis scannedRest]
      rfl

theorem scanString_eq {text after : Text} {string : JsonString}
    (scanned : scanString text = some (string, after)) :
    text = string.written ++ '"' :: after := by
  obtain ⟨⟨units, rest⟩, scannedUnits, same⟩ := Option.map_eq_some_iff.mp scanned
  obtain ⟨rfl, rfl⟩ := Prod.ext_iff.mp same
  have whole := scanUnits_eq scannedUnits
  exact whole

theorem scanDigits_rest {text digits after : Text}
    (scanned : scanDigits text = some (digits, after)) : Rest after text := by
  rw [scanDigits] at scanned
  split at scanned
  · exact absurd scanned (by simp)
  · next some =>
      obtain ⟨rfl, rfl⟩ := Prod.ext_iff.mp (Option.some.inj scanned)
      exact ⟨_, some, List.takeWhile_append_dropWhile.symm⟩

theorem scanFraction_suffix (text : Text) : (scanFraction text).2 <:+ text := by
  rw [scanFraction.eq_def]
  split
  · next rest =>
      split
      · next digits after scanned =>
          exact (scanDigits_rest scanned).suffix.trans (List.suffix_cons _ _)
      · exact List.suffix_refl _
  · exact List.suffix_refl _

theorem scanSigned_rest {text digits after : Text}
    (scanned : scanSigned text = some (digits, after)) : Rest after text := by
  rw [scanSigned.eq_def] at scanned
  split at scanned
  · obtain ⟨⟨_, _⟩, scannedDigits, same⟩ := Option.map_eq_some_iff.mp scanned
    obtain ⟨rfl, rfl⟩ := Prod.ext_iff.mp same
    exact (scanDigits_rest scannedDigits).trans_suffix (List.suffix_cons _ _)
  · obtain ⟨⟨_, _⟩, scannedDigits, same⟩ := Option.map_eq_some_iff.mp scanned
    obtain ⟨rfl, rfl⟩ := Prod.ext_iff.mp same
    exact (scanDigits_rest scannedDigits).trans_suffix (List.suffix_cons _ _)
  · exact scanDigits_rest scanned

theorem scanExponent_suffix (text : Text) : (scanExponent text).2 <:+ text := by
  cases text with
  | nil => exact List.suffix_refl _
  | cons char rest =>
      rw [scanExponent]
      split
      · split
        · next digits after scanned =>
            exact (scanSigned_rest scanned).suffix.trans (List.suffix_cons _ _)
        · exact List.suffix_refl _
      · exact List.suffix_refl _

theorem scanUnsigned_rest {text digits after : Text}
    (scanned : scanUnsigned text = some (digits, after)) : Rest after text := by
  obtain ⟨⟨whole, remaining⟩, scannedInteger, same⟩ := Option.map_eq_some_iff.mp scanned
  obtain ⟨_, rfl⟩ := Prod.ext_iff.mp same
  have integer : Rest remaining text := by
    rw [scanInteger.eq_def] at scannedInteger
    split at scannedInteger
    · obtain ⟨rfl, rfl⟩ := Prod.ext_iff.mp (Option.some.inj scannedInteger)
      exact Rest.of_cons (List.suffix_refl _) _
    · exact scanDigits_rest scannedInteger
  exact integer.of_suffix ((scanExponent_suffix _).trans (scanFraction_suffix remaining))

theorem scanNumber_rest {text digits after : Text}
    (scanned : scanNumber text = some (digits, after)) : Rest after text := by
  rw [scanNumber.eq_def] at scanned
  split at scanned
  · obtain ⟨⟨_, _⟩, scannedUnsigned, same⟩ := Option.map_eq_some_iff.mp scanned
    obtain ⟨rfl, rfl⟩ := Prod.ext_iff.mp same
    exact (scanUnsigned_rest scannedUnsigned).trans_suffix (List.suffix_cons _ _)
  · exact scanUnsigned_rest scanned

theorem scanPlain_rest {text after : Text} {value : Json}
    (scanned : scanPlain text = some (value, after)) : Rest after text := by
  rw [scanPlain] at scanned
  split at scanned
  · next word found =>
      obtain ⟨rfl, rfl⟩ := Prod.ext_iff.mp (Option.some.inj scanned)
      have starts : word.1 <+: text := by
        simpa using List.find?_some found
      have some : word.1 ≠ [] := by
        have all : ∀ other ∈ words, other.1 ≠ [] := by simp [words]
        exact all word (List.mem_of_find?_eq_some found)
      obtain ⟨rest, rfl⟩ := starts
      exact ⟨word.1, some, by simp⟩
  · obtain ⟨⟨_, _⟩, scannedNumber, same⟩ := Option.map_eq_some_iff.mp scanned
    obtain ⟨_, rfl⟩ := Prod.ext_iff.mp same
    exact scanNumber_rest scannedNumber

section Values

variable {skip : Text → Text} {fuel : Nat} {text after : Text}

/-- What the reader of members has read. -/
theorem scanMembers_cases {members : List (JsonString × Json)}
    (scanned : scanMembers skip (fuel + 1) text = some (members, after)) :
    ∃ name rest written value remaining, scanString text = some (name, rest) ∧
      skip rest = ':' :: written ∧ scanValue skip fuel (skip written) = some (value, remaining) ∧
      ((members = [(name, value)] ∧ skip remaining = '}' :: after) ∨
        ∃ more next others, skip remaining = ',' :: more ∧ skip more = '"' :: next ∧
          scanMembers skip fuel next = some (others, after) ∧
          members = (name, value) :: others) := by
  rw [scanMembers] at scanned
  obtain ⟨⟨name, rest⟩, scannedName, scanned⟩ := Option.bind_eq_some_iff.mp scanned
  split at scanned
  · next written colon =>
      obtain ⟨⟨value, remaining⟩, scannedValue, scanned⟩ := Option.bind_eq_some_iff.mp scanned
      refine ⟨name, rest, written, value, remaining, scannedName, colon, scannedValue, ?_⟩
      split at scanned
      · next final brace =>
          obtain ⟨rfl, rfl⟩ := Prod.ext_iff.mp (Option.some.inj scanned)
          exact .inl ⟨rfl, brace⟩
      · next more comma =>
          split at scanned
          · next next quote =>
              obtain ⟨⟨others, final⟩, scannedOthers, same⟩ := Option.map_eq_some_iff.mp scanned
              obtain ⟨rfl, rfl⟩ := Prod.ext_iff.mp same
              exact .inr ⟨more, next, others, comma, quote, scannedOthers, rfl⟩
          · exact absurd scanned (by simp)
      · exact absurd scanned (by simp)
  · exact absurd scanned (by simp)

/-- What the reader of items has read. -/
theorem scanItems_cases {items : List Json}
    (scanned : scanItems skip (fuel + 1) text = some (items, after)) :
    ∃ value remaining, scanValue skip fuel text = some (value, remaining) ∧
      (skip remaining = ']' :: after ∨ ∃ more others, skip remaining = ',' :: more ∧
        scanItems skip fuel (skip more) = some (others, after)) := by
  rw [scanItems] at scanned
  obtain ⟨⟨value, remaining⟩, scannedValue, scanned⟩ := Option.bind_eq_some_iff.mp scanned
  refine ⟨value, remaining, scannedValue, ?_⟩
  split at scanned
  · next final bracket =>
      obtain ⟨_, rfl⟩ := Prod.ext_iff.mp (Option.some.inj scanned)
      exact .inl bracket
  · next more comma =>
      obtain ⟨⟨others, final⟩, scannedOthers, same⟩ := Option.map_eq_some_iff.mp scanned
      obtain ⟨_, rfl⟩ := Prod.ext_iff.mp same
      exact .inr ⟨more, others, comma, scannedOthers⟩
  · exact absurd scanned (by simp)

theorem scanString_rest {string : JsonString}
    (scanned : scanString text = some (string, after)) : Rest after text := by
  rw [scanString_eq scanned]
  exact ⟨string.written ++ ['"'], by simp, by simp⟩

variable (skips : ∀ text, skip text <:+ text)

include skips

/-- A reader that has skipped to a character leaves less than the text. -/
private theorem rest_of_skip {between : Text} {char : Char} (skipped : skip text = char :: between)
    (suffix : after <:+ between) : Rest after text :=
  (Rest.of_cons suffix char).trans_suffix (skipped ▸ skips text)

/-- The three readers with the same fuel consume what they read. -/
private theorem scan_rest (fuel : Nat) :
    (∀ {text value after}, scanValue skip fuel text = some (value, after) → Rest after text) ∧
    (∀ {text members after}, scanMembers skip fuel text = some (members, after) →
      Rest after text) ∧
    (∀ {text items after}, scanItems skip fuel text = some (items, after) → Rest after text) := by
  induction fuel with
  | zero => simp [scanValue, scanMembers, scanItems]
  | succ fuel inductionHypothesis =>
      obtain ⟨valueRest, membersRest, itemsRest⟩ := inductionHypothesis
      refine ⟨?_, ?_, ?_⟩
      · intro text value after scanned
        cases text with
        | nil => simp [scanValue] at scanned
        | cons char rest =>
            rw [scanValue] at scanned
            split at scanned
            · obtain ⟨⟨string, final⟩, scannedString, same⟩ := Option.map_eq_some_iff.mp scanned
              obtain ⟨_, rfl⟩ := Prod.ext_iff.mp same
              exact Rest.of_cons (scanString_rest scannedString).suffix char
            · split at scanned
              · split at scanned
                · next final skipped =>
                    obtain ⟨_, rfl⟩ := Prod.ext_iff.mp (Option.some.inj scanned)
                    apply Rest.of_cons
                    exact (rest_of_skip skips skipped (List.suffix_refl _)).suffix
                · next name skipped =>
                    obtain ⟨⟨members, final⟩, scannedMembers, same⟩ :=
                      Option.map_eq_some_iff.mp scanned
                    obtain ⟨_, rfl⟩ := Prod.ext_iff.mp same
                    apply Rest.of_cons
                    exact (rest_of_skip skips skipped (membersRest scannedMembers).suffix).suffix
                · exact absurd scanned (by simp)
              · split at scanned
                · split at scanned
                  · next final skipped =>
                      obtain ⟨_, rfl⟩ := Prod.ext_iff.mp (Option.some.inj scanned)
                      apply Rest.of_cons
                      exact (rest_of_skip skips skipped (List.suffix_refl _)).suffix
                  · obtain ⟨⟨items, final⟩, scannedItems, same⟩ :=
                      Option.map_eq_some_iff.mp scanned
                    obtain ⟨_, rfl⟩ := Prod.ext_iff.mp same
                    apply Rest.of_cons
                    exact (itemsRest scannedItems).suffix.trans (skips rest)
                · exact scanPlain_rest scanned
      · intro text members after scanned
        obtain ⟨name, rest, written, value, remaining, scannedName, colon, scannedValue, ends⟩ :=
          scanMembers_cases scanned
        have valueLeft : Rest remaining rest :=
          rest_of_skip skips colon ((valueRest scannedValue).suffix.trans (skips written))
        have left : after <:+ remaining := by
          rcases ends with ⟨_, brace⟩ | ⟨more, next, others, comma, quote, scannedOthers, _⟩
          · exact (rest_of_skip skips brace (List.suffix_refl _)).suffix
          · have moreLeft := rest_of_skip skips quote (membersRest scannedOthers).suffix
            exact (rest_of_skip skips comma moreLeft.suffix).suffix
        exact (scanString_rest scannedName).of_suffix (left.trans valueLeft.suffix)
      · intro text items after scanned
        obtain ⟨value, remaining, scannedValue, ends⟩ := scanItems_cases scanned
        apply (valueRest scannedValue).of_suffix
        rcases ends with bracket | ⟨more, others, comma, scannedOthers⟩
        · exact (rest_of_skip skips bracket (List.suffix_refl _)).suffix
        · have moreLeft := (itemsRest scannedOthers).suffix.trans (skips more)
          exact (rest_of_skip skips comma moreLeft).suffix

theorem scanValue_rest {value : Json} (scanned : scanValue skip fuel text = some (value, after)) :
    Rest after text :=
  (scan_rest skips fuel).1 scanned

/-- One more unit of fuel changes nothing where there is more fuel than text. -/
private theorem scan_more_fuel (fuel : Nat) :
    (∀ {text : Text}, 2 * text.length < fuel →
      scanValue skip fuel text = scanValue skip (fuel + 1) text) ∧
    (∀ {text : Text}, 2 * text.length < fuel →
      scanMembers skip fuel text = scanMembers skip (fuel + 1) text) ∧
    (∀ {text : Text}, 2 * text.length + 1 < fuel →
      scanItems skip fuel text = scanItems skip (fuel + 1) text) := by
  induction fuel with
  | zero => simp
  | succ fuel inductionHypothesis =>
      obtain ⟨moreValue, moreMembers, moreItems⟩ := inductionHypothesis
      refine ⟨?_, ?_, ?_⟩
      · intro text short
        cases text with
        | nil => simp [scanValue]
        | cons char rest =>
            rw [List.length_cons] at short
            rw [scanValue, scanValue]
            split
            · rfl
            · split
              · split
                · rfl
                · next name skipped =>
                    have := (rest_of_skip skips skipped (List.suffix_refl _)).length_lt
                    rw [moreMembers (by omega)]
                · rfl
              · split
                · split
                  · rfl
                  · have := (skips rest).length_le
                    rw [moreItems (by omega)]
                · rfl
      · intro text short
        rw [scanMembers, scanMembers]
        apply Option.bind_congr
        intro ⟨name, rest⟩ scannedName
        have nameLeft := (scanString_rest scannedName).length_lt
        dsimp only
        split
        · next written colon =>
            have writtenLeft := (rest_of_skip skips colon (List.suffix_refl _)).length_lt
            have := (skips written).length_le
            rw [← moreValue (by omega)]
            apply Option.bind_congr
            intro ⟨value, remaining⟩ scannedValue
            have valueLeft := (scanValue_rest skips scannedValue).length_lt
            dsimp only
            split
            · rfl
            · next more comma =>
                have moreLeft := (rest_of_skip skips comma (List.suffix_refl _)).length_lt
                split
                · next next quote =>
                    have := (rest_of_skip skips quote (List.suffix_refl _)).length_lt
                    rw [moreMembers (by omega)]
                · rfl
            · rfl
        · rfl
      · intro text short
        rw [scanItems, scanItems, ← moreValue (by omega)]
        apply Option.bind_congr
        intro ⟨value, remaining⟩ scannedValue
        have valueLeft := (scanValue_rest skips scannedValue).length_lt
        dsimp only
        split
        · rfl
        · next more comma =>
            have moreLeft := (rest_of_skip skips comma (List.suffix_refl _)).length_lt
            have := (skips more).length_le
            rw [moreItems (by omega)]
        · rfl

/-- The answer of the reader does not depend on its fuel. -/
theorem scanValue_fuel (enough : 2 * text.length < fuel) :
    scanValue skip fuel text = scanValue skip (2 * text.length + 1) text := by
  induction fuel with
  | zero => omega
  | succ fuel inductionHypothesis =>
      by_cases least : fuel = 2 * text.length
      · rw [least]
      · have sooner : 2 * text.length < fuel := by omega
        rw [← inductionHypothesis sooner, (scan_more_fuel skips fuel).1 sooner]

end Values

/-! ## Names in a compact text -/

/-- How a compact text writes a name of an object and the colon after it. -/
def writesName (name : JsonString) : Text := '"' :: (name.written ++ ['"', ':'])

variable {fuel : Nat} {text after : Text} {members : List (JsonString × Json)}

/-- The first name stands at the front, its opening quote taken, and every later
one after a comma. -/
private theorem names_written
    (scanned : scanMembers id fuel text = some (members, after)) :
    (∀ member, members.head? = some member → writesName member.1 <+: '"' :: text) ∧
      ∀ member ∈ members.tail, ',' :: writesName member.1 <:+: text := by
  induction fuel generalizing text members with
  | zero => simp [scanMembers] at scanned
  | succ fuel inductionHypothesis =>
      obtain ⟨name, rest, written, value, remaining, scannedName, colon, scannedValue, ends⟩ :=
        scanMembers_cases scanned
      have front : text = name.written ++ '"' :: ':' :: written := by
        rw [scanString_eq scannedName]
        exact congrArg (fun after => name.written ++ '"' :: after) colon
      have head : writesName name <+: '"' :: text := by
        rw [front]
        exact ⟨written, by simp [writesName]⟩
      rcases ends with ⟨rfl, _⟩ | ⟨more, next, others, comma, quote, scannedOthers, rfl⟩
      · constructor
        · intro member first
          obtain rfl : (name, value) = member := Option.some.inj first
          exact head
        · intro member impossible
          exact absurd impossible List.not_mem_nil
      · obtain ⟨first, later⟩ := inductionHypothesis scannedOthers
        -- The comma and the opening quote stand directly before the other names.
        have inside : ',' :: '"' :: next <:+ text := by
          have left : remaining <:+ text := by
            rw [front]
            apply (scanValue_rest (fun text => List.suffix_refl text) scannedValue).suffix.trans
            exact ⟨name.written ++ ['"', ':'], by simp⟩
          rwa [show remaining = ',' :: '"' :: next by
            rw [show remaining = ',' :: more from comma, show more = '"' :: next from quote]] at left
        constructor
        · intro member isFirst
          obtain rfl : (name, value) = member := Option.some.inj isFirst
          exact head
        · intro member isLater
          rw [List.tail_cons] at isLater
          cases others with
          | nil => exact absurd isLater List.not_mem_nil
          | cons other rest =>
              rcases List.mem_cons.mp isLater with rfl | deeper
              · have starts := first member rfl
                apply List.IsInfix.trans _ inside.isInfix
                exact (List.cons_prefix_cons.mpr ⟨rfl, starts⟩).isInfix
              · apply (later member deeper).trans
                exact ((List.suffix_cons _ _).trans ((List.suffix_cons _ _).trans inside)).isInfix

private theorem scanPlain_ne_object (text : Text) :
    scanPlain text ≠ some (.object members, after) := by
  intro scanned
  rw [scanPlain] at scanned
  split at scanned
  · next word found =>
      have none : ∀ other ∈ words, ∀ members, other.2 ≠ .object members := by simp [words]
      apply none word (List.mem_of_find?_eq_some found) members
      exact (Prod.ext_iff.mp (Option.some.inj scanned)).1
  · obtain ⟨_, _, same⟩ := Option.map_eq_some_iff.mp scanned
    exact absurd (Prod.ext_iff.mp same).1 (by simp)

/-- In a compact object every name but the first stands between a comma and a
colon. -/
theorem writes_name (compact : read id text = some (.object members)) :
    ∀ member ∈ members.tail, ',' :: writesName member.1 <:+: text := by
  intro member isLater
  obtain ⟨⟨value, left⟩, scanned, ends⟩ := Option.bind_eq_some_iff.mp compact
  have same : value = .object members := by
    split at ends
    · exact Option.some.inj ends
    · exact absurd ends (by simp)
  subst same
  cases text with
  | nil => simp [scanValue] at scanned
  | cons char rest =>
      rw [id, scanValue] at scanned
      split at scanned
      · obtain ⟨_, _, same⟩ := Option.map_eq_some_iff.mp scanned
        exact absurd (Prod.ext_iff.mp same).1 (by simp)
      · split at scanned
        · split at scanned
          · obtain ⟨same, _⟩ := Prod.ext_iff.mp (Option.some.inj scanned)
            obtain rfl : [] = members := Json.object.inj same
            exact absurd isLater List.not_mem_nil
          · next name quote =>
              obtain ⟨⟨found, final⟩, scannedMembers, same⟩ := Option.map_eq_some_iff.mp scanned
              obtain rfl : found = members := Json.object.inj (Prod.ext_iff.mp same).1
              apply ((names_written scannedMembers).2 member isLater).trans
              have inside : rest = '"' :: name := quote
              rw [inside]
              exact ((List.suffix_cons _ _).trans (List.suffix_cons _ _)).isInfix
          · exact absurd scanned (by simp)
        · split at scanned
          · split at scanned
            · obtain ⟨same, _⟩ := Prod.ext_iff.mp (Option.some.inj scanned)
              exact absurd same (by simp)
            · obtain ⟨_, _, same⟩ := Option.map_eq_some_iff.mp scanned
              exact absurd (Prod.ext_iff.mp same).1 (by simp)
          · exact absurd scanned (scanPlain_ne_object _)

/-! ## Compact texts -/

/-- The text can be read without skipping white space between its tokens. -/
def Compact (text : Text) : Prop := (read id text).isSome = true

instance (text : Text) : Decidable (Compact text) :=
  inferInstanceAs (Decidable (_ = true))

/-- White space of JSON. -/
private def isBlank (char : Char) : Bool := " \t\n\r".toList.contains char

private theorem skipSpace_token {char : Char} {rest : Text} (token : isBlank char = false) :
    skipSpace (char :: rest) = char :: rest :=
  List.dropWhile_cons_of_neg (by rw [← isBlank, token]; simp)

private theorem skipSpace_of_token {char : Char} {text rest : Text}
    (same : id text = char :: rest) (token : isBlank char = false) :
    skipSpace text = char :: rest := by
  rw [show text = char :: rest from same, skipSpace_token token]

private theorem blank_cases {char : Char} (blank : isBlank char = true) :
    char = ' ' ∨ char = '\t' ∨ char = '\n' ∨ char = '\r' := by
  simpa [isBlank] using blank

private theorem scanPlain_blank {char : Char} (blank : isBlank char = true) (rest : Text) :
    scanPlain (char :: rest) = none := by
  rcases blank_cases blank with rfl | rfl | rfl | rfl <;>
    simp [scanPlain, words, scanNumber, scanUnsigned, scanInteger, scanDigits, isDigit]

/-- No value starts with white space. -/
private theorem skipSpace_of_scanValue {skip : Text → Text} {value : Json}
    (scanned : scanValue skip fuel text = some (value, after)) : skipSpace text = text := by
  cases fuel with
  | zero => simp [scanValue] at scanned
  | succ fuel =>
      cases text with
      | nil => rfl
      | cons char rest =>
          apply skipSpace_token
          by_contra notToken
          have blank : isBlank char = true := by simpa using notToken
          rw [scanValue, scanPlain_blank blank] at scanned
          rcases blank_cases blank with rfl | rfl | rfl | rfl <;> simp at scanned

private theorem scanMembers_last {skip : Text → Text} {name : JsonString} {value : Json}
    {rest written remaining : Text} (scannedName : scanString text = some (name, rest))
    (colon : skip rest = ':' :: written)
    (scannedValue : scanValue skip fuel (skip written) = some (value, remaining))
    (brace : skip remaining = '}' :: after) :
    scanMembers skip (fuel + 1) text = some ([(name, value)], after) := by
  simp [scanMembers, scannedName, colon, scannedValue, brace]

private theorem scanMembers_more {skip : Text → Text} {name : JsonString} {value : Json}
    {rest written remaining more next : Text} (scannedName : scanString text = some (name, rest))
    (colon : skip rest = ':' :: written)
    (scannedValue : scanValue skip fuel (skip written) = some (value, remaining))
    (comma : skip remaining = ',' :: more) (quote : skip more = '"' :: next)
    (others : scanMembers skip fuel next = some (members, after)) :
    scanMembers skip (fuel + 1) text = some ((name, value) :: members, after) := by
  simp [scanMembers, scannedName, colon, scannedValue, comma, quote, others]

private theorem skipSpace_of_scanItems {skip : Text → Text} {items : List Json}
    (scanned : scanItems skip fuel text = some (items, after)) : skipSpace text = text := by
  cases fuel with
  | zero => simp [scanItems] at scanned
  | succ fuel =>
      obtain ⟨value, remaining, scannedValue, _⟩ := scanItems_cases scanned
      exact skipSpace_of_scanValue scannedValue

/-- What is read without skipping white space is read so with skipping it. -/
private theorem scan_spaced (fuel : Nat) :
    (∀ {text value after}, scanValue id fuel text = some (value, after) →
      scanValue skipSpace fuel text = some (value, after)) ∧
    (∀ {text members after}, scanMembers id fuel text = some (members, after) →
      scanMembers skipSpace fuel text = some (members, after)) ∧
    (∀ {text items after}, scanItems id fuel text = some (items, after) →
      scanItems skipSpace fuel text = some (items, after)) := by
  induction fuel with
  | zero => simp [scanValue, scanMembers, scanItems]
  | succ fuel inductionHypothesis =>
      obtain ⟨spacedValue, spacedMembers, spacedItems⟩ := inductionHypothesis
      refine ⟨?_, ?_, ?_⟩
      · intro text value after scanned
        cases text with
        | nil => simp [scanValue] at scanned
        | cons char rest =>
            rw [scanValue] at scanned ⊢
            split
            · next quote => rwa [if_pos quote] at scanned
            · next noQuote =>
                rw [if_neg noQuote] at scanned
                split
                · next brace =>
                    rw [if_pos brace] at scanned
                    split at scanned
                    · next final closed =>
                        rw [skipSpace_of_token closed (by decide)]
                        exact scanned
                    · next name opened =>
                        obtain ⟨found, scannedMembers, same⟩ := Option.map_eq_some_iff.mp scanned
                        rw [skipSpace_of_token opened (by decide)]
                        exact Option.map_eq_some_iff.mpr ⟨found, spacedMembers scannedMembers, same⟩
                    · exact absurd scanned (by simp)
                · next noBrace =>
                    rw [if_neg noBrace] at scanned
                    split
                    · next bracket =>
                        rw [if_pos bracket] at scanned
                        split at scanned
                        · next final closed =>
                            rw [skipSpace_of_token closed (by decide)]
                            exact scanned
                        · next notClosed =>
                            obtain ⟨found, scannedItems, same⟩ :=
                              Option.map_eq_some_iff.mp scanned
                            have plain : skipSpace rest = rest :=
                              skipSpace_of_scanItems scannedItems
                            rw [plain]
                            split
                            · next final => exact absurd rfl (notClosed final)
                            · exact Option.map_eq_some_iff.mpr
                                ⟨found, spacedItems scannedItems, same⟩
                    · next noBracket => rwa [if_neg noBracket] at scanned
      · intro text members after scanned
        obtain ⟨name, rest, written, value, remaining, scannedName, colon, scannedValue, ends⟩ :=
          scanMembers_cases scanned
        have spaced : scanValue skipSpace fuel (skipSpace written) = some (value, remaining) := by
          have plain : skipSpace written = written := skipSpace_of_scanValue scannedValue
          rw [plain]
          exact spacedValue scannedValue
        rcases ends with ⟨rfl, brace⟩ | ⟨more, next, others, comma, quote, scannedOthers, rfl⟩
        · exact scanMembers_last scannedName (skipSpace_of_token colon (by decide)) spaced
            (skipSpace_of_token brace (by decide))
        · exact scanMembers_more scannedName (skipSpace_of_token colon (by decide)) spaced
            (skipSpace_of_token comma (by decide)) (skipSpace_of_token quote (by decide))
            (spacedMembers scannedOthers)
      · intro text items after scanned
        rw [scanItems] at scanned ⊢
        obtain ⟨⟨value, remaining⟩, scannedValue, scanned⟩ := Option.bind_eq_some_iff.mp scanned
        rw [spacedValue scannedValue, Option.bind_some]
        dsimp only at scanned ⊢
        split at scanned
        · next final closed =>
            rw [skipSpace_of_token closed (by decide)]
            exact scanned
        · next more comma =>
            obtain ⟨found, scannedItems, same⟩ := Option.map_eq_some_iff.mp scanned
            rw [skipSpace_of_token comma (by decide)]
            have plain : skipSpace more = more := skipSpace_of_scanItems scannedItems
            rw [← plain] at scannedItems
            exact Option.map_eq_some_iff.mpr ⟨found, spacedItems scannedItems, same⟩
        · exact absurd scanned (by simp)

/-- A compact text means the same to the reader that skips white space. -/
theorem loads_of_compact {value : Json} (compact : read id text = some value) :
    loads text = some value := by
  obtain ⟨scanned, isScanned, ends⟩ := Option.bind_eq_some_iff.mp compact
  apply Option.bind_eq_some_iff.mpr
  refine ⟨scanned, ?_, ends⟩
  have plain : skipSpace text = text := skipSpace_of_scanValue isScanned
  rw [plain]
  exact (scan_spaced _).1 isScanned

/-! ## Texts with a colon behind them -/

section Behind

variable (rest : Text)

private theorem takeWhile_colon {kind : Char → Bool} (stops : kind ':' = false) (text : Text) :
    (text ++ ':' :: rest).takeWhile kind = text.takeWhile kind := by
  rw [List.takeWhile_append]
  split
  · next whole =>
      rw [List.takeWhile_cons_of_neg (by simp [stops]), List.append_nil]
      exact ((List.takeWhile_prefix kind).eq_of_length whole).symm
  · rfl

private theorem dropWhile_colon {kind : Char → Bool} (stops : kind ':' = false) (text : Text) :
    (text ++ ':' :: rest).dropWhile kind = text.dropWhile kind ++ ':' :: rest := by
  rw [List.dropWhile_append]
  split
  · next none =>
      rw [List.dropWhile_cons_of_neg (by simp [stops]), List.isEmpty_iff.mp none, List.nil_append]
  · rfl

private theorem skipSpace_colon (text : Text) :
    skipSpace (text ++ ':' :: rest) = skipSpace text ++ ':' :: rest :=
  dropWhile_colon rest (by decide) text

private theorem scanDigits_colon (text : Text) :
    scanDigits (text ++ ':' :: rest) =
      (scanDigits text).map fun scanned => (scanned.1, scanned.2 ++ ':' :: rest) := by
  rw [scanDigits, scanDigits, takeWhile_colon rest (by decide), dropWhile_colon rest (by decide)]
  split <;> rfl

private theorem scanInteger_colon (text : Text) :
    scanInteger (text ++ ':' :: rest) =
      (scanInteger text).map fun scanned => (scanned.1, scanned.2 ++ ':' :: rest) := by
  rw [scanInteger.eq_def text]
  split
  · rfl
  · next notZero =>
      rw [← scanDigits_colon]
      cases text with
      | nil => rfl
      | cons char more =>
          rw [List.cons_append, scanInteger]
          intro after same
          exact notZero more (by rw [(List.cons.inj same).1])

private theorem scanFraction_colon (text : Text) :
    scanFraction (text ++ ':' :: rest) =
      ((scanFraction text).1, (scanFraction text).2 ++ ':' :: rest) := by
  rw [scanFraction.eq_def text]
  split
  · next digits =>
      rw [List.cons_append, scanFraction, scanDigits_colon]
      cases scanDigits digits <;> rfl
  · next noPoint =>
      cases text with
      | nil => rfl
      | cons char more =>
          rw [List.cons_append, scanFraction]
          intro after same
          exact noPoint more (by rw [(List.cons.inj same).1])

private theorem scanSigned_colon (text : Text) :
    scanSigned (text ++ ':' :: rest) =
      (scanSigned text).map fun scanned => (scanned.1, scanned.2 ++ ':' :: rest) := by
  rw [scanSigned.eq_def text]
  split
  · next digits =>
      rw [List.cons_append, scanSigned, scanDigits_colon, Option.map_map, Option.map_map]
      rfl
  · next digits =>
      rw [List.cons_append, scanSigned, scanDigits_colon, Option.map_map, Option.map_map]
      rfl
  · next noPlus noMinus =>
      rw [← scanDigits_colon]
      cases text with
      | nil => rfl
      | cons char more =>
          rw [List.cons_append, scanSigned]
          · intro after same
            exact noPlus more (by rw [(List.cons.inj same).1])
          · intro after same
            exact noMinus more (by rw [(List.cons.inj same).1])

private theorem scanExponent_colon (text : Text) :
    scanExponent (text ++ ':' :: rest) =
      ((scanExponent text).1, (scanExponent text).2 ++ ':' :: rest) := by
  cases text with
  | nil =>
      show scanExponent (':' :: rest) = ([], ':' :: rest)
      rw [scanExponent, if_neg (by decide)]
  | cons char more =>
      rw [List.cons_append, scanExponent, scanExponent, scanSigned_colon]
      split
      · cases scanSigned more <;> rfl
      · rfl

private theorem scanUnsigned_colon (text : Text) :
    scanUnsigned (text ++ ':' :: rest) =
      (scanUnsigned text).map fun scanned => (scanned.1, scanned.2 ++ ':' :: rest) := by
  rw [scanUnsigned, scanUnsigned, scanInteger_colon, Option.map_map, Option.map_map]
  apply congrArg (fun change => (scanInteger text).map change)
  funext scanned
  simp only [Function.comp_apply, scanFraction_colon, scanExponent_colon]

private theorem scanNumber_colon (text : Text) :
    scanNumber (text ++ ':' :: rest) =
      (scanNumber text).map fun scanned => (scanned.1, scanned.2 ++ ':' :: rest) := by
  rw [scanNumber.eq_def text]
  split
  · next digits =>
      rw [List.cons_append, scanNumber, scanUnsigned_colon, Option.map_map, Option.map_map]
      rfl
  · next noMinus =>
      rw [← scanUnsigned_colon]
      cases text with
      | nil => rfl
      | cons char more =>
          rw [List.cons_append, scanNumber]
          intro after same
          exact noMinus more (by rw [(List.cons.inj same).1])

private theorem isPrefixOf_colon {word : Text} (noColon : ':' ∉ word) (text : Text) :
    word.isPrefixOf (text ++ ':' :: rest) = word.isPrefixOf text := by
  induction word generalizing text with
  | nil => rfl
  | cons char word inductionHypothesis =>
      rw [List.mem_cons, not_or] at noColon
      cases text with
      | nil => simp [List.isPrefixOf, Ne.symm noColon.1]
      | cons first more =>
          rw [List.cons_append, List.isPrefixOf, List.isPrefixOf, inductionHypothesis noColon.2]

private theorem scanPlain_colon (text : Text) :
    scanPlain (text ++ ':' :: rest) =
      (scanPlain text).map fun scanned => (scanned.1, scanned.2 ++ ':' :: rest) := by
  have same : words.find? (fun word => word.1.isPrefixOf (text ++ ':' :: rest)) =
      words.find? fun word => word.1.isPrefixOf text := by
    have noColon : ∀ word ∈ words, ':' ∉ word.1 := by simp [words]
    exact List.find?_congr fun word member => isPrefixOf_colon rest (noColon word member) text
  unfold scanPlain
  rw [same]
  split
  · next word found =>
      have starts : word.1 <+: text := by
        simpa using List.find?_some found
      rw [List.drop_append_of_le_length starts.length_le]
      rfl
  · rw [scanNumber_colon, Option.map_map, Option.map_map]
    rfl

private theorem scanUnits_append {text after : Text} {string : JsonString}
    (scanned : scanUnits text = some (string, after)) :
    scanUnits (text ++ rest) = some (string, after ++ rest) := by
  fun_induction scanUnits text generalizing string with
  | case1 => simp at scanned
  | case2 more =>
      obtain ⟨rfl, rfl⟩ := Prod.ext_iff.mp (Option.some.inj scanned)
      rfl
  | case3 first second third fourth more inductionHypothesis =>
      simp only [Option.bind_eq_bind, Option.bind_eq_some_iff] at scanned
      obtain ⟨code, read, ⟨tail, final⟩, scannedRest, same⟩ := scanned
      obtain ⟨rfl, rfl⟩ := Prod.ext_iff.mp (Option.some.inj same)
      simp [scanUnits, read, inductionHypothesis scannedRest]
  | case4 char more _ inductionHypothesis =>
      simp only [Option.bind_eq_bind, Option.bind_eq_some_iff] at scanned
      obtain ⟨code, read, ⟨tail, final⟩, scannedRest, same⟩ := scanned
      obtain ⟨rfl, rfl⟩ := Prod.ext_iff.mp (Option.some.inj same)
      rw [List.cons_append, List.cons_append, scanUnits]
      · simp [read, inductionHypothesis scannedRest]
      · intro first second third fourth later isU
        rw [isU] at read
        cases read
  | case5 char more _ _ _ control => simp at scanned
  | case6 char more noQuote noUnit noEscape printable inductionHypothesis =>
      simp only [Option.bind_eq_bind, Option.bind_eq_some_iff] at scanned
      obtain ⟨⟨tail, final⟩, scannedRest, same⟩ := scanned
      obtain ⟨rfl, rfl⟩ := Prod.ext_iff.mp (Option.some.inj same)
      have noBackslash : char ≠ '\\' := by
        intro backslash
        cases more with
        | nil => simp [scanUnits] at scannedRest
        | cons next later => exact noEscape next later backslash rfl
      rw [List.cons_append, scanUnits]
      · simp [printable, inductionHypothesis scannedRest]
      · exact noQuote
      · intro first second third fourth later backslash
        exact absurd backslash noBackslash
      · intro next later backslash
        exact absurd backslash noBackslash

private theorem scanString_append {text after : Text} {string : JsonString}
    (scanned : scanString text = some (string, after)) :
    scanString (text ++ rest) = some (string, after ++ rest) := by
  obtain ⟨⟨units, final⟩, scannedUnits, same⟩ := Option.map_eq_some_iff.mp scanned
  obtain ⟨rfl, rfl⟩ := Prod.ext_iff.mp same
  rw [scanString, scanUnits_append rest scannedUnits]
  rfl

/-- A reader that has skipped to a character skips to it with the colon behind, too. -/
private theorem skipSpace_cons_colon {text after : Text} {char : Char}
    (skipped : skipSpace text = char :: after) :
    skipSpace (text ++ ':' :: rest) = char :: (after ++ ':' :: rest) := by
  rw [skipSpace_colon, skipped, List.cons_append]

/-- What is read of a text is read of it with a colon behind it. -/
private theorem scan_colon (fuel : Nat) :
    (∀ {text value after}, scanValue skipSpace fuel text = some (value, after) →
      scanValue skipSpace fuel (text ++ ':' :: rest) = some (value, after ++ ':' :: rest)) ∧
    (∀ {text members after}, scanMembers skipSpace fuel text = some (members, after) →
      scanMembers skipSpace fuel (text ++ ':' :: rest) = some (members, after ++ ':' :: rest)) ∧
    (∀ {text items after}, scanItems skipSpace fuel text = some (items, after) →
      scanItems skipSpace fuel (text ++ ':' :: rest) = some (items, after ++ ':' :: rest)) := by
  induction fuel with
  | zero => simp [scanValue, scanMembers, scanItems]
  | succ fuel inductionHypothesis =>
      obtain ⟨valueColon, membersColon, itemsColon⟩ := inductionHypothesis
      refine ⟨?_, ?_, ?_⟩
      · intro text value after scanned
        cases text with
        | nil => simp [scanValue] at scanned
        | cons char more =>
            rw [List.cons_append]
            rw [scanValue] at scanned ⊢
            split
            · next quote =>
                rw [if_pos quote] at scanned
                obtain ⟨⟨string, final⟩, scannedString, same⟩ := Option.map_eq_some_iff.mp scanned
                obtain ⟨rfl, rfl⟩ := Prod.ext_iff.mp same
                rw [scanString_append _ scannedString]
                rfl
            · next noQuote =>
                rw [if_neg noQuote] at scanned
                split
                · next brace =>
                    rw [if_pos brace] at scanned
                    split at scanned
                    · next final closed =>
                        obtain ⟨rfl, rfl⟩ := Prod.ext_iff.mp (Option.some.inj scanned)
                        rw [skipSpace_cons_colon rest closed]
                        rfl
                    · next name opened =>
                        obtain ⟨⟨members, final⟩, scannedMembers, same⟩ :=
                          Option.map_eq_some_iff.mp scanned
                        obtain ⟨rfl, rfl⟩ := Prod.ext_iff.mp same
                        rw [skipSpace_cons_colon rest opened]
                        simp only [membersColon scannedMembers, Option.map_some]
                    · exact absurd scanned (by simp)
                · next noBrace =>
                    rw [if_neg noBrace] at scanned
                    split
                    · next bracket =>
                        rw [if_pos bracket] at scanned
                        split at scanned
                        · next final closed =>
                            obtain ⟨rfl, rfl⟩ := Prod.ext_iff.mp (Option.some.inj scanned)
                            rw [skipSpace_cons_colon rest closed]
                            rfl
                        · next notClosed =>
                            obtain ⟨⟨items, final⟩, scannedItems, same⟩ :=
                              Option.map_eq_some_iff.mp scanned
                            obtain ⟨rfl, rfl⟩ := Prod.ext_iff.mp same
                            have further := itemsColon scannedItems
                            rw [← skipSpace_colon] at further
                            split
                            · next final closed =>
                                rw [skipSpace_colon] at closed
                                cases opened : skipSpace more with
                                | nil =>
                                    rw [opened] at closed
                                    exact absurd (List.cons.inj closed).1 (by decide)
                                | cons first others =>
                                    rw [opened] at closed
                                    have bracketFirst := (List.cons.inj closed).1
                                    exact absurd opened (by rw [bracketFirst]; exact notClosed _)
                            · simp only [further, Option.map_some]
                    · next noBracket =>
                        rw [if_neg noBracket] at scanned
                        rw [← List.cons_append, scanPlain_colon, scanned]
                        rfl
      · intro text members after scanned
        obtain ⟨name, remaining, written, value, left, scannedName, colon, scannedValue, ends⟩ :=
          scanMembers_cases scanned
        have nameColon := scanString_append (':' :: rest) scannedName
        have valueRead := valueColon scannedValue
        rw [← skipSpace_colon] at valueRead
        rcases ends with ⟨rfl, brace⟩ | ⟨more, next, others, comma, quote, scannedOthers, rfl⟩
        · exact scanMembers_last nameColon (skipSpace_cons_colon rest colon) valueRead
            (skipSpace_cons_colon rest brace)
        · exact scanMembers_more nameColon (skipSpace_cons_colon rest colon) valueRead
            (skipSpace_cons_colon rest comma) (skipSpace_cons_colon rest quote)
            (membersColon scannedOthers)
      · intro text items after scanned
        rw [scanItems] at scanned ⊢
        obtain ⟨⟨value, left⟩, scannedValue, scanned⟩ := Option.bind_eq_some_iff.mp scanned
        rw [valueColon scannedValue, Option.bind_some]
        dsimp only at scanned ⊢
        split at scanned
        · next final closed =>
            obtain ⟨rfl, rfl⟩ := Prod.ext_iff.mp (Option.some.inj scanned)
            rw [skipSpace_cons_colon rest closed]
            rfl
        · next more comma =>
            obtain ⟨⟨others, final⟩, scannedItems, same⟩ := Option.map_eq_some_iff.mp scanned
            obtain ⟨rfl, rfl⟩ := Prod.ext_iff.mp same
            have further := itemsColon scannedItems
            rw [← skipSpace_colon] at further
            rw [skipSpace_cons_colon rest comma]
            simp only [further, Option.map_some]
        · exact absurd scanned (by simp)

/-- A text that is read as a value is no longer one with a colon behind it. -/
theorem loads_colon {text : Text} {value : Json} (loaded : loads text = some value) :
    loads (text ++ ':' :: rest) = none := by
  obtain ⟨⟨scanned, after⟩, isScanned, ends⟩ := Option.bind_eq_some_iff.mp loaded
  have skips : ∀ text, skipSpace text <:+ text := fun text => List.dropWhile_suffix _
  have shorter := (skips text).length_le
  have longer : text.length ≤ (text ++ ':' :: rest).length := by
    rw [List.length_append]
    omega
  have enough : scanValue skipSpace (2 * (text ++ ':' :: rest).length + 1) (skipSpace text) =
      some (scanned, after) := by
    rw [← isScanned]
    exact (scanValue_fuel skips (by omega)).trans (scanValue_fuel skips (by omega)).symm
  have further := (scan_colon rest _).1 enough
  rw [loads, read, skipSpace_colon, further, Option.bind_some, if_neg]
  simp [skipSpace_colon]

end Behind

end Json

end NaiveBTSniffing.Library
