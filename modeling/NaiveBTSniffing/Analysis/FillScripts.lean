import NaiveBTSniffing.Library.LoadData

/-!
Contract: the shell scripts that load a capture into the database, from the line
that `tshark` prints for an advertising report to the row that `LOAD DATA` reads.

`tshark` prints one line of fields, each between double quotes, absent ones
empty. Owns what `awk` and `sed` make of such a line in `fill_LE_bdaddr_to_name.sh`
and in the scripts that squeeze `,,`, and the exact records whose rows survive.
Does not own the capture, the order of the lines, which `sort | uniq` changes, or
the conversions that `SET` applies to a column.
-/

namespace NaiveBTSniffing.Analysis.FillScripts

open NaiveBTSniffing.Library
open NaiveBTSniffing.Library.LoadData

/-! ## What tshark prints -/

/-- An address or a number as `tshark` prints it. -/
structure Token where
  text : Text
  plain : ∀ char ∈ text, char ∉ [',', '"', '\\', '\n']

/-- The event type of a report, which is in one of two fields:
`bthci_evt.le_advts_event_type` or `bthci_evt.le_ext_advts_event_type`. -/
inductive EventType where
  | leAdvts (token : Token)
  | leExtAdvts (token : Token)

namespace EventType

def token : EventType → Token
  | .leAdvts token => token
  | .leExtAdvts token => token

def leAdvtsEventType : EventType → Option Text
  | .leAdvts token => some token.text
  | .leExtAdvts _ => none

def leExtAdvtsEventType : EventType → Option Text
  | .leAdvts _ => none
  | .leExtAdvts token => some token.text

end EventType

/-- An advertising report: `bthci_evt.bd_addr`, `bthci_evt.le_peer_address_type`
and the event type. -/
structure Report where
  bdAddr : Token
  lePeerAddressType : Token
  eventType : EventType

/-! ## Device names -/

/-- A report with the device name that `tshark` prints on its line. -/
structure NameRecord extends Report where
  deviceName : Text
  oneLine : '\n' ∉ deviceName

/-- The line of `tshark` in `fill_LE_bdaddr_to_name.sh`. -/
def NameRecord.tshark (record : NameRecord) : Text :=
  line [some record.bdAddr.text, some record.lePeerAddressType.text, some record.deviceName,
    record.eventType.leAdvtsEventType, record.eventType.leExtAdvtsEventType]

/-- `$index` of `awk -F','`. -/
def dollar (index : Nat) (text : Text) : Text := (text.splitOn ',').getD (index - 1) []

/-- `{if ($4 != "") {print $1","$2","$4","$3} else {print $1","$2","$5","$3}}`. -/
def awkReorder (text : Text) : Text :=
  if dollar 4 text ≠ [] then
    dollar 1 text ++ ',' :: (dollar 2 text ++ ',' :: (dollar 4 text ++ ',' :: dollar 3 text))
  else
    dollar 1 text ++ ',' :: (dollar 2 text ++ ',' :: (dollar 5 text ++ ',' :: dollar 3 text))

/-- `sed 's/\\r//g'`: every backslash with an `r` behind it is taken out. -/
def sedReturns : Text → Text
  | [] => []
  | [char] => [char]
  | first :: second :: rest =>
      if first = '\\' ∧ second = 'r' then sedReturns rest
      else first :: sedReturns (second :: rest)

/-- The line of `LE_bdaddr_to_name_uniq.csv` that a record becomes. -/
def NameRecord.imported (record : NameRecord) : Text := sedReturns (awkReorder record.tshark)

/-- The columns `device_bdaddr, @bdaddr_random, @le_evt_type, device_name`. -/
def NameRecord.row (record : NameRecord) : List Text :=
  [record.bdAddr.text, record.lePeerAddressType.text, record.eventType.token.text,
    record.deviceName]

/-! ## Data fields -/

/-- A report with the fields that follow it in the other scripts, such as
`btcommon.eir_ad.entry.uri`, or `company_id` and `data`. -/
structure DataRecord extends Report where
  data : List (Option Text)
  hasData : data ≠ []
  oneLine : ∀ text, some text ∈ data → '\n' ∉ text

/-- The line of `tshark` in the scripts with the event types before the data. -/
def DataRecord.tshark (record : DataRecord) : Text :=
  line (some record.bdAddr.text :: some record.lePeerAddressType.text ::
    record.eventType.leAdvtsEventType :: record.eventType.leExtAdvtsEventType :: record.data)

/-- `gsub(/,,/, ",")`, from left to right. -/
def gsub : Text → Text
  | [] => []
  | [char] => [char]
  | first :: second :: rest =>
      if first = ',' ∧ second = ',' then ',' :: gsub rest else first :: gsub (second :: rest)

/-- The columns `device_bdaddr, @bdaddr_random, @le_evt_type` and those of the data. -/
def DataRecord.row (record : DataRecord) : List Text :=
  record.bdAddr.text :: record.lePeerAddressType.text :: record.eventType.token.text ::
    record.data.map asRead

/-! ## Tokens -/

theorem Token.not_mem (token : Token) {char : Char} (special : char ∈ [',', '"', '\\', '\n']) :
    char ∉ token.text := fun inside => token.plain char inside special

/-- A text without quotes is verbatim if it has no backslash. -/
theorem verbatim_of_noQuote {text : Text} (noEscape : '\\' ∉ text) (noQuote : '"' ∉ text) :
    Verbatim text where
  noEscape := noEscape
  noDoubled inside := noQuote (inside.subset List.mem_cons_self)
  noComma inside := noQuote (inside.subset List.mem_cons_self)
  noBreak inside := noQuote (inside.subset List.mem_cons_self)
  noLast inside := noQuote (inside.subset List.mem_cons_self)

theorem Token.verbatim (token : Token) : Verbatim token.text :=
  verbatim_of_noQuote (token.not_mem (by decide)) (token.not_mem (by decide))

/-! ## The shared squeeze -/

theorem gsub_cons_of_ne {char : Char} (noComma : char ≠ ',') (rest : Text) :
    gsub (char :: rest) = char :: gsub rest := by
  cases rest with
  | nil => rfl
  | cons second rest => rw [gsub, if_neg fun both => noComma both.1]

/-- Runs of commas end at a quote. -/
theorem gsub_quote (before behind : Text) :
    gsub (before ++ '"' :: behind) = gsub before ++ '"' :: gsub behind := by
  fun_induction gsub before with
  | case1 => exact gsub_cons_of_ne (by decide) behind
  | case2 char =>
      show gsub (char :: '"' :: behind) = char :: '"' :: gsub behind
      rw [gsub, if_neg (by simp), gsub_cons_of_ne (by decide)]
  | case3 first second rest both inductionHypothesis =>
      show gsub (first :: second :: (rest ++ '"' :: behind)) = _
      rw [gsub, if_pos both, inductionHypothesis, List.cons_append]
  | case4 first second rest neither inductionHypothesis =>
      show gsub (first :: second :: (rest ++ '"' :: behind)) = _
      rw [gsub, if_neg neither, List.cons_append, ← inductionHypothesis, List.cons_append]

/-- How many commas `gsub` takes out. -/
def squeezed (text : Text) : Nat := text.count ',' - (gsub text).count ','

/-- Nothing but commas is taken out. -/
theorem count_gsub (text : Text) :
    (gsub text).count ',' + text.length = text.count ',' + (gsub text).length := by
  fun_induction gsub text with
  | case1 => rfl
  | case2 char => rfl
  | case3 first second rest both inductionHypothesis =>
      rw [both.1, both.2]
      simp only [List.count_cons_self, List.length_cons]
      omega
  | case4 first second rest neither inductionHypothesis =>
      simp only [List.count_cons, List.length_cons] at inductionHypothesis ⊢
      omega

theorem gsub_sublist (text : Text) : (gsub text).Sublist text := by
  fun_induction gsub text with
  | case1 => exact List.Sublist.refl _
  | case2 char => exact List.Sublist.refl _
  | case3 first second rest both inductionHypothesis =>
      rw [both.1]
      exact (inductionHypothesis.cons second).cons_cons ','
  | case4 first second rest neither inductionHypothesis =>
      exact inductionHypothesis.cons_cons first

theorem squeezed_add (text : Text) : (gsub text).count ',' + squeezed text = text.count ',' := by
  have fewer := (gsub_sublist text).count_le ','
  rw [squeezed]
  omega

theorem gsub_eq_self {text : Text} (none : squeezed text = 0) : gsub text = text := by
  have counts := count_gsub text
  have commas := squeezed_add text
  exact (gsub_sublist text).eq_of_length (by omega)

theorem squeezed_quote (before behind : Text) :
    squeezed (before ++ '"' :: behind) = squeezed before + squeezed behind := by
  have first := squeezed_add before
  have second := squeezed_add behind
  have whole := squeezed_add (before ++ '"' :: behind)
  rw [gsub_quote, List.count_append, List.count_append, List.count_cons_of_ne (by decide),
    List.count_cons_of_ne (by decide)] at whole
  omega

theorem gsub_pair (rest : Text) : gsub (',' :: ',' :: rest) = ',' :: gsub rest := rfl

theorem squeezed_pair (rest : Text) : squeezed (',' :: ',' :: rest) = squeezed rest + 1 := by
  have inner := squeezed_add rest
  have whole := squeezed_add (',' :: ',' :: rest)
  rw [gsub_pair] at whole
  simp only [List.count_cons_self] at whole
  omega

/-- Nothing is taken out exactly where no two commas meet. -/
theorem squeezed_eq_zero_iff (text : Text) : squeezed text = 0 ↔ ¬ [',', ','] <:+: text := by
  fun_induction gsub text with
  | case1 => simp [squeezed]
  | case2 char =>
      have short : ¬ [',', ','] <:+: [char] := fun inside => by simpa using inside.length_le
      exact ⟨fun _ => short, fun _ => by simp [squeezed, gsub]⟩
  | case3 first second rest both inductionHypothesis =>
      rw [both.1, both.2, squeezed_pair]
      constructor
      · intro none
        omega
      · intro none
        exact absurd (List.infix_append' [] [',', ','] rest) none
  | case4 first second rest neither inductionHypothesis =>
      have here : ¬ [',', ','] <+: first :: second :: rest := by
        rw [List.cons_prefix_cons, List.cons_prefix_cons]
        exact fun meet => neither ⟨meet.1.symm, meet.2.1.symm⟩
      have same : squeezed (first :: second :: rest) = squeezed (second :: rest) := by
        rw [squeezed, squeezed, gsub, if_neg neither, List.count_cons, List.count_cons (l := gsub _)]
        omega
      rw [same, inductionHypothesis, List.infix_cons_iff (a := first), not_or]
      exact (and_iff_right here).symm

/-! ## Squeezed lines -/

/-- A quoted field takes the comma before it out of every run. -/
theorem squeezed_comma_field (text behind : Text) :
    squeezed (',' :: '"' :: (text ++ '"' :: behind)) = squeezed text + squeezed behind := by
  have parts := squeezed_quote [','] (text ++ '"' :: behind)
  rw [squeezed_quote text behind] at parts
  have alone : squeezed [','] = 0 := rfl
  rw [alone, Nat.zero_add] at parts
  exact parts

theorem squeezed_field (text behind : Text) :
    squeezed ('"' :: (text ++ '"' :: behind)) = squeezed text + squeezed behind := by
  have parts := squeezed_quote [] (text ++ '"' :: behind)
  rw [squeezed_quote text behind] at parts
  have alone : squeezed [] = 0 := rfl
  rw [alone, Nat.zero_add] at parts
  exact parts

/-- Behind a comma only the last field may be absent. -/
theorem squeezed_comma_line_iff {fields : List (Option Text)} (nonempty : fields ≠ []) :
    squeezed (',' :: line fields) = 0 ↔
      (∀ text, some text ∈ fields → squeezed text = 0) ∧ none ∉ fields.dropLast := by
  induction fields with
  | nil => exact absurd rfl nonempty
  | cons field fields inductionHypothesis =>
      cases fields with
      | nil =>
          cases field with
          | none => simp [line_singleton, fieldText, squeezed, gsub]
          | some text =>
              have alone : squeezed [] = 0 := rfl
              rw [line_singleton, fieldText, squeezed_comma_field, alone]
              simp
      | cons second fields =>
          have others := inductionHypothesis (List.cons_ne_nil _ _)
          cases field with
          | none =>
              rw [line_cons_cons, fieldText, List.nil_append, squeezed_pair]
              simp
          | some text =>
              have parts := line_some_append text second fields []
              rw [List.append_nil, List.append_nil] at parts
              rw [parts, squeezed_comma_field, Nat.add_eq_zero_iff, others, List.dropLast_cons_cons]
              simp only [List.mem_cons, Option.some.injEq, reduceCtorEq, false_or, forall_eq_or_imp,
                and_assoc]

/-- In a line the first and the last field may be absent. -/
theorem squeezed_line_iff (fields : List (Option Text)) :
    squeezed (line fields) = 0 ↔
      (∀ text, some text ∈ fields → squeezed text = 0) ∧ none ∉ fields.tail.dropLast := by
  cases fields with
  | nil => simp [line, squeezed, gsub]
  | cons field fields =>
      cases fields with
      | nil =>
          cases field with
          | none => simp [line_singleton, fieldText, squeezed, gsub]
          | some text =>
              have alone : squeezed [] = 0 := rfl
              rw [line_singleton, fieldText, squeezed_field, alone]
              simp
      | cons second fields =>
          have others := squeezed_comma_line_iff (List.cons_ne_nil second fields)
          cases field with
          | none =>
              rw [line_cons_cons, fieldText, List.nil_append, others]
              simp
          | some text =>
              have parts := line_some_append text second fields []
              rw [List.append_nil, List.append_nil] at parts
              rw [parts, squeezed_field, Nat.add_eq_zero_iff, others, List.tail_cons]
              simp only [List.mem_cons, Option.some.injEq, forall_eq_or_imp, and_assoc]

/-- One absent field between two parts of a line is squeezed out, and nothing
else if the part behind it has no two commas that meet. -/
theorem gsub_absent {front back : List (Option Text)} {text : Text} (more : back ≠ [])
    (whole : squeezed (line (front ++ [some text])) = 0) :
    gsub (line (front ++ some text :: none :: back)) =
        line (front ++ [some text]) ++ ',' :: gsub (line back) ∧
      squeezed (line (front ++ some text :: none :: back)) = squeezed (line back) + 1 := by
  have ends : ∃ before, line (front ++ [some text]) = before ++ ['"'] := by
    cases front with
    | nil => exact ⟨'"' :: text, by rw [List.nil_append, line_singleton]; rfl⟩
    | cons first front =>
        rw [line_append (List.cons_ne_nil _ _) (List.cons_ne_nil _ _), line_singleton, fieldText]
        exact ⟨line (first :: front) ++ ',' :: '"' :: text, by simp⟩
  obtain ⟨before, closed⟩ := ends
  have split : line (front ++ some text :: none :: back) = before ++ '"' :: ',' :: ',' :: line back := by
    have parts : front ++ some text :: none :: back = (front ++ [some text]) ++ ([none] ++ back) := by
      simp
    rw [parts, line_append (by simp) (by simp), line_append (by simp) more, closed]
    simp [line_singleton, fieldText]
  rw [closed, squeezed_quote] at whole
  have same : gsub before = before := gsub_eq_self (by omega)
  rw [split, closed, gsub_quote, squeezed_quote, gsub_pair, squeezed_pair, same]
  constructor
  · simp
  · omega

/-- The fields of a line that begins with tokens. -/
def tokenFields (tokens : List Token) : List (Option Text) :=
  tokens.map fun token => some token.text

theorem exists_of_mem_tokenFields {tokens : List Token} {field : Option Text}
    (inside : field ∈ tokenFields tokens) : ∃ token : Token, field = some token.text := by
  obtain ⟨token, -, same⟩ := List.mem_map.mp inside
  exact ⟨token, same.symm⟩

theorem verbatim_of_mem_tokenFields {tokens : List Token} {text : Text}
    (inside : some text ∈ tokenFields tokens) : Verbatim text := by
  obtain ⟨token, same⟩ := exists_of_mem_tokenFields inside
  rw [Option.some.inj same]
  exact token.verbatim

theorem oneLine_of_mem_tokenFields {tokens : List Token} {text : Text}
    (inside : some text ∈ tokenFields tokens) : '\n' ∉ text := by
  obtain ⟨token, same⟩ := exists_of_mem_tokenFields inside
  rw [Option.some.inj same]
  exact token.not_mem (by decide)

theorem Token.noRun (token : Token) : squeezed token.text = 0 := by
  apply (squeezed_eq_zero_iff _).mpr
  exact fun inside => token.not_mem (by decide) (inside.subset List.mem_cons_self)

theorem squeezed_tokenFields (tokens : List Token) : squeezed (line (tokenFields tokens)) = 0 := by
  rw [squeezed_line_iff]
  constructor
  · intro text inside
    obtain ⟨token, same⟩ := exists_of_mem_tokenFields inside
    rw [Option.some.inj same]
    exact token.noRun
  · intro inside
    have whole := List.mem_of_mem_tail (List.dropLast_subset _ inside)
    obtain ⟨token, same⟩ := exists_of_mem_tokenFields whole
    cases same

/-- With one absent field behind tokens, the squeezed line is loaded as the other
fields exactly if nothing else is squeezed and they are verbatim. -/
theorem readsBack_gsub_iff (front : List Token) (token : Token) {back : List (Option Text)}
    (more : back ≠ []) (oneLine : ∀ text, some text ∈ back → '\n' ∉ text) :
    ReadsBack (gsub (line (tokenFields front ++ some token.text :: none :: back)))
        ((tokenFields front ++ some token.text :: back).map asRead) ↔
      squeezed (line back) = 0 ∧ ∀ text, some text ∈ back → Verbatim text := by
  have tokens : tokenFields front ++ [some token.text] = tokenFields (front ++ [token]) := by
    simp [tokenFields]
  have whole : tokenFields front ++ some token.text :: back = tokenFields (front ++ [token]) ++ back := by
    rw [← tokens, List.append_assoc, List.singleton_append]
  have some : tokenFields (front ++ [token]) ≠ [] := by simp [tokenFields]
  obtain ⟨after, spent⟩ := gsub_absent more (tokens ▸ squeezed_tokenFields (front ++ [token]))
  have ideal (alone : squeezed (line back) = 0) :
      gsub (line (tokenFields front ++ Option.some token.text :: none :: back)) =
        line (tokenFields (front ++ [token]) ++ back) := by
    rw [after, gsub_eq_self alone, line_append some more, tokens]
  rw [whole]
  constructor
  · intro loaded
    have alone : squeezed (line back) = 0 := by
      have held := commas_le_of_readColumns (by simp [more]) (loaded [])
      have total := commas_line
        (show tokenFields front ++ Option.some token.text :: none :: back ≠ [] by simp)
      have kept := squeezed_add (line (tokenFields front ++ Option.some token.text :: none :: back))
      rw [List.count_append, List.count_cons_of_ne (by decide), List.count_nil, ← whole] at held
      simp only [List.map_append, List.map_cons, List.flatten_append, List.flatten_cons,
        List.count_append, List.length_append, List.length_cons, List.length_map, asRead,
        Option.getD_none, List.count_nil] at held total
      omega
    rw [ideal alone, readsBack_line_iff (by simp [more])] at loaded
    · exact ⟨alone, fun text inside => loaded text (List.mem_append_right _ inside)⟩
    · intro text inside
      exact (List.mem_append.mp inside).elim oneLine_of_mem_tokenFields (oneLine text)
  · rintro ⟨alone, others⟩
    rw [ideal alone]
    apply readsBack_of_verbatim (by simp [more])
    intro text inside
    exact (List.mem_append.mp inside).elim verbatim_of_mem_tokenFields (others text)

namespace DataRecord

/-- The data fields that stand between two others of those after the squeeze. A
first one behind a legacy event type may take the place of the absent field. -/
def inner (record : DataRecord) : List (Option Text) :=
  match record.eventType with
  | .leAdvts _ => record.data.tail.dropLast
  | .leExtAdvts _ => record.data.dropLast

/-- No data field holds two commas that meet or is changed between its quotes,
and only the outer data fields are absent. -/
def Survives (record : DataRecord) : Prop :=
  (∀ text, some text ∈ record.data → ¬ [',', ','] <:+: text ∧ Verbatim text) ∧ none ∉ record.inner

/-- The squeezed line is loaded as the record exactly if its data fields survive. -/
theorem dataReadsBack_iff (record : DataRecord) :
    ReadsBack (gsub record.tshark) record.row ↔ record.Survives := by
  obtain ⟨⟨bdAddr, lePeerAddressType, eventType⟩, data, hasData, oneLine⟩ := record
  cases eventType with
  | leAdvts token =>
      have loaded := readsBack_gsub_iff [bdAddr, lePeerAddressType] token hasData oneLine
      rw [squeezed_line_iff] at loaded
      apply loaded.trans
      simp only [Survives, inner, squeezed_eq_zero_iff, forall_and]
      exact and_right_comm
  | leExtAdvts token =>
      have oneLineAll (text : Text) (inside : some text ∈ some token.text :: data) : '\n' ∉ text := by
        rcases List.mem_cons.mp inside with same | inside
        · rw [Option.some.inj same]
          exact token.not_mem (by decide)
        · exact oneLine text inside
      have loaded := readsBack_gsub_iff [bdAddr] lePeerAddressType (List.cons_ne_nil _ _) oneLineAll
      rw [squeezed_line_iff] at loaded
      apply loaded.trans
      simp only [Survives, inner, squeezed_eq_zero_iff, forall_and, List.mem_cons,
        Option.some.injEq, or_imp, forall_eq, List.tail_cons, token.verbatim,
        (squeezed_eq_zero_iff _).mp token.noRun, true_and, not_false_eq_true]
      exact and_right_comm

/-- An advertisement of a URI with two commas. -/
def commasInUri : DataRecord where
  bdAddr := ⟨"00:1b:dc:00:00:01".toList, by simp⟩
  lePeerAddressType := ⟨"0x01".toList, by simp⟩
  eventType := .leAdvts ⟨"0x00".toList, by simp⟩
  data := [some "https://a.b/?q=1,,2".toList]
  hasData := by decide
  oneLine := by simp

/-- Inside a URI two commas become one. -/
theorem not_readsBack_commasInUri : ¬ ReadsBack (gsub commasInUri.tshark) commasInUri.row := by
  intro loaded
  exact absurd (loaded []) (by decide +kernel)

end DataRecord

/-! ## Reordered names -/

theorem not_mem_dollar (index : Nat) (text : Text) : ',' ∉ dollar index text := by
  rw [dollar, List.getD_eq_getElem?_getD]
  cases piece : (text.splitOn ',')[index - 1]? with
  | none => exact List.not_mem_nil
  | some piece' =>
      have member := List.mem_of_getElem? piece
      rw [List.splitOn_eq_splitOnP] at member
      intro inside
      have other := Text.not_of_mem_splitOnP member ',' inside
      simp at other

/-- `awk` prints three commas, whatever the line holds. -/
theorem commas_awkReorder (text : Text) : (awkReorder text).count ',' = 3 := by
  have none (index : Nat) : (dollar index text).count ',' = 0 :=
    List.count_eq_zero.mpr (not_mem_dollar index text)
  unfold awkReorder
  split
  · simp only [List.count_append, List.count_cons_self, none]
  · simp only [List.count_append, List.count_cons_self, none]

theorem sedReturns_cons_of_ne {char : Char} (noEscape : char ≠ '\\') (rest : Text) :
    sedReturns (char :: rest) = char :: sedReturns rest := by
  cases rest with
  | nil => rfl
  | cons second rest => rw [sedReturns, if_neg fun both => noEscape both.1]

theorem sedReturns_append {front : Text} (noEscape : '\\' ∉ front) (rest : Text) :
    sedReturns (front ++ rest) = front ++ sedReturns rest := by
  induction front with
  | nil => rfl
  | cons char front inductionHypothesis =>
      rw [List.mem_cons, not_or] at noEscape
      rw [List.cons_append, sedReturns_cons_of_ne (Ne.symm noEscape.1),
        inductionHypothesis noEscape.2, List.cons_append]

theorem sedReturns_quote (text : Text) : sedReturns (text ++ ['"']) = sedReturns text ++ ['"'] := by
  fun_induction sedReturns text with
  | case1 => rfl
  | case2 char =>
      show sedReturns (char :: ['"']) = [char, '"']
      rw [sedReturns, if_neg (by simp), sedReturns]
  | case3 first second rest both inductionHypothesis =>
      show sedReturns (first :: second :: (rest ++ ['"'])) = _
      rw [sedReturns, if_pos both, inductionHypothesis]
  | case4 first second rest neither inductionHypothesis =>
      show sedReturns (first :: second :: (rest ++ ['"'])) = _
      rw [sedReturns, if_neg neither, List.cons_append, ← inductionHypothesis, List.cons_append]

theorem commas_sedReturns (text : Text) : (sedReturns text).count ',' = text.count ',' := by
  fun_induction sedReturns text with
  | case1 => rfl
  | case2 char => rfl
  | case3 first second rest both inductionHypothesis =>
      rw [both.1, both.2, List.count_cons_of_ne (by decide), List.count_cons_of_ne (by decide),
        inductionHypothesis]
  | case4 first second rest neither inductionHypothesis =>
      rw [List.count_cons, List.count_cons, inductionHypothesis, List.count_cons]

theorem length_sedReturns_le (text : Text) : (sedReturns text).length ≤ text.length := by
  fun_induction sedReturns text with
  | case1 => exact Nat.le_refl _
  | case2 char => exact Nat.le_refl _
  | case3 first second rest both inductionHypothesis =>
      simp only [List.length_cons]
      omega
  | case4 first second rest neither inductionHypothesis =>
      simp only [List.length_cons] at inductionHypothesis ⊢
      omega

/-- Where no field holds a comma, `awk` sees the fields. -/
theorem splitOn_line {fields : List (Option Text)} (nonempty : fields ≠ [])
    (noComma : ∀ text, some text ∈ fields → ',' ∉ text) :
    (line fields).splitOn ',' = fields.map fieldText := by
  apply List.splitOn_intercalate ',' _ (by simpa using nonempty)
  intro piece inside
  obtain ⟨field, member, same⟩ := List.mem_map.mp inside
  rw [← same]
  cases field with
  | none => exact List.not_mem_nil
  | some text => simp [fieldText, noComma text member]

namespace NameRecord

/-- The three columns before the name. -/
def tokens (record : NameRecord) : List Token :=
  [record.bdAddr, record.lePeerAddressType, record.eventType.token]

/-- Without a comma in the name, `awk` puts the name behind the event type. -/
theorem awkReorder_tshark {record : NameRecord} (noComma : ',' ∉ record.deviceName) :
    awkReorder record.tshark =
      line (tokenFields record.tokens ++ [some record.deviceName]) := by
  obtain ⟨⟨bdAddr, lePeerAddressType, eventType⟩, deviceName, oneLine⟩ := record
  have comma (token : Token) : ',' ∉ token.text := token.not_mem (by decide)
  have pieces : (tshark ⟨⟨bdAddr, lePeerAddressType, eventType⟩, deviceName, oneLine⟩).splitOn ',' =
      [fieldText (some bdAddr.text), fieldText (some lePeerAddressType.text),
        fieldText (some deviceName), fieldText eventType.leAdvtsEventType,
        fieldText eventType.leExtAdvtsEventType] := by
    apply splitOn_line (List.cons_ne_nil _ _)
    cases eventType with
    | leAdvts token =>
        simp [EventType.leAdvtsEventType, EventType.leExtAdvtsEventType, comma, noComma]
    | leExtAdvts token =>
        simp [EventType.leAdvtsEventType, EventType.leExtAdvtsEventType, comma, noComma]
  rw [awkReorder]
  simp only [dollar, pieces]
  cases eventType with
  | leAdvts token =>
      rw [if_pos (by simp [EventType.leAdvtsEventType, fieldText])]
      simp [EventType.leAdvtsEventType, tokenFields, tokens, EventType.token, line_cons_cons,
        line_singleton]
  | leExtAdvts token =>
      rw [if_neg (by simp [EventType.leAdvtsEventType, fieldText])]
      simp [EventType.leExtAdvtsEventType, tokenFields, tokens, EventType.token, line_cons_cons,
        line_singleton]

/-- `sed` only reaches into the name. -/
theorem imported_eq {record : NameRecord} (noComma : ',' ∉ record.deviceName) :
    record.imported = line (tokenFields record.tokens ++ [some (sedReturns record.deviceName)]) := by
  have front : '\\' ∉ line (tokenFields record.tokens) ++ [',', '"'] := by
    have escape (token : Token) : '\\' ∉ token.text := token.not_mem (by decide)
    simp [tokenFields, tokens, line_cons_cons, line_singleton, fieldText, escape]
  have parts (text : Text) : line (tokenFields record.tokens ++ [some text]) =
      (line (tokenFields record.tokens) ++ [',', '"']) ++ (text ++ ['"']) := by
    rw [line_append (by simp [tokenFields, tokens]) (List.cons_ne_nil _ _), line_singleton,
      fieldText]
    simp
  rw [imported, awkReorder_tshark noComma, parts, parts, sedReturns_append front, sedReturns_quote]

/-- The name is loaded whole, behind its address, address type and event type,
exactly if it holds no comma and is not changed between its quotes. -/
theorem nameReadsBack_iff (record : NameRecord) :
    ReadsBack record.imported record.row ↔
      ',' ∉ record.deviceName ∧ Verbatim record.deviceName := by
  have fields (text : Text) : (tokenFields record.tokens ++ [some text]).map asRead =
      [record.bdAddr.text, record.lePeerAddressType.text, record.eventType.token.text, text] := rfl
  constructor
  · intro loaded
    have noComma : ',' ∉ record.deviceName := by
      have held := commas_le_of_readColumns (List.cons_ne_nil _ _) (loaded [])
      rw [List.count_append, List.count_cons_of_ne (by decide), List.count_nil, imported,
        commas_sedReturns, commas_awkReorder] at held
      simp only [List.flatten_cons, List.flatten_nil, List.count_append, List.count_nil,
        List.length_cons, List.length_nil] at held
      apply List.count_eq_zero.mp
      omega
    have read := loaded []
    rw [imported_eq noComma] at read
    simp only [row, tokenFields, tokens, List.map_cons, List.map_nil, List.cons_append,
      List.nil_append, List.length_cons, List.length_nil, line_some_append, line_last_append,
      readColumns_verbatim_comma (Token.verbatim _), List.cons.injEq, true_and] at read
    have separates : Separates '\n' (sedReturns record.deviceName) record.deviceName :=
      .inr ⟨rfl, record.oneLine⟩
    have same := verbatim_of_readColumns separates (length_sedReturns_le _) read
    rw [same.1] at same
    exact ⟨noComma, same.2⟩
  · rintro ⟨noComma, verbatim⟩
    have unchanged : sedReturns record.deviceName = record.deviceName := by
      have whole := sedReturns_append verbatim.noEscape []
      rw [List.append_nil] at whole
      rw [whole, sedReturns, List.append_nil]
    rw [imported_eq noComma, unchanged, row, ← fields]
    apply readsBack_of_verbatim (by simp)
    intro text inside
    rcases List.mem_append.mp inside with token | last
    · exact verbatim_of_mem_tokenFields token
    · rw [List.mem_singleton, Option.some.injEq] at last
      rw [last]
      exact verbatim

/-- A device whose name holds a comma. -/
def commaInName : NameRecord where
  bdAddr := ⟨"00:1b:dc:00:00:01".toList, by simp⟩
  lePeerAddressType := ⟨"0x00".toList, by simp⟩
  eventType := .leAdvts ⟨"0x00".toList, by simp⟩
  deviceName := "Desk, left".toList
  oneLine := by simp

/-- The event type is taken from behind the comma. -/
theorem not_readsBack_commaInName : ¬ ReadsBack commaInName.imported commaInName.row := by
  intro loaded
  exact absurd (loaded []) (by decide +kernel)

end NameRecord

end NaiveBTSniffing.Analysis.FillScripts
