import SqlDdl.Proofs.CorrectPrefix
import SqlDdl.Proofs.SideBySide.Settings

/-!
# Limits only cut off

A text is refused for its length before anything else is looked at, and for nothing else
with that error. Within its limits a text gives what it gives within any higher ones:
the limit of nesting is looked at only where an expression begins, and unless reading
stops there it goes on in the same way whatever the limit is.
-/

namespace SqlDdl

namespace Source

/-- Layout that cannot be skipped is an error of the text. -/
theorem isLexical_of_skipLayoutFrom {cs : List Char} {p : Position} {error : Error}
    (h : skipLayoutFrom cs p = .error error) : error.isLexical = true := by
  fun_induction skipLayoutFrom cs p with
  | case1 => cases h
  | case2 _ _ _ ih => exact ih h
  | case3 _ _ _ _ ih => exact ih h
  | case4 =>
    cases h
    rfl
  | case5 _ _ _ _ _ _ ih => exact ih h
  | case6 => cases h

end Source

/-- A fault of a lexeme is an error of the text. -/
theorem LexemeFault.isLexical_at (fault : LexemeFault) (p : Position) :
    (fault.at p).isLexical = true := by
  cases fault <;> rfl

/-- A scan fails with an error of the text only. -/
theorem TokenStream.isLexical_of_scanFrom {found : Array Located} {source : Source} {error : Error}
    (h : scanFrom found source = .error error) : error.isLexical = true := by
  fun_induction scanFrom found source with
  | case1 found source failure hs =>
    cases h
    exact Source.isLexical_of_skipLayoutFrom hs
  | case2 => cases h
  | case3 =>
    cases h
    exact LexemeFault.isLexical_at _ _
  | case4 _ _ _ _ _ _ _ _ _ ih => exact ih h

/-- Whether an error says that a limit of the settings is exceeded. -/
def Error.isLimit : Error → Bool
  | inputTooLarge _ _ => true
  | expressionTooDeep _ _ => true
  | _ => false

/-- The error that a text is longer than its limit. -/
def Settings.tooLarge (settings : Settings) (text : String) : Error :=
  .inputTooLarge text.length settings.maxInputLength

variable {settings higher : Settings} {text : String} {stream : TokenStream} {error : Error}

namespace Session

/-- The session at the start of a scanned text. -/
def ofScan (settings : Settings) (text : String) (stream : TokenStream) : Session :=
  ⟨settings, ⟨.ofStream stream, [.scanned text.length stream.size], 0⟩⟩

/-- The session of a scanned text stands at the start of its stream. -/
theorem reached_ofScan (settings : Settings) (text : String) (stream : TokenStream) :
    (ofScan settings text stream).Reached settings stream :=
  ⟨rfl, rfl, Nat.zero_le _, rfl⟩

/-- The session of a scanned text reads the tokens of the scan. -/
theorem tokens_ofScan (settings : Settings) (hscan : TokenStream.scan text = .ok stream) :
    (ofScan settings text stream).tokens = stream :=
  Cursor.stream_ofStream_of_closed (TokenStream.getLast?_of_scan hscan)

/-- Before the session of a scanned text lies all that stands before the first end of the input. -/
theorem upcoming_ofScan (settings : Settings) (hscan : TokenStream.scan text = .ok stream) :
    (ofScan settings text stream).upcoming = stream.beforeEnd := by
  have hstart : (ofScan settings text stream).state.cursor.ahead = stream.tokens.drop 0 :=
    congrArg (·.tokens.drop 0) (tokens_ofScan settings hscan)
  rw [upcoming_eq, hstart, List.drop_zero, TokenStream.beforeEnd]

end Session

/-- A text beyond the limit of length is refused with that error. -/
theorem parse_of_tooLarge (h : settings.maxInputLength < text.length) :
    parse settings text = .error (.error (settings.tooLarge text)) := by
  rw [parse, parseWithEvents, Session.ofText, if_pos h]
  rfl

/-- A text within the limit of length that cannot be scanned is refused with the error of the
scan. -/
theorem parse_of_scan_error (h : ¬ settings.maxInputLength < text.length)
    (hscan : TokenStream.scan text = .error error) :
    parse settings text = .error (.error error) := by
  rw [parse, parseWithEvents, Session.ofText, if_neg h, hscan]

/-- A text within the limit of length that can be scanned gives what the first call on its stream
gives. -/
theorem parse_of_scan (h : ¬ settings.maxInputLength < text.length)
    (hscan : TokenStream.scan text = .ok stream) :
    parse settings text = (Session.ofScan settings text stream).parse.1 := by
  rw [parse, parseWithEvents, Session.ofText, if_neg h, hscan]
  rfl

/-- No call fails because a text is too long. -/
theorem Session.Reached.ne_inputTooLarge {session : Session} (hr : session.Reached settings stream)
    (length limit : Nat) : session.parse.1 ≠ .error (.error (.inputTooLarge length limit)) := by
  intro h
  rcases Nat.lt_or_eq_of_le hr.inside with hlt | hend
  · have hclosed : session.state.cursor.Closed := Cursor.closed_of_index_lt hr.closed hlt
    cases hs : Grammar.statement session.settings session.state with
    | ok tree s' =>
      rw [parse_of_ok hs] at h
      cases h
    | error failure s' =>
      rw [parse_of_error hs] at h
      cases h
      -- An error of the grammar points at a token, and this one points nowhere.
      obtain ⟨_, hbreaks, -⟩ := Grammar.statement_stops _ _ _ hclosed hs
      exact hbreaks.points
  · rw [parse_atEnd hend] at h
    cases h

/-- A text is refused for its length exactly if it is longer than the limit. -/
theorem parse_inputTooLarge_iff {length limit : Nat} :
    parse settings text = .error (.error (.inputTooLarge length limit)) ↔
      settings.maxInputLength < text.length ∧ length = text.length ∧
        limit = settings.maxInputLength := by
  constructor
  · intro h
    by_cases hlength : settings.maxInputLength < text.length
    · rw [parse_of_tooLarge hlength] at h
      cases h
      exact ⟨hlength, rfl, rfl⟩
    · cases hscan : TokenStream.scan text with
      | error error =>
        rw [parse_of_scan_error hlength hscan] at h
        cases h
        cases TokenStream.isLexical_of_scanFrom hscan
      | ok stream =>
        rw [parse_of_scan hlength hscan] at h
        exact absurd h ((Session.reached_ofScan settings text stream).ne_inputTooLarge _ _)
  · rintro ⟨hlength, rfl, rfl⟩
    exact parse_of_tooLarge hlength

/-- Higher limits leave every result as it is that is not an error of a limit; and a text is refused
for its length exactly if it has more characters than the limit allows, whatever they are. -/
theorem parse_of_higherLimits (hfold : settings.foldIdentifiers = higher.foldIdentifiers)
    (hlength : settings.maxInputLength ≤ higher.maxInputLength)
    (hdepth : settings.maxExpressionDepth ≤ higher.maxExpressionDepth) :
    ((∀ error, parse settings text = .error (.error error) → error.isLimit = false) →
      parse higher text = parse settings text) ∧
    ∀ length limit, parse settings text = .error (.error (.inputTooLarge length limit)) ↔
      settings.maxInputLength < text.length ∧ length = text.length ∧
        limit = settings.maxInputLength := by
  refine ⟨fun h => ?_, fun _ _ => parse_inputTooLarge_iff⟩
  have hwithin : ¬ settings.maxInputLength < text.length := fun hlt => by
    cases h _ (parse_of_tooLarge hlt)
  have hbeside : ¬ higher.maxInputLength < text.length := by omega
  cases hscan : TokenStream.scan text with
  | error error => rw [parse_of_scan_error hwithin hscan, parse_of_scan_error hbeside hscan]
  | ok stream =>
    have hparse := parse_of_scan hwithin hscan
    rw [hparse, parse_of_scan hbeside hscan]
    have hends := (Session.reached_ofScan settings text stream).endsBeside
      (Session.reached_ofScan higher text stream) rfl hdepth
    cases hends with
    | statements given givenBeside same => rw [given, givenBeside, same hfold]
    | errors given givenBeside => rw [given, givenBeside]
    | cutShort _ given => cases h _ (hparse.trans given)

/-- A text that is scanned to the tokens of an admissible sentence, with a semicolon or without, is
parsed to the statement that the sentence means. -/
theorem parse_of_written {sentence : Sentence} (semicolon : Bool)
    (h : ¬ settings.maxInputLength < text.length) (hscan : TokenStream.scan text = .ok stream)
    (hp : sentence.Admissible settings.maxExpressionDepth)
    (ht : stream.beforeEnd = sentence.tokens ++ endTokens semicolon) :
    parse settings text = .ok (sentence.meaning settings) := by
  rw [parse_of_scan h hscan]
  exact (Session.reached_ofScan settings text stream).parse_of_written hp
    ((Session.upcoming_ofScan settings hscan).trans ht)

/-- The table that `CREATE TABLE u(c int DEFAULT -1)` makes. -/
def negativeTable : Sentence :=
  .createTable false ⟨⟨⟨"u", false⟩, by decide⟩, []⟩ (some [
    .column {
      name := ⟨⟨"c", false⟩, by decide⟩
      dataType := .plain .integer ⟨⟨"int", false⟩, rfl, by decide +kernel⟩
      collation := none
      options := [⟨none, .default (.negate (.literal (.number "1")))⟩] }])

/-- The tokens of `CREATE TABLE u(c int DEFAULT -1)`. -/
def negativeStream : TokenStream :=
  ⟨#[⟨.keyword .create, .start⟩, ⟨.keyword .table, ⟨1, 8, 7⟩⟩, ⟨.word ⟨"u", false⟩, ⟨1, 14, 13⟩⟩,
    ⟨.leftParen, ⟨1, 15, 14⟩⟩, ⟨.word ⟨"c", false⟩, ⟨1, 16, 15⟩⟩,
    ⟨.word ⟨"int", false⟩, ⟨1, 18, 17⟩⟩, ⟨.keyword .default, ⟨1, 22, 21⟩⟩, ⟨.minus, ⟨1, 30, 29⟩⟩,
    ⟨.number "1", ⟨1, 31, 30⟩⟩, ⟨.rightParen, ⟨1, 32, 31⟩⟩, ⟨.eof, ⟨1, 33, 32⟩⟩]⟩

/-- The text is scanned to its tokens. -/
theorem scan_negativeStream :
    TokenStream.scan "CREATE TABLE u(c int DEFAULT -1)" = .ok negativeStream := by
  refine (TokenStream.scanFrom_lexeme (Source.skipLayout_stop rfl) rfl rfl).trans ?_
  refine (TokenStream.scanFrom_lexeme (Source.skipLayout_space rfl) rfl rfl).trans ?_
  refine (TokenStream.scanFrom_lexeme (Source.skipLayout_space rfl) rfl rfl).trans ?_
  refine (TokenStream.scanFrom_lexeme (Source.skipLayout_stop rfl) rfl rfl).trans ?_
  refine (TokenStream.scanFrom_lexeme (Source.skipLayout_stop rfl) rfl rfl).trans ?_
  refine (TokenStream.scanFrom_lexeme (Source.skipLayout_space rfl) rfl rfl).trans ?_
  refine (TokenStream.scanFrom_lexeme (Source.skipLayout_space rfl) rfl rfl).trans ?_
  refine (TokenStream.scanFrom_lexeme (Source.skipLayout_space rfl) rfl rfl).trans ?_
  refine (TokenStream.scanFrom_lexeme (Source.skipLayout_stop rfl) rfl rfl).trans ?_
  refine (TokenStream.scanFrom_lexeme (Source.skipLayout_stop rfl) rfl rfl).trans ?_
  exact TokenStream.scanFrom_end (Source.skipLayout_stop rfl) rfl

/-- The text has just as many characters and as deep a nesting as the lower limits allow, and gives
the same table within higher ones. -/
theorem parse_negativeTable_of_higherLimits :
    (parse ⟨40, 5, false⟩ "CREATE TABLE u(c int DEFAULT -1)" =
      .ok (negativeTable.meaning ⟨32, 2, false⟩)) ∧
    ∀ length limit, parse ⟨32, 2, false⟩ "CREATE TABLE u(c int DEFAULT -1)" =
        .error (.error (.inputTooLarge length limit)) ↔
      32 < "CREATE TABLE u(c int DEFAULT -1)".length ∧
        length = "CREATE TABLE u(c int DEFAULT -1)".length ∧ limit = 32 := by
  have hparse : parse ⟨32, 2, false⟩ "CREATE TABLE u(c int DEFAULT -1)" =
      .ok (negativeTable.meaning ⟨32, 2, false⟩) :=
    parse_of_written false (by decide) scan_negativeStream
      (show negativeTable.Admissible 2 by decide +kernel) (by decide +kernel)
  obtain ⟨hsame, hrefused⟩ := @parse_of_higherLimits ⟨32, 2, false⟩ ⟨40, 5, false⟩
    "CREATE TABLE u(c int DEFAULT -1)" rfl (by decide) (by decide)
  refine ⟨(hsame fun error h => ?_).trans hparse, hrefused⟩
  rw [hparse] at h
  cases h

end SqlDdl
