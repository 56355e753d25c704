import SqlDdl.Proofs.Columns
import SqlDdl.Session

/-!
# Statements are the meanings of sentences

The parser accepts exactly the written sentences of the grammar, each with or without
a semicolon behind it, and gives the statement that the sentence means. Its cursor
then stands at the first end of the input: every token before was read once, and
none behind was looked at. What the parser says about other streams is left open
here.
-/

namespace SqlDdl

/-- The tokens that may stand between a sentence and the end of the input. -/
def endTokens (semicolon : Bool) : List Token := if semicolon then [.semicolon] else []

/-- The tokens of a stream before the first end of the input. -/
def TokenStream.beforeEnd (stream : TokenStream) : List Token :=
  stream.tokens.takeWhile (· ≠ .eof)

namespace Grammar

variable {settings : Settings} {s s' : State} {rest : List Token}

/-- A run of keywords that may be left out was read as it is written. -/
theorem keywordTokens_ok {keywords : List Keyword} {given : Bool}
    (h : consumeKeywords keywords s = .ok given s') :
    s.cursor.Passes (Sentence.keywordTokens given keywords) s'.cursor := by
  rcases consumeKeywords_ok h with ⟨rfl, h₁⟩ | ⟨rfl, rfl⟩
  · exact h₁
  · exact .refl _

/-- A run of keywords that may be left out is read where it stands, if its first keyword does
not follow it. -/
theorem keywordTokens_reads (given : Bool) (keyword : Keyword) (keywords : List Keyword)
    (hr : rest.headD .eof ≠ .keyword keyword)
    (h : s.cursor.ahead = Sentence.keywordTokens given (keyword :: keywords) ++ rest) :
    Reads (consumeKeywords (keyword :: keywords)) s
      (Sentence.keywordTokens given (keyword :: keywords)) rest given := by
  cases given with
  | false => exact ⟨s, consumeKeywords_miss_first h hr, .refl _, h⟩
  | true => exact consumeKeywords_reads (keyword :: keywords) h

/-- A table that was read behind `CREATE TABLE` is a table that is written. -/
theorem createTable_ok {statement : Statement} (hc : s.cursor.Closed)
    (h : createTable settings s = .ok statement s') :
    ∃ (sentence : Sentence) (ts : List Token),
      sentence.Admissible settings.maxExpressionDepth ∧ sentence.meaning settings = statement ∧
      sentence.tokens = .keyword .create :: .keyword .table :: ts ∧
      s.cursor.Passes ts s'.cursor := by
  obtain ⟨ifNotExists, s₁, hk, h⟩ := bind_ok h
  have h₁ := keywordTokens_ok hk
  obtain ⟨_, s₂, hn, h⟩ := bind_ok h
  obtain ⟨name, rfl, h₂⟩ := objectName_ok hn
  obtain ⟨_, s₃, he, h⟩ := bind_ok h
  obtain ⟨entries, hp, rfl, h₃⟩ := tableEntries_ok (h₂.closed (h₁.closed hc)) he
  cases h
  refine ⟨.createTable ifNotExists name entries, _, ?_, ?_, rfl, h₁.trans (h₂.trans h₃)⟩
  · cases entries with
    | none => trivial
    | some entries => exact hp
  · rw [Sentence.meaning, List.filterMap_map, List.flatMap_map]
    simp only [Function.comp_def, EntryPhrase.column?_entry, EntryPhrase.constraints_entry]

/-- What ends a statement is no other token. -/
theorem ne_of_endsStatement {next token : Token} (h : next = .semicolon ∨ next = .eof)
    (ht : token ≠ .semicolon ∧ token ≠ .eof) : next ≠ token := by
  rintro rfl
  rcases h with h | h
  · exact ht.1 h
  · exact ht.2 h

/-- A table is read behind `CREATE TABLE` where it stands, if the statement ends behind it. -/
theorem createTable_reads (ifNotExists : Bool) (name : Identifiers)
    (entries : Option (List EntryPhrase)) (hs : s.nesting = 0)
    (hp : ∀ entry ∈ entries.getD [], entry.Admissible settings.maxExpressionDepth)
    (hend : rest.headD .eof = .semicolon ∨ rest.headD .eof = .eof)
    (h : s.cursor.ahead = Sentence.keywordTokens ifNotExists [.«if», .not, .«exists»] ++
      (name.dotted ++ (Sentence.entryTokens entries ++ rest))) :
    Reads (createTable settings) s
      (Sentence.keywordTokens ifNotExists [.«if», .not, .«exists»] ++
        (name.dotted ++ Sentence.entryTokens entries)) rest
      ((Sentence.createTable ifNotExists name entries).meaning settings) := by
  have hparen : rest.headD .eof ≠ .leftParen := ne_of_endsStatement hend (by decide)
  have hperiod : (Sentence.entryTokens entries ++ rest).headD .eof ≠ .period := by
    cases entries with
    | none => exact ne_of_endsStatement hend (by decide)
    | some entries => exact nofun
  obtain ⟨s₁, hk, h₁, ha₁⟩ := keywordTokens_reads ifNotExists .«if» [.not, .«exists»]
    (by exact nofun) h
  obtain ⟨s₂, hn, h₂, ha₂⟩ := objectName_reads settings name hperiod ha₁
  have hs₂ : s₂.nesting = 0 := (h₁.trans h₂).nesting.trans hs
  obtain ⟨s₃, he, h₃, ha₃⟩ := tableEntries_reads entries hs₂ hp hparen ha₂
  obtain ⟨s₄, hrec, h₄, ha₄⟩ := record_reads (.createdTable (name.name settings)
    (((entries.getD []).map (·.entry settings)).filterMap TableEntry.column?).length
    (((entries.getD []).map (·.entry settings)).flatMap TableEntry.constraints).length) ha₃
  refine ⟨s₄, ?_, (h₁.trans (h₂.trans h₃)).stay h₄, ha₄⟩
  rw [createTable, run_bind hk, run_bind hn, run_bind he, run_bind hrec, Sentence.meaning,
    List.filterMap_map, List.flatMap_map]
  simp only [Function.comp_def, EntryPhrase.column?_entry, EntryPhrase.constraints_entry]
  rfl

/-- A schema that was read behind `CREATE SCHEMA` is a schema that is written. -/
theorem createSchema_ok {statement : Statement} (h : createSchema settings s = .ok statement s') :
    ∃ (sentence : Sentence) (ts : List Token),
      sentence.Admissible settings.maxExpressionDepth ∧ sentence.meaning settings = statement ∧
      sentence.tokens = .keyword .create :: .keyword .schema :: ts ∧
      s.cursor.Passes ts s'.cursor := by
  obtain ⟨ifNotExists, s₁, hk, h⟩ := bind_ok h
  have h₁ := keywordTokens_ok hk
  obtain ⟨_, s₂, hn, h⟩ := bind_ok h
  obtain ⟨name, rfl, h₂⟩ := objectName_ok hn
  cases h
  exact ⟨.createSchema ifNotExists name, _, trivial, rfl, rfl, h₁.trans h₂⟩

/-- A schema is read behind `CREATE SCHEMA` where it stands, if no dot follows it. -/
theorem createSchema_reads (settings : Settings) (ifNotExists : Bool) (name : Identifiers)
    (hperiod : rest.headD .eof ≠ .period)
    (h : s.cursor.ahead = Sentence.keywordTokens ifNotExists [.«if», .not, .«exists»] ++
      (name.dotted ++ rest)) :
    Reads (createSchema settings) s
      (Sentence.keywordTokens ifNotExists [.«if», .not, .«exists»] ++ name.dotted) rest
      ((Sentence.createSchema ifNotExists name).meaning settings) := by
  obtain ⟨s₁, hk, h₁, ha₁⟩ := keywordTokens_reads ifNotExists .«if» [.not, .«exists»]
    (by exact nofun) h
  obtain ⟨s₂, hn, h₂, ha₂⟩ := objectName_reads settings name hperiod ha₁
  obtain ⟨s₃, hrec, h₃, ha₃⟩ := record_reads (.createdSchema (name.name settings)) ha₂
  refine ⟨s₃, ?_, (h₁.trans h₂).stay h₃, ha₃⟩
  rw [createSchema, run_bind hk, run_bind hn, run_bind hrec]
  rfl

/-- A removal that was read behind `DROP` is a removal that is written. -/
theorem drop_ok {statement : Statement} (h : drop settings s = .ok statement s') :
    ∃ (sentence : Sentence) (ts : List Token),
      sentence.Admissible settings.maxExpressionDepth ∧ sentence.meaning settings = statement ∧
      sentence.tokens = .keyword .drop :: ts ∧ s.cursor.Passes ts s'.cursor := by
  obtain ⟨found, s₁, ht, h⟩ := bind_ok h
  rcases consume_ok ht (by decide) with ⟨rfl, h₁⟩ | ⟨rfl, rfl⟩
  · obtain ⟨ifExists, s₂, hk, h⟩ := bind_ok h
    have h₂ := h₁.trans (keywordTokens_ok hk)
    obtain ⟨_, s₃, hn, h⟩ := bind_ok h
    obtain ⟨name, rfl, h₃⟩ := objectName_ok hn
    have h₃ := h₂.trans h₃
    obtain ⟨cascade, s₄, hcascade, h⟩ := bind_ok h
    rcases consume_ok hcascade (by decide) with ⟨rfl, h₄⟩ | ⟨rfl, rfl⟩
    · cases h
      refine ⟨.dropTable ifExists name (some .cascade), _, trivial, rfl, rfl, ?_⟩
      have hall := h₃.trans h₄
      rw [List.append_assoc] at hall
      exact hall
    · obtain ⟨restrict, s₅, hrestrict, h⟩ := bind_ok h
      rcases consume_ok hrestrict (by decide) with ⟨rfl, h₄⟩ | ⟨rfl, rfl⟩
      · cases h
        refine ⟨.dropTable ifExists name (some .restrict), _, trivial, rfl, rfl, ?_⟩
        have hall := h₃.trans h₄
        rw [List.append_assoc] at hall
        exact hall
      · cases h
        refine ⟨.dropTable ifExists name none, _, trivial, rfl, rfl, ?_⟩
        rw [Sentence.ruleTokens, Option.elim_none, List.append_nil]
        exact h₃
  · obtain ⟨_, _, hr, -⟩ := bind_ok h
    exact (reject_ok hr).elim

/-- A removal is read behind `DROP` where it stands, if the statement ends behind it. -/
theorem drop_reads (settings : Settings) (ifExists : Bool) (name : Identifiers)
    (rule : Option RemovalRule)
    (hend : rest.headD .eof = .semicolon ∨ rest.headD .eof = .eof)
    (h : s.cursor.ahead = .keyword .table ::
      (Sentence.keywordTokens ifExists [.«if», .«exists»] ++
        (name.dotted ++ (Sentence.ruleTokens rule ++ rest)))) :
    Reads (drop settings) s (.keyword .table ::
      (Sentence.keywordTokens ifExists [.«if», .«exists»] ++
        (name.dotted ++ Sentence.ruleTokens rule))) rest
      ((Sentence.dropTable ifExists name rule).meaning settings) := by
  have hperiod : (Sentence.ruleTokens rule ++ rest).headD .eof ≠ .period := by
    cases rule with
    | none => exact ne_of_endsStatement hend (by decide)
    | some rule => cases rule <;> exact Token.noConfusion
  obtain ⟨s₁, ht, h₁, ha₁⟩ := consume_reads h (by decide)
  obtain ⟨s₂, hk, h₂, ha₂⟩ := keywordTokens_reads ifExists .«if» [.«exists»] (by rintro ⟨⟩) ha₁
  obtain ⟨s₃, hn, h₃, ha₃⟩ := objectName_reads settings name hperiod ha₂
  rcases rule with _ | _ | _
  · have hcascade : s₃.cursor.peek ≠ .keyword .cascade := by
      rw [peek_eq_headD ha₃]
      exact ne_of_endsStatement hend (by decide)
    have hrestrict : s₃.cursor.peek ≠ .keyword .restrict := by
      rw [peek_eq_headD ha₃]
      exact ne_of_endsStatement hend (by decide)
    obtain ⟨s₄, hrec, h₄, ha₄⟩ := record_reads (.droppedTable (name.name settings)) ha₃
    refine ⟨s₄, ?_, ?_, ha₄⟩
    · rw [drop, consumeKeyword, run_bind ht]
      simp only [if_true]
      rw [run_bind hk, run_bind hn, consumeKeyword, run_bind (consume_miss hcascade)]
      simp only [Bool.false_eq_true, if_false]
      rw [consumeKeyword, run_bind (consume_miss hrestrict)]
      exact run_bind hrec
    · rw [Sentence.ruleTokens, Option.elim_none, List.append_nil]
      exact (h₁.trans (h₂.trans h₃)).stay h₄
  · obtain ⟨s₄, hc, h₄, ha₄⟩ := consume_reads
      (show _ = Token.keyword .cascade :: _ from ha₃) (by decide)
    obtain ⟨s₅, hrec, h₅, ha₅⟩ := record_reads (.droppedTable (name.name settings)) ha₄
    refine ⟨s₅, ?_, (h₁.trans (h₂.trans (h₃.trans h₄))).stay h₅, ha₅⟩
    rw [drop, consumeKeyword, run_bind ht]
    simp only [if_true]
    rw [run_bind hk, run_bind hn, consumeKeyword, run_bind hc]
    exact run_bind hrec
  · have hcascade : s₃.cursor.peek ≠ .keyword .cascade := by
      rw [peek_eq_headD ha₃]
      exact (show Token.keyword .restrict ≠ .keyword .cascade by decide)
    obtain ⟨s₄, hq, h₄, ha₄⟩ := consume_reads
      (show _ = Token.keyword .restrict :: _ from ha₃) (by decide)
    obtain ⟨s₅, hrec, h₅, ha₅⟩ := record_reads (.droppedTable (name.name settings)) ha₄
    refine ⟨s₅, ?_, (h₁.trans (h₂.trans (h₃.trans h₄))).stay h₅, ha₅⟩
    rw [drop, consumeKeyword, run_bind ht]
    simp only [if_true]
    rw [run_bind hk, run_bind hn, consumeKeyword, run_bind (consume_miss hcascade)]
    simp only [Bool.false_eq_true, if_false]
    rw [consumeKeyword, run_bind hq]
    exact run_bind hrec

/-- A statement that was read is a sentence that is written. -/
theorem openStatement_ok {statement : Statement} (hc : s.cursor.Closed)
    (h : openStatement settings s = .ok statement s') :
    ∃ sentence : Sentence, sentence.Admissible settings.maxExpressionDepth ∧
      sentence.meaning settings = statement ∧ s.cursor.Passes sentence.tokens s'.cursor := by
  obtain ⟨token, s₁, hn, h⟩ := bind_ok h
  obtain ⟨-, -, h₁⟩ := next_ok hn
  cases token with
  | keyword keyword =>
    have h₁ := h₁ nofun
    cases keyword with
    | create =>
      obtain ⟨token, s₂, hn, h⟩ := bind_ok h
      obtain ⟨-, -, h₂⟩ := next_ok hn
      cases token with
      | keyword keyword =>
        have h₂ := h₁.trans (h₂ nofun)
        cases keyword with
        | table =>
          obtain ⟨sentence, ts, hp, hm, ht, h₃⟩ := createTable_ok (h₂.closed hc) h
          exact ⟨sentence, hp, hm, ht ▸ h₂.trans h₃⟩
        | schema =>
          obtain ⟨sentence, ts, hp, hm, ht, h₃⟩ := createSchema_ok h
          exact ⟨sentence, hp, hm, ht ▸ h₂.trans h₃⟩
        | view => exact (fail_ok h).elim
        | index => exact (fail_ok h).elim
        | _ => exact (rejectRead_ok h).elim
      | _ => exact (rejectRead_ok h).elim
    | drop =>
      obtain ⟨sentence, ts, hp, hm, ht, h₂⟩ := drop_ok h
      exact ⟨sentence, hp, hm, ht ▸ h₁.trans h₂⟩
    | _ => exact (rejectRead_ok h).elim
  | _ => exact (rejectRead_ok h).elim

/-- A sentence is read where it stands, if the statement ends behind it. -/
theorem openStatement_reads (settings : Settings) (sentence : Sentence) (hs : s.nesting = 0)
    (hp : sentence.Admissible settings.maxExpressionDepth)
    (hend : rest.headD .eof = .semicolon ∨ rest.headD .eof = .eof)
    (h : s.cursor.ahead = sentence.tokens ++ rest) :
    Reads (openStatement settings) s sentence.tokens rest (sentence.meaning settings) := by
  cases sentence with
  | createTable ifNotExists name entries =>
    simp only [Sentence.tokens, List.cons_append, List.append_assoc] at h
    obtain ⟨s₁, hn, h₁, ha₁⟩ := next_reads h (by decide)
    obtain ⟨s₂, hk, h₂, ha₂⟩ := next_reads ha₁ (by decide)
    have hs₂ : s₂.nesting = 0 := (h₁.trans h₂).nesting.trans hs
    obtain ⟨s₃, hc, h₃, ha₃⟩ := createTable_reads ifNotExists name entries hs₂ hp.entries hend
      ha₂
    refine ⟨s₃, ?_, h₁.trans (h₂.trans h₃), ha₃⟩
    rw [openStatement, run_bind hn]
    exact (run_bind hk).trans hc
  | createSchema ifNotExists name =>
    simp only [Sentence.tokens, List.cons_append, List.append_assoc] at h
    have hperiod : rest.headD .eof ≠ .period := ne_of_endsStatement hend (by decide)
    obtain ⟨s₁, hn, h₁, ha₁⟩ := next_reads h (by decide)
    obtain ⟨s₂, hk, h₂, ha₂⟩ := next_reads ha₁ (by decide)
    obtain ⟨s₃, hc, h₃, ha₃⟩ := createSchema_reads settings ifNotExists name hperiod ha₂
    refine ⟨s₃, ?_, h₁.trans (h₂.trans h₃), ha₃⟩
    rw [openStatement, run_bind hn]
    exact (run_bind hk).trans hc
  | dropTable ifExists name rule =>
    simp only [Sentence.tokens, List.cons_append, List.append_assoc] at h
    obtain ⟨s₁, hn, h₁, ha₁⟩ := next_reads h (by decide)
    obtain ⟨s₂, hd, h₂, ha₂⟩ := drop_reads settings ifExists name rule hend ha₁
    refine ⟨s₂, ?_, h₁.trans h₂, ha₂⟩
    rw [openStatement, run_bind hn]
    exact hd

/-- A semicolon that may be left out was read as it is written. -/
theorem endTokens_ok {semicolon : Bool} (h : consume .semicolon s = .ok semicolon s') :
    s.cursor.Passes (endTokens semicolon) s'.cursor := by
  rcases consume_ok h (by decide) with ⟨rfl, h₁⟩ | ⟨rfl, rfl⟩
  · exact h₁
  · exact .refl _

/-- A statement that was read to its end is written with or without a semicolon, and the
cursor stands at the end of the input. -/
theorem statement_ok {tree : Statement} (hc : s.cursor.Closed)
    (h : statement settings s = .ok tree s') :
    ∃ (sentence : Sentence) (semicolon : Bool),
      sentence.Admissible settings.maxExpressionDepth ∧ sentence.meaning settings = tree ∧
      s.cursor.Passes (sentence.tokens ++ endTokens semicolon) s'.cursor ∧
      s'.cursor.ahead.head? = some .eof := by
  obtain ⟨_, s₁, ho, h⟩ := bind_ok h
  obtain ⟨sentence, hp, rfl, h₁⟩ := openStatement_ok hc ho
  obtain ⟨_, s₂, he, h⟩ := bind_ok h
  obtain ⟨rfl, rfl⟩ := pure_ok h
  obtain ⟨semicolon, s₃, hs, he⟩ := bind_ok he
  have hall := h₁.trans (endTokens_ok hs)
  obtain ⟨token, s₄, hpeek, he⟩ := bind_ok he
  obtain ⟨ht, rfl⟩ := peek_ok hpeek
  cases hend : token.isEof with
  | false =>
    rw [hend] at he
    exact (reject_ok he).elim
  | true =>
    rw [hend] at he
    obtain ⟨-, rfl⟩ := pure_ok he
    refine ⟨sentence, semicolon, hp, rfl, hall, ?_⟩
    have hclosed := hall.closed hc
    rw [beq_iff_eq.mp hend, Cursor.peek_eq_headD] at ht
    cases ha : s₃.cursor.ahead with
    | nil =>
      rw [Cursor.Closed, ha] at hclosed
      cases hclosed
    | cons first others =>
      rw [ha] at ht
      exact congrArg some ht

/-- Before the end of the input stands the end of a statement. -/
theorem headD_endTokens (semicolon : Bool) (hr : rest.headD .eof = .eof) :
    (endTokens semicolon ++ rest).headD .eof = .semicolon ∨
      (endTokens semicolon ++ rest).headD .eof = .eof := by
  cases semicolon with
  | false => exact Or.inr hr
  | true => exact Or.inl rfl

/-- A sentence is read to its end where it stands, with or without a semicolon. -/
theorem statement_reads (settings : Settings) (sentence : Sentence) (semicolon : Bool)
    (hs : s.nesting = 0) (hp : sentence.Admissible settings.maxExpressionDepth)
    (hr : rest.headD .eof = .eof)
    (h : s.cursor.ahead = sentence.tokens ++ (endTokens semicolon ++ rest)) :
    Reads (statement settings) s (sentence.tokens ++ endTokens semicolon) rest
      (sentence.meaning settings) := by
  obtain ⟨s₁, ho, h₁, ha₁⟩ := openStatement_reads settings sentence hs hp
    (headD_endTokens semicolon hr) h
  have hsemicolon : Reads (consume .semicolon) s₁ (endTokens semicolon) rest semicolon := by
    cases semicolon with
    | false =>
      have hm : s₁.cursor.peek ≠ .semicolon := by
        rw [peek_eq_headD ha₁]
        exact fun hs => nomatch hr.symm.trans hs
      exact ⟨s₁, consume_miss hm, .refl _, ha₁⟩
    | true => exact consume_reads ha₁ (by decide)
  obtain ⟨s₂, hs, h₂, ha₂⟩ := hsemicolon
  have hpeek : peek s₂ = .ok .eof s₂ :=
    congrArg (EStateM.Result.ok · s₂) ((peek_eq_headD ha₂).trans hr)
  have hends : endOfStatement s₁ = .ok () s₂ := by
    rw [endOfStatement, run_bind hs, run_bind hpeek]
    rfl
  refine ⟨s₂, ?_, h₁.trans h₂, ha₂⟩
  rw [statement, run_bind ho, run_bind hends]
  rfl

end Grammar

namespace Session

variable {settings : Settings} {sentence : Sentence} {stream : TokenStream}

/-- A session whose statement was read gives it and stands where the reading stopped. -/
theorem parse_of_statement {tree : Statement} {s' : Grammar.State}
    (h : Grammar.statement settings ⟨.ofStream stream, [], 0⟩ = .ok tree s') :
    (ofStream settings stream).parse = (.ok tree, ⟨settings, s'⟩) := by
  rw [parse, ofStream, h]

/-- What was passed over up to the end of the input is all that stands before it. -/
theorem beforeEnd_of_passes {ts : List Token} {cursor : Cursor}
    (h : (Cursor.ofStream stream).Passes ts cursor) (hend : cursor.ahead.head? = some .eof) :
    stream.beforeEnd = ts := by
  rw [TokenStream.beforeEnd, ← Cursor.takeWhile_ahead_ofStream]
  exact h.takeWhile_ahead hend

/-- From the start of a stream the grammar reads an admissible sentence up to the first end of the
input. -/
theorem statement_of_tokens (semicolon : Bool) {rest : List Token}
    (hp : sentence.Admissible settings.maxExpressionDepth)
    (ht : stream.tokens = sentence.tokens ++ endTokens semicolon ++ rest)
    (hr : rest.headD .eof = .eof) :
    ∃ s', Grammar.statement settings ⟨.ofStream stream, [], 0⟩ =
        .ok (sentence.meaning settings) s' ∧
      s'.cursor.index = (sentence.tokens ++ endTokens semicolon).length := by
  obtain ⟨behind, ha, hb⟩ := Cursor.ahead_ofStream_of_tokens ht hr
  rw [List.append_assoc] at ha
  obtain ⟨s', hs, h₁, -⟩ := Grammar.statement_reads (s := ⟨.ofStream stream, [], 0⟩) settings
    sentence semicolon rfl hp hb ha
  exact ⟨s', hs, h₁.index.trans (Nat.zero_add _)⟩

/-- Every admissible sentence, with or without a semicolon, is parsed to the statement it means,
whatever follows the first end of the input. The session then stands at that end. -/
theorem parse_sentence (semicolon : Bool) {rest : List Token}
    (hp : sentence.Admissible settings.maxExpressionDepth)
    (ht : stream.tokens = sentence.tokens ++ endTokens semicolon ++ rest)
    (hr : rest.headD .eof = .eof) :
    (ofStream settings stream).parse.1 = .ok (sentence.meaning settings) ∧
      (ofStream settings stream).parse.2.state.cursor.index =
        (sentence.tokens ++ endTokens semicolon).length := by
  obtain ⟨s', hs, hindex⟩ := statement_of_tokens semicolon hp ht hr
  rw [parse_of_statement hs]
  exact ⟨rfl, hindex⟩

/-- A table with a column that has a precision, a nested default and two more options, and with
a foreign key that has a name, both actions and all attributes. -/
def itemsTable : Sentence :=
  .createTable true ⟨⟨⟨"shop", false⟩, by decide⟩, [⟨⟨"all items", true⟩, by decide⟩]⟩ (some [
    .column {
      name := ⟨⟨"price", false⟩, by decide⟩
      dataType := .numeric ⟨⟨"numeric", false⟩, rfl, by decide +kernel⟩
        (some ⟨⟨"10", 10, by decide +kernel⟩, some ⟨"2", 2, by decide +kernel⟩⟩)
      collation := none
      options := [⟨none, .default (.negate (.group (.literal (.number "1"))))⟩, ⟨none, .null⟩,
        ⟨none, .notNull⟩] },
    .constraint (some ⟨⟨"in stock", true⟩, by decide⟩)
      (.foreignKey ⟨⟨⟨"price", false⟩, by decide⟩, []⟩ {
        table := ⟨⟨⟨"stock", false⟩, by decide⟩, []⟩
        columns := none
        clauses := [⟨.update, .setNull⟩, ⟨.delete, .noAction⟩] })
      ⟨some false, some true, true⟩])

/-- The tokens of the table, a semicolon, the end of the input and a token behind it. -/
def itemsStream : TokenStream :=
  .ofList ((itemsTable.tokens ++ [Token.semicolon, .eof, .comma]).map (⟨·, .start⟩))

/-- The table is parsed with room for three levels of nesting. -/
theorem parse_itemsTable :
    (ofStream ⟨0, 3, false⟩ itemsStream).parse.1 = .ok (itemsTable.meaning ⟨0, 3, false⟩) ∧
      (ofStream ⟨0, 3, false⟩ itemsStream).parse.2.state.cursor.index =
        (itemsTable.tokens ++ endTokens true).length :=
  parse_sentence true (show itemsTable.Admissible 3 by decide +kernel)
    (show itemsStream.tokens = _ ++ [.eof, .comma] by decide +kernel) rfl

/-- Whatever is parsed is the meaning of an admissible sentence, which is all that stands before
the first end of the input but for a semicolon; the session then stands at that end. -/
theorem sentence_of_parse {statement : Statement}
    (h : (ofStream settings stream).parse.1 = .ok statement) :
    ∃ (sentence : Sentence) (semicolon : Bool),
      sentence.Admissible settings.maxExpressionDepth ∧ sentence.meaning settings = statement ∧
      stream.beforeEnd = sentence.tokens ++ endTokens semicolon ∧
      (ofStream settings stream).parse.2.state.cursor.index = stream.beforeEnd.length := by
  cases hs : Grammar.statement settings ⟨.ofStream stream, [], 0⟩ with
  | error failure s' =>
    rw [parse, ofStream, hs] at h
    cases h
  | ok tree s' =>
    rw [parse_of_statement hs] at h ⊢
    cases h
    obtain ⟨sentence, semicolon, hp, hm, h₁, hend⟩ :=
      Grammar.statement_ok (Cursor.closed_ofStream stream) hs
    have hbefore := beforeEnd_of_passes h₁ hend
    refine ⟨sentence, semicolon, hp, hm, hbefore, ?_⟩
    rw [hbefore]
    exact h₁.index.trans (Nat.zero_add _)

/-- The removal of a table and of what depends on it. -/
def removal : Sentence := .dropTable false ⟨⟨⟨"t", false⟩, by decide⟩, []⟩ (some .cascade)

/-- The tokens of the removal, without an end of the input. -/
def removalStream : TokenStream := .ofList (removal.tokens.map (⟨·, .start⟩))

/-- The removal is parsed, so it is the meaning of a sentence. -/
theorem sentence_of_parse_removal :
    ∃ (sentence : Sentence) (semicolon : Bool), sentence.Admissible 128 ∧
      sentence.meaning .standard = .dropTable ⟨⟨["t"]⟩, false, true⟩ ∧
      removalStream.beforeEnd = sentence.tokens ++ endTokens semicolon ∧
      (ofStream .standard removalStream).parse.2.state.cursor.index =
        removalStream.beforeEnd.length := by
  have h : (ofStream .standard removalStream).parse.1 =
      .ok (.dropTable ⟨⟨["t"]⟩, false, true⟩) := by
    have hp : removal.Admissible Settings.standard.maxExpressionDepth := trivial
    have ht : removalStream.tokens = removal.tokens ++ endTokens false ++ [] := by
      decide
    obtain ⟨s', hs, -⟩ := statement_of_tokens false hp ht rfl
    rw [parse_of_statement hs]
    rfl
  exact sentence_of_parse h

end Session

end SqlDdl
