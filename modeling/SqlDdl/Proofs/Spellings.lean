import SqlDdl.Proofs.Statements

/-!
# What readings spell

The runs of tokens that a reading may pass over, without the values that it gives
for them. They are the writings of the phrases of one kind.
-/

namespace SqlDdl.Grammar

variable {α : Type} {Phrase : Type} {settings : Settings}

/-- The ways to write a phrase of a kind. -/
def Written (tokens : Phrase → List Token) (ts : List Token) : Prop := ∃ phrase, tokens phrase = ts

/-- A phrase is written with its tokens. -/
theorem written (tokens : Phrase → List Token) (phrase : Phrase) : Written tokens (tokens phrase) :=
  ⟨phrase, rfl⟩

/-- There is a way to write some phrase. -/
theorem exists_written [Inhabited Phrase] (tokens : Phrase → List Token) :
    ∃ ts, Written tokens ts :=
  ⟨_, default, rfl⟩

/-- Whenever a reading gives a value, it passed over one of the given runs of tokens. -/
def Spells (p : Reading α) (spelled : List Token → Prop) : Prop :=
  ∀ {s s' : State} {a : α}, s.cursor.Closed → p s = .ok a s' →
    ∃ ts, spelled ts ∧ s.cursor.Passes ts s'.cursor

/-- A step through a separated list that goes on has read a separator and an item. -/
theorem Spells.separatedStep {item : Reading α} {spelled : List Token → Prop}
    (hi : Spells item spelled) {separator : Token} (ht : separator ≠ .eof)
    {found found' : List α} {s s' : State} (hc : s.cursor.Closed)
    (h : Grammar.separatedStep item separator found s = .ok (.inl found') s') :
    ∃ ts, spelled ts ∧ s.cursor.Passes (separator :: ts) s'.cursor := by
  obtain ⟨b, s₁, hm, h⟩ := bind_ok h
  rcases consume_ok hm ht with ⟨rfl, h₁⟩ | ⟨rfl, rfl⟩
  · obtain ⟨a, s₂, ha, h⟩ := bind_ok h
    obtain ⟨-, rfl⟩ := pure_ok h
    obtain ⟨ts, hts, h₂⟩ := hi (h₁.closed hc) ha
    exact ⟨ts, hts, h₁.trans h₂⟩
  · cases h

/-- A step through a list up to its closing parenthesis that goes on has read an item and a
comma. -/
theorem Spells.closedStep {item : Reading α} {spelled : List Token → Prop}
    (hi : Spells item spelled) {expectation : Expectation} {found found' : List α}
    {s s' : State} (hc : s.cursor.Closed)
    (h : Grammar.closedStep item expectation found s = .ok (.inl found') s') :
    ∃ ts, spelled ts ∧ s.cursor.Passes (ts ++ [.comma]) s'.cursor := by
  obtain ⟨a, s₁, ha, h⟩ := bind_ok h
  obtain ⟨ts, hts, h₁⟩ := hi hc ha
  obtain ⟨b, s₂, hr, h⟩ := bind_ok h
  rcases consume_ok hr (by decide) with ⟨rfl, -⟩ | ⟨rfl, rfl⟩
  · cases h
  · obtain ⟨b, s₂, hm, h⟩ := bind_ok h
    rcases consume_ok hm (by decide) with ⟨rfl, h₂⟩ | ⟨rfl, rfl⟩
    · obtain ⟨-, rfl⟩ := pure_ok h
      exact ⟨ts, hts, h₁.trans h₂⟩
    · exact (reject_ok h).elim

/-- A required token is passed over. -/
theorem spells_require {token : Token} (ht : token ≠ .eof) :
    Spells (require token) (Written fun _ : Unit => [token]) :=
  fun _ h => ⟨_, ⟨(), rfl⟩, require_ok h ht⟩

/-- An identifier spells its word. -/
theorem spells_identifier (expectation : Expectation) :
    Spells (identifier settings expectation) (Written Identifier.tokens) := by
  intro s s' name _ h
  obtain ⟨phrase, -, hpass⟩ := identifier_ok h
  exact ⟨_, written _ phrase, hpass⟩

/-- A name spells identifiers with dots between them. -/
theorem spells_objectName : Spells (objectName settings) (Written Identifiers.dotted) := by
  intro s s' name _ h
  obtain ⟨names, -, hpass⟩ := objectName_ok h
  exact ⟨_, written _ names, hpass⟩

/-- A list of columns spells identifiers in parentheses. -/
theorem spells_columnList : Spells (columnList settings) (Written Identifiers.listed) := by
  intro s s' columns _ h
  obtain ⟨names, -, hpass⟩ := columnList_ok h
  exact ⟨_, written _ names, hpass⟩

/-- An optional list of columns spells identifiers in parentheses, or nothing. -/
theorem spells_optionalColumnList : Spells (optionalColumnList settings)
    (Written fun names : Option Identifiers => names.elim [] Identifiers.listed) := by
  intro s s' columns _ h
  obtain ⟨names, -, hpass⟩ := optionalColumnList_ok h
  exact ⟨_, ⟨names, rfl⟩, hpass⟩

/-- A modifier spells a number. -/
theorem spells_typeModifier : Spells typeModifier (Written Modifier.tokens) := by
  intro s s' value _ h
  obtain ⟨modifier, -, hpass⟩ := typeModifier_ok h
  exact ⟨_, written _ modifier, hpass⟩

/-- A data type spells a type that is written. -/
theorem spells_dataType : Spells (dataType settings) (Written TypePhrase.tokens) := by
  intro s s' value _ h
  obtain ⟨phrase, -, hpass⟩ := dataType_ok h
  exact ⟨_, written _ phrase, hpass⟩

/-- An expression spells an expression that is written. -/
theorem spells_expressionWithin (levels : Nat) :
    Spells (expressionWithin settings levels) (Written ExpressionPhrase.tokens) := by
  intro s s' value hc h
  obtain ⟨phrase, -, -, hpass⟩ := expressionWithin_ok levels hc h
  exact ⟨_, written _ phrase, hpass⟩

/-- The name of a constraint spells that name behind its keyword, or nothing. -/
theorem spells_constraintName? : Spells (constraintName? settings) (Written namingTokens) := by
  intro s s' name _ h
  obtain ⟨phrase, -, hpass⟩ := constraintName?_ok h
  exact ⟨_, written _ phrase, hpass⟩

/-- A collation spells a name behind its keyword, or nothing. -/
theorem spells_collation? :
    Spells (collation? settings) (Written ColumnPhrase.collationTokens) := by
  intro s s' collation _ h
  obtain ⟨names, -, hpass⟩ := collation?_ok h
  exact ⟨_, written _ names, hpass⟩

/-- An entry of a table spells an entry that is written. -/
theorem spells_tableEntry : Spells (tableEntry settings) (Written EntryPhrase.tokens) := by
  intro s s' entry hc h
  obtain ⟨phrase, -, -, hpass⟩ := tableEntry_ok hc h
  exact ⟨_, written _ phrase, hpass⟩

/-- A run of keywords that may be left out spells these keywords, or nothing. -/
theorem spells_keywordTokens (keywords : List Keyword) :
    Spells (consumeKeywords keywords)
      (Written fun given => Sentence.keywordTokens given keywords) := by
  intro s s' given _ h
  exact ⟨_, written _ given, keywordTokens_ok h⟩

/-- A statement spells a sentence. -/
theorem spells_openStatement :
    Spells (openStatement settings) (Written Sentence.tokens) := by
  intro s s' statement hc h
  obtain ⟨sentence, -, -, hpass⟩ := openStatement_ok hc h
  exact ⟨_, written _ sentence, hpass⟩

/-- A semicolon that may be left out spells a semicolon, or nothing. -/
theorem spells_endTokens : Spells (consume .semicolon) (Written endTokens) := by
  intro s s' semicolon _ h
  exact ⟨_, written _ semicolon, endTokens_ok h⟩

end SqlDdl.Grammar
