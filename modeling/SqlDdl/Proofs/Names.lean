import SqlDdl.Proofs.Steps

/-!
# Reading names in both directions

Identifiers, dotted names and lists of columns are read exactly where they are
written. A dotted name ends where no dot follows it; a list of columns ends with its
own parenthesis, and where it may be left out no parenthesis may follow.
-/

namespace SqlDdl.Grammar

variable {settings : Settings} {s s' : State} {rest : List Token}

/-- An identifier that was read is a word that is not empty. -/
theorem identifier_ok {expectation : Expectation} {name : String}
    (h : identifier settings expectation s = .ok name s') :
    ∃ phrase : Identifier, phrase.meaning settings = name ∧
      s.cursor.Passes phrase.tokens s'.cursor := by
  obtain ⟨token, s₁, hp, h⟩ := bind_ok h
  obtain ⟨ht, rfl⟩ := peek_ok hp
  cases token with
  | word word =>
    dsimp only at h
    split at h
    next => exact (reject_ok h).elim
    next he =>
      obtain ⟨token, s₂, hn, h⟩ := bind_ok h
      obtain ⟨hw, -, h₁⟩ := next_ok hn
      obtain ⟨rfl, rfl⟩ := pure_ok h
      rw [ht] at hw
      subst hw
      refine ⟨⟨word, fun hw => he ?_⟩, rfl, h₁ nofun⟩
      rw [hw]
      rfl
  | _ => exact (reject_ok h).elim

/-- An identifier is read where it stands. -/
theorem identifier_reads (settings : Settings) (expectation : Expectation) (phrase : Identifier)
    (h : s.cursor.ahead = phrase.tokens ++ rest) :
    Reads (identifier settings expectation) s phrase.tokens rest (phrase.meaning settings) := by
  obtain ⟨s₁, hn, h₁⟩ := next_reads (show _ = Token.word phrase.word :: _ from h) nofun
  refine ⟨s₁, ?_, h₁⟩
  rw [identifier, run_bind (run_peek h)]
  simp only [String.isEmpty_eq_false_iff.mpr phrase.nonempty, Bool.false_eq_true, if_false]
  rw [run_bind hn]
  rfl

/-- A name that was read is made of identifiers and dots. -/
theorem objectName_ok {name : ObjectName} (h : objectName settings s = .ok name s') :
    ∃ names : Identifiers, names.name settings = name ∧
      s.cursor.Passes names.dotted s'.cursor := by
  obtain ⟨parts, s₁, hs, h⟩ := bind_ok h
  obtain ⟨rfl, rfl⟩ := pure_ok h
  obtain ⟨first, others, rfl, h₁⟩ := separated_ok (by decide) identifier_ok hs
  exact ⟨⟨first, others⟩, rfl, h₁⟩

/-- A name is read where it stands, if no dot follows it. -/
theorem objectName_reads (settings : Settings) (names : Identifiers)
    (hr : rest.headD .eof ≠ .period)
    (h : s.cursor.ahead = names.dotted ++ rest) :
    Reads (objectName settings) s names.dotted rest (names.name settings) := by
  obtain ⟨s₁, hs, h₁⟩ := separated_reads (by decide)
    (fun phrase => identifier_reads settings .identifier phrase) hr h
  refine ⟨s₁, ?_, h₁⟩
  rw [objectName, run_bind hs]
  rfl

/-- Columns behind an opening parenthesis that were read are made of identifiers, commas and
the closing parenthesis. -/
theorem columnNames_ok {columns : List String} (h : columnNames settings s = .ok columns s') :
    ∃ names : Identifiers, names.texts settings = columns ∧
      s.cursor.Passes (joined .comma (names.toList.map Identifier.tokens) ++ [.rightParen])
        s'.cursor := by
  obtain ⟨found, s₁, hs, h⟩ := bind_ok h
  obtain ⟨first, others, rfl, h₁⟩ := separated_ok (by decide) identifier_ok hs
  obtain ⟨_, s₂, hr, h⟩ := bind_ok h
  obtain ⟨rfl, rfl⟩ := pure_ok h
  exact ⟨⟨first, others⟩, rfl, h₁.trans (require_ok hr (by decide))⟩

/-- Columns behind an opening parenthesis are read where they stand. -/
theorem columnNames_reads (settings : Settings) (names : Identifiers)
    (h : s.cursor.ahead =
      joined .comma (names.toList.map Identifier.tokens) ++ .rightParen :: rest) :
    Reads (columnNames settings) s
      (joined .comma (names.toList.map Identifier.tokens) ++ [.rightParen]) rest
      (names.texts settings) := by
  have hr : (Token.rightParen :: rest).headD .eof ≠ .comma := nofun
  obtain ⟨s₁, hs, h₁, ha₁⟩ := separated_reads (by decide)
    (fun phrase => identifier_reads settings .columnName phrase)
    hr h
  obtain ⟨s₂, hr, h₂, ha₂⟩ := require_reads ha₁ (by decide)
  refine ⟨s₂, ?_, h₁.trans h₂, ha₂⟩
  rw [columnNames, run_bind hs, run_bind hr]
  rfl

/-- A list of columns that was read stands in parentheses. -/
theorem columnList_ok {columns : List String} (h : columnList settings s = .ok columns s') :
    ∃ names : Identifiers, names.texts settings = columns ∧
      s.cursor.Passes names.listed s'.cursor := by
  obtain ⟨found, s₁, hc, h⟩ := bind_ok h
  rcases consume_ok hc (by decide) with ⟨rfl, h₁⟩ | ⟨rfl, rfl⟩
  · obtain ⟨names, rfl, h₂⟩ := columnNames_ok h
    exact ⟨names, rfl, h₁.trans h₂⟩
  · exact (reject_ok h).elim

/-- The columns of a list behind its opening parenthesis. -/
theorem listed_append (names : Identifiers) (rest : List Token) :
    names.listed ++ rest = .leftParen ::
      (joined .comma (names.toList.map Identifier.tokens) ++ .rightParen :: rest) := by
  rw [Identifiers.listed, List.append_assoc]
  rfl

/-- A list of columns is read where it stands. -/
theorem columnList_reads (settings : Settings) (names : Identifiers)
    (h : s.cursor.ahead = names.listed ++ rest) :
    Reads (columnList settings) s names.listed rest (names.texts settings) := by
  rw [listed_append] at h
  obtain ⟨s₁, hc, h₁, ha₁⟩ := consume_reads h (by decide)
  obtain ⟨s₂, hn, h₂, ha₂⟩ := columnNames_reads settings names ha₁
  refine ⟨s₂, ?_, h₁.trans h₂, ha₂⟩
  rw [columnList, run_bind hc]
  exact hn

/-- An optional list of columns that was read stands in parentheses or nowhere. -/
theorem optionalColumnList_ok {columns : List String}
    (h : optionalColumnList settings s = .ok columns s') :
    ∃ names : Option Identifiers, names.elim [] (·.texts settings) = columns ∧
      s.cursor.Passes (names.elim [] Identifiers.listed) s'.cursor := by
  obtain ⟨found, s₁, hc, h⟩ := bind_ok h
  rcases consume_ok hc (by decide) with ⟨rfl, h₁⟩ | ⟨rfl, rfl⟩
  · obtain ⟨names, rfl, h₂⟩ := columnNames_ok h
    exact ⟨some names, rfl, h₁.trans h₂⟩
  · obtain ⟨rfl, rfl⟩ := pure_ok h
    exact ⟨none, rfl, .refl _⟩

/-- An optional list of columns is read where it stands, and nothing where no parenthesis
follows. -/
theorem optionalColumnList_reads (settings : Settings) (names : Option Identifiers)
    (hr : rest.headD .eof ≠ .leftParen)
    (h : s.cursor.ahead = names.elim [] Identifiers.listed ++ rest) :
    Reads (optionalColumnList settings) s (names.elim [] Identifiers.listed) rest
      (names.elim [] (·.texts settings)) := by
  cases names with
  | none =>
    have hp : s.cursor.peek ≠ .leftParen := peek_eq_headD h ▸ hr
    refine ⟨s, ?_, .refl _, h⟩
    rw [optionalColumnList, run_bind (consume_miss hp)]
    rfl
  | some names =>
    rw [Option.elim_some, listed_append] at h
    obtain ⟨s₁, hc, h₁, ha₁⟩ := consume_reads h (by decide)
    obtain ⟨s₂, hn, h₂, ha₂⟩ := columnNames_reads settings names ha₁
    refine ⟨s₂, ?_, h₁.trans h₂, ha₂⟩
    rw [optionalColumnList, run_bind hc]
    exact hn

end SqlDdl.Grammar
