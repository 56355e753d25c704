import SqlDdl.Proofs.Stops

/-!
# Where the grammar stops

Every part of the grammar stops in the phrases that it spells. What a part begins can
be completed because there is a phrase of every kind. Two errors point back: that a
clause stands twice is found behind the clause and points to where it begins.
-/

namespace SqlDdl

instance : Inhabited Identifier := ⟨⟨⟨"a", false⟩, by decide⟩⟩

instance : Inhabited Identifiers := ⟨⟨default, []⟩⟩

instance : Inhabited Modifier := ⟨⟨"1", 1, by decide +kernel⟩⟩

instance : Inhabited TypePhrase := ⟨.custom ⟨⟨⟨"a", true⟩, by decide⟩, []⟩ (.inl rfl)⟩

instance : Inhabited ExpressionPhrase := ⟨.literal .null⟩

instance : Inhabited ReferencePhrase := ⟨⟨default, none, []⟩⟩

instance : Inhabited OptionPhrase := ⟨.null⟩

instance : Inhabited EntryPhrase := ⟨.null none⟩

instance : Inhabited Sentence := ⟨.createSchema false default⟩

namespace Grammar

variable {settings : Settings} {spelled : List Token → Prop}

/-- An identifier stops before its word. -/
theorem identifier_stops (expectation : Expectation) :
    Stops (identifier settings expectation) (Written Identifier.tokens) := by
  have hreject : Stops (reject expectation : Reading String) (Written Identifier.tokens) :=
    .reject (exists_written _)
  refine Stops.peek_bind fun token => ?_
  cases token with
  | word word =>
    dsimp only
    split
    · exact hreject.before _
    · exact .done fun s => ⟨_, s, rfl⟩
  | _ => exact hreject.before _

/-- A name stops in a name. -/
theorem objectName_stops : Stops (objectName settings) (Written Identifiers.dotted) := by
  refine Stops.map ?_ fun parts s => ⟨_, s, rfl⟩
  refine (Stops.separated (identifier_stops _) (spells_identifier _) (by decide)).mono ?_
  rintro _ ⟨⟨first, others⟩, rfl⟩
  exact ⟨⟨first, others⟩, rfl⟩

/-- A required token at the end of a reading is refused where another one stands. -/
theorem closing_stops {α : Type} {token : Token} (ht : token ≠ .eof) (a : α) :
    Stops (do require token; return a) (Written fun _ : Unit => [token]) :=
  .map (.require ht) fun _ s => ⟨a, s, rfl⟩

/-- Columns behind an opening parenthesis stop in a list of columns. -/
theorem columnNames_stops : Stops (columnNames settings) (Written fun names : Identifiers =>
    joined .comma (names.toList.map Identifier.tokens) ++ [.rightParen]) := by
  have hlist : Spells (separated (identifier settings .columnName) .comma)
      (Written fun list : Identifier × List Identifier =>
        joined .comma ((list.1 :: list.2).map Identifier.tokens)) := by
    intro s s' columns _ h
    obtain ⟨first, others, -, hpass⟩ := separated_ok (by decide) identifier_ok h
    exact ⟨_, ⟨(first, others), rfl⟩, hpass⟩
  refine (Stops.andThen (.separated (identifier_stops _) (spells_identifier _) (by decide)) hlist
    fun columns => closing_stops (by decide) columns).mono ?_
  rintro _ ⟨⟨⟨first, others⟩, _⟩, rfl⟩
  exact ⟨⟨first, others⟩, rfl⟩

/-- A list of columns stops in a list of columns. -/
theorem columnList_stops : Stops (columnList settings) (Written Identifiers.listed) := by
  refine .choose (by decide) columnNames_stops ?_ (.reject (exists_written _))
  rintro _ ⟨names, rfl⟩
  exact ⟨names, rfl⟩

/-- An optional list of columns stops in a list of columns. -/
theorem optionalColumnList_stops : Stops (optionalColumnList settings)
    (Written fun names : Option Identifiers => names.elim [] Identifiers.listed) := by
  refine .choose (by decide) columnNames_stops ?_ (.pure _)
  rintro _ ⟨names, rfl⟩
  exact ⟨some names, rfl⟩

/-- A modifier stops before its number. -/
theorem typeModifier_stops : Stops typeModifier (Written Modifier.tokens) := by
  have hreject : Stops (reject .typeModifier : Reading UInt32) (Written Modifier.tokens) :=
    .reject (exists_written _)
  refine Stops.peek_bind fun token => ?_
  cases token with
  | number text =>
    dsimp only
    split
    · exact .done fun s => ⟨_, s, rfl⟩
    · exact hreject.before _
  | _ => exact hreject.before _

/-- A length stops in a length. -/
theorem typeLength_stops : Stops typeLength (Written lengthTokens) := by
  refine .choose (by decide) (.andThen typeModifier_stops spells_typeModifier fun length =>
    closing_stops (by decide) (some length)) ?_ (.pure _)
  rintro _ ⟨⟨length, _⟩, rfl⟩
  exact ⟨some length, rfl⟩

/-- A precision stops in a precision, with a scale or without. -/
theorem numericModifiers_stops : Stops numericModifiers (Written numericTokens) := by
  have hclose : ∀ values : Option UInt32 × Option UInt32,
      Stops (do require .rightParen; return values) (Written fun _ : Unit => [.rightParen]) :=
    closing_stops (by decide)
  have hscale : Stops (some <$> typeModifier) (Written Modifier.tokens) :=
    .map typeModifier_stops fun _ s => ⟨_, s, rfl⟩
  have hspells : Spells (some <$> typeModifier) (Written Modifier.tokens) := by
    intro s s' value hc h
    obtain ⟨_, s₁, hm, h⟩ := bind_ok h
    cases h
    exact spells_typeModifier hc hm
  have htail : ∀ precision : UInt32,
      Stops (do
        let scale ← if ← consume .comma then some <$> typeModifier else Pure.pure none
        require .rightParen
        return (some precision, scale))
      (Written fun scale : Option Modifier =>
        scale.elim [.rightParen] fun scale => .comma :: (scale.tokens ++ [.rightParen])) := by
    refine fun precision => Stops.choose (by decide) (.andThen hscale hspells fun scale =>
      hclose (some precision, scale)) ?_ ((hclose (some precision, none)).mono ?_)
    · rintro _ ⟨⟨scale, _⟩, rfl⟩
      exact ⟨some scale, rfl⟩
    · rintro _ ⟨_, rfl⟩
      exact ⟨none, rfl⟩
  refine .choose (by decide) (.andThen typeModifier_stops spells_typeModifier htail) ?_ (.pure _)
  rintro _ ⟨⟨precision, _ | scale⟩, rfl⟩
  · exact ⟨some ⟨precision, none⟩, rfl⟩
  · exact ⟨some ⟨precision, some scale⟩, rfl⟩

/-- The rest of a built-in type stops in the rest of a type that begins with its word. -/
theorem typeRest_stops {head : TypeHead} (word : TypeWord head) :
    Stops (typeRest head) fun ts =>
      ∃ phrase : TypePhrase, phrase.tokens = .word word.word :: ts := by
  cases head with
  | plain dataType => exact .pure _
  | float =>
    refine (Stops.map typeLength_stops fun _ s => ⟨_, s, rfl⟩).mono ?_
    rintro _ ⟨length, rfl⟩
    exact ⟨.float word length, rfl⟩
  | double =>
    refine Stops.peek_bind fun token => ?_
    split
    · exact (Stops.of_ok fun s => ⟨_, _, rfl⟩).before _
    · exact (Stops.reject ⟨_, .double word ⟨⟨"PRECISION", false⟩, by decide⟩, rfl⟩).before _
  | numeric =>
    refine (Stops.map numericModifiers_stops fun _ s => ⟨_, s, rfl⟩).mono ?_
    rintro _ ⟨modifiers, rfl⟩
    exact ⟨.numeric word modifiers, rfl⟩
  | varchar =>
    refine (Stops.map typeLength_stops fun _ s => ⟨_, s, rfl⟩).mono ?_
    rintro _ ⟨length, rfl⟩
    exact ⟨.varchar word length, rfl⟩
  | character =>
    have hlength : ∀ f : Option UInt32 → DataType,
        Stops (do return f (← typeLength)) (Written lengthTokens) := fun f =>
      .map typeLength_stops fun _ s => ⟨_, s, rfl⟩
    refine Stops.peek_bind fun token => ?_
    split
    next hw =>
      obtain ⟨second, rfl⟩ := isWordNamed_iff.mp hw
      refine .read nofun (hlength _) ?_
      rintro _ ⟨length, rfl⟩
      exact ⟨.varying word second length, rfl⟩
    next =>
      refine ((hlength _).mono ?_).before _
      rintro _ ⟨length, rfl⟩
      exact ⟨.character word length, rfl⟩

/-- The name of a type that is not built in stops in such a type. -/
theorem customType_stops {word : Word} (hh : typeHead? word = none) :
    StopsAt (.word word) (do return DataType.custom (← objectName settings))
      (Written TypePhrase.tokens) := by
  intro s s' error hc hp hfail
  have hname : Stops (do return DataType.custom (← objectName settings))
      (Written Identifiers.dotted) := .map objectName_stops fun _ s => ⟨_, s, rfl⟩
  obtain ⟨ts, hb, rest, names, hn⟩ := hname _ _ _ hc hfail
  cases ts with
  | nil => exact ⟨[], hb, exists_written _⟩
  | cons first others =>
    -- The name that was begun begins with the current word, which is no built-in type.
    obtain ⟨behind, ha⟩ := hb.ahead
    have hfirst : first = .word word := (Cursor.peek_of_ahead ha.symm).symm.trans hp
    have hword : names.first.word = word := by
      rw [hfirst] at hn
      exact Token.word.inj (Option.some.inj (congrArg List.head? hn))
    refine ⟨_, hb, rest, .custom names ?_, hn⟩
    rw [hword]
    exact typeHead?_eq_none_iff.mp hh

/-- A data type stops in a data type. -/
theorem dataType_stops : Stops (dataType settings) (Written TypePhrase.tokens) := by
  refine Stops.peek_bind fun token => ?_
  cases token with
  | word word =>
    dsimp only
    split
    next head hh =>
      obtain ⟨hq, hk⟩ := typeHead?_eq_some_iff.mp hh
      exact .read nofun (typeRest_stops ⟨word, hq, hk⟩) fun _ h => h
    next hh => exact customType_stops hh
  | _ => exact (Stops.reject (exists_written _)).before _

/-- The limit of nesting is reached before the first token of a level. -/
theorem rejectDepth_stops {α : Type} (h : ∃ ts, spelled ts) :
    Stops (rejectDepth settings : Reading α) spelled := by
  intro s s' error hc hfail
  cases hfail
  exact ⟨[], .here ⟨_, hc.entry⟩, h⟩

/-- A level of its own stops where what is read one level deeper does, or before its first
token. -/
theorem nested_stops {level : Reading Expression} (hl : Stops level spelled)
    (h : ∃ ts, spelled ts) : Stops (nested settings level) spelled := by
  intro s s' error hc hfail
  rw [nested] at hfail
  split at hfail
  next =>
    split at hfail
    next => cases hfail
    next he =>
      cases hfail
      exact hl { s with nesting := s.nesting + 1 } _ _ hc he
  next => exact rejectDepth_stops h _ _ _ hc hfail

/-- An identifier, or a call where a parenthesis follows it, stops in such an expression. -/
theorem identifierOrCall_stops {inner : Reading Expression}
    (hi : Stops inner (Written ExpressionPhrase.tokens))
    (hs : Spells inner (Written ExpressionPhrase.tokens)) :
    Stops (do
      let name ← identifier settings .identifier
      if ← consume .leftParen then return Expression.call name (← arguments inner)
      else return Expression.identifier name)
    (Written ExpressionPhrase.tokens) := by
  have hcall : ∀ name : String, Stops (do
      if ← consume .leftParen then return Expression.call name (← arguments inner)
      else return Expression.identifier name)
      (Written fun phrases : Option (List ExpressionPhrase) => phrases.elim [] fun phrases =>
        .leftParen :: (joined .comma (phrases.map ExpressionPhrase.tokens) ++ [.rightParen])) := by
    intro name
    refine .choose (by decide) (.map (.listRest hi hs _) fun _ s => ⟨_, s, rfl⟩) ?_ (.pure _)
    rintro _ ⟨phrases, rfl⟩
    exact ⟨some phrases, rfl⟩
  refine (Stops.andThen (identifier_stops _) (spells_identifier _) hcall).mono ?_
  rintro _ ⟨⟨name, _ | phrases⟩, rfl⟩
  · exact ⟨.identifier name, (List.append_nil _).symm⟩
  · refine ⟨.call name phrases, ?_⟩
    rw [ExpressionPhrase.tokens, ExpressionPhrase.tokensOfEach_eq_map, List.append_assoc]
    rfl

/-- One level of an expression stops in an expression, if what it nests does. -/
theorem operand_stops {inner : Reading Expression}
    (hi : Stops inner (Written ExpressionPhrase.tokens))
    (hs : Spells inner (Written ExpressionPhrase.tokens)) :
    Stops (operand settings inner) (Written ExpressionPhrase.tokens) := by
  have hdone : ∀ {f : Token → Reading Expression} {token : Token},
      (∀ s, ∃ a s', f token s = .ok a s') →
        StopsAt token (next >>= f) (Written ExpressionPhrase.tokens) := .done
  refine Stops.here_bind fun start => .next_bind fun token => ?_
  cases token with
  | number text => exact hdone fun s => ⟨_, s, rfl⟩
  | string text => exact hdone fun s => ⟨_, s, rfl⟩
  | minus =>
    refine .read nofun (.map hi fun _ s => ⟨_, s, rfl⟩) ?_
    rintro _ ⟨phrase, rfl⟩
    exact ⟨.negate phrase, rfl⟩
  | leftParen =>
    refine .read nofun (.andThen hi hs fun value => closing_stops (by decide) value) ?_
    rintro _ ⟨⟨phrase, _⟩, rfl⟩
    exact ⟨.group phrase, rfl⟩
  | word word => exact .back rfl (identifierOrCall_stops hi hs)
  | keyword keyword =>
    cases keyword with
    | null => exact hdone fun s => ⟨_, s, rfl⟩
    | true => exact hdone fun s => ⟨_, s, rfl⟩
    | false => exact hdone fun s => ⟨_, s, rfl⟩
    | _ => exact .refuse (exists_written _) rfl
  | _ => exact .refuse (exists_written _) rfl

/-- An expression stops in an expression. -/
theorem expressionWithin_stops (levels : Nat) :
    Stops (expressionWithin settings levels) (Written ExpressionPhrase.tokens) := by
  induction levels with
  | zero => exact rejectDepth_stops (exists_written _)
  | succ levels ih =>
    exact nested_stops (operand_stops ih (spells_expressionWithin levels)) (exists_written _)

/-- A referential action stops in a referential action. -/
theorem referentialAction_stops :
    Stops referentialAction (Written ReferentialAction.tokens) := by
  refine Stops.next_bind fun token => ?_
  cases token with
  | keyword keyword =>
    cases keyword with
    | restrict => exact .done fun s => ⟨_, s, rfl⟩
    | cascade => exact .done fun s => ⟨_, s, rfl⟩
    | «set» =>
      have hreject : Stops (reject .afterSet : Reading ReferentialAction) fun ts =>
          Written ReferentialAction.tokens (.keyword .«set» :: ts) :=
        .reject ⟨_, .setNull, rfl⟩
      exact .read nofun (.choose_done (by decide) (fun s => ⟨_, s, rfl⟩)
        (.choose_done (by decide) (fun s => ⟨_, s, rfl⟩) hreject)) fun _ h => h
    | no =>
      refine .read nofun (closing_stops (by decide) _) ?_
      rintro _ ⟨_, rfl⟩
      exact ⟨.noAction, rfl⟩
    | _ => exact .refuse ⟨_, .cascade, rfl⟩ rfl
  | _ => exact .refuse ⟨_, .cascade, rfl⟩ rfl

/-- A clause that stands twice is refused where it begins. -/
theorem duplicate_breaks {s : State} (hc : s.cursor.Closed) (clause : Clause) :
    s.cursor.Breaks [] (.duplicateClause clause s.cursor.position) :=
  .here ⟨_, hc.entry⟩

/-- The action of a clause is refused where the clause begins, if an action was given before, and
else stops in a clause. -/
theorem clauseAction_stops (occasion : Occasion) {s s₂ s' : State} {error : Error} {given : Bool}
    {clause : Clause} {f : ReferentialAction → ForeignKey} (hc : s.cursor.Closed)
    (hpass : s.cursor.Passes [.keyword .on, .keyword occasion.keyword] s₂.cursor)
    (hfail : (do
      if given then fail (.duplicateClause clause s.cursor.position)
      return Sum.inl (β := ForeignKey) (f (← referentialAction))) s₂ =
        .error (.error error) s') :
    ∃ ts, s.cursor.Breaks ts error ∧ ∃ rest,
      Written (fun clauses : List ActionClause => clauses.flatMap ActionClause.tokens)
        (ts ++ rest) := by
  cases given with
  | true =>
    rcases bind_error hfail with hfail | ⟨_, _, hok, -⟩
    · cases hfail
      exact ⟨[], duplicate_breaks hc clause, [], [], rfl⟩
    · cases hok
  | false =>
    have haction : Stops (do return Sum.inl (β := ForeignKey) (f (← referentialAction)))
        (Written ReferentialAction.tokens) := .map referentialAction_stops fun _ s => ⟨_, s, rfl⟩
    obtain ⟨ts, hb, rest, action, ha⟩ := haction _ _ _ (hpass.closed hc) hfail
    refine ⟨_, hpass.breaks hb, rest, [⟨occasion, action⟩], ?_⟩
    calc [ActionClause.mk occasion action].flatMap ActionClause.tokens
      _ = .keyword .on :: .keyword occasion.keyword :: action.tokens := List.append_nil _
      _ = .keyword .on :: .keyword occasion.keyword :: (ts ++ rest) := by rw [ha]

/-- A clause of a reference stops in a clause, or where it begins if its action was given
before. -/
theorem referenceClause_stops (reference : ForeignKey) :
    Stops (referenceClause reference)
      (Written fun clauses : List ActionClause => clauses.flatMap ActionClause.tokens) := by
  intro s s' error hc hfail
  obtain ⟨found, s₁, hon, hfail⟩ := bind_error_of_ok (consume_total _) hfail
  rcases consume_ok hon (by decide) with ⟨rfl, h₁⟩ | ⟨rfl, rfl⟩
  · change (consumeKeyword .delete >>= _) s₁ = _ at hfail
    rw [h₁.previousPosition] at hfail
    obtain ⟨found, s₂, hd, hfail⟩ := bind_error_of_ok (consume_total _) hfail
    rcases consume_ok hd (by decide) with ⟨rfl, h₂⟩ | ⟨rfl, rfl⟩
    · exact clauseAction_stops .delete hc (h₁.trans h₂) hfail
    · obtain ⟨found, s₂, hu, hfail⟩ := bind_error_of_ok (consume_total _) hfail
      rcases consume_ok hu (by decide) with ⟨rfl, h₂⟩ | ⟨rfl, rfl⟩
      · exact clauseAction_stops .update hc (h₁.trans h₂) hfail
      · cases hfail
        have hhere := h₁.breaks (.here ((h₁.closed hc).pointsAt_expected .afterOn))
        exact ⟨_, hhere, [.keyword .delete, .keyword .cascade], [⟨.delete, .cascade⟩], rfl⟩
  · cases hfail

/-- A foreign key stops in a reference. -/
theorem foreignKey_stops : Stops (foreignKey settings) (Written ReferencePhrase.tokens) := by
  have hclauses : ∀ reference, Stops (repeatStep referenceClause reference)
      (Written fun clauses : List ActionClause => clauses.flatMap ActionClause.tokens) := by
    refine Stops.repeatStep referenceClause_stops ?_
    intro reference reference' s s' _ h
    rcases referenceClause_ok h with ⟨he, -⟩ | ⟨clause, -, -, hpass⟩
    · cases he
    · refine ⟨_, hpass, ?_⟩
      rintro _ ⟨clauses, rfl⟩
      exact ⟨clause :: clauses, rfl⟩
  refine (Stops.andThen objectName_stops spells_objectName fun table =>
    .andThen optionalColumnList_stops spells_optionalColumnList fun columns =>
      hclauses _).mono ?_
  rintro _ ⟨⟨table, columns, clauses⟩, rfl⟩
  exact ⟨⟨table, columns, clauses⟩, rfl⟩

/-- The name of a constraint stops behind its keyword. -/
theorem constraintName?_stops :
    Stops (constraintName? settings) (Written namingTokens) := by
  refine .choose (by decide) (.map (identifier_stops _) fun _ s => ⟨_, s, rfl⟩) ?_ (.pure _)
  rintro _ ⟨name, rfl⟩
  exact ⟨some name, rfl⟩

/-- A constraint whose kind and columns were read is always finished. -/
theorem finishTableConstraint_total (constraint : Constraint) (s : State) :
    ∃ result s', finishTableConstraint constraint s = .ok result s' := by
  refine bind_total (fun s => ?_) (fun _ s => ⟨_, _, rfl⟩) s
  rw [constraintAttributes_eq]
  refine bind_total (bind_total (consumeKeywords_total _) fun found => ?_) (fun _ => ?_) s
  · cases found with
    | true => exact fun s => ⟨_, s, rfl⟩
    | false => exact consume_total _
  · refine bind_total (bind_total (consumeKeywords_total _) fun found => ?_) fun _ => ?_
    · cases found with
      | true => exact fun s => ⟨_, s, rfl⟩
      | false => exact bind_total (consumeKeywords_total _) fun _ s => ⟨_, s, rfl⟩
    · exact bind_total (consumeKeywords_total _) fun _ s => ⟨_, s, rfl⟩

/-- Another token than the first of a constraint is refused behind a name and else left. -/
theorem absentConstraint_stops {name : Option String} {token : Token}
    {f : Token → Reading TableConstraint} (h : ∃ ts, spelled ts)
    (hf : f token = if name.isSome then rejectRead .namedConstraint token
      else do rewind; return .absent) : StopsAt token (next >>= f) spelled := by
  cases hn : name.isSome with
  | true =>
    rw [hn] at hf
    exact .refuse h hf
  | false =>
    rw [hn] at hf
    exact .back hf (.pure _)

/-- What stands behind the name of a table constraint: the constraint with its attributes, or the
one that declares nothing. -/
def unnamedTokens : Option (ConstraintPhrase × AttributesPhrase) → List Token
  | none => [.keyword .null]
  | some (phrase, attributes) => phrase.tokens ++ attributes.tokens

/-- A constraint may stand behind a name without attributes. -/
theorem written_constraint (phrase : ConstraintPhrase) : Written unnamedTokens phrase.tokens :=
  ⟨some (phrase, ⟨none, none, false⟩), List.append_nil _⟩

/-- A table constraint stops in an entry that is one. -/
theorem tableConstraint_stops :
    Stops (tableConstraint settings) (Written EntryPhrase.tokens) := by
  have hboth : Stops (tableConstraint settings)
      (Written fun both : Option Identifier × Option (ConstraintPhrase × AttributesPhrase) =>
        namingTokens both.1 ++ unnamedTokens both.2) := by
    refine Stops.here_bind fun entered => ?_
    refine Stops.andThen constraintName?_stops spells_constraintName? fun name => ?_
    have hcolumns : ∀ kind, Stops
        (do finishTableConstraint (.plain name kind (← columnList settings)))
        (Written Identifiers.listed) := fun kind =>
      .map columnList_stops fun _ => finishTableConstraint_total _
    refine Stops.here_bind fun start => .next_bind fun token => ?_
    have hrefuse : ∃ ts, Written unnamedTokens ts := exists_written _
    cases token with
    | keyword keyword =>
      cases keyword with
      | not =>
        refine .read nofun (.map (.require (by decide)) fun _ => finishTableConstraint_total _) ?_
        rintro _ ⟨_, rfl⟩
        exact written_constraint .notNull
      | null => exact .done fun s => ⟨_, s, rfl⟩
      | primary =>
        refine .read nofun (.andThen (.require (by decide)) (spells_require (by decide)) fun _ =>
          hcolumns .primaryKey) ?_
        rintro _ ⟨⟨_, columns⟩, rfl⟩
        exact written_constraint (.primaryKey columns)
      | unique =>
        refine .read nofun (hcolumns .unique) ?_
        rintro _ ⟨columns, rfl⟩
        exact written_constraint (.unique columns)
      | foreign =>
        refine .read nofun (.andThen (.require (by decide)) (spells_require (by decide)) fun _ =>
          .andThen columnList_stops spells_columnList fun columns =>
            .andThen (.require (by decide)) (spells_require (by decide)) fun _ =>
              .map foreignKey_stops fun _ => finishTableConstraint_total _) ?_
        rintro _ ⟨⟨_, columns, _, reference⟩, rfl⟩
        exact written_constraint (.foreignKey columns reference)
      | check => exact .unsupported hrefuse rfl
      | _ => exact absentConstraint_stops hrefuse rfl
    | _ => exact absentConstraint_stops hrefuse rfl
  refine hboth.mono ?_
  rintro _ ⟨⟨name, _ | ⟨phrase, attributes⟩⟩, rfl⟩
  · exact ⟨.null name, rfl⟩
  · exact ⟨.constraint name phrase attributes, rfl⟩

/-- An option of a column stops in an option. -/
theorem columnOption_stops :
    Stops (columnOption settings) (Written NamedOptionPhrase.tokens) := by
  have hboth : Stops (columnOption settings)
      (Written fun both : Option Identifier × OptionPhrase =>
        namingTokens both.1 ++ both.2.tokens) := by
    refine Stops.andThen constraintName?_stops spells_constraintName? fun name => ?_
    refine Stops.next_bind fun token => ?_
    have hrefuse : ∃ ts, Written OptionPhrase.tokens ts := ⟨_, .null, rfl⟩
    cases token with
    | keyword keyword =>
      cases keyword with
      | not =>
        refine .read nofun (closing_stops (by decide) _) ?_
        rintro _ ⟨_, rfl⟩
        exact ⟨.notNull, rfl⟩
      | null => exact .done fun s => ⟨_, s, rfl⟩
      | default =>
        refine .read nofun (.map (expressionWithin_stops _) fun _ s => ⟨_, s, rfl⟩) ?_
        rintro _ ⟨value, rfl⟩
        exact ⟨.default value, rfl⟩
      | primary =>
        refine .read nofun (closing_stops (by decide) _) ?_
        rintro _ ⟨_, rfl⟩
        exact ⟨.primaryKey, rfl⟩
      | unique => exact .done fun s => ⟨_, s, rfl⟩
      | references =>
        refine .read nofun (.map foreignKey_stops fun _ s => ⟨_, s, rfl⟩) ?_
        rintro _ ⟨reference, rfl⟩
        exact ⟨.references reference, rfl⟩
      | check => exact .unsupported hrefuse rfl
      | _ => exact .refuse hrefuse rfl
    | _ => exact .refuse hrefuse rfl
  refine hboth.mono ?_
  rintro _ ⟨⟨name, option⟩, rfl⟩
  exact ⟨⟨name, option⟩, rfl⟩

/-- A step through the options of a column stops in an option. -/
theorem columnStep_stops (found : List NamedOption) :
    Stops (columnStep settings found) (Written fun options : List NamedOptionPhrase =>
      options.flatMap NamedOptionPhrase.tokens) := by
  refine Stops.peek_bind fun token => ?_
  split
  next => exact (Stops.pure _).before _
  next =>
    refine Stops.before (fun s s' error hc hfail => ?_) _
    change (columnOption settings >>= _) s = _ at hfail
    rcases bind_error hfail with hfail | ⟨named, s₁, -, hfail⟩
    · obtain ⟨ts, hb, rest, option, ho⟩ := columnOption_stops _ _ _ hc hfail
      exact ⟨ts, hb, rest, [option], (List.append_nil _).trans ho⟩
    · -- A second default is found behind its option and refused where that begins.
      split at hfail
      next =>
        cases hfail
        exact ⟨[], duplicate_breaks hc .default, [], [], rfl⟩
      next => cases hfail

/-- The options of a column stop in a run of options. -/
theorem columnOptions_stops : Stops (repeatStep (columnStep settings) [])
    (Written fun options : List NamedOptionPhrase =>
      options.flatMap NamedOptionPhrase.tokens) := by
  refine Stops.repeatStep columnStep_stops ?_ []
  intro found found' s s' hc h
  rcases columnStep_ok hc h with ⟨he, -⟩ | ⟨phrase, -, -, -, hpass⟩
  · cases he
  · refine ⟨_, hpass, ?_⟩
    rintro _ ⟨options, rfl⟩
    exact ⟨phrase :: options, rfl⟩

/-- A collation stops in a name behind its keyword. -/
theorem collation?_stops :
    Stops (collation? settings) (Written ColumnPhrase.collationTokens) := by
  refine .choose (by decide) (.map objectName_stops fun _ s => ⟨_, s, rfl⟩) ?_ (.pure _)
  rintro _ ⟨names, rfl⟩
  exact ⟨some names, rfl⟩

/-- A column stops in a column. -/
theorem columnEntry_stops :
    Stops (columnEntry settings) (Written ColumnPhrase.tokens) := by
  refine (Stops.andThen (identifier_stops _) (spells_identifier _) fun name =>
    .andThen dataType_stops spells_dataType fun dataType =>
      .andThen collation?_stops spells_collation? fun collation =>
        .map columnOptions_stops fun _ s => ⟨_, _, rfl⟩).mono ?_
  rintro _ ⟨⟨name, dataType, collation, options⟩, rfl⟩
  exact ⟨⟨name, dataType, collation, options⟩, rfl⟩

/-- An entry of a table stops in an entry. -/
theorem tableEntry_stops : Stops (tableEntry settings) (Written EntryPhrase.tokens) := by
  intro s s' error hc hfail
  rcases bind_error hfail with hfail | ⟨result, s₁, ht, hfail⟩
  · exact tableConstraint_stops _ _ _ hc hfail
  · cases result with
    | found declared => cases hfail
    | discarded => cases hfail
    | absent =>
      have hpass : s.cursor.Passes [] s₁.cursor := tableConstraint_ok hc ht
      have hcolumn : Stops (do return TableEntry.column (← columnEntry settings))
          (Written EntryPhrase.tokens) := by
        refine (Stops.map columnEntry_stops fun _ s => ⟨_, s, rfl⟩).mono ?_
        rintro _ ⟨column, rfl⟩
        exact ⟨.column column, rfl⟩
      have hword : Stops (do
          if (← peek).isWord then return TableEntry.column (← columnEntry settings)
          else reject .tableEntry) (Written EntryPhrase.tokens) := by
        refine Stops.peek_bind fun token => ?_
        split
        next => exact hcolumn.before _
        next => exact (Stops.reject (exists_written _)).before _
      obtain ⟨ts, hb, rest⟩ := hword _ _ _ (hpass.closed hc) hfail
      exact ⟨ts, hpass.breaks hb, rest⟩

/-- The entries of a table stop in a list of entries. -/
theorem tableEntries_stops :
    Stops (tableEntries settings) (Written Sentence.entryTokens) := by
  rw [tableEntries_eq]
  refine .choose (by decide) (.listRest tableEntry_stops spells_tableEntry _) ?_ (.pure _)
  rintro _ ⟨entries, rfl⟩
  exact ⟨some entries, rfl⟩

/-- The creation of a table stops in such a sentence. -/
theorem createTable_stops :
    Stops (createTable settings) fun ts =>
      Written Sentence.tokens (.keyword .create :: .keyword .table :: ts) := by
  refine (Stops.andThen (.consumeKeywords _) (spells_keywordTokens _) fun ifNotExists =>
    .andThen objectName_stops spells_objectName fun name =>
      .map tableEntries_stops fun _ s => ⟨_, _, rfl⟩).mono ?_
  rintro _ ⟨⟨ifNotExists, name, entries⟩, rfl⟩
  exact ⟨.createTable ifNotExists name entries, rfl⟩

/-- The creation of a schema stops in such a sentence. -/
theorem createSchema_stops :
    Stops (createSchema settings) fun ts =>
      Written Sentence.tokens (.keyword .create :: .keyword .schema :: ts) := by
  refine (Stops.andThen (.consumeKeywords _) (spells_keywordTokens _) fun ifNotExists =>
    .map objectName_stops fun _ s => ⟨_, _, rfl⟩).mono ?_
  rintro _ ⟨⟨ifNotExists, name⟩, rfl⟩
  exact ⟨.createSchema ifNotExists name, rfl⟩

/-- A creation stops in a sentence that begins with its keyword. -/
theorem create_stops :
    Stops (create settings) fun ts => Written Sentence.tokens (.keyword .create :: ts) := by
  have hbegin : ∃ ts, Written Sentence.tokens (.keyword .create :: ts) :=
    ⟨_, .createSchema false default, rfl⟩
  refine Stops.next_bind fun token => ?_
  cases token with
  | keyword keyword =>
    cases keyword with
    | table => exact .read nofun createTable_stops fun _ h => h
    | schema => exact .read nofun createSchema_stops fun _ h => h
    | view => exact .unsupported hbegin rfl
    | index => exact .unsupported hbegin rfl
    | _ => exact .refuse hbegin rfl
  | _ => exact .refuse hbegin rfl

/-- A removal stops in a sentence that begins with its keyword. -/
theorem drop_stops :
    Stops (drop settings) fun ts => Written Sentence.tokens (.keyword .drop :: ts) := by
  have htable : Stops (do
      let ifExists ← consumeKeywords [.«if», .«exists»]
      let name ← objectName settings
      let cascade ← consumeKeyword .cascade
      unless cascade do let _ ← consumeKeyword .restrict
      record (.droppedTable name)
      return Statement.dropTable ⟨name, ifExists, cascade⟩)
      fun ts => Written Sentence.tokens (.keyword .drop :: .keyword .table :: ts) := by
    refine (Stops.andThen (.consumeKeywords _) (spells_keywordTokens _) fun ifExists =>
      .map objectName_stops fun name => ?_).mono ?_
    · refine bind_total (consume_total _) fun cascade => ?_
      cases cascade with
      | true => exact fun s => ⟨_, _, rfl⟩
      | false => exact bind_total (consume_total _) fun _ s => ⟨_, _, rfl⟩
    · rintro _ ⟨⟨ifExists, name⟩, rfl⟩
      refine ⟨.dropTable ifExists name none, ?_⟩
      rw [Sentence.tokens, Sentence.ruleTokens, Option.elim_none, List.append_nil]
  intro s s' error hc hfail
  obtain ⟨found, s₁, hf, hfail⟩ := bind_error_of_ok (consume_total _) hfail
  rcases consume_ok hf (by decide) with ⟨rfl, hpass⟩ | ⟨rfl, rfl⟩
  · obtain ⟨ts, hb, rest, hs⟩ := htable _ _ _ (hpass.closed hc) hfail
    exact ⟨_, hpass.breaks hb, rest, hs⟩
  · cases hfail
    exact ⟨[], .here hc.entry, _, .dropTable false default none, rfl⟩

/-- A statement stops in a sentence. -/
theorem openStatement_stops :
    Stops (openStatement settings) (Written Sentence.tokens) := by
  have hrefuse : ∃ ts, Written Sentence.tokens ts := exists_written _
  refine Stops.next_bind fun token => ?_
  cases token with
  | keyword keyword =>
    cases keyword with
    | create => exact .read nofun create_stops fun _ h => h
    | drop => exact .read nofun drop_stops fun _ h => h
    | _ => exact .refuse hrefuse rfl
  | _ => exact .refuse hrefuse rfl

/-- The end of a statement stops behind a semicolon or before it. -/
theorem endOfStatement_stops : Stops endOfStatement (Written endTokens) := by
  have hend : Stops (do unless (← peek).isEof do reject .endOfStatement)
      (Written fun _ : Unit => []) := by
    refine Stops.peek_bind fun token => ?_
    split
    next => exact (Stops.pure _).before _
    next => exact (Stops.reject ⟨[], (), rfl⟩).before _
  refine (Stops.andThen (.of_ok (consume_total _)) spells_endTokens fun _ => hend).mono ?_
  rintro _ ⟨⟨semicolon, _⟩, rfl⟩
  exact ⟨semicolon, (List.append_nil _).symm⟩

/-- A statement and its end stop in a sentence, with a semicolon behind it or without. -/
theorem statement_stops : Stops (statement settings)
    (Written fun both : Sentence × Bool => both.1.tokens ++ endTokens both.2) :=
  .andThen openStatement_stops spells_openStatement fun _ =>
    .map endOfStatement_stops fun _ s => ⟨_, s, rfl⟩

end Grammar

end SqlDdl
