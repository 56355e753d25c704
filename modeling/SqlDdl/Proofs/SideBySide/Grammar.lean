import SqlDdl.Proofs.SideBySide

/-!
# The grammar side by side

Every part of the grammar agrees with itself, read on the two sides of twins. A part is
put together from its own parts as its definition says; a choice by a token is split
as the tokens are alike, into equal tokens that are no words and into two words.
-/

namespace SqlDdl.Twins

open Grammar

variable {w : Twins} {count : Nat} {settings : Settings}

/-- Both sides read an identifier. -/
theorem identifier_agree (expectation : Expectation) :
    w.Agree count w.Same (identifier w.leftSettings expectation)
      (identifier w.rightSettings expectation) := by
  refine .peek_bind fun token other hr => ?_
  cases w.alike hr with
  | same mark =>
    cases token with
    | word word => cases mark
    | _ => exact (Agree.reject expectation).before _ _
  | @words word other empty =>
    dsimp only
    rw [empty]
    cases other.value.isEmpty with
    | true => exact (Agree.reject expectation).before _ _
    | false => exact .read nofun (.pure fun hn => hn hr)

/-- Both sides read a name. -/
theorem objectName_agree :
    w.Agree count w.Same (objectName w.leftSettings) (objectName w.rightSettings) :=
  .bind (.separated (identifier_agree _) (spells_identifier _) (spells_identifier _) rfl nofun)
    fun _ _ hr => .pure (hr.map _)

/-- Both sides read columns behind an opening parenthesis. -/
theorem columnNames_agree :
    w.Agree count w.Same (columnNames w.leftSettings) (columnNames w.rightSettings) :=
  .bind (.separated (identifier_agree _) (spells_identifier _) (spells_identifier _) rfl nofun)
    fun _ _ hr => .bind (.require rfl nofun) fun _ _ _ => .pure hr

/-- Both sides read a list of columns. -/
theorem columnList_agree :
    w.Agree count w.Same (columnList w.leftSettings) (columnList w.rightSettings) :=
  .choose (.consume rfl nofun) columnNames_agree (.reject _)

/-- Both sides read an optional list of columns. -/
theorem optionalColumnList_agree :
    w.Agree count w.Same (optionalColumnList w.leftSettings)
      (optionalColumnList w.rightSettings) :=
  .choose (.consume rfl nofun) columnNames_agree (.pure (.refl []))

/-- Both sides read a modifier. -/
theorem typeModifier_agree : w.Agree count Eq typeModifier typeModifier := by
  refine .peek_bind fun token other hr => ?_
  cases w.alike hr with
  | same mark =>
    cases token with
    | number text =>
      cases hv : Text.readDecimal? UInt32.size text with
      | none =>
        simp only [hv]
        exact (Agree.reject _).before _ _
      | some value =>
        simp only [hv]
        exact .read nofun (.pure rfl)
    | _ => exact (Agree.reject _).before _ _
  | words => exact (Agree.reject _).before _ _

/-- Both sides read a length. -/
theorem typeLength_agree : w.Agree count Eq typeLength typeLength := by
  refine .choose (.consume rfl nofun) (.bind typeModifier_agree ?_) (.pure rfl)
  rintro length _ rfl
  exact .bind (.require rfl nofun) fun _ _ _ => .pure rfl

/-- Both sides read a precision and a scale. -/
theorem numericModifiers_agree : w.Agree count Eq numericModifiers numericModifiers := by
  refine .choose (.consume rfl nofun) (.bind typeModifier_agree ?_) (.pure rfl)
  rintro precision _ rfl
  have hclose : ∀ scale other : Option UInt32, scale = other →
      w.Agree count Eq (do require .rightParen; return (some precision, scale))
        (do require .rightParen; return (some precision, other)) := by
    rintro scale _ rfl
    exact .bind (.require rfl nofun) fun _ _ _ => .pure rfl
  have hscale : w.Agree count Eq (some <$> typeModifier) (some <$> typeModifier) :=
    .bind typeModifier_agree fun _ _ hr => .pure (congrArg some hr)
  exact .choose (.consume rfl nofun) (.bind hscale hclose) (.bind (.pure rfl) hclose)

/-- Both sides read the rest of a built-in type. -/
theorem typeRest_agree (head : TypeHead) :
    w.Agree count Eq (typeRest head) (typeRest head) := by
  have hlength : ∀ f : Option UInt32 → DataType,
      w.Agree count Eq (do return f (← typeLength)) (do return f (← typeLength)) := fun f =>
    .bind typeLength_agree fun _ _ hr => .pure (congrArg f hr)
  cases head with
  | plain dataType => exact .pure rfl
  | float => exact hlength _
  | double =>
    refine .peek_bind fun token other hr => ?_
    rw [(w.alike hr).isWordNamed_eq]
    cases hw : isWordNamed "PRECISION" other with
    | true => exact .read (by rintro rfl; cases hw) (.pure rfl)
    | false => exact (Agree.reject _).before _ _
  | numeric =>
    refine .bind numericModifiers_agree ?_
    rintro modifiers _ rfl
    exact .pure rfl
  | varchar => exact hlength _
  | character =>
    refine .peek_bind fun token other hr => ?_
    rw [(w.alike hr).isWordNamed_eq]
    cases hw : isWordNamed "VARYING" other with
    | true => exact .read (by rintro rfl; cases hw) (hlength _)
    | false => exact (hlength _).before _ _

/-- Both sides read a data type. -/
theorem dataType_agree :
    w.Agree count w.Same (dataType w.leftSettings) (dataType w.rightSettings) := by
  have hrest : ∀ head : TypeHead, w.Agree count w.Same (typeRest head) (typeRest head) :=
    fun head s t h => (typeRest_agree head s t h).mono fun hr => hr ▸ .refl _
  have hcustom : w.Agree count w.Same
      (do return DataType.custom (← objectName w.leftSettings))
      (do return DataType.custom (← objectName w.rightSettings)) :=
    .bind objectName_agree fun _ _ hr => .pure (hr.map _)
  refine .peek_bind fun token other hr => ?_
  cases w.alike hr with
  | same mark =>
    cases token with
    | word word => cases mark
    | _ => exact (Agree.reject _).before _ _
  | @words word other empty head =>
    dsimp only
    rw [head]
    cases typeHead? other with
    | some head => exact .read nofun (hrest head)
    | none => exact hcustom.before _ _

/-- Both sides refuse a level of nesting, or the left one alone does. -/
theorem rejectDepth_outcome {α β : Type} {R : α → β → Prop} {s t : State}
    (h : w.Abreast count s t) {q : Reading β}
    (hq : w.leftSettings.maxExpressionDepth = w.rightSettings.maxExpressionDepth →
      q t = rejectDepth w.rightSettings t) :
    w.Outcome count R (rejectDepth w.leftSettings s) (q t) := by
  rcases Nat.lt_or_eq_of_le w.limit with hlower | hequal
  · exact .cutShort hlower
  · rw [hq hequal]
    have hreject : w.Agree count R (rejectDepth w.leftSettings) (rejectDepth w.rightSettings) := by
      refine .bind .position ?_
      rintro position _ rfl
      rw [hequal]
      exact .fail (.same _)
    exact hreject s t h

/-- Both sides read a level of its own, if they agree one level deeper. -/
theorem nested_agree {level level' : Reading Expression}
    (h : w.Agree (count + 1) w.Same level level') :
    w.Agree count w.Same (nested w.leftSettings level) (nested w.rightSettings level') := by
  intro s t ha
  by_cases hlevel : s.nesting < w.leftSettings.maxExpressionDepth
  · have hbeside : t.nesting < w.rightSettings.maxExpressionDepth := by
      have hlimit := w.limit
      rw [ha.leftNesting] at hlevel
      rw [ha.rightNesting]
      omega
    have ho := h { s with nesting := s.nesting + 1 } { t with nesting := t.nesting + 1 }
      ⟨⟨ha.left, ha.right, ha.index, ha.notEnded, congrArg (· + 1) ha.leftNesting,
        congrArg (· + 1) ha.rightNesting⟩, ha.begun⟩
    rw [nested, nested, if_pos hlevel, if_pos hbeside]
    generalize level { s with nesting := s.nesting + 1 } = x at ho ⊢
    generalize level' { t with nesting := t.nesting + 1 } = y at ho ⊢
    cases ho with
    | ok hr hb =>
      exact .ok hr ⟨⟨hb.left, hb.right, hb.index, hb.notEnded, congrArg (· - 1) hb.leftNesting,
        congrArg (· - 1) hb.rightNesting⟩, hb.begun⟩
    | error he hh =>
      exact .error he ⟨hh.left, hh.right, hh.index, hh.begun, hh.inside,
        congrArg (· - 1) hh.leftNesting, congrArg (· - 1) hh.rightNesting⟩
    | cutShort hl => exact .cutShort hl
  · rw [nested, if_neg hlevel]
    refine rejectDepth_outcome ha fun hequal => ?_
    have hbeside : ¬ t.nesting < w.rightSettings.maxExpressionDepth := by
      rw [ha.leftNesting, hequal] at hlevel
      rwa [ha.rightNesting]
    rw [nested, if_neg hbeside]

/-- Both sides read what one level holds, if they agree on what it nests. -/
theorem operand_agree {inner inner' : Reading Expression} (h : w.Agree count w.Same inner inner')
    {spelled spelled' : List Token → Prop} (hs : Spells inner spelled)
    (hs' : Spells inner' spelled') :
    w.Agree count w.Same (operand w.leftSettings inner) (operand w.rightSettings inner') := by
  have hword : w.Agree count w.Same
      (do let name ← identifier w.leftSettings .identifier
          if ← consume .leftParen then return Expression.call name (← arguments inner)
          else return Expression.identifier name)
      (do let name ← identifier w.rightSettings .identifier
          if ← consume .leftParen then return Expression.call name (← arguments inner')
          else return Expression.identifier name) := by
    refine .bind (identifier_agree _) fun name name' hn => ?_
    refine .choose (.consume rfl nofun) (.bind (R := w.Same) ?_ fun values values' hv => ?_)
      (.pure (hn.map _))
    · rw [arguments_eq, arguments_eq]
      exact .listRest h hs hs' _
    · exact .pure (.map₂ _ hn hv)
  refine .here_bind fun _ _ => .next_bind fun token other hr => ?_
  cases w.alike hr with
  | same mark =>
    cases token with
    | word word => cases mark
    | number text => exact .read nofun (.pure (.refl _))
    | string text => exact .read nofun (.pure (.refl _))
    | minus => exact .read nofun (.bind h fun _ _ hv => .pure (hv.map _))
    | leftParen =>
      exact .read nofun (.bind h fun _ _ hv => .bind (.require rfl nofun) fun _ _ _ => .pure hv)
    | keyword keyword =>
      cases keyword with
      | null => exact .read nofun (.pure (.refl _))
      | true => exact .read nofun (.pure (.refl _))
      | false => exact .read nofun (.pure (.refl _))
      | _ => exact .refuse hr rfl rfl
    | _ => exact .refuse hr rfl rfl
  | words => exact .back rfl rfl hword

/-- Both sides read an expression, with more levels on the right only where its limit is higher. -/
theorem expressionWithin_agree (levels more : Nat)
    (hm : w.leftSettings.maxExpressionDepth = w.rightSettings.maxExpressionDepth → more = 0) :
    w.Agree count w.Same (expressionWithin w.leftSettings levels)
      (expressionWithin w.rightSettings (levels + more)) := by
  induction levels generalizing count with
  | zero =>
    intro s t h
    refine rejectDepth_outcome h fun hequal => ?_
    rw [hm hequal]
    rfl
  | succ levels ih =>
    rw [Nat.add_right_comm]
    exact nested_agree (operand_agree ih (spells_expressionWithin _) (spells_expressionWithin _))

/-- Both sides read an expression. -/
theorem expression_agree :
    w.Agree count w.Same (expression w.leftSettings) (expression w.rightSettings) := by
  have hmore := Nat.add_sub_cancel' w.limit
  rw [expression, expression, ← hmore]
  exact expressionWithin_agree _ _ fun hequal => by omega

/-- Both sides read a referential action. -/
theorem referentialAction_agree : w.Agree count Eq referentialAction referentialAction := by
  refine .next_bind fun token other hr => ?_
  cases w.alike hr with
  | same mark =>
    cases token with
    | word word => cases mark
    | keyword keyword =>
      cases keyword with
      | restrict => exact .read nofun (.pure rfl)
      | cascade => exact .read nofun (.pure rfl)
      | «set» =>
        exact .read nofun (.choose (.consume rfl nofun) (.pure rfl)
          (.choose (.consume rfl nofun) (.pure rfl) (.reject _)))
      | no => exact .read nofun (.bind (.require rfl nofun) fun _ _ _ => .pure rfl)
      | _ => exact .refuse hr rfl rfl
    | _ => exact .refuse hr rfl rfl
  | words => exact .refuse hr rfl rfl

/-- Two references with the same actions that are the same if names are. -/
structure SameReference (w : Twins) (reference other : ForeignKey) : Prop where
  /-- Both have the same action on deletion. -/
  onDelete : reference.onDelete = other.onDelete
  /-- Both have the same action on change. -/
  onUpdate : reference.onUpdate = other.onUpdate
  /-- If names are the same, so are they. -/
  same : w.Same reference other

/-- Both sides read a clause of a reference. -/
theorem referenceClause_agree {reference other : ForeignKey}
    (hr : w.SameReference reference other) :
    w.Agree count (Sum.LiftRel w.SameReference w.SameReference) (referenceClause reference)
      (referenceClause other) := by
  refine .choose (.consume rfl nofun) (.bind .previousPosition ?_) (.pure (.inr hr))
  rintro start _ rfl
  refine .choose (.consume rfl nofun) ?_ (.choose (.consume rfl nofun) ?_ (.reject _))
  · rw [hr.onDelete]
    refine .guard _ (.same _) (.bind referentialAction_agree ?_)
    rintro action _ rfl
    exact .pure (.inl ⟨rfl, hr.onUpdate, hr.same.map fun r => { r with onDelete := some action }⟩)
  · rw [hr.onUpdate]
    refine .guard _ (.same _) (.bind referentialAction_agree ?_)
    rintro action _ rfl
    exact .pure (.inl ⟨hr.onDelete, rfl, hr.same.map fun r => { r with onUpdate := some action }⟩)

/-- A clause of a reference that goes on has read something. -/
theorem progress_referenceClause : Progress referenceClause := by
  intro reference result s s' _ h
  rcases referenceClause_ok h with ⟨he, -⟩ | ⟨clause, -, -, hpass⟩
  · cases he
  · exact ⟨clause.tokens, List.cons_ne_nil _ _, hpass⟩

/-- Both sides read what a foreign key refers to. -/
theorem foreignKey_agree :
    w.Agree count w.Same (foreignKey w.leftSettings) (foreignKey w.rightSettings) := by
  refine .bind objectName_agree fun table table' ht => ?_
  refine .bind optionalColumnList_agree fun columns columns' hc => ?_
  have hstart : w.SameReference ⟨table, columns, none, none⟩ ⟨table', columns', none, none⟩ :=
    ⟨rfl, rfl, .map₂ (fun table columns => ForeignKey.mk table columns none none) ht hc⟩
  have hclauses : w.Agree count w.SameReference
      (repeatStep referenceClause ⟨table, columns, none, none⟩)
      (repeatStep referenceClause ⟨table', columns', none, none⟩) :=
    .repeatStep (fun _ _ => referenceClause_agree) progress_referenceClause
      progress_referenceClause hstart
  exact fun s t h => (hclauses s t h).mono fun hr => hr.same

/-- Two optional values that are given together and are the same if names are. -/
structure SameOption (w : Twins) {α : Type} (a b : Option α) : Prop where
  /-- Both are given or neither is. -/
  isSome : a.isSome = b.isSome
  /-- If names are the same, so are they. -/
  same : w.Same a b

/-- Both sides read the name of a constraint, if one is given. -/
theorem constraintName?_agree :
    w.Agree count w.SameOption (constraintName? w.leftSettings)
      (constraintName? w.rightSettings) :=
  .choose (.consume rfl nofun)
    (.bind (identifier_agree _) fun _ _ hr => .pure ⟨rfl, hr.map some⟩) (.pure ⟨rfl, .refl _⟩)

/-- Both sides read the mark of a deferrable constraint. -/
theorem deferrableMark_agree : w.Agree count Eq deferrableMark deferrableMark :=
  .choose (.consumeKeywords _) (.pure rfl) (.consume rfl nofun)

/-- Both sides read the mark of a constraint that is deferred at first. -/
theorem deferredMark_agree : w.Agree count Eq deferredMark deferredMark :=
  .choose (.consumeKeywords _) (.pure rfl)
    (.bind (.consumeKeywords _) fun _ _ _ => .pure rfl)

/-- Both sides read the attributes of a constraint. -/
theorem constraintAttributes_agree {constraint other : Constraint}
    (hr : w.Same constraint other) :
    w.Agree count w.Same (constraintAttributes constraint) (constraintAttributes other) := by
  rw [constraintAttributes_eq, constraintAttributes_eq]
  refine .bind deferrableMark_agree ?_
  rintro deferrable _ rfl
  refine .bind deferredMark_agree ?_
  rintro initiallyDeferred _ rfl
  refine .bind (.consumeKeywords _) ?_
  rintro noInherit _ rfl
  exact .pure (hr.map fun constraint => { constraint with
    deferrable := deferrable
    initiallyDeferred := initiallyDeferred
    noInherit := noInherit })

/-- What two sides find where a table constraint may stand. -/
inductive SameTableConstraint (w : Twins) : TableConstraint → TableConstraint → Prop where
  | found {constraint other : Constraint} (same : w.Same constraint other) :
      SameTableConstraint w (.found constraint) (.found other)
  | discarded : SameTableConstraint w .discarded .discarded
  | absent : SameTableConstraint w .absent .absent

/-- Both sides finish a constraint. -/
theorem finishTableConstraint_agree {constraint other : Constraint}
    (hr : w.Same constraint other) :
    w.Agree count w.SameTableConstraint (finishTableConstraint constraint)
      (finishTableConstraint other) :=
  .bind (constraintAttributes_agree hr) fun _ _ hc =>
    .bind (.record _ _) fun _ _ _ => .pure (.found hc)

/-- Both sides refuse what is no constraint behind a name, or go back before it. -/
theorem absentConstraint_agree {name name' : Option String} {token other : Token}
    {f g : Token → Reading TableConstraint} (hn : w.SameOption name name')
    (hr : w.Related token other)
    (hf : f token = if name.isSome then rejectRead .namedConstraint token
      else do rewind; return .absent)
    (hg : g other = if name'.isSome then rejectRead .namedConstraint other
      else do rewind; return .absent) :
    w.AgreeAt count token other w.SameTableConstraint (next >>= f) (next >>= g) := by
  rw [hn.isSome] at hf
  cases hs : name'.isSome with
  | true =>
    rw [hs] at hf hg
    exact .refuse hr hf hg
  | false =>
    rw [hs] at hf hg
    exact .back hf hg (.pure .absent)

/-- Both sides read a table constraint, or neither finds one. -/
theorem tableConstraint_agree :
    w.Agree count w.SameTableConstraint (tableConstraint w.leftSettings)
      (tableConstraint w.rightSettings) := by
  refine .here_bind fun _ _ => .bind constraintName?_agree fun name name' hn => ?_
  have hplain : ∀ kind columns columns', w.Same columns columns' →
      w.Same (Constraint.plain name kind columns) (Constraint.plain name' kind columns') :=
    fun kind _ _ hc => .map₂ (fun name columns => Constraint.plain name kind columns) hn.same hc
  have hcolumns : ∀ kind, w.Agree count w.SameTableConstraint
      (do finishTableConstraint (.plain name kind (← columnList w.leftSettings)))
      (do finishTableConstraint (.plain name' kind (← columnList w.rightSettings))) :=
    fun kind => .bind columnList_agree fun _ _ hc =>
      finishTableConstraint_agree (hplain kind _ _ hc)
  refine .here_bind fun _ _ => .next_bind fun token other hr => ?_
  cases w.alike hr with
  | same mark =>
    cases token with
    | word word => cases mark
    | keyword keyword =>
      cases keyword with
      | not =>
        exact .read nofun (.bind (.require rfl nofun) fun _ _ _ =>
          finishTableConstraint_agree (hplain .notNull [] [] (.refl _)))
      | null => exact .read nofun (.pure .discarded)
      | primary =>
        exact .read nofun (.bind (.require rfl nofun) fun _ _ _ => hcolumns .primaryKey)
      | unique => exact .read nofun (hcolumns .unique)
      | foreign =>
        refine .read nofun (.bind (.require rfl nofun) fun _ _ _ => ?_)
        refine .bind columnList_agree fun columns columns' hc => ?_
        refine .bind (.require rfl nofun) fun _ _ _ => ?_
        refine .bind foreignKey_agree fun reference reference' hk => ?_
        refine finishTableConstraint_agree fun h => ?_
        rw [hn.same h, hc h, hk h]
      | check => exact .read nofun (.fail (.same _))
      | _ => exact absentConstraint_agree hn hr rfl rfl
    | _ => exact absentConstraint_agree hn hr rfl rfl
  | words => exact absentConstraint_agree hn hr rfl rfl

/-- Two options that give a default together and are the same if names are. -/
structure SameNamedOption (w : Twins) (named other : NamedOption) : Prop where
  /-- Both give a default or neither does. -/
  isDefault : named.option.default?.isSome = other.option.default?.isSome
  /-- If names are the same, so are they. -/
  same : w.Same named other

/-- Both sides read an option of a column. -/
theorem columnOption_agree :
    w.Agree count w.SameNamedOption (columnOption w.leftSettings)
      (columnOption w.rightSettings) := by
  refine .bind constraintName?_agree fun name name' hn => ?_
  have hplain : ∀ option : ColumnOption, w.SameNamedOption ⟨name, option⟩ ⟨name', option⟩ :=
    fun option => ⟨rfl, hn.same.map fun name => NamedOption.mk name option⟩
  refine .next_bind fun token other hr => ?_
  cases w.alike hr with
  | same mark =>
    cases token with
    | word word => cases mark
    | keyword keyword =>
      cases keyword with
      | not =>
        exact .read nofun (.bind (.require rfl nofun) fun _ _ _ => .pure (hplain _))
      | null => exact .read nofun (.pure (hplain _))
      | default =>
        exact .read nofun (.bind expression_agree fun _ _ hv =>
          .pure ⟨rfl, .map₂ (fun name value => NamedOption.mk name (.default value)) hn.same hv⟩)
      | primary =>
        exact .read nofun (.bind (.require rfl nofun) fun _ _ _ => .pure (hplain _))
      | unique => exact .read nofun (.pure (hplain _))
      | references =>
        exact .read nofun (.bind foreignKey_agree fun _ _ hk =>
          .pure ⟨rfl, .map₂ (fun name reference => NamedOption.mk name (.foreignKey reference))
            hn.same hk⟩)
      | check => exact .read nofun (.fail (.same _))
      | _ => exact .refuse hr rfl rfl
    | _ => exact .refuse hr rfl rfl
  | words => exact .refuse hr rfl rfl

/-- Two lists of options that hold a default together and are the same if names are. -/
structure SameOptions (w : Twins) (found other : List NamedOption) : Prop where
  /-- Both hold a default or neither does. -/
  anyDefault : found.any (·.option.default?.isSome) = other.any (·.option.default?.isSome)
  /-- If names are the same, so are they. -/
  same : w.Same found other

/-- Both sides read one more option of a column, or find their end. -/
theorem columnStep_agree {found other : List NamedOption} (hr : w.SameOptions found other) :
    w.Agree count (Sum.LiftRel w.SameOptions w.Same) (columnStep w.leftSettings found)
      (columnStep w.rightSettings other) := by
  refine .peek_bind fun token token' ht => ?_
  rw [(w.alike ht).endsColumn_eq]
  refine (Agree.branch _ (.pure (.inr (hr.same.map _))) (.bind .position ?_)).before _ _
  rintro start _ rfl
  refine .bind columnOption_agree fun named named' hn => ?_
  rw [hn.isDefault, hr.anyDefault]
  refine .guard _ (.same _) (.pure (.inl ⟨?_, .map₂ _ hn.same hr.same⟩))
  rw [List.any_cons, List.any_cons, hn.isDefault, hr.anyDefault]

/-- A step through the options of a column that goes on has read something. -/
theorem progress_columnStep : Progress (columnStep settings) := by
  intro found result s s' hc h
  rcases columnStep_ok hc h with ⟨he, -⟩ | ⟨phrase, -, -, -, hpass⟩
  · cases he
  · exact ⟨phrase.tokens, phrase.tokens_ne_nil, hpass⟩

/-- Both sides read a collation, if one is given. -/
theorem collation?_agree :
    w.Agree count w.Same (collation? w.leftSettings) (collation? w.rightSettings) :=
  .choose (.consume rfl nofun) (.bind objectName_agree fun _ _ hr => .pure (hr.map some))
    (.pure (.refl _))

/-- Both sides read a column. -/
theorem columnEntry_agree :
    w.Agree count w.Same (columnEntry w.leftSettings) (columnEntry w.rightSettings) := by
  refine .bind (identifier_agree _) fun name name' hname => ?_
  refine .bind dataType_agree fun dataType dataType' htype => ?_
  refine .bind collation?_agree fun collation collation' hcollation => ?_
  have hoptions : w.Agree count w.Same (repeatStep (columnStep w.leftSettings) [])
      (repeatStep (columnStep w.rightSettings) []) :=
    .repeatStep (fun _ _ => columnStep_agree) progress_columnStep progress_columnStep
      ⟨rfl, .refl []⟩
  refine .bind hoptions fun options options' ho => .bind (.record _ _) fun _ _ _ => .pure ?_
  intro h
  rw [hname h, htype h, hcollation h, ho h]

/-- Both sides read an entry of a table. -/
theorem tableEntry_agree :
    w.Agree count w.Same (tableEntry w.leftSettings) (tableEntry w.rightSettings) := by
  refine .bind tableConstraint_agree fun found found' hr => ?_
  cases hr with
  | found same => exact .pure (same.map _)
  | discarded => exact .pure (.refl _)
  | absent =>
    refine .peek_bind fun token other ht => ?_
    rw [(w.alike ht).isWord_eq]
    exact (Agree.branch _ (.bind columnEntry_agree fun _ _ he => .pure (he.map _))
      (.reject _)).before _ _

/-- Both sides read the entries of a table. -/
theorem tableEntries_agree :
    w.Agree count w.Same (tableEntries w.leftSettings) (tableEntries w.rightSettings) := by
  rw [tableEntries_eq, tableEntries_eq]
  exact .choose (.consume rfl nofun)
    (.listRest tableEntry_agree spells_tableEntry spells_tableEntry _) (.pure (.refl []))

/-- Both sides read the creation of a table. -/
theorem createTable_agree :
    w.Agree count w.Same (createTable w.leftSettings) (createTable w.rightSettings) := by
  refine .bind (.consumeKeywords _) ?_
  rintro ifNotExists _ rfl
  refine .bind objectName_agree fun name name' hn => ?_
  refine .bind tableEntries_agree fun entries entries' he => ?_
  refine .bind (.record _ _) fun _ _ _ => .pure fun h => ?_
  rw [hn h, he h]

/-- Both sides read the creation of a schema. -/
theorem createSchema_agree :
    w.Agree count w.Same (createSchema w.leftSettings) (createSchema w.rightSettings) := by
  refine .bind (.consumeKeywords _) ?_
  rintro ifNotExists _ rfl
  refine .bind objectName_agree fun name name' hn => ?_
  exact .bind (.record _ _) fun _ _ _ =>
    .pure (hn.map fun name => Statement.createSchema ⟨name, ifNotExists⟩)

/-- Both sides read what is created. -/
theorem create_agree :
    w.Agree count w.Same (create w.leftSettings) (create w.rightSettings) := by
  refine .next_bind fun token other hr => ?_
  cases w.alike hr with
  | same mark =>
    cases token with
    | word word => cases mark
    | keyword keyword =>
      cases keyword with
      | table => exact .read nofun createTable_agree
      | schema => exact .read nofun createSchema_agree
      | view => exact .read nofun (.fail (.same _))
      | index => exact .read nofun (.fail (.same _))
      | _ => exact .refuse hr rfl rfl
    | _ => exact .refuse hr rfl rfl
  | words => exact .refuse hr rfl rfl

/-- Both sides read the removal of a table. -/
theorem drop_agree : w.Agree count w.Same (drop w.leftSettings) (drop w.rightSettings) := by
  refine .bind (.consume rfl nofun) ?_
  rintro found _ rfl
  refine .otherwise (.reject _) (.bind (.consumeKeywords _) ?_)
  rintro ifExists _ rfl
  refine .bind objectName_agree fun name name' hn => .bind (.consume rfl nofun) ?_
  rintro cascade _ rfl
  have hend : w.Agree count w.Same
      (do record (.droppedTable name); return Statement.dropTable ⟨name, ifExists, cascade⟩)
      (do record (.droppedTable name'); return Statement.dropTable ⟨name', ifExists, cascade⟩) :=
    .bind (.record _ _) fun _ _ _ =>
      .pure (hn.map fun name => Statement.dropTable ⟨name, ifExists, cascade⟩)
  exact .branch cascade hend (.bind (.consume rfl nofun) fun _ _ _ => hend)

/-- Both sides find the end of a statement. -/
theorem endOfStatement_agree : w.Agree count Eq endOfStatement endOfStatement := by
  refine .bind (.consume rfl nofun) fun _ _ _ => .peek_bind fun token other hr => ?_
  have hends : token.isEof = other.isEof := by
    cases w.alike hr <;> rfl
  rw [hends]
  exact (Agree.branch _ (.pure rfl) (.reject _)).before _ _

/-- From one level, be it before the first token, both sides read a statement. -/
theorem openStatement_outcome {s t : State} (h : w.Level count s t) :
    w.Outcome count w.Same (openStatement w.leftSettings s)
      (openStatement w.rightSettings t) := by
  have hr := h.peek
  have hread := h.advance
  have hhalted := h.halted_advance
  have hs : next s = .ok s.cursor.peek { s with cursor := s.cursor.advance } := rfl
  have ht : next t = .ok t.cursor.peek { t with cursor := t.cursor.advance } := rfl
  rw [openStatement, openStatement, run_bind hs, run_bind ht]
  generalize s.cursor.peek = token at hr ⊢
  generalize t.cursor.peek = other at hr hread ⊢
  cases w.alike hr with
  | same mark =>
    cases token with
    | word word => cases mark
    | keyword keyword =>
      cases keyword with
      | create => exact create_agree _ _ (hread (by decide))
      | drop => exact drop_agree _ _ (hread (by decide))
      | _ => exact Agree.rejectRead_outcome _ hhalted hr
    | _ => exact Agree.rejectRead_outcome _ hhalted hr
  | words => exact Agree.rejectRead_outcome _ hhalted hr

/-- From one level both sides read a statement to its end. -/
theorem statement_outcome {s t : State} (h : w.Level count s t) :
    w.Outcome count w.Same (statement w.leftSettings s) (statement w.rightSettings t) :=
  (openStatement_outcome h).bind fun _ _ hr => .bind endOfStatement_agree fun _ _ _ => .pure hr

end SqlDdl.Twins
