import SqlDdl.Proofs.Sessions

/-!
# Well-formed statements

What holds of every statement that a session gives and need not hold of a tree put
together by hand: names have parts, and texts that name something are not empty;
constraints are of the kinds that the grammar knows and have columns; a column is
marked as required where a constraint says so; defaults are no higher than the limit
of nesting. A statement that was read is what a sentence means, so each of these is
proved of the meanings of the phrases that make up a sentence.
-/

namespace SqlDdl

/-- A name with parts, none of them empty. -/
structure ObjectName.WellFormed (name : ObjectName) : Prop where
  /-- There is at least one part. -/
  parts : name.parts ≠ []
  /-- Every part has a character. -/
  nonempty : ∀ part ∈ name.parts, part ≠ ""

instance (name : ObjectName) : Decidable name.WellFormed :=
  decidable_of_iff (name.parts ≠ [] ∧ ∀ part ∈ name.parts, part ≠ "")
    ⟨fun h => ⟨h.1, h.2⟩, fun h => ⟨h.parts, h.nonempty⟩⟩

namespace Expression

mutual

/-- The height of the tree of an expression. -/
def height : Expression → Nat
  | literal _ => 1
  | identifier _ => 1
  | call _ arguments => highest arguments + 1
  | negate operand => operand.height + 1

/-- The greatest height among some expressions. -/
def highest : List Expression → Nat
  | [] => 0
  | first :: others => max first.height (highest others)

end

mutual

/-- The names in an expression are not empty. -/
def Named : Expression → Prop
  | literal _ => True
  | identifier name => name ≠ ""
  | call name arguments => name ≠ "" ∧ EachNamed arguments
  | negate operand => operand.Named

/-- The names in each of some expressions are not empty. -/
def EachNamed : List Expression → Prop
  | [] => True
  | first :: others => first.Named ∧ EachNamed others

end

end Expression

/-- A type with a scale only behind a precision, and with a well-formed name if it is not
built in. -/
def DataType.WellFormed : DataType → Prop
  | numeric precision scale => scale.isSome → precision.isSome
  | custom name => name.WellFormed
  | _ => True

instance : (dataType : DataType) → Decidable dataType.WellFormed
  | .numeric precision scale => inferInstanceAs (Decidable (scale.isSome → precision.isSome))
  | .custom name => inferInstanceAs (Decidable name.WellFormed)
  | .smallInt | .integer | .bigInt | .real | .doublePrecision | .boolean | .text | .varchar _
  | .char _ | .date | .time | .timestamp | .bytea | .uuid | .json =>
    inferInstanceAs (Decidable True)

/-- A reference to a well-formed name and to columns that have names. -/
structure ForeignKey.WellFormed (reference : ForeignKey) : Prop where
  /-- The table referred to has a well-formed name. -/
  foreignTable : reference.foreignTable.WellFormed
  /-- Every column referred to has a name. -/
  referredColumns : ∀ column ∈ reference.referredColumns, column ≠ ""

/-- A kind that the grammar knows, with as many columns as it is about. -/
def ConstraintKind.Fits (columns : List String) : ConstraintKind → Prop
  | notNull => columns.length ≤ 1
  | primaryKey => columns ≠ []
  | unique => columns ≠ []
  | foreignKey reference => columns ≠ [] ∧ reference.WellFormed
  | null => False
  | check => False

/-- A constraint without conditions, whose kind fits its columns and whose names are not
empty. -/
structure Constraint.WellFormed (constraint : Constraint) : Prop where
  /-- A name that is given has a character. -/
  name : ∀ name ∈ constraint.name, name ≠ ""
  /-- The kind is one that the grammar knows and fits the columns. -/
  kind : constraint.kind.Fits constraint.columns
  /-- Every column has a name. -/
  columns : ∀ column ∈ constraint.columns, column ≠ ""
  /-- No condition is kept as it was written. -/
  rawExpression : constraint.rawExpression = none
  /-- No condition is kept in prepared form. -/
  cookedExpression : constraint.cookedExpression = none

/-- A column whose names are not empty and whose default is no higher than a limit. -/
structure Column.WellFormed (limit : Nat) (column : Column) : Prop where
  /-- The name has a character. -/
  name : column.name ≠ ""
  /-- The type is well-formed. -/
  dataType : column.dataType.WellFormed
  /-- A collation that is given has a well-formed name. -/
  collation : ∀ name ∈ column.collation, name.WellFormed
  /-- A default has no empty names in it and keeps the limit. -/
  default : ∀ value ∈ column.default, value.Named ∧ value.height ≤ limit

/-- A table whose columns are required exactly where constraints on them say so. -/
structure CreateTable.WellFormed (limit : Nat) (table : CreateTable) : Prop where
  /-- The name of the table is well-formed. -/
  name : table.name.WellFormed
  /-- Every column is well-formed. -/
  columns : ∀ column ∈ table.columns, column.WellFormed limit
  /-- Every constraint is well-formed. -/
  constraints : ∀ constraint ∈ table.constraints, constraint.WellFormed
  /-- Whatever column is required has a constraint that requires it. -/
  required : ∀ column ∈ table.columns, column.notNull = true →
    ∃ constraint ∈ table.constraints,
      (constraint.kind = .notNull ∨ constraint.kind = .primaryKey) ∧
        constraint.columns = [column.name]
  /-- Whatever column a constraint requires is there and is required. -/
  justified : ∀ constraint ∈ table.constraints, constraint.kind = .notNull →
    ∀ name, constraint.columns = [name] →
      ∃ column ∈ table.columns, column.name = name ∧ column.notNull = true

/-- A statement that holds well-formed names, and a well-formed table if it creates one. -/
def Statement.WellFormed (limit : Nat) : Statement → Prop
  | createTable table => table.WellFormed limit
  | createSchema schema => schema.name.WellFormed
  | dropTable drop => drop.name.WellFormed

namespace Text

/-- A character has a lower-case form. -/
theorem lowerBetween_ne_nil (before : List Char) (c : Char) (after : List Char) :
    lowerBetween before c after ≠ [] := by
  unfold lowerBetween lowerForm
  split
  · split <;> exact List.cons_ne_nil _ _
  · split
    · exact List.cons_ne_nil _ _
    · split <;> exact List.cons_ne_nil _ _

/-- The lower-case forms of some characters are not lost behind others. -/
theorem lowerAfter_ne_nil {found before cs : List Char} (h : found ≠ []) :
    lowerAfter found before cs ≠ [] := by
  induction cs generalizing found before with
  | nil => exact fun hn => h (List.reverse_eq_nil_iff.mp hn)
  | cons c cs ih =>
    refine ih fun hn => h ?_
    rw [List.reverseAux_eq] at hn
    exact (List.append_eq_nil_iff.mp hn).2

/-- A text that is not empty has a lower-case form that is not empty. -/
theorem toLowerCase_ne_empty {text : String} (h : text ≠ "") : toLowerCase text ≠ "" := by
  intro he
  have hlist : lowerAfter [] [] text.toList = [] := by
    have hl := congrArg String.toList he
    rwa [toLowerCase, String.toList_ofList] at hl
  cases hc : text.toList with
  | nil => exact h (String.toList_eq_nil_iff.mp hc)
  | cons c cs =>
    rw [hc] at hlist
    have hfirst : (lowerBetween [] c cs).reverseAux [] ≠ [] := by
      rw [List.reverseAux_eq, List.append_nil]
      exact fun hn => lowerBetween_ne_nil [] c cs (List.reverse_eq_nil_iff.mp hn)
    exact lowerAfter_ne_nil hfirst hlist

end Text

variable {settings : Settings} {limit : Nat}

/-- An identifier is kept as a text that is not empty. -/
theorem Identifier.meaning_ne_empty (name : Identifier) : name.meaning settings ≠ "" := by
  rw [meaning, Settings.identifier]
  split
  · exact Text.toLowerCase_ne_empty name.nonempty
  · exact name.nonempty

namespace Identifiers

/-- Identifiers are kept as texts that are not empty. -/
theorem ne_empty_of_mem_texts {names : Identifiers} :
    ∀ text ∈ names.texts settings, text ≠ "" := by
  intro text h
  obtain ⟨name, -, rfl⟩ := List.mem_map.mp h
  exact name.meaning_ne_empty

/-- There is at least one identifier. -/
theorem texts_ne_nil (names : Identifiers) : names.texts settings ≠ [] :=
  List.cons_ne_nil _ _

/-- A name that is written is well-formed. -/
theorem wellFormed_name (names : Identifiers) : (names.name settings).WellFormed :=
  ⟨names.texts_ne_nil, ne_empty_of_mem_texts⟩

end Identifiers

namespace ExpressionPhrase

mutual

/-- The names in an expression that is written are not empty. -/
theorem named_meaning : (phrase : ExpressionPhrase) → (phrase.meaning settings).Named
  | literal _ => trivial
  | identifier name => name.meaning_ne_empty
  | call name arguments => ⟨name.meaning_ne_empty, eachNamed_meaning arguments⟩
  | negate operand => named_meaning operand
  | group inner => named_meaning inner

/-- The names in each expression that is written are not empty. -/
theorem eachNamed_meaning : (phrases : List ExpressionPhrase) →
    Expression.EachNamed (meaningOfEach settings phrases)
  | [] => trivial
  | first :: others => ⟨named_meaning first, eachNamed_meaning others⟩

end

mutual

/-- An expression is no higher than it nests deep where it is written. -/
theorem height_meaning_le : (phrase : ExpressionPhrase) →
    (phrase.meaning settings).height ≤ phrase.depth
  | literal _ => Nat.le_refl 1
  | identifier _ => Nat.le_refl 1
  | call _ arguments => Nat.succ_le_succ (highest_meaning_le arguments)
  | negate operand => Nat.succ_le_succ (height_meaning_le operand)
  | group inner => Nat.le_succ_of_le (height_meaning_le inner)

/-- The highest expression is no higher than the deepest one nests. -/
theorem highest_meaning_le : (phrases : List ExpressionPhrase) →
    Expression.highest (meaningOfEach settings phrases) ≤ deepest phrases
  | [] => Nat.le_refl 0
  | first :: others =>
    Nat.max_le.mpr ⟨Nat.le_trans (height_meaning_le first) (Nat.le_max_left _ _),
      Nat.le_trans (highest_meaning_le others) (Nat.le_max_right _ _)⟩

end

end ExpressionPhrase

/-- The type that is a built-in name alone. -/
def Grammar.TypeHead.plain? : TypeHead → Option DataType
  | plain dataType => some dataType
  | _ => none

/-- A type that is a built-in name alone is well-formed. -/
theorem wellFormed_of_typeHeads :
    ∀ entry ∈ Grammar.typeHeads, ∀ dataType ∈ entry.2.plain?, dataType.WellFormed := by
  decide

/-- A type that is written is well-formed. -/
theorem TypePhrase.wellFormed_meaning (phrase : TypePhrase) :
    (phrase.meaning settings).WellFormed := by
  cases phrase with
  | plain dataType word => exact wellFormed_of_typeHeads _ word.known dataType rfl
  | float word length =>
    rcases length with _ | length
    · exact trivial
    · change (if length.meaning ≤ 24 then DataType.real else .doublePrecision).WellFormed
      split <;> exact trivial
  | numeric word modifiers =>
    rcases modifiers with _ | modifiers
    · exact nofun
    · exact fun _ => rfl
  | custom names unknown => exact names.wellFormed_name
  | double | varchar | character | varying => exact trivial

/-- A reference that is written is well-formed. -/
theorem ReferencePhrase.wellFormed_meaning (phrase : ReferencePhrase) :
    (phrase.meaning settings).WellFormed := by
  refine ⟨phrase.table.wellFormed_name, ?_⟩
  rcases phrase with ⟨table, _ | columns, clauses⟩
  · exact fun _ h => absurd h List.not_mem_nil
  · exact Identifiers.ne_empty_of_mem_texts

/-- The name that is given to something is not empty. -/
theorem ne_empty_of_mem_name {name : Option Identifier} :
    ∀ text ∈ name.map (·.meaning settings), text ≠ "" := by
  intro text h
  obtain ⟨name, -, rfl⟩ := Option.map_eq_some_iff.mp h
  exact name.meaning_ne_empty

namespace ColumnPhrase

/-- A column that is written is well-formed, with its default within the limit. -/
theorem wellFormed_column {phrase : ColumnPhrase} (h : phrase.Admissible limit) :
    (phrase.column settings).WellFormed limit := by
  refine ⟨phrase.name.meaning_ne_empty, phrase.dataType.wellFormed_meaning, ?_, ?_⟩
  · intro name hn
    obtain ⟨names, -, rfl⟩ := Option.map_eq_some_iff.mp hn
    exact names.wellFormed_name
  · intro value hv
    obtain ⟨written, hw, rfl⟩ := Option.map_eq_some_iff.mp hv
    obtain ⟨named, hm, hd⟩ := List.mem_filterMap.mp (List.mem_of_head? hw)
    have hdepth : written.depth ≤ limit := by
      have ha := h.options named hm
      cases ho : named.option <;> rw [ho] at ha hd <;> cases hd
      exact ha
    exact ⟨written.named_meaning, Nat.le_trans written.height_meaning_le hdepth⟩

/-- A constraint that an option declares is about the column of that option. -/
theorem mem_constraints_iff {phrase : ColumnPhrase} {constraint : Constraint} :
    constraint ∈ phrase.constraints settings ↔
      ∃ named ∈ phrase.options, ∃ kind, named.option.kind? settings = some kind ∧
        .plain (named.name.map (·.meaning settings)) kind [phrase.name.meaning settings] =
          constraint := by
  simp only [constraints, List.mem_filterMap, Option.map_eq_some_iff]

/-- A constraint that an option declares is well-formed. -/
theorem wellFormed_constraint {phrase : ColumnPhrase} :
    ∀ constraint ∈ phrase.constraints settings, constraint.WellFormed := by
  intro constraint h
  obtain ⟨named, -, kind, hk, rfl⟩ := mem_constraints_iff.mp h
  refine ⟨ne_empty_of_mem_name, ?_, ?_, rfl, rfl⟩
  · cases ho : named.option <;> rw [ho] at hk <;> cases hk
    · exact Nat.le_refl 1
    · exact List.cons_ne_nil _ _
    · exact List.cons_ne_nil _ _
    · exact ⟨List.cons_ne_nil _ _, ReferencePhrase.wellFormed_meaning _⟩
  · exact List.forall_mem_singleton.mpr phrase.name.meaning_ne_empty

/-- A column that is required has a constraint that requires it. -/
theorem exists_constraint {phrase : ColumnPhrase}
    (h : (phrase.column settings).notNull = true) :
    ∃ constraint ∈ phrase.constraints settings,
      (constraint.kind = .notNull ∨ constraint.kind = .primaryKey) ∧
        constraint.columns = [(phrase.column settings).name] := by
  obtain ⟨named, hm, hf⟩ := List.any_eq_true.mp h
  have hkind : ∃ kind, named.option.kind? settings = some kind ∧
      (kind = .notNull ∨ kind = .primaryKey) := by
    cases ho : named.option <;> rw [ho] at hf <;> cases hf
    · exact ⟨.notNull, rfl, .inl rfl⟩
    · exact ⟨.primaryKey, rfl, .inr rfl⟩
  obtain ⟨kind, hk, hrequires⟩ := hkind
  exact ⟨_, mem_constraints_iff.mpr ⟨named, hm, kind, hk, rfl⟩, hrequires, rfl⟩

/-- A column with a constraint that requires it is required. -/
theorem notNull_of_constraint {phrase : ColumnPhrase} {constraint : Constraint}
    (h : constraint ∈ phrase.constraints settings) (hk : constraint.kind = .notNull) :
    constraint.columns = [(phrase.column settings).name] ∧
      (phrase.column settings).notNull = true := by
  obtain ⟨named, hm, kind, hkind, rfl⟩ := mem_constraints_iff.mp h
  refine ⟨rfl, List.any_eq_true.mpr ⟨named, hm, ?_⟩⟩
  change kind = .notNull at hk
  subst hk
  cases ho : named.option <;> rw [ho] at hkind <;> cases hkind
  rfl

end ColumnPhrase

namespace EntryPhrase

/-- A constraint that an entry declares is well-formed. -/
theorem wellFormed_constraint {phrase : EntryPhrase} :
    ∀ constraint ∈ phrase.constraints settings, constraint.WellFormed := by
  cases phrase with
  | column phrase => exact ColumnPhrase.wellFormed_constraint
  | null name => exact fun _ h => absurd h List.not_mem_nil
  | constraint name phrase attributes =>
    refine List.forall_mem_singleton.mpr ⟨ne_empty_of_mem_name, ?_, ?_, rfl, rfl⟩
    · cases phrase with
      | notNull => exact Nat.zero_le 1
      | primaryKey columns => exact columns.texts_ne_nil
      | unique columns => exact columns.texts_ne_nil
      | foreignKey columns reference =>
        exact ⟨columns.texts_ne_nil, reference.wellFormed_meaning⟩
    · cases phrase with
      | notNull => exact fun _ h => absurd h List.not_mem_nil
      | primaryKey columns => exact Identifiers.ne_empty_of_mem_texts
      | unique columns => exact Identifiers.ne_empty_of_mem_texts
      | foreignKey columns reference => exact Identifiers.ne_empty_of_mem_texts

/-- A column that an entry means is well-formed, and has a constraint of that entry that requires it
if it is required. -/
theorem wellFormed_column {phrase : EntryPhrase} (h : phrase.Admissible limit) {column : Column}
    (hc : phrase.column? settings = some column) :
    column.WellFormed limit ∧ (column.notNull = true →
      ∃ constraint ∈ phrase.constraints settings,
        (constraint.kind = .notNull ∨ constraint.kind = .primaryKey) ∧
          constraint.columns = [column.name]) := by
  cases phrase with
  | column phrase =>
    cases hc
    exact ⟨ColumnPhrase.wellFormed_column h, ColumnPhrase.exists_constraint⟩
  | constraint => cases hc
  | null => cases hc

/-- A constraint of an entry that requires one column is about the column of that entry. -/
theorem exists_column {phrase : EntryPhrase} {constraint : Constraint} {name : String}
    (h : constraint ∈ phrase.constraints settings) (hk : constraint.kind = .notNull)
    (hc : constraint.columns = [name]) :
    ∃ column, phrase.column? settings = some column ∧ column.name = name ∧
      column.notNull = true := by
  cases phrase with
  | column phrase =>
    obtain ⟨hcolumns, hrequired⟩ := ColumnPhrase.notNull_of_constraint h hk
    rw [hc] at hcolumns
    cases hcolumns
    exact ⟨_, rfl, rfl, hrequired⟩
  | null => cases h
  | constraint given phrase attributes =>
    obtain rfl := List.mem_singleton.mp h
    cases phrase with
    | notNull => cases hc
    | primaryKey => cases hk
    | unique => cases hk
    | foreignKey => cases hk

end EntryPhrase

/-- The statement that an admissible sentence means is well-formed. -/
theorem Sentence.wellFormed_meaning {sentence : Sentence} (h : sentence.Admissible limit) :
    (sentence.meaning settings).WellFormed limit := by
  cases sentence with
  | createSchema ifNotExists name => exact name.wellFormed_name
  | dropTable ifExists name rule => exact name.wellFormed_name
  | createTable ifNotExists name entries =>
    have hentries : ∀ entry ∈ entries.getD [], entry.Admissible limit := by
      cases entries with
      | none => exact fun _ => (absurd · List.not_mem_nil)
      | some entries => exact h
    refine ⟨name.wellFormed_name, ?_, ?_, ?_, ?_⟩
    · intro column hc
      obtain ⟨entry, hm, hc⟩ := List.mem_filterMap.mp hc
      exact (EntryPhrase.wellFormed_column (hentries entry hm) hc).1
    · intro constraint hc
      obtain ⟨entry, -, hc⟩ := List.mem_flatMap.mp hc
      exact EntryPhrase.wellFormed_constraint constraint hc
    · intro column hc hrequired
      obtain ⟨entry, hm, hc⟩ := List.mem_filterMap.mp hc
      obtain ⟨constraint, hd, hk⟩ :=
        (EntryPhrase.wellFormed_column (hentries entry hm) hc).2 hrequired
      exact ⟨constraint, List.mem_flatMap.mpr ⟨entry, hm, hd⟩, hk⟩
    · intro constraint hc hk name hn
      obtain ⟨entry, hm, hc⟩ := List.mem_flatMap.mp hc
      obtain ⟨column, hcolumn, hfacts⟩ := EntryPhrase.exists_column hc hk hn
      exact ⟨column, List.mem_filterMap.mpr ⟨entry, hm, hcolumn⟩, hfacts⟩

namespace Session

/-- Every statement that a call of a session gives is well-formed, within the limit that the
session has. -/
theorem wellFormed_of_parse {stream : TokenStream} {calls : Nat} {tree : Statement}
    (h : ((ofStream settings stream).after calls).parse.1 = .ok tree) :
    tree.WellFormed settings.maxExpressionDepth := by
  obtain ⟨sentence, hp, rfl⟩ := (reached_after settings stream calls).sentence_of_ok h
  exact Sentence.wellFormed_meaning hp

/-- The table of items is parsed with room for three levels of nesting, so it is well-formed. -/
theorem wellFormed_itemsTable : (itemsTable.meaning ⟨0, 3, false⟩).WellFormed 3 := by
  have hp : itemsTable.Admissible (Settings.mk 0 3 false).maxExpressionDepth := by
    decide +kernel
  have ht : itemsStream.tokens = itemsTable.tokens ++ endTokens true ++ [.eof, .comma] := by
    decide +kernel
  obtain ⟨s', hs, -⟩ := statement_of_tokens true hp ht rfl
  have h : ((ofStream ⟨0, 3, false⟩ itemsStream).after 0).parse.1 =
      .ok (itemsTable.meaning ⟨0, 3, false⟩) :=
    congrArg Prod.fst (parse_of_statement hs)
  exact wellFormed_of_parse h

end Session

end SqlDdl
