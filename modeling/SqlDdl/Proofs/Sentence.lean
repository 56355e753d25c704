import SqlDdl.Grammar.DataType
import SqlDdl.Statement

/-!
# Sentences of the grammar

A sentence is a statement as its writer sees it: a tree with one place for every
choice, the tokens the tree is written with, and the statement it means. The trees
keep what a statement drops, such as parentheses and `NULL` options. Words that may
not stand somewhere have no place in the trees; that a clause stands at most once
and that expressions nest no deeper than a limit is asked for separately, by
`Sentence.Admissible`. Nothing here refers to a cursor or to the way tokens are read.
-/

namespace SqlDdl

open Grammar (TypeHead typeHeads floatOf)

/-- Runs of tokens with a separator between one and the next. -/
def joined (separator : Token) : List (List Token) → List Token
  | [] => []
  | first :: others => first ++ others.flatMap (separator :: ·)

/-- Behind the first of two runs stand the separator and the rest. -/
theorem joined_cons_cons (separator : Token) (first second : List Token)
    (others : List (List Token)) :
    joined separator (first :: second :: others) =
      first ++ separator :: joined separator (second :: others) := by
  simp only [joined, List.flatMap_cons, List.cons_append]

/-- A word that may name something: one that is not empty. -/
structure Identifier where
  /-- The word, quoted or not. -/
  word : Word
  /-- A name has a character. -/
  nonempty : word.value ≠ ""

namespace Identifier

/-- An identifier is written as its word. -/
def tokens (name : Identifier) : List Token := [.word name.word]

/-- The text an identifier is kept as. -/
def meaning (settings : Settings) (name : Identifier) : String := settings.identifier name.word

end Identifier

/-- One or more identifiers. -/
structure Identifiers where
  /-- The identifier that has to be there. -/
  first : Identifier
  /-- The identifiers behind it. -/
  others : List Identifier

namespace Identifiers

/-- The identifiers in the order of writing. -/
def toList (names : Identifiers) : List Identifier := names.first :: names.others

/-- The tokens of a dotted name. -/
def dotted (names : Identifiers) : List Token := joined .period (names.toList.map Identifier.tokens)

/-- The tokens of a list of columns in parentheses. -/
def listed (names : Identifiers) : List Token :=
  .leftParen :: joined .comma (names.toList.map Identifier.tokens) ++ [.rightParen]

/-- The texts the identifiers are kept as. -/
def texts (settings : Settings) (names : Identifiers) : List String :=
  names.toList.map (·.meaning settings)

/-- The name made of the identifiers. -/
def name (settings : Settings) (names : Identifiers) : ObjectName := ⟨names.texts settings⟩

end Identifiers

/-- The first word of a built-in type: an unquoted spelling from the table of types. -/
structure TypeWord (head : TypeHead) where
  /-- The word as it is written. -/
  word : Word
  /-- A quoted word is no word of a built-in type. -/
  unquoted : word.quoted = false
  /-- In capitals it is in the table with this entry. -/
  known : (Text.toUpperCase word.value, head) ∈ typeHeads

/-- The second word of a type name, in any mix of ASCII case, quoted or not. -/
structure SecondWord (capitals : String) where
  /-- The word as it is written. -/
  word : Word
  /-- In ASCII capitals it is the one that is looked for. -/
  spelled : Text.toUpperASCII word.value = capitals

/-- A whole number below 2^32 in a spelling of its own. -/
structure Modifier where
  /-- The characters of the number. -/
  text : String
  /-- The number that they write. -/
  value : Nat
  /-- They are digits, and the number they write has 32 bits. -/
  reads : Text.readDecimal? UInt32.size text = some value

namespace Modifier

/-- A modifier is written as its number. -/
def tokens (modifier : Modifier) : List Token := [.number modifier.text]

/-- The 32-bit number that a modifier is. -/
def meaning (modifier : Modifier) : UInt32 := UInt32.ofNat modifier.value

end Modifier

/-- The tokens of an optional length in parentheses. -/
def lengthTokens : Option Modifier → List Token
  | none => []
  | some length => .leftParen :: length.tokens ++ [.rightParen]

/-- A precision, perhaps with a scale. -/
structure NumericModifiers where
  /-- How many digits are kept. -/
  precision : Modifier
  /-- How many of them stand behind the point, where that is given. -/
  scale : Option Modifier

/-- The tokens of an optional precision with an optional scale. -/
def numericTokens : Option NumericModifiers → List Token
  | none => []
  | some ⟨precision, none⟩ => .leftParen :: precision.tokens ++ [.rightParen]
  | some ⟨precision, some scale⟩ =>
    .leftParen :: precision.tokens ++ .comma :: scale.tokens ++ [.rightParen]

/-- A data type as it is written. -/
inductive TypePhrase where
  | plain (dataType : DataType) (word : TypeWord (.plain dataType))
  | float (word : TypeWord .float) (length : Option Modifier)
  | double (word : TypeWord .double) (second : SecondWord "PRECISION")
  | numeric (word : TypeWord .numeric) (modifiers : Option NumericModifiers)
  | varchar (word : TypeWord .varchar) (length : Option Modifier)
  | character (word : TypeWord .character) (length : Option Modifier)
  | varying (word : TypeWord .character) (second : SecondWord "VARYING") (length : Option Modifier)
  /-- A type that is not built in: its first word is quoted or in no table. -/
  | custom (names : Identifiers)
      (unknown : names.first.word.quoted = true ∨
        ∀ head, (Text.toUpperCase names.first.word.value, head) ∉ typeHeads)

namespace TypePhrase

/-- The tokens of a data type. -/
def tokens : TypePhrase → List Token
  | plain _ word => [.word word.word]
  | float word length => .word word.word :: lengthTokens length
  | double word second => [.word word.word, .word second.word]
  | numeric word modifiers => .word word.word :: numericTokens modifiers
  | varchar word length => .word word.word :: lengthTokens length
  | character word length => .word word.word :: lengthTokens length
  | varying word second length => .word word.word :: .word second.word :: lengthTokens length
  | custom names _ => names.dotted

/-- The data type that is meant. -/
def meaning (settings : Settings) : TypePhrase → DataType
  | plain dataType _ => dataType
  | float _ length => floatOf (length.map Modifier.meaning)
  | double _ _ => .doublePrecision
  | numeric _ modifiers =>
    .numeric (modifiers.map (·.precision.meaning)) (modifiers.bind (·.scale.map Modifier.meaning))
  | varchar _ length => .varchar (length.map Modifier.meaning)
  | character _ length => .char (length.map Modifier.meaning)
  | varying _ _ length => .varchar (length.map Modifier.meaning)
  | custom names _ => .custom (names.name settings)

end TypePhrase

/-- The one token that a constant is written as. -/
def Literal.token : Literal → Token
  | .null => .keyword .null
  | .boolean true => .keyword .true
  | .boolean false => .keyword .false
  | .number text => .number text
  | .string value => .string value

/-- A default expression as it is written. -/
inductive ExpressionPhrase where
  | literal (constant : Literal)
  | identifier (name : Identifier)
  | call (name : Identifier) (arguments : List ExpressionPhrase)
  | negate (operand : ExpressionPhrase)
  /-- An expression in parentheses. -/
  | group (inner : ExpressionPhrase)

namespace ExpressionPhrase

mutual

/-- The tokens of an expression. -/
def tokens : ExpressionPhrase → List Token
  | literal constant => [constant.token]
  | identifier name => name.tokens
  | call name arguments =>
    name.tokens ++ .leftParen :: joined .comma (tokensOfEach arguments) ++ [.rightParen]
  | negate operand => .minus :: operand.tokens
  | group inner => .leftParen :: inner.tokens ++ [.rightParen]

/-- The tokens of each of some expressions. -/
def tokensOfEach : List ExpressionPhrase → List (List Token)
  | [] => []
  | first :: others => first.tokens :: tokensOfEach others

end

mutual

/-- The expression that is meant; parentheses leave no trace. -/
def meaning (settings : Settings) : ExpressionPhrase → Expression
  | literal constant => .literal constant
  | identifier name => .identifier (name.meaning settings)
  | call name arguments => .call (name.meaning settings) (meaningOfEach settings arguments)
  | negate operand => .negate (operand.meaning settings)
  | group inner => inner.meaning settings

/-- What each of some expressions means. -/
def meaningOfEach (settings : Settings) : List ExpressionPhrase → List Expression
  | [] => []
  | first :: others => first.meaning settings :: meaningOfEach settings others

end

mutual

/-- How deep an expression nests. A minus sign, a pair of parentheses and an argument each
add a level to what they hold. -/
def depth : ExpressionPhrase → Nat
  | literal _ => 1
  | identifier _ => 1
  | call _ arguments => deepest arguments + 1
  | negate operand => operand.depth + 1
  | group inner => inner.depth + 1

/-- The greatest depth among some expressions. -/
def deepest : List ExpressionPhrase → Nat
  | [] => 0
  | first :: others => max first.depth (deepest others)

end

/-- The tokens of each member are the members of the list of tokens. -/
theorem tokensOfEach_eq_map (phrases : List ExpressionPhrase) :
    tokensOfEach phrases = phrases.map tokens := by
  induction phrases with
  | nil => rfl
  | cons first others ih => rw [tokensOfEach, ih, List.map_cons]

/-- The meanings of each member are the members of the list of meanings. -/
theorem meaningOfEach_eq_map (settings : Settings) (phrases : List ExpressionPhrase) :
    meaningOfEach settings phrases = phrases.map (meaning settings) := by
  induction phrases with
  | nil => rfl
  | cons first others ih => rw [meaningOfEach, ih, List.map_cons]

/-- The deepest of some expressions is within a limit when each of them is. -/
theorem deepest_le_iff (phrases : List ExpressionPhrase) (limit : Nat) :
    deepest phrases ≤ limit ↔ ∀ phrase ∈ phrases, phrase.depth ≤ limit := by
  induction phrases with
  | nil => simp only [deepest, Nat.zero_le, List.not_mem_nil, false_implies, implies_true]
  | cons first others ih => rw [deepest, Nat.max_le, ih, List.forall_mem_cons]

end ExpressionPhrase

/-- The change of a referred row that an action answers. -/
inductive Occasion where
  | delete
  | update
  deriving DecidableEq

/-- The keyword that names an occasion. -/
def Occasion.keyword : Occasion → Keyword
  | .delete => .delete
  | .update => .update

/-- The tokens of a referential action. -/
def ReferentialAction.tokens : ReferentialAction → List Token
  | .restrict => [.keyword .restrict]
  | .cascade => [.keyword .cascade]
  | .setNull => [.keyword .«set», .keyword .null]
  | .setDefault => [.keyword .«set», .keyword .default]
  | .noAction => [.keyword .no, .keyword .action]

/-- One `ON` clause of a reference. -/
structure ActionClause where
  /-- What the clause is about. -/
  occasion : Occasion
  /-- What happens then. -/
  action : ReferentialAction

/-- The tokens of an `ON` clause. -/
def ActionClause.tokens (clause : ActionClause) : List Token :=
  .keyword .on :: .keyword clause.occasion.keyword :: clause.action.tokens

/-- What a foreign key refers to, as it is written behind `REFERENCES`. -/
structure ReferencePhrase where
  /-- The table referred to. -/
  table : Identifiers
  /-- The columns, where they are given. -/
  columns : Option Identifiers
  /-- The `ON` clauses in the order of writing. -/
  clauses : List ActionClause

namespace ReferencePhrase

/-- The tokens of a reference. -/
def tokens (reference : ReferencePhrase) : List Token :=
  reference.table.dotted ++ (reference.columns.elim [] Identifiers.listed ++
    reference.clauses.flatMap ActionClause.tokens)

/-- The action that the first clause for an occasion gives. -/
def action? (reference : ReferencePhrase) (occasion : Occasion) : Option ReferentialAction :=
  (reference.clauses.find? (·.occasion = occasion)).map (·.action)

/-- The reference that is meant. -/
def meaning (settings : Settings) (reference : ReferencePhrase) : ForeignKey where
  foreignTable := reference.table.name settings
  referredColumns := reference.columns.elim [] (·.texts settings)
  onDelete := reference.action? .delete
  onUpdate := reference.action? .update

/-- No two clauses of a reference are for the same occasion. -/
def Admissible (reference : ReferencePhrase) : Prop :=
  (reference.clauses.map (·.occasion)).Nodup

instance (reference : ReferencePhrase) : Decidable reference.Admissible :=
  inferInstanceAs (Decidable (reference.clauses.map (·.occasion)).Nodup)

end ReferencePhrase

/-- An option of a column as it is written, behind its name. -/
inductive OptionPhrase where
  | notNull
  | null
  | default (value : ExpressionPhrase)
  | primaryKey
  | unique
  | references (reference : ReferencePhrase)

namespace OptionPhrase

/-- The tokens of an option. -/
def tokens : OptionPhrase → List Token
  | notNull => [.keyword .not, .keyword .null]
  | null => [.keyword .null]
  | default value => .keyword .default :: value.tokens
  | primaryKey => [.keyword .primary, .keyword .key]
  | unique => [.keyword .unique]
  | references reference => .keyword .references :: reference.tokens

/-- The kind of constraint that an option declares; `NULL` and `DEFAULT` declare none. -/
def kind? (settings : Settings) : OptionPhrase → Option ConstraintKind
  | notNull => some .notNull
  | primaryKey => some .primaryKey
  | unique => some .unique
  | references reference => some (.foreignKey (reference.meaning settings))
  | null | default _ => none

/-- The expression of a `DEFAULT` option. -/
def default? : OptionPhrase → Option ExpressionPhrase
  | default value => some value
  | _ => none

/-- Whether an option forbids the column to be without a value. -/
def forbidsNull : OptionPhrase → Bool
  | notNull | primaryKey => true
  | _ => false

/-- Expressions nest within a limit, and occasions do not repeat. -/
def Admissible (limit : Nat) : OptionPhrase → Prop
  | default value => value.depth ≤ limit
  | references reference => reference.Admissible
  | _ => True

instance (limit : Nat) : (option : OptionPhrase) → Decidable (option.Admissible limit)
  | default value => inferInstanceAs (Decidable (value.depth ≤ limit))
  | references reference => inferInstanceAs (Decidable reference.Admissible)
  | notNull | null | primaryKey | unique => inferInstanceAs (Decidable True)

end OptionPhrase

/-- The tokens that give a name to what follows, if it has one. -/
def namingTokens : Option Identifier → List Token
  | none => []
  | some name => .keyword .constraint :: name.tokens

/-- An option of a column with the name given to it, if any. -/
structure NamedOptionPhrase where
  /-- The name behind `CONSTRAINT`, where one is given. -/
  name : Option Identifier
  /-- The option itself. -/
  option : OptionPhrase

/-- The tokens of a named option. -/
def NamedOptionPhrase.tokens (named : NamedOptionPhrase) : List Token :=
  namingTokens named.name ++ named.option.tokens

/-- A column as it is written. -/
structure ColumnPhrase where
  /-- The name of the column. -/
  name : Identifier
  /-- Its type as it is written. -/
  dataType : TypePhrase
  /-- The name behind `COLLATE`, where one is given. -/
  collation : Option Identifiers
  /-- The options in the order of writing. -/
  options : List NamedOptionPhrase

namespace ColumnPhrase

/-- The tokens of an optional collation. -/
def collationTokens : Option Identifiers → List Token
  | none => []
  | some names => .keyword .collate :: names.dotted

/-- The tokens of a column. -/
def tokens (column : ColumnPhrase) : List Token :=
  column.name.tokens ++ (column.dataType.tokens ++ (collationTokens column.collation ++
    column.options.flatMap NamedOptionPhrase.tokens))

/-- The expressions of the `DEFAULT` options of a column. -/
def defaults (column : ColumnPhrase) : List ExpressionPhrase :=
  column.options.filterMap (·.option.default?)

/-- The column that is meant, without its constraints. -/
def column (settings : Settings) (phrase : ColumnPhrase) : Column where
  name := phrase.name.meaning settings
  dataType := phrase.dataType.meaning settings
  collation := phrase.collation.map (·.name settings)
  default := phrase.defaults.head?.map (·.meaning settings)
  notNull := phrase.options.any (·.option.forbidsNull)

/-- The constraints that the options of a column declare on it, in the order of writing. -/
def constraints (settings : Settings) (phrase : ColumnPhrase) : List Constraint :=
  phrase.options.filterMap fun named =>
    (named.option.kind? settings).map fun kind =>
      .plain (named.name.map (·.meaning settings)) kind [phrase.name.meaning settings]

/-- Every option is admissible, and at most one of them is a `DEFAULT`. -/
structure Admissible (limit : Nat) (phrase : ColumnPhrase) : Prop where
  /-- The expressions in the options keep the limit. -/
  options : ∀ named ∈ phrase.options, named.option.Admissible limit
  /-- A second default is refused. -/
  oneDefault : phrase.defaults.length ≤ 1

instance (limit : Nat) (phrase : ColumnPhrase) : Decidable (phrase.Admissible limit) :=
  decidable_of_iff
    ((∀ named ∈ phrase.options, named.option.Admissible limit) ∧ phrase.defaults.length ≤ 1)
    ⟨fun h => ⟨h.1, h.2⟩, fun h => ⟨h.options, h.oneDefault⟩⟩

end ColumnPhrase

/-- A constraint of a table that declares something, behind its name. -/
inductive ConstraintPhrase where
  | notNull
  | primaryKey (columns : Identifiers)
  | unique (columns : Identifiers)
  | foreignKey (columns : Identifiers) (reference : ReferencePhrase)

namespace ConstraintPhrase

/-- The tokens of a table constraint. -/
def tokens : ConstraintPhrase → List Token
  | notNull => [.keyword .not, .keyword .null]
  | primaryKey columns => .keyword .primary :: .keyword .key :: columns.listed
  | unique columns => .keyword .unique :: columns.listed
  | foreignKey columns reference =>
    .keyword .foreign :: .keyword .key ::
      (columns.listed ++ .keyword .references :: reference.tokens)

/-- The kind of a table constraint. -/
def kind (settings : Settings) : ConstraintPhrase → ConstraintKind
  | notNull => .notNull
  | primaryKey _ => .primaryKey
  | unique _ => .unique
  | foreignKey _ reference => .foreignKey (reference.meaning settings)

/-- The columns that a table constraint is about. -/
def columns (settings : Settings) : ConstraintPhrase → List String
  | notNull => []
  | primaryKey columns => columns.texts settings
  | unique columns => columns.texts settings
  | foreignKey columns _ => columns.texts settings

/-- Occasions do not repeat. -/
def Admissible : ConstraintPhrase → Prop
  | foreignKey _ reference => reference.Admissible
  | _ => True

instance : (phrase : ConstraintPhrase) → Decidable phrase.Admissible
  | foreignKey _ reference => inferInstanceAs (Decidable reference.Admissible)
  | notNull | primaryKey _ | unique _ => inferInstanceAs (Decidable True)

end ConstraintPhrase

/-- The attributes behind a table constraint, in the order of writing. -/
structure AttributesPhrase where
  /-- `DEFERRABLE` or `NOT DEFERRABLE`, if either stands there. -/
  deferrable : Option Bool
  /-- `INITIALLY DEFERRED` or `INITIALLY IMMEDIATE`, if either stands there. -/
  deferred : Option Bool
  /-- Whether `NO INHERIT` stands there. -/
  noInherit : Bool

namespace AttributesPhrase

/-- The tokens that say whether a constraint is deferrable. -/
def deferrableTokens : Option Bool → List Token
  | none => []
  | some true => [.keyword .deferrable]
  | some false => [.keyword .not, .keyword .deferrable]

/-- The tokens that say whether a constraint is deferred at first. -/
def deferredTokens : Option Bool → List Token
  | none => []
  | some true => [.keyword .initially, .keyword .deferred]
  | some false => [.keyword .initially, .keyword .immediate]

/-- The tokens that say that a constraint is not inherited. -/
def inheritTokens : Bool → List Token
  | false => []
  | true => [.keyword .no, .keyword .inherit]

/-- The tokens of the attributes. -/
def tokens (attributes : AttributesPhrase) : List Token :=
  deferrableTokens attributes.deferrable ++
    (deferredTokens attributes.deferred ++ inheritTokens attributes.noInherit)

/-- A constraint with the attributes; those that are not given are false. -/
def apply (attributes : AttributesPhrase) (constraint : Constraint) : Constraint :=
  { constraint with
    deferrable := attributes.deferrable.getD false
    initiallyDeferred := attributes.deferred.getD false
    noInherit := attributes.noInherit }

end AttributesPhrase

/-- What stands between two commas of a table, as it is written. -/
inductive EntryPhrase where
  | column (phrase : ColumnPhrase)
  | constraint (name : Option Identifier) (phrase : ConstraintPhrase)
      (attributes : AttributesPhrase)
  /-- The constraint `NULL`, which declares nothing. -/
  | null (name : Option Identifier)

namespace EntryPhrase

/-- The tokens of an entry. -/
def tokens : EntryPhrase → List Token
  | column phrase => phrase.tokens
  | constraint name phrase attributes =>
    namingTokens name ++ (phrase.tokens ++ attributes.tokens)
  | null name => namingTokens name ++ [.keyword .null]

/-- The column that an entry means, if it means one. -/
def column? (settings : Settings) : EntryPhrase → Option Column
  | column phrase => some (phrase.column settings)
  | _ => none

/-- The constraints that an entry declares. -/
def constraints (settings : Settings) : EntryPhrase → List Constraint
  | column phrase => phrase.constraints settings
  | constraint name phrase attributes =>
    [attributes.apply (.plain (name.map (·.meaning settings)) (phrase.kind settings)
      (phrase.columns settings))]
  | null _ => []

/-- The rules on what may not repeat and on depth hold in an entry. -/
def Admissible (limit : Nat) : EntryPhrase → Prop
  | column phrase => phrase.Admissible limit
  | constraint _ phrase _ => phrase.Admissible
  | null _ => True

instance (limit : Nat) : (phrase : EntryPhrase) → Decidable (phrase.Admissible limit)
  | column phrase => inferInstanceAs (Decidable (phrase.Admissible limit))
  | constraint _ phrase _ => inferInstanceAs (Decidable phrase.Admissible)
  | null _ => inferInstanceAs (Decidable True)

end EntryPhrase

/-- What happens to whatever depends on a removed table. -/
inductive RemovalRule where
  | cascade
  | restrict

/-- The keyword that names a rule of removal. -/
def RemovalRule.keyword : RemovalRule → Keyword
  | .cascade => .cascade
  | .restrict => .restrict

/-- A data-definition statement as it is written, without the semicolon behind it. -/
inductive Sentence where
  /-- A table, with entries in parentheses if there are parentheses. -/
  | createTable (ifNotExists : Bool) (name : Identifiers) (entries : Option (List EntryPhrase))
  | createSchema (ifNotExists : Bool) (name : Identifiers)
  | dropTable (ifExists : Bool) (name : Identifiers) (rule : Option RemovalRule)

namespace Sentence

/-- The tokens of a run of keywords that may be left out. -/
def keywordTokens (given : Bool) (keywords : List Keyword) : List Token :=
  if given then keywords.map .keyword else []

/-- The tokens of the entries of a table. -/
def entryTokens : Option (List EntryPhrase) → List Token
  | none => []
  | some entries => .leftParen :: joined .comma (entries.map EntryPhrase.tokens) ++ [.rightParen]

/-- The tokens of a rule of removal that may be left out. -/
def ruleTokens (rule : Option RemovalRule) : List Token :=
  rule.elim [] fun rule => [.keyword rule.keyword]

/-- The tokens of a sentence. -/
def tokens : Sentence → List Token
  | createTable ifNotExists name entries =>
    .keyword .create :: .keyword .table ::
      (keywordTokens ifNotExists [.«if», .not, .«exists»] ++ (name.dotted ++ entryTokens entries))
  | createSchema ifNotExists name =>
    .keyword .create :: .keyword .schema ::
      (keywordTokens ifNotExists [.«if», .not, .«exists»] ++ name.dotted)
  | dropTable ifExists name rule =>
    .keyword .drop :: .keyword .table ::
      (keywordTokens ifExists [.«if», .«exists»] ++ (name.dotted ++ ruleTokens rule))

/-- The statement that a sentence means. The columns and the constraints of a table each
stand in the order of writing, those of a column in its place. -/
def meaning (settings : Settings) : Sentence → Statement
  | createTable ifNotExists name entries =>
    .createTable
      { name := name.name settings
        ifNotExists := ifNotExists
        columns := (entries.getD []).filterMap (·.column? settings)
        constraints := (entries.getD []).flatMap (·.constraints settings) }
  | createSchema ifNotExists name => .createSchema ⟨name.name settings, ifNotExists⟩
  | dropTable ifExists name rule =>
    .dropTable ⟨name.name settings, ifExists, rule.any (· matches .cascade)⟩

/-- No column has two defaults, no reference two actions for one occasion, and no default
nests deeper than the limit. -/
def Admissible (limit : Nat) : Sentence → Prop
  | createTable _ _ (some entries) => ∀ entry ∈ entries, entry.Admissible limit
  | _ => True

instance (limit : Nat) : (sentence : Sentence) → Decidable (sentence.Admissible limit)
  | createTable _ _ (some entries) =>
    inferInstanceAs (Decidable (∀ entry ∈ entries, entry.Admissible limit))
  | createTable _ _ none | createSchema _ _ | dropTable _ _ _ => inferInstanceAs (Decidable True)

/-- The entries of an admissible table are admissible. -/
theorem Admissible.entries {limit : Nat} {ifNotExists : Bool} {name : Identifiers}
    {entries : Option (List EntryPhrase)}
    (hp : (createTable ifNotExists name entries).Admissible limit) :
    ∀ entry ∈ entries.getD [], entry.Admissible limit := by
  cases entries with
  | none => exact fun _ => (absurd · List.not_mem_nil)
  | some entries => exact hp

end Sentence

end SqlDdl
