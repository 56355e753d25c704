import SqlDdl.Position
import SqlDdl.Token

/-!
# Errors of reading a statement

Each error names its cause; `message` words it. The wording is part of what callers
rely on, as is the place that an error points at. Errors of the configuration are
separate, in `SqlDdl.Configuration`.
-/

namespace SqlDdl

/-- What is closed by a mark of its own and can be left open. -/
inductive Enclosure where
  | stringLiteral
  | quotedIdentifier
  | blockComment
  deriving DecidableEq, Inhabited

/-- The name of an enclosure in messages. -/
def Enclosure.describe : Enclosure → String
  | .stringLiteral => "string literal"
  | .quotedIdentifier => "quoted identifier"
  | .blockComment => "block comment"

/-- A clause that may stand at most once. -/
inductive Clause where
  | default
  | onDelete
  | onUpdate
  deriving DecidableEq, Inhabited

/-- The name of a clause in messages. -/
def Clause.describe : Clause → String
  | .default => "DEFAULT"
  | .onDelete => "ON DELETE"
  | .onUpdate => "ON UPDATE"

/-- A construct that is recognised and refused. -/
inductive Construct where
  | createView
  | createIndex
  | checkConstraint
  deriving DecidableEq, Inhabited

/-- The name of a construct in messages. -/
def Construct.describe : Construct → String
  | .createView => "CREATE VIEW"
  | .createIndex => "CREATE INDEX"
  | .checkConstraint => "CHECK constraint"

/-- What the grammar requires at a place where something else stands. -/
inductive Expectation where
  | statement
  | afterCreate
  | afterDrop
  | endOfStatement
  | identifier
  | constraintName
  | columnName
  | tableEntry
  | entrySeparator
  | namedConstraint
  | columnOption
  | columnList
  | afterOn
  | afterSet
  | referentialAction
  | dataType
  | typeModifier
  | precision
  | expression
  | argumentSeparator
  /-- A particular token. -/
  | token (wanted : Token)
  /-- Anything, in the words of the caller. -/
  | described (text : String)
  deriving DecidableEq, Inhabited

/-- The wording of an expectation in messages. -/
def Expectation.describe : Expectation → String
  | .statement => "a statement"
  | .afterCreate => "TABLE, VIEW, INDEX or SCHEMA after CREATE"
  | .afterDrop => "TABLE after DROP"
  | .endOfStatement => "end of statement"
  | .identifier => "identifier"
  | .constraintName => "constraint name"
  | .columnName => "column name"
  | .tableEntry => "column name or constraint definition"
  | .entrySeparator => "',' or ')' after column definition"
  | .namedConstraint => "PRIMARY, UNIQUE, FOREIGN or CHECK"
  | .columnOption => "column option"
  | .columnList => "a list of columns in parentheses"
  | .afterOn => "DELETE or UPDATE after ON"
  | .afterSet => "NULL or DEFAULT"
  | .referentialAction => "one of RESTRICT, CASCADE, SET NULL, NO ACTION or SET DEFAULT"
  | .dataType => "a data type"
  | .typeModifier => "an integer type modifier"
  | .precision => "PRECISION"
  | .expression => "an expression"
  | .argumentSeparator => "',' or ')' in argument list"
  | .token wanted => wanted.display
  | .described text => text

/-- Why a statement could not be read. -/
inductive Error where
  /-- A character that begins no token. -/
  | unexpectedCharacter (character : Char) (position : Position)
  /-- Something opened and never closed; the position is that of its opening mark. -/
  | unterminated (enclosure : Enclosure) (position : Position)
  /-- Another token than the grammar requires. -/
  | expected (expectation : Expectation) (found : Token) (position : Position)
  /-- A second clause where one is allowed. -/
  | duplicateClause (clause : Clause) (position : Position)
  /-- A construct outside the grammar that is known by name. -/
  | unsupported (construct : Construct)
  /-- An expression nested deeper than the limit. -/
  | expressionTooDeep (limit : Nat) (position : Position)
  /-- A text longer than the limit. -/
  | inputTooLarge (length limit : Nat)
  deriving DecidableEq, Inhabited

namespace Error

/-- The wording of an error. -/
def message : Error → String
  | .unexpectedCharacter character position =>
    s!"unexpected character '{character}' at offset {position.offset}"
  | .unterminated enclosure position =>
    s!"unterminated {enclosure.describe} starting at offset {position.offset}"
  | .expected expectation found _ => s!"expected {expectation.describe} found {found.display}"
  | .duplicateClause clause _ => s!"duplicate {clause.describe} clause"
  | .unsupported construct => s!"unsupported construct: {construct.describe}"
  | .expressionTooDeep limit _ => s!"expression nesting exceeds the limit of {limit}"
  | .inputTooLarge length limit =>
    s!"input of {length} characters exceeds the limit of {limit}"

/-- The place in the text that an error points at, if it has one. -/
def position? : Error → Option Position
  | .unexpectedCharacter _ position => some position
  | .unterminated _ position => some position
  | .expected _ _ position => some position
  | .duplicateClause _ position => some position
  | .expressionTooDeep _ position => some position
  | .unsupported _ => none
  | .inputTooLarge _ _ => none

/-- Whether an error was found while cutting the text into tokens. -/
def isLexical : Error → Bool
  | .unexpectedCharacter _ _ => true
  | .unterminated _ _ => true
  | _ => false

end Error

end SqlDdl
