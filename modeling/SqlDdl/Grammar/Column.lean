import SqlDdl.Grammar.Constraint
import SqlDdl.Grammar.DataType
import SqlDdl.Grammar.Expression
import SqlDdl.Statement

/-!
# Reading columns

A column has a name, a type, perhaps a collation, and options in any order. Most
options are constraints on the one column and join the constraints of the table;
`NULL` means nothing, and `DEFAULT` may stand at most once.
-/

namespace SqlDdl.Grammar

/-- An option of a column. -/
inductive ColumnOption where
  | notNull
  | null
  | default (value : Expression)
  | primaryKey
  | unique
  | foreignKey (reference : ForeignKey)
  deriving DecidableEq, Inhabited

/-- Whether an option forbids the column to be without a value. -/
def ColumnOption.forbidsNull : ColumnOption → Bool
  | .notNull => true
  | .primaryKey => true
  | _ => false

/-- The kind of constraint that an option declares, if it declares one. -/
def ColumnOption.kind? : ColumnOption → Option ConstraintKind
  | .notNull => some .notNull
  | .primaryKey => some .primaryKey
  | .unique => some .unique
  | .foreignKey reference => some (.foreignKey reference)
  | .null => none
  | .default _ => none

/-- The default value that an option gives, if it gives one. -/
def ColumnOption.default? : ColumnOption → Option Expression
  | .default value => some value
  | _ => none

/-- An option with the name given to it, if any. -/
structure NamedOption where
  /-- The name given behind `CONSTRAINT`, if any. -/
  name : Option String
  /-- The option itself. -/
  option : ColumnOption
  deriving DecidableEq, Inhabited

/-- The constraint on a column that an option declares, if it declares one. -/
def NamedOption.constraint? (column : String) (named : NamedOption) : Option Constraint :=
  named.option.kind?.map fun kind => .plain named.name kind [column]

/-- An option of a column, with the name given to it. -/
def columnOption [Retreat] (settings : Settings) : Reading NamedOption := do
  let name ← constraintName? settings
  match ← next with
  | .keyword .not =>
    requireKeyword .null
    return ⟨name, .notNull⟩
  | .keyword .null => return ⟨name, .null⟩
  | .keyword .default => return ⟨name, .default (← expression settings)⟩
  | .keyword .primary =>
    requireKeyword .key
    return ⟨name, .primaryKey⟩
  | .keyword .unique => return ⟨name, .unique⟩
  | .keyword .references => return ⟨name, .foreignKey (← foreignKey settings)⟩
  | .keyword .check => fail (.unsupported .checkConstraint)
  | other => rejectRead .columnOption other

/-- A column and the constraints that its options declare. -/
structure ColumnEntry where
  /-- The column with its type, collation and default. -/
  column : Column
  /-- The constraints on the column, in the order of its options. -/
  constraints : List Constraint
  deriving DecidableEq, Inhabited

/-- What a column with the given options is. -/
def ColumnEntry.ofOptions (name : String) (dataType : DataType) (collation : Option ObjectName)
    (options : List NamedOption) : ColumnEntry where
  column :=
    { name := name
      dataType := dataType
      collation := collation
      default := options.findSome? (·.option.default?)
      notNull := options.any (·.option.forbidsNull) }
  constraints := options.filterMap (NamedOption.constraint? name)

/-- Whether a token ends the options of a column. -/
def endsColumn : Token → Bool
  | .eof => true
  | .comma => true
  | .rightParen => true
  | .semicolon => true
  | _ => false

/-- One step through the options of a column, the last one found standing first: one more
option, or the end. -/
def columnStep [Retreat] (settings : Settings) (found : List NamedOption) :
    Reading (List NamedOption ⊕ List NamedOption) := do
  if endsColumn (← peek) then return .inr found.reverse
  else
    let start ← position
    let named ← columnOption settings
    if named.option.default?.isSome && found.any (·.option.default?.isSome) then
      fail (.duplicateClause .default start)
    return .inl (named :: found)

/-- A collation, if one is given. -/
def collation? (settings : Settings) : Reading (Option ObjectName) := do
  if ← consumeKeyword .collate then return some (← objectName settings) else return none

/-- A column with its options. -/
def columnEntry [Retreat] (settings : Settings) : Reading ColumnEntry := do
  let name ← identifier settings .columnName
  let dataType ← dataType settings
  let collation ← collation? settings
  let entry := ColumnEntry.ofOptions name dataType collation
    (← repeatStep (columnStep settings) [])
  record (.column name dataType entry.constraints.length)
  return entry

/-- What stands between two commas of a table. -/
inductive TableEntry where
  | column (entry : ColumnEntry)
  | constraint (constraint : Constraint)
  /-- A constraint that means nothing. -/
  | nothing
  deriving DecidableEq, Inhabited

/-- The column of an entry, if it is one. -/
def TableEntry.column? : TableEntry → Option Column
  | .column entry => some entry.column
  | _ => none

/-- The constraints that an entry declares. -/
def TableEntry.constraints : TableEntry → List Constraint
  | .column entry => entry.constraints
  | .constraint declared => [declared]
  | .nothing => []

/-- A constraint of the table or a column. -/
def tableEntry [Retreat] (settings : Settings) : Reading TableEntry := do
  match ← tableConstraint settings with
  | .found declared => return .constraint declared
  | .discarded => return .nothing
  | .absent =>
    if (← peek).isWord then return .column (← columnEntry settings) else reject .tableEntry

/-- The entries of a table in parentheses; none if there is no parenthesis. -/
def tableEntries [Retreat] (settings : Settings) : Reading (List TableEntry) := do
  if ← consume .leftParen then
    if ← consume .rightParen then return []
    else closedList (tableEntry settings) .entrySeparator
  else return []

end SqlDdl.Grammar
