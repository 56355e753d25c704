import SqlDdl.Statement.ObjectName

/-!
# Constraints

Constraints of a table, whether they were declared for the table or for one of its
columns. A constraint that came from a column names just that column.
-/

namespace SqlDdl

/-- What happens to a row when the row it refers to is deleted or changed. -/
inductive ReferentialAction where
  | restrict
  | cascade
  | setNull
  | setDefault
  | noAction
  deriving DecidableEq, Inhabited

/-- The words that an action is written with. -/
def ReferentialAction.display : ReferentialAction → String
  | .restrict => "RESTRICT"
  | .cascade => "CASCADE"
  | .setNull => "SET NULL"
  | .setDefault => "SET DEFAULT"
  | .noAction => "NO ACTION"

/-- A reference to the rows of another table. -/
structure ForeignKey where
  /-- The table referred to. -/
  foreignTable : ObjectName
  /-- The columns referred to; none if they were left out. -/
  referredColumns : List String
  /-- The action on deletion, if one was given. -/
  onDelete : Option ReferentialAction
  /-- The action on change, if one was given. -/
  onUpdate : Option ReferentialAction
  deriving DecidableEq, Inhabited

/-- What a constraint demands. -/
inductive ConstraintKind where
  | notNull
  | null
  | primaryKey
  | unique
  | foreignKey (reference : ForeignKey)
  | check
  deriving DecidableEq, Inhabited

/-- A constraint of a table. -/
structure Constraint where
  /-- The name given to the constraint, if any. -/
  name : Option String
  /-- What the constraint demands. -/
  kind : ConstraintKind
  /-- The columns that the constraint is about. -/
  columns : List String
  /-- Whether the check may be put off to the end of a transaction. -/
  deferrable : Bool
  /-- Whether it is put off from the start. -/
  initiallyDeferred : Bool
  /-- Whether the constraint is kept from tables that inherit from this one. -/
  noInherit : Bool
  /-- The condition of a check as it was written. -/
  rawExpression : Option String
  /-- The condition of a check in prepared form. -/
  cookedExpression : Option String
  deriving DecidableEq, Inhabited

namespace Constraint

/-- An immediate constraint of a kind on some columns, without conditions. -/
def plain (name : Option String) (kind : ConstraintKind) (columns : List String) : Constraint where
  name := name
  kind := kind
  columns := columns
  deferrable := false
  initiallyDeferred := false
  noInherit := false
  rawExpression := none
  cookedExpression := none

/-- The reference of a foreign key; other constraints have none. -/
def foreignKey? (constraint : Constraint) : Option ForeignKey :=
  match constraint.kind with
  | .foreignKey reference => some reference
  | _ => none

end Constraint

end SqlDdl
