import SqlDdl.Statement.Constraint
import SqlDdl.Statement.DataType
import SqlDdl.Statement.Expression

/-!
# Statements

The tree of a data-definition statement. It owns all its texts and refers to no
token. The constraints of a table are its own and those of its columns, in the
order in which they were declared.
-/

namespace SqlDdl

/-- A column of a table. -/
structure Column where
  /-- The name of the column. -/
  name : String
  /-- The type of its values. -/
  dataType : DataType
  /-- The collation, if one was given. -/
  collation : Option ObjectName
  /-- The default value, if one was given. -/
  default : Option Expression
  /-- Whether the column was declared `NOT NULL` or `PRIMARY KEY`. -/
  notNull : Bool
  deriving DecidableEq, Inhabited

/-- Whether a column may be without a value. -/
def Column.isNullable (column : Column) : Bool := !column.notNull

/-- The creation of a table. -/
structure CreateTable where
  /-- The name of the table. -/
  name : ObjectName
  /-- Whether a table of this name may be there already. -/
  ifNotExists : Bool
  /-- The columns in the order of writing. -/
  columns : List Column
  /-- The constraints of the table and of its columns, in the order of writing. -/
  constraints : List Constraint
  deriving DecidableEq, Inhabited

/-- The creation of a schema. -/
structure CreateSchema where
  /-- The name of the schema. -/
  name : ObjectName
  /-- Whether a schema of this name may be there already. -/
  ifNotExists : Bool
  deriving DecidableEq, Inhabited

/-- The removal of a table. -/
structure DropTable where
  /-- The name of the table. -/
  name : ObjectName
  /-- Whether there need not be a table of this name. -/
  ifExists : Bool
  /-- Whether what depends on the table goes with it. -/
  cascade : Bool
  deriving DecidableEq, Inhabited

/-- A data-definition statement. -/
inductive Statement where
  | createTable (table : CreateTable)
  | createSchema (schema : CreateSchema)
  | dropTable (drop : DropTable)
  deriving DecidableEq, Inhabited

end SqlDdl
