import SqlDdl.Statement.ObjectName

/-!
# Data types

The types that a column may have. Built-in types are told apart by name and may
carry modifiers; any other type is kept by the name it is written with.
-/

namespace SqlDdl

/-- The type of a column. -/
inductive DataType where
  | smallInt
  | integer
  | bigInt
  | real
  | doublePrecision
  | numeric (precision scale : Option UInt32)
  | boolean
  | text
  | varchar (length : Option UInt32)
  | char (length : Option UInt32)
  | date
  | time
  | timestamp
  | bytea
  | uuid
  | json
  /-- A type that is not built in. -/
  | custom (name : ObjectName)
  deriving DecidableEq, Inhabited

end SqlDdl
