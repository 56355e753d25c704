import SqlDdl.Statement.Constraint
import SqlDdl.Statement.DataType

/-!
# Outlines

Types and constraints in a one-line form that shows how a value is built, for the
records of a log. A form without parts is a bare name; parts stand in parentheses,
named parts in braces, members of a list in brackets and texts in double quotes.
-/

namespace SqlDdl.Outline

/-- A character of a quoted text; quotes, backslashes and controls are escaped. -/
def quoteChar (c : Char) : List Char :=
  match c with
  | '\x22' => ['\\', '\x22']
  | '\\' => ['\\', '\\']
  | '\n' => ['\\', 'n']
  | '\r' => ['\\', 'r']
  | '\t' => ['\\', 't']
  | '\x00' => ['\\', '0']
  | c =>
    if c.toNat < 0x20 ∨ c.toNat = 0x7F then
      ['\\', 'u', '\x7b'] ++ Nat.toDigits 16 c.toNat ++ ['\x7d']
    else [c]

/-- A text in double quotes. -/
def quote (text : String) : String :=
  String.ofList ('\x22' :: text.toList.flatMap quoteChar ++ ['\x22'])

/-- A form with one unnamed part. -/
def wrap (name part : String) : String := name ++ "(" ++ part ++ ")"

/-- A form with named parts. -/
def record (name : String) (parts : List (String × String)) : String :=
  name ++ " \x7b " ++ ", ".intercalate (parts.map fun (label, part) => label ++ ": " ++ part) ++
    " \x7d"

/-- A list of members. -/
def list (members : List String) : String := "[" ++ ", ".intercalate members ++ "]"

/-- A value that may be missing. -/
def option {α : Type} (outline : α → String) : Option α → String
  | some value => wrap "Some" (outline value)
  | none => "None"

/-- A truth value. -/
def bool (value : Bool) : String := if value then "true" else "false"

/-- The outline of a name. -/
def name (objectName : ObjectName) : String :=
  wrap "ObjectName" (list (objectName.parts.map quote))

/-- The outline of a type modifier. -/
def modifier (value : Option UInt32) : String := option (fun n => toString n.toNat) value

/-- The outline of a data type. -/
def dataType : DataType → String
  | .smallInt => "SmallInt"
  | .integer => "Integer"
  | .bigInt => "BigInt"
  | .real => "Real"
  | .doublePrecision => "DoublePrecision"
  | .numeric precision scale =>
    record "Numeric" [("precision", modifier precision), ("scale", modifier scale)]
  | .boolean => "Boolean"
  | .text => "Text"
  | .varchar length => record "Varchar" [("length", modifier length)]
  | .char length => record "Char" [("length", modifier length)]
  | .date => "Date"
  | .time => "Time"
  | .timestamp => "Timestamp"
  | .bytea => "Bytea"
  | .uuid => "Uuid"
  | .json => "Json"
  | .custom objectName => wrap "Custom" (name objectName)

/-- The outline of a referential action. -/
def action : ReferentialAction → String
  | .restrict => "Restrict"
  | .cascade => "Cascade"
  | .setNull => "SetNull"
  | .setDefault => "SetDefault"
  | .noAction => "NoAction"

/-- The outline of a reference to another table. -/
def reference (foreignKey : ForeignKey) : String :=
  record "ForeignKey"
    [("foreign_table", name foreignKey.foreignTable),
     ("referred_columns", list (foreignKey.referredColumns.map quote)),
     ("on_delete", option action foreignKey.onDelete),
     ("on_update", option action foreignKey.onUpdate)]

/-- The outline of what a constraint demands. -/
def kind : ConstraintKind → String
  | .notNull => "NotNull"
  | .null => "Null"
  | .primaryKey => "PrimaryKey"
  | .unique => "Unique"
  | .foreignKey foreignKey => wrap "ForeignKey" (reference foreignKey)
  | .check => "Check"

/-- The outline of a constraint. -/
def constraint (c : Constraint) : String :=
  record "Constraint"
    [("name", option quote c.name),
     ("kind", kind c.kind),
     ("columns", list (c.columns.map quote)),
     ("deferrable", bool c.deferrable),
     ("initially_deferred", bool c.initiallyDeferred),
     ("no_inherit", bool c.noInherit),
     ("raw_expression", option quote c.rawExpression),
     ("cooked_expression", option quote c.cookedExpression)]

end SqlDdl.Outline
