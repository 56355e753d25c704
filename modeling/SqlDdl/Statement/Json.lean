import SqlDdl.Json
import SqlDdl.Statement

/-!
# Statements in JSON

Every type of the statement tree as a JSON value and back. Reading is as generous
as the conventions of `SqlDdl.Json` allow: unknown members are passed over, and
fields whose values may be missing may themselves be missing.
-/

namespace SqlDdl

namespace ObjectName

/-- A name is the list of its parts. -/
def toJson (name : ObjectName) : Json := .ofStrings name.parts

/-- The name that a JSON value describes. -/
def ofJson? (value : Json) : Option ObjectName := .mk <$> value.strings?

end ObjectName

namespace DataType

/-- A type modifier as a JSON value. -/
def modifierToJson (modifier : Option UInt32) : Json := .ofOption (fun n => .ofNat n.toNat) modifier

/-- The type modifier that a JSON value describes. -/
def modifierOfJson? (value : Json) : Option UInt32 :=
  UInt32.ofNat <$> value.natBelow? UInt32.size

/-- The types without modifiers, with their names. -/
def plainNames : List (String × DataType) :=
  [("SmallInt", .smallInt), ("Integer", .integer), ("BigInt", .bigInt), ("Real", .real),
   ("DoublePrecision", .doublePrecision), ("Boolean", .boolean), ("Text", .text),
   ("Date", .date), ("Time", .time), ("Timestamp", .timestamp), ("Bytea", .bytea),
   ("Uuid", .uuid), ("Json", .json)]

/-- A data type as a JSON value. -/
def toJson : DataType → Json
  | .smallInt => .string "SmallInt"
  | .integer => .string "Integer"
  | .bigInt => .string "BigInt"
  | .real => .string "Real"
  | .doublePrecision => .string "DoublePrecision"
  | .numeric precision scale =>
    .tagged "Numeric"
      (.object [("precision", modifierToJson precision), ("scale", modifierToJson scale)])
  | .boolean => .string "Boolean"
  | .text => .string "Text"
  | .varchar length => .tagged "Varchar" (.object [("length", modifierToJson length)])
  | .char length => .tagged "Char" (.object [("length", modifierToJson length)])
  | .date => .string "Date"
  | .time => .string "Time"
  | .timestamp => .string "Timestamp"
  | .bytea => .string "Bytea"
  | .uuid => .string "Uuid"
  | .json => .string "Json"
  | .custom name => .tagged "Custom" name.toJson

/-- The length that the members of a character type give. -/
def lengthOfJson? (value : Json) : Option (Option UInt32) := do
  let [length] ← value.members? ["length"] | none
  Json.optional? modifierOfJson? length

/-- The data type that a JSON value describes. -/
def ofJson? (value : Json) : Option DataType := do
  let (tag, body) ← value.variant?
  match tag with
  | "Numeric" =>
    let [precision, scale] ← (← body).members? ["precision", "scale"] | none
    return .numeric (← Json.optional? modifierOfJson? precision)
      (← Json.optional? modifierOfJson? scale)
  | "Varchar" => .varchar <$> lengthOfJson? (← body)
  | "Char" => .char <$> lengthOfJson? (← body)
  | "Custom" => .custom <$> ObjectName.ofJson? (← body)
  | _ => value.unitVariant? plainNames

end DataType

namespace Literal

/-- A constant as a JSON value. -/
def toJson : Literal → Json
  | .null => .string "Null"
  | .boolean value => .tagged "Boolean" (.bool value)
  | .number text => .tagged "Number" (.string text)
  | .string value => .tagged "String" (.string value)

/-- The constant that a JSON value describes. -/
def ofJson? (value : Json) : Option Literal := do
  let (tag, body) ← value.variant?
  match tag with
  | "Boolean" => .boolean <$> (← body).bool?
  | "Number" => .number <$> (← body).string?
  | "String" => .string <$> (← body).string?
  | _ => value.unitVariant? [("Null", .null)]

end Literal

namespace Expression

mutual

/-- An expression as a JSON value. -/
def toJson : Expression → Json
  | .literal constant => .tagged "Literal" constant.toJson
  | .identifier name => .tagged "Identifier" (.string name)
  | .call name arguments =>
    .tagged "Function" (.object [("name", .string name), ("args", .array (listToJson arguments))])
  | .negate operand => .tagged "Negate" operand.toJson

/-- Expressions as JSON values. -/
def listToJson : List Expression → List Json
  | [] => []
  | expression :: rest => expression.toJson :: listToJson rest

end

mutual

/-- The expression that a JSON value describes. -/
def ofJson? : Json → Option Expression
  | .object [(tag, body)] =>
    match tag with
    | "Literal" => .literal <$> Literal.ofJson? body
    | "Identifier" => .identifier <$> body.string?
    | "Function" => callOfJson? body
    | "Negate" => .negate <$> ofJson? body
    | _ => none
  | _ => none

/-- The call whose name and arguments a JSON object holds. -/
def callOfJson? : Json → Option Expression
  | .object members => do
    let name ← (← members.lookup "name").string?
    return .call name (← argumentsOfMembers? members)
  | _ => none

/-- The arguments that the first member of that name holds. -/
def argumentsOfMembers? : List (String × Json) → Option (List Expression)
  | [] => none
  | (name, value) :: members =>
    if name = "args" then argumentsOfJson? value else argumentsOfMembers? members

/-- The arguments that a JSON list holds. -/
def argumentsOfJson? : Json → Option (List Expression)
  | .array items => listOfJson? items
  | _ => none

/-- The expressions that JSON values describe. -/
def listOfJson? : List Json → Option (List Expression)
  | [] => some []
  | item :: items => do return (← ofJson? item) :: (← listOfJson? items)

end

end Expression

namespace Column

/-- A column as a JSON value. -/
def toJson (column : Column) : Json :=
  .object
    [("name", .string column.name),
     ("data_type", column.dataType.toJson),
     ("collation", .ofOption ObjectName.toJson column.collation),
     ("default", .ofOption Expression.toJson column.default),
     ("not_null", .bool column.notNull)]

/-- The column that a JSON value describes. -/
def ofJson? (value : Json) : Option Column := do
  let [name, dataType, collation, default, notNull] ←
    value.fields? ["name", "data_type", "collation", "default", "not_null"] | none
  return {
    name := ← (← name).string?
    dataType := ← DataType.ofJson? (← dataType)
    collation := ← Json.optional? ObjectName.ofJson? collation
    default := ← Json.optional? Expression.ofJson? default
    notNull := ← (← notNull).bool? }

end Column

namespace ReferentialAction

/-- The actions with their names. -/
def names : List (String × ReferentialAction) :=
  [("Restrict", .restrict), ("Cascade", .cascade), ("SetNull", .setNull),
   ("SetDefault", .setDefault), ("NoAction", .noAction)]

/-- An action is its name. -/
def toJson : ReferentialAction → Json
  | .restrict => .string "Restrict"
  | .cascade => .string "Cascade"
  | .setNull => .string "SetNull"
  | .setDefault => .string "SetDefault"
  | .noAction => .string "NoAction"

/-- The action that a JSON value describes. -/
def ofJson? (value : Json) : Option ReferentialAction := value.unitVariant? names

end ReferentialAction

namespace ForeignKey

/-- A reference as a JSON value. -/
def toJson (reference : ForeignKey) : Json :=
  .object
    [("foreign_table", reference.foreignTable.toJson),
     ("referred_columns", .ofStrings reference.referredColumns),
     ("on_delete", .ofOption ReferentialAction.toJson reference.onDelete),
     ("on_update", .ofOption ReferentialAction.toJson reference.onUpdate)]

/-- The reference that a JSON value describes. -/
def ofJson? (value : Json) : Option ForeignKey := do
  let [table, columns, onDelete, onUpdate] ←
    value.fields? ["foreign_table", "referred_columns", "on_delete", "on_update"] | none
  return {
    foreignTable := ← ObjectName.ofJson? (← table)
    referredColumns := ← (← columns).strings?
    onDelete := ← Json.optional? ReferentialAction.ofJson? onDelete
    onUpdate := ← Json.optional? ReferentialAction.ofJson? onUpdate }

end ForeignKey

namespace ConstraintKind

/-- The kinds that carry nothing, with their names. -/
def plainNames : List (String × ConstraintKind) :=
  [("NotNull", .notNull), ("Null", .null), ("PrimaryKey", .primaryKey), ("Unique", .unique),
   ("Check", .check)]

/-- A kind of constraint as a JSON value. -/
def toJson : ConstraintKind → Json
  | .notNull => .string "NotNull"
  | .null => .string "Null"
  | .primaryKey => .string "PrimaryKey"
  | .unique => .string "Unique"
  | .foreignKey reference => .tagged "ForeignKey" reference.toJson
  | .check => .string "Check"

/-- The kind of constraint that a JSON value describes. -/
def ofJson? (value : Json) : Option ConstraintKind := do
  let (tag, body) ← value.variant?
  match tag with
  | "ForeignKey" => .foreignKey <$> ForeignKey.ofJson? (← body)
  | _ => value.unitVariant? plainNames

end ConstraintKind

namespace Constraint

/-- A constraint as a JSON value. -/
def toJson (constraint : Constraint) : Json :=
  .object
    [("name", .ofOption .string constraint.name),
     ("kind", constraint.kind.toJson),
     ("columns", .ofStrings constraint.columns),
     ("deferrable", .bool constraint.deferrable),
     ("initially_deferred", .bool constraint.initiallyDeferred),
     ("no_inherit", .bool constraint.noInherit),
     ("raw_expression", .ofOption .string constraint.rawExpression),
     ("cooked_expression", .ofOption .string constraint.cookedExpression)]

/-- The constraint that a JSON value describes. -/
def ofJson? (value : Json) : Option Constraint := do
  let [name, kind, columns, deferrable, initially, noInherit, raw, cooked] ←
    value.fields?
      ["name", "kind", "columns", "deferrable", "initially_deferred", "no_inherit",
       "raw_expression", "cooked_expression"] | none
  return {
    name := ← Json.optional? Json.string? name
    kind := ← ConstraintKind.ofJson? (← kind)
    columns := ← (← columns).strings?
    deferrable := ← (← deferrable).bool?
    initiallyDeferred := ← (← initially).bool?
    noInherit := ← (← noInherit).bool?
    rawExpression := ← Json.optional? Json.string? raw
    cookedExpression := ← Json.optional? Json.string? cooked }

end Constraint

namespace Statement

/-- A statement as a JSON value. -/
def toJson : Statement → Json
  | .createTable table =>
    .tagged "CreateTable"
      (.object
        [("name", table.name.toJson),
         ("if_not_exists", .bool table.ifNotExists),
         ("columns", .array (table.columns.map Column.toJson)),
         ("constraints", .array (table.constraints.map Constraint.toJson))])
  | .createSchema schema =>
    .tagged "CreateSchema"
      (.object [("name", schema.name.toJson), ("if_not_exists", .bool schema.ifNotExists)])
  | .dropTable removal =>
    .tagged "DropTable"
      (.object
        [("name", removal.name.toJson),
         ("if_exists", .bool removal.ifExists),
         ("cascade", .bool removal.cascade)])

/-- The statement that a JSON value describes. -/
def ofJson? (value : Json) : Option Statement := do
  let (tag, body) ← value.variant?
  match tag with
  | "CreateTable" =>
    let [name, ifNotExists, columns, constraints] ←
      (← body).fields? ["name", "if_not_exists", "columns", "constraints"] | none
    return .createTable {
      name := ← ObjectName.ofJson? (← name)
      ifNotExists := ← (← ifNotExists).bool?
      columns := ← (← columns).list? Column.ofJson?
      constraints := ← (← constraints).list? Constraint.ofJson? }
  | "CreateSchema" =>
    let [name, ifNotExists] ← (← body).fields? ["name", "if_not_exists"] | none
    return .createSchema {
      name := ← ObjectName.ofJson? (← name)
      ifNotExists := ← (← ifNotExists).bool? }
  | "DropTable" =>
    let [name, ifExists, cascade] ← (← body).fields? ["name", "if_exists", "cascade"] | none
    return .dropTable {
      name := ← ObjectName.ofJson? (← name)
      ifExists := ← (← ifExists).bool?
      cascade := ← (← cascade).bool? }
  | _ => none

end Statement

end SqlDdl
