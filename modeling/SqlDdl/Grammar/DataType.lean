import SqlDdl.Grammar.Name
import SqlDdl.Text.Decimal

/-!
# Reading data types

A type begins with a word. An unquoted word whose upper-case form is one of the
listed spellings begins a built-in type, any other word the name of a type that is
not built in. The words after `DOUBLE` and `CHARACTER` are compared in ASCII case
and may be quoted. Modifiers are 32-bit numbers.
-/

namespace SqlDdl.Grammar

/-- What a built-in type name begins. -/
inductive TypeHead where
  /-- A type that is the name alone. -/
  | plain (dataType : DataType)
  /-- A floating-point type with an optional precision. -/
  | float
  /-- A type whose name has the second word `PRECISION`. -/
  | double
  | numeric
  | varchar
  /-- A character type, varying if that word follows. -/
  | character
  deriving DecidableEq, Inhabited

/-- The spellings of the built-in types, in capitals. -/
def typeHeads : List (String × TypeHead) :=
  [("SMALLINT", .plain .smallInt), ("INT2", .plain .smallInt),
   ("INT", .plain .integer), ("INTEGER", .plain .integer), ("INT4", .plain .integer),
   ("BIGINT", .plain .bigInt), ("INT8", .plain .bigInt),
   ("REAL", .plain .real), ("FLOAT4", .plain .real),
   ("FLOAT8", .plain .doublePrecision), ("FLOAT", .float), ("DOUBLE", .double),
   ("NUMERIC", .numeric), ("DECIMAL", .numeric),
   ("BOOLEAN", .plain .boolean), ("BOOL", .plain .boolean),
   ("TEXT", .plain .text), ("VARCHAR", .varchar),
   ("CHAR", .character), ("CHARACTER", .character),
   ("DATE", .plain .date), ("TIME", .plain .time), ("TIMESTAMP", .plain .timestamp),
   ("BYTEA", .plain .bytea), ("UUID", .plain .uuid),
   ("JSON", .plain .json), ("JSONB", .plain .json)]

/-- What a word begins where a type is expected; nothing if it names no built-in type. -/
def typeHead? (word : Word) : Option TypeHead :=
  if word.quoted then none else typeHeads.lookup (Text.toUpperCase word.value)

/-- Whether a token is the word with the given capitals, in any mix of ASCII case. -/
def isWordNamed (capitals : String) : Token → Bool
  | .word word => Text.toUpperASCII word.value == capitals
  | _ => false

/-- A number that fits 32 bits. -/
def typeModifier : Reading UInt32 := do
  match ← peek with
  | .number text =>
    match Text.readDecimal? UInt32.size text with
    | some value =>
      let _ ← next
      return UInt32.ofNat value
    | none => reject .typeModifier
  | _ => reject .typeModifier

/-- A length in parentheses, if there is a parenthesis. -/
def typeLength : Reading (Option UInt32) := do
  if ← consume .leftParen then
    let length ← typeModifier
    require .rightParen
    return some length
  else return none

/-- A precision in parentheses, with a scale if a comma follows; nothing if there is no
parenthesis. -/
def numericModifiers : Reading (Option UInt32 × Option UInt32) := do
  if ← consume .leftParen then
    let precision ← typeModifier
    let scale ← if ← consume .comma then some <$> typeModifier else pure none
    require .rightParen
    return (some precision, scale)
  else return (none, none)

/-- The type of a floating-point column: up to 24 bits are single precision. -/
def floatOf : Option UInt32 → DataType
  | some precision => if precision ≤ 24 then .real else .doublePrecision
  | none => .doublePrecision

/-- The rest of a built-in type whose first word has been read. -/
def typeRest : TypeHead → Reading DataType
  | .plain dataType => return dataType
  | .float => return floatOf (← typeLength)
  | .double => do
    if isWordNamed "PRECISION" (← peek) then
      let _ ← next
      return .doublePrecision
    else reject .precision
  | .numeric => do
    let (precision, scale) ← numericModifiers
    return .numeric precision scale
  | .varchar => return .varchar (← typeLength)
  | .character => do
    if isWordNamed "VARYING" (← peek) then
      let _ ← next
      return .varchar (← typeLength)
    else return .char (← typeLength)

/-- A data type. -/
def dataType (settings : Settings) : Reading DataType := do
  match ← peek with
  | .word word =>
    match typeHead? word with
    | some head =>
      let _ ← next
      typeRest head
    | none => return .custom (← objectName settings)
  | _ => reject .dataType

end SqlDdl.Grammar
