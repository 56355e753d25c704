/-!
# JSON values

Values of the JSON data model, and the two conventions by which the types of this
library are written in them. A record is an object with a member per field; it is
also read from a list of exactly its fields. A value of a type with alternatives is
the name of the alternative, or an object whose one member has that name and holds
what the alternative carries. Members of objects keep their order when written.
-/

namespace SqlDdl

/-- A JSON value. -/
inductive Json where
  | null
  | bool (value : Bool)
  | integer (value : Int)
  /-- The number `digits / 10 ^ places`, written with a point. -/
  | fraction (digits : Int) (places : Nat)
  | string (value : String)
  | array (items : List Json)
  | object (members : List (String × Json))
  deriving Inhabited

namespace Json

variable {α : Type}

/-- The number of a natural number. -/
def ofNat (n : Nat) : Json := .integer n

/-- The list of some texts. -/
def ofStrings (texts : List String) : Json := .array (texts.map .string)

/-- A value that may be missing; `null` stands for a missing one. -/
def ofOption (encode : α → Json) : Option α → Json
  | some value => encode value
  | none => .null

/-- An alternative that carries something. -/
def tagged (tag : String) (body : Json) : Json := .object [(tag, body)]

/-- The truth value that a JSON value is. -/
def bool? : Json → Option Bool
  | .bool value => some value
  | _ => none

/-- The text that a JSON value is. -/
def string? : Json → Option String
  | .string value => some value
  | _ => none

/-- The whole number below a bound that a JSON value is. -/
def natBelow? (bound : Nat) : Json → Option Nat
  | .integer (.ofNat n) => if n < bound then some n else none
  | _ => none

/-- The list that a JSON value is, its items decoded. -/
def list? (decode : Json → Option α) : Json → Option (List α)
  | .array items => items.mapM decode
  | _ => none

/-- The texts in a list. -/
def strings? : Json → Option (List String) := list? string?

/-- The fields of a record in the order of their names; a field that an object lacks is
missing. -/
def fields? (names : List String) : Json → Option (List (Option Json))
  | .object members => some (names.map (members.lookup ·))
  | .array items => if items.length = names.length then some (items.map some) else none
  | _ => none

/-- The fields of a record that is carried by an alternative, which is always an object. -/
def members? (names : List String) : Json → Option (List (Option Json))
  | .object members => some (names.map (members.lookup ·))
  | _ => none

/-- A field that may be missing or `null`. -/
def optional? (decode : Json → Option α) : Option Json → Option (Option α)
  | none => some none
  | some .null => some none
  | some value => some <$> decode value

/-- The name of an alternative and what it carries, if it carries anything. -/
def variant? : Json → Option (String × Option Json)
  | .string tag => some (tag, none)
  | .object [(tag, body)] => some (tag, some body)
  | _ => none

/-- Whether an alternative carries nothing, as it may also say by carrying `null`. -/
def isUnit : Option Json → Bool
  | none => true
  | some .null => true
  | some _ => false

/-- The alternative among `names` that carries nothing. -/
def unitVariant? (names : List (String × α)) (value : Json) : Option α := do
  let (tag, body) ← value.variant?
  if isUnit body then names.lookup tag else none

end Json

end SqlDdl
