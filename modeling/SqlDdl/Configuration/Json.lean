import SqlDdl.Configuration
import SqlDdl.Json

/-!
# Configurations in JSON

A configuration as a JSON value and back. As in documents, parts may be left out and
unknown members are passed over, but a list holds no more values than the record has.
-/

namespace SqlDdl

/-- The values of a record of the given fields, each if it is there. -/
def Json.partial? (names : List String) : Json → Option (List (Option Json))
  | .object members => some (names.map (members.lookup ·))
  | .array items =>
    if items.length ≤ names.length then some ((List.range names.length).map (items[·]?)) else none
  | _ => none

/-- A decoded value; the standard one if there is no value. -/
def Json.decodeOr? {α : Type} (decode : Json → Option α) (otherwise : α) :
    Option Json → Option α
  | none => some otherwise
  | some value => decode value

namespace Settings

/-- Settings as a JSON value. -/
def toJson (settings : Settings) : Json :=
  .object
    [("max_input_length", .ofNat settings.maxInputLength),
     ("max_expression_depth", .ofNat settings.maxExpressionDepth),
     ("fold_identifiers", .bool settings.foldIdentifiers)]

/-- The settings that a JSON value describes. -/
def ofJson? (value : Json) : Option Settings := do
  let [length, depth, fold] ←
    value.partial? ["max_input_length", "max_expression_depth", "fold_identifiers"] | none
  return {
    maxInputLength := ← Json.decodeOr? (Json.natBelow? UInt64.size) standard.maxInputLength length
    maxExpressionDepth := ← Json.decodeOr? (Json.natBelow? UInt64.size) standard.maxExpressionDepth depth
    foldIdentifiers := ← Json.decodeOr? Json.bool? standard.foldIdentifiers fold }

end Settings

namespace Configuration

/-- A configuration as a JSON value. -/
def toJson (configuration : Configuration) : Json :=
  .object
    [("parser", configuration.settings.toJson),
     ("logging", .object [("level", .string configuration.logLevel)])]

/-- The log level that a JSON value describes. -/
def levelOfJson? (value : Json) : Option String := do
  let [level] ← value.partial? ["level"] | none
  Json.decodeOr? Json.string? standard.logLevel level

/-- The configuration that a JSON value describes. -/
def ofJson? (value : Json) : Option Configuration := do
  let [parser, logging] ← value.partial? ["parser", "logging"] | none
  return {
    settings := ← Json.decodeOr? Settings.ofJson? standard.settings parser
    logLevel := ← Json.decodeOr? levelOfJson? standard.logLevel logging }

end Configuration

end SqlDdl
