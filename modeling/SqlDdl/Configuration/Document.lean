import SqlDdl.Configuration
import SqlDdl.Toml.Reader
import SqlDdl.Toml.Writer

/-!
# Configuration files

A configuration as a TOML document of two tables. What a document leaves out has its
standard value, and what it says beyond is passed over, though its numbers have to
come to something; a value of the wrong type is refused. A table may also be given as
a list of its values in order, of which no more are looked at than it has. What is
read from a file has to be acceptable; what is written need not be.
-/

namespace SqlDdl

namespace Toml

/-- The values of the named keys of a table, each if it is there, if every other member
evaluates. -/
def named? (names : List String) (members : Members) : Option (List (Option Value)) :=
  if membersEvaluate (members.filter fun member => !names.contains member.1) then
    some (names.map (members.lookup ·))
  else none

/-- The values of the named keys of a record, each if it is there. A date is a record that
has none of them. -/
def fields? (names : List String) : Value → Option (List (Option Value))
  | .table _ members => named? names members
  | .array items => some ((List.range names.length).map (items[·]?))
  | .tables rows =>
    some ((List.range names.length).map fun i => (rows.reverse[i]?).map (.table .header))
  | .datetime => some (names.map fun _ => none)
  | _ => none

/-- A number that has a 64-bit representation; the standard one if there is no value. -/
def natOr? (otherwise : Nat) : Option Value → Option Nat
  | none => some otherwise
  | some (.integer (some (.ofNat n))) => if n < UInt64.size then some n else none
  | some _ => none

/-- A truth value; the standard one if there is no value. -/
def boolOr? (otherwise : Bool) : Option Value → Option Bool
  | none => some otherwise
  | some (.boolean b) => some b
  | some _ => none

/-- A text; the standard one if there is no value. -/
def stringOr? (otherwise : String) : Option Value → Option String
  | none => some otherwise
  | some (.string s) => some s
  | some _ => none

end Toml

/-- The settings that a value of a document gives. -/
def Settings.ofToml? (value : Toml.Value) : Option Settings := do
  let [length, depth, fold] ←
    Toml.fields? ["max_input_length", "max_expression_depth", "fold_identifiers"] value | none
  return {
    maxInputLength := ← Toml.natOr? standard.maxInputLength length
    maxExpressionDepth := ← Toml.natOr? standard.maxExpressionDepth depth
    foldIdentifiers := ← Toml.boolOr? standard.foldIdentifiers fold }

namespace Configuration

/-- The log level that a value of a document gives. -/
def levelOfToml? (value : Toml.Value) : Option String := do
  let [level] ← Toml.fields? ["level"] value | none
  Toml.stringOr? standard.logLevel level

/-- The configuration that the members of a document give. -/
def ofToml? (document : Toml.Members) : Option Configuration := do
  let [parser, logging] ← Toml.named? ["parser", "logging"] document | none
  let settings ← match parser with
    | some value => Settings.ofToml? value
    | none => some standard.settings
  let logLevel ← match logging with
    | some value => levelOfToml? value
    | none => some standard.logLevel
  return ⟨settings, logLevel⟩

/-- The acceptable configuration that the text of a document gives. -/
def ofDocument (text : String) : Except Error Configuration :=
  match (Toml.read? text).bind ofToml? with
  | some configuration => configuration.validated
  | none => .error .document

/-- A configuration as the text of a document. -/
def toDocument (configuration : Configuration) : String :=
  "[parser]\n" ++
    "max_input_length = " ++ toString configuration.settings.maxInputLength ++ "\n" ++
    "max_expression_depth = " ++ toString configuration.settings.maxExpressionDepth ++ "\n" ++
    "fold_identifiers = " ++ (if configuration.settings.foldIdentifiers then "true" else "false") ++
    "\n\n[logging]\n" ++
    "level = " ++ Toml.writeString configuration.logLevel ++ "\n"

/-- The acceptable configuration in a file. -/
def load (read : String → Except FileError String) (path : String) : Except Error Configuration :=
  match read path with
  | .ok text => ofDocument text
  | .error cause => .error (.file cause)

/-- The directory with a configuration written to a file. -/
def save (directory : Directory) (path : String) (configuration : Configuration) :
    Except Error Directory :=
  match directory.write path configuration.toDocument with
  | .ok directory => .ok directory
  | .error cause => .error (.file cause)

end Configuration

end SqlDdl
