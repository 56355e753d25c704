import SqlDdl.Configuration
import SqlDdl.Text.Decimal

/-!
# The environment

Variables of the environment override what a configuration says, also where they
say what holds anyway. A variable that is not set leaves its part as it is. All
variables are read before the result is checked.
-/

namespace SqlDdl.Configuration

/-- A number that has a 64-bit representation, from a variable if that is set. -/
def numberFrom (lookup : String → Option String) (source : Variable) (otherwise : Nat) :
    Except Error Nat :=
  match lookup source.name with
  | none => .ok otherwise
  | some text =>
    match Text.readDecimal? UInt64.size text with
    | some n => .ok n
    | none => .error (.invalidVariable source text)

/-- A truth value, from a variable if that is set. -/
def boolFrom (lookup : String → Option String) (source : Variable) (otherwise : Bool) :
    Except Error Bool :=
  match lookup source.name with
  | none => .ok otherwise
  | some text =>
    if text = "true" then .ok true
    else if text = "false" then .ok false
    else .error (.invalidVariable source text)

/-- A configuration overridden by the variables that are set. -/
def override (lookup : String → Option String) (base : Configuration) :
    Except Error Configuration := do
  let maxInputLength ← numberFrom lookup .maxInputLength base.settings.maxInputLength
  let maxExpressionDepth ← numberFrom lookup .maxExpressionDepth base.settings.maxExpressionDepth
  let foldIdentifiers ← boolFrom lookup .foldIdentifiers base.settings.foldIdentifiers
  let logLevel := (lookup Variable.logLevel.name).getD base.logLevel
  validated ⟨⟨maxInputLength, maxExpressionDepth, foldIdentifiers⟩, logLevel⟩

/-- The configuration that the environment alone gives. -/
def ofEnvironment (lookup : String → Option String) : Except Error Configuration :=
  override lookup standard

end SqlDdl.Configuration
