import SqlDdl.Event
import SqlDdl.Files
import SqlDdl.Settings

/-!
# Configuration

The settings of reading and the level of the log, and what makes them acceptable:
both limits are positive and the level is known by name. The level is kept as it was
written. Of several faults the first in this order is told.
-/

namespace SqlDdl

/-- How the program is set up. -/
structure Configuration where
  /-- How statements are read. -/
  settings : Settings
  /-- The name of the log level as it was written. -/
  logLevel : String
  deriving DecidableEq

namespace Configuration

/-- The configuration that holds where nothing is set. -/
def standard : Configuration := ⟨.standard, "warn"⟩

instance : Inhabited Configuration := ⟨standard⟩

/-- A variable of the environment that sets a part of the configuration. -/
inductive Variable where
  | maxInputLength
  | maxExpressionDepth
  | foldIdentifiers
  | logLevel
  deriving DecidableEq, Inhabited

/-- The name of a variable in the environment. -/
def Variable.name : Variable → String
  | .maxInputLength => "DDLPARSER_MAX_INPUT_LENGTH"
  | .maxExpressionDepth => "DDLPARSER_MAX_EXPRESSION_DEPTH"
  | .foldIdentifiers => "DDLPARSER_FOLD_IDENTIFIERS"
  | .logLevel => "DDLPARSER_LOG_LEVEL"

/-- Why there is no acceptable configuration. -/
inductive Error where
  | zeroInputLength
  | zeroExpressionDepth
  | unknownLogLevel (level : String)
  /-- A variable whose text is no value for it. -/
  | invalidVariable (source : Variable) (text : String)
  /-- A file that cannot be read or written. -/
  | file (cause : FileError)
  /-- A file that is no document, or holds values of the wrong type. -/
  | document
  deriving DecidableEq, Inhabited

namespace Error

/-- The wording of a configuration error. -/
def message : Error → String
  | .zeroInputLength => "Configuration error: max_input_length must be greater than 0"
  | .zeroExpressionDepth => "Configuration error: max_expression_depth must be greater than 0"
  | .unknownLogLevel level => s!"Configuration error: unknown log level: {level}"
  | .invalidVariable source text => s!"Configuration error: invalid {source.name}: {text}"
  | .file cause => s!"I/O error: {cause.message}"
  | .document => "TOML error"

/-- The wording of an error followed by that of its cause, if it has one. -/
def chain : Error → List String
  | .file cause => [message (.file cause), cause.message]
  | error => [error.message]

end Error

/-- What is wrong with a configuration, if anything is. -/
def fault? (configuration : Configuration) : Option Error :=
  if configuration.settings.maxInputLength = 0 then some .zeroInputLength
  else if configuration.settings.maxExpressionDepth = 0 then some .zeroExpressionDepth
  else if (LogLevel.ofText? configuration.logLevel).isNone then
    some (.unknownLogLevel configuration.logLevel)
  else none

/-- The configuration, if it is acceptable. -/
def validated (configuration : Configuration) : Except Error Configuration :=
  match configuration.fault? with
  | some error => .error error
  | none => .ok configuration

end Configuration

end SqlDdl
