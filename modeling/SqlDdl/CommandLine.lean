import SqlDdl.CommandLine.Arguments
import SqlDdl.Configuration.Document
import SqlDdl.Configuration.Environment
import SqlDdl.Json.Pretty
import SqlDdl.Session
import SqlDdl.Statement.Json
import SqlDdl.Token.Json

/-!
# Running the program

The configuration comes from the file that is named, then the environment, then the
options, each overriding what comes before it; folding can be turned on by its flag
and not off. Files are read through a function from paths to texts, the environment
through one from names to values. The tokens of a text are shown whatever its length.
-/

namespace SqlDdl.CommandLine

/-- Why there is no configuration to run with. -/
inductive LoadFailure where
  /-- The named file gives none. -/
  | file (path : String) (cause : Configuration.Error)
  /-- The environment gives none. -/
  | environment (cause : Configuration.Error)
  /-- The options give none. -/
  | options (cause : Configuration.Error)
  deriving DecidableEq, Inhabited

/-- The wording of a failure followed by that of its causes. -/
def LoadFailure.chain : LoadFailure → List String
  | .file path cause => s!"failed to load config {path}" :: cause.chain
  | .environment cause => "invalid DDLPARSER_* environment" :: cause.chain
  | .options cause => cause.chain

/-- A configuration overridden by the options of an invocation. -/
def Invocation.override (invocation : Invocation) (base : Configuration) : Configuration where
  settings :=
    { base.settings with
      foldIdentifiers := invocation.foldIdentifiers || base.settings.foldIdentifiers }
  logLevel := invocation.logLevel.getD base.logLevel

/-- The configuration before the environment and the options. -/
def Invocation.base (invocation : Invocation) (read : String → Except FileError String) :
    Except LoadFailure Configuration :=
  match invocation.config with
  | none => .ok .standard
  | some path => (Configuration.load read path).mapError (.file path)

/-- The configuration that an invocation runs with. -/
def Invocation.configuration (invocation : Invocation) (read : String → Except FileError String)
    (lookup : String → Option String) : Except LoadFailure Configuration := do
  let base ← invocation.base read
  let overridden ← (base.override lookup).mapError .environment
  (invocation.override overridden).validated.mapError .options

/-- Why a command gives no output. -/
inductive RunFailure where
  | twoInputs
  | noInput
  | file (path : String) (cause : FileError)
  /-- The text is not read to its end. -/
  | reading (cause : Grammar.Failure)
  deriving DecidableEq, Inhabited

/-- The wording of a failure followed by that of its causes. -/
def RunFailure.chain : RunFailure → List String
  | .twoInputs => ["pass either SQL text or --file, not both"]
  | .noInput => ["no SQL given: pass SQL text or --file"]
  | .file path cause => [s!"failed to read {path}", cause.message]
  | .reading cause => [cause.message]

/-- The text that an input names. -/
def Input.text (input : Input) (read : String → Except FileError String) :
    Except RunFailure String :=
  match input.sql, input.file with
  | some sql, none => .ok sql
  | none, some path => (read path).mapError (.file path)
  | some _, some _ => .error .twoInputs
  | none, none => .error .noInput

/-- The output of a command. -/
def Command.output (command : Command) (configuration : Configuration)
    (read : String → Except FileError String) : Except RunFailure String :=
  match command with
  | .parse input => do
    let text ← input.text read
    let tree ← (SqlDdl.parse configuration.settings text).mapError .reading
    return tree.toJson.pretty
  | .tokens input => do
    let text ← input.text read
    let stream ← (TokenStream.scan text).mapError fun cause => .reading (.error cause)
    return (Json.array (stream.tokens.map Token.toJson)).pretty
  | .config => .ok configuration.toDocument

end SqlDdl.CommandLine
