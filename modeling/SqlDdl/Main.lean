import SqlDdl.CommandLine
import SqlDdl.Version

/-!
# The program

Reads the arguments, the environment and the files they name, and prints what the
command gives. Everything that is decided is decided by `SqlDdl.CommandLine`.
-/

namespace SqlDdl.Program

open CommandLine

/-- How the program is called. -/
def usage : List String :=
  ["Usage: ddlparser [OPTIONS] COMMAND",
   "",
   "Commands:",
   "  parse [SQL] [-f PATH]    Show the tree of a statement",
   "  tokens [SQL] [-f PATH]   Show the tokens of a text",
   "  config                   Show the configuration",
   "",
   "Options:",
   "  -c, --config PATH        Configuration file",
   "      --log-level LEVEL    Level of the log",
   "      --fold-identifiers   Keep unquoted identifiers in lower case",
   "  -h, --help               Show this text",
   "  -V, --version            Show the version"]

/-- What is wrong with arguments that ask for neither help nor the version. -/
def complaint : UsageError → String
  | .missingCommand => "error: a command is required"
  | .unknownCommand => "error: unknown command"
  | .unknownArgument => "error: unexpected argument"
  | .missingValue => "error: an option lacks its value"
  | .unexpectedValue => "error: a flag takes no value"
  | .repeatedOption => "error: an option is given twice"
  | .help => ""
  | .version => ""
  | .noArguments => ""

/-- What a file of the system holds. -/
def readFile (path : String) : IO (Except FileError String) := do
  try
    match String.fromUTF8? (← IO.FS.readBinFile path) with
    | some text => return .ok text
    | none => return .error .invalidText
  catch
    | .noFileOrDirectory _ _ _ => return .error .notFound
    | error => return .error (.other (toString error))

/-- The files that an invocation names. -/
def namedFiles (invocation : Invocation) : List String :=
  let input := match invocation.command with
    | .parse input => input.file.toList
    | .tokens input => input.file.toList
    | .config => []
  invocation.config.toList ++ input

/-- The value of every variable that is set. -/
def readVariables : IO (List (String × String)) := do
  let names := [Configuration.Variable.maxInputLength, .maxExpressionDepth, .foldIdentifiers,
    .logLevel].map Configuration.Variable.name
  let values ← names.mapM fun name => return (← IO.getEnv name).map ((name, ·))
  return values.filterMap id

/-- Print a failure with its causes. -/
def printChain (chain : List String) : IO UInt32 := do
  match chain with
  | [] => pure ()
  | first :: causes =>
    IO.eprintln ("Error: " ++ first)
    for cause in causes do IO.eprintln ("  " ++ cause)
  return 1

/-- Carry out an invocation. -/
def run (invocation : Invocation) : IO UInt32 := do
  let files ← (namedFiles invocation).mapM fun path => return (path, ← readFile path)
  let environment ← readVariables
  let read (path : String) := (files.lookup path).getD (.error .notFound)
  match invocation.configuration read (environment.lookup ·) with
  | .error failure => printChain failure.chain
  | .ok configuration =>
    match invocation.command.output configuration read with
    | .error failure => printChain failure.chain
    | .ok text =>
      IO.println text
      return 0

end SqlDdl.Program

/-- Run the program on its arguments. -/
def main (args : List String) : IO UInt32 := do
  match SqlDdl.CommandLine.Invocation.ofArguments args with
  | .ok invocation => SqlDdl.Program.run invocation
  | .error .help =>
    for line in SqlDdl.Program.usage do IO.println line
    return 0
  | .error .version =>
    IO.println ("ddlparser " ++ SqlDdl.version)
    return 0
  | .error reason =>
    IO.eprintln (SqlDdl.Program.complaint reason)
    for line in SqlDdl.Program.usage do IO.eprintln line
    return 2
