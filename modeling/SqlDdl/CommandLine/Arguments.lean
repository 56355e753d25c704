/-!
# Command-line arguments

What the arguments of the program ask for. Options of the program stand before the
command and those of a command behind it. A value is attached to its option or is the
next argument; it is taken up when the next option, the next text or the end is
reached, and only then is an option found to lack a value or to be repeated.
-/

namespace SqlDdl.CommandLine

/-- Why arguments ask for nothing that can be run. -/
inductive UsageError where
  /-- Help was asked for. -/
  | help
  /-- The version was asked for. -/
  | version
  /-- There are no arguments, so that help is what to show. -/
  | noArguments
  | missingCommand
  | unknownCommand
  | unknownArgument
  /-- An option without the value that it needs. -/
  | missingValue
  /-- A flag with a value. -/
  | unexpectedValue
  /-- An option that is given twice. -/
  | repeatedOption
  deriving DecidableEq, Inhabited

/-- Where a statement is to be taken from. -/
structure Input where
  /-- The text of the statement. -/
  sql : Option String
  /-- The file that holds it. -/
  file : Option String
  deriving DecidableEq, Inhabited

/-- What the program is to do. -/
inductive Command where
  /-- Show the tree of a statement. -/
  | parse (input : Input)
  /-- Show the tokens of a text. -/
  | tokens (input : Input)
  /-- Show the configuration. -/
  | config
  deriving DecidableEq, Inhabited

/-- What arguments ask for. -/
structure Invocation where
  /-- The configuration file. -/
  config : Option String
  /-- The name of the log level, where the option gives one. -/
  logLevel : Option String
  /-- Whether the option that turns folding on is given. -/
  foldIdentifiers : Bool
  /-- What is to be shown. -/
  command : Command
  deriving DecidableEq, Inhabited

/-- An argument by its form. -/
inductive Argument where
  /-- Two hyphens alone: what follows is text. -/
  | escape
  /-- An option by its long name, with the value attached to it. -/
  | long (name : String) (value : Option String)
  /-- An option by its letter, with what follows the letter. -/
  | short (letter : Char) (rest : List Char)
  | text (text : String)
  deriving DecidableEq, Inhabited

/-- The form of an argument. A hyphen alone is text. -/
def Argument.ofText (text : String) : Argument :=
  match text.toList with
  | ['-', '-'] => .escape
  | '-' :: '-' :: rest =>
    let name := String.ofList (rest.takeWhile (· ≠ '='))
    match rest.dropWhile (· ≠ '=') with
    | '=' :: value => .long name (some (String.ofList value))
    | _ => .long name none
  | '-' :: letter :: rest => .short letter rest
  | _ => .text text

/-- The value attached to an option's letter, with or without an equals sign. -/
def attached? : List Char → Option String
  | [] => none
  | '=' :: value => some (String.ofList value)
  | value => some (String.ofList value)

/-- An option that stands open: its value if that has come, else nothing yet. -/
inductive Pending (α : Type) where
  | awaiting (option : α)
  | given (option : α) (value : String)
  deriving DecidableEq, Inhabited

/-- An option is given once, and a path is not empty. -/
def storePath (old : Option String) (value : String) : Except UsageError (Option String) :=
  if old.isSome then .error .repeatedOption
  else if value.isEmpty then .error .missingValue
  else .ok (some value)

/-- An option is given once. -/
def storeText (old : Option String) (value : String) : Except UsageError (Option String) :=
  if old.isSome then .error .repeatedOption else .ok (some value)

/-! ### The input of a command -/

/-- The arguments of a command with an input, as far as they have been read. -/
structure InputState where
  /-- The text and the file given so far. -/
  input : Input
  /-- The file option, if it stands open. -/
  pending : Option (Pending Unit)

namespace InputState

/-- The state before the first argument. -/
def start : InputState := ⟨⟨none, none⟩, none⟩

/-- Take up the value of the open option. -/
def resolve (state : InputState) : Except UsageError InputState :=
  match state.pending with
  | none => .ok state
  | some (.awaiting _) => .error .missingValue
  | some (.given _ value) => do
    return ⟨{ state.input with file := ← storePath state.input.file value }, none⟩

/-- Take up the file option with the value attached to it, if there is one. -/
def file (state : InputState) (value : Option String) : Except UsageError InputState := do
  let state ← state.resolve
  match value with
  | some value => return ⟨{ state.input with file := ← storePath state.input.file value }, none⟩
  | none => return { state with pending := some (.awaiting ()) }

/-- Take up a text, which is the statement if there is none yet. -/
def text (state : InputState) (value : String) : Except UsageError InputState :=
  if state.input.sql.isSome then .error .unknownArgument
  else do
    let state ← state.resolve
    return { state with input := { state.input with sql := some value } }

/-- Read the arguments of a command with an input; `escaped` tells that all are text. -/
def read (state : InputState) (escaped : Bool) : List String → Except UsageError Input
  | [] => do return (← state.resolve).input
  | argument :: rest =>
    if escaped then do (← state.text argument).read true rest
    else
      match Argument.ofText argument with
      | .escape => state.read true rest
      | .long "file" value => do (← state.file value).read false rest
      | .long "help" none => do
        let _ ← state.resolve
        .error .help
      | .long "help" (some _) => .error .unexpectedValue
      | .long _ _ => .error .unknownArgument
      | .short 'f' tail => do (← state.file (attached? tail)).read false rest
      | .short 'h' _ => do
        let _ ← state.resolve
        .error .help
      | .short _ _ => .error .unknownArgument
      | .text value =>
        match state.pending with
        | some (.awaiting option) =>
          read { state with pending := some (.given option value) } false rest
        | _ => do (← state.text value).read false rest

end InputState

/-- Read the arguments of a command that takes none. -/
def readNothing : List String → Except UsageError Unit
  | [] => .ok ()
  | argument :: rest =>
    match Argument.ofText argument with
    | .escape => if rest.isEmpty then .ok () else .error .unknownArgument
    | .long "help" none => .error .help
    | .long "help" (some _) => .error .unexpectedValue
    | .short 'h' _ => .error .help
    | _ => .error .unknownArgument

/-! ### The program -/

/-- The names of the commands, the one for help among them. -/
def commandNames : List String := ["parse", "tokens", "config", "help"]

/-- What the arguments of the command for help ask for: help on at most one command. -/
def helpOn : List String → UsageError
  | [] => .help
  | [name] => if commandNames.contains name then .help else .unknownCommand
  | _ => .unknownCommand

/-- The options of the program that take a value. -/
inductive ProgramOption where
  | config
  | logLevel
  deriving DecidableEq, Inhabited

/-- The arguments before the command, as far as they have been read. -/
structure ProgramState where
  /-- The configuration file, if it was given. -/
  config : Option String
  /-- The name of the log level, if it was given. -/
  logLevel : Option String
  /-- Whether the option that turns folding on was given. -/
  foldIdentifiers : Bool
  /-- The option that stands open, if one does. -/
  pending : Option (Pending ProgramOption)

namespace ProgramState

/-- The state before the first argument. -/
def start : ProgramState := ⟨none, none, false, none⟩

/-- Take up a value of an option. -/
def store (state : ProgramState) (option : ProgramOption) (value : String) :
    Except UsageError ProgramState :=
  match option with
  | .config => do return { state with config := ← storePath state.config value, pending := none }
  | .logLevel => do
    return { state with logLevel := ← storeText state.logLevel value, pending := none }

/-- Take up the value of the open option. -/
def resolve (state : ProgramState) : Except UsageError ProgramState :=
  match state.pending with
  | none => .ok state
  | some (.awaiting _) => .error .missingValue
  | some (.given option value) => state.store option value

/-- Take up an option with the value attached to it, if there is one. -/
def option (state : ProgramState) (option : ProgramOption) (value : Option String) :
    Except UsageError ProgramState := do
  let state ← state.resolve
  match value with
  | some value => state.store option value
  | none => return { state with pending := some (.awaiting option) }

/-- Take up the flag for folding, which has no value. -/
def fold (state : ProgramState) (value : Option String) : Except UsageError ProgramState :=
  if value.isSome then .error .unexpectedValue
  else do
    let state ← state.resolve
    if state.foldIdentifiers then .error .repeatedOption
    else return { state with foldIdentifiers := true }

/-- End with help or the version, which are flags without values. -/
def leave {α : Type} (state : ProgramState) (reason : UsageError) (value : Option String) :
    Except UsageError α :=
  if value.isSome then .error .unexpectedValue
  else do
    let _ ← state.resolve
    .error reason

/-- What the arguments ask for if there is no command. -/
def withoutCommand (state : ProgramState) : Except UsageError Invocation := do
  let state ← state.resolve
  if state.config.isNone && state.logLevel.isNone && !state.foldIdentifiers then
    .error .noArguments
  else .error .missingCommand

/-- What the arguments ask for with a command whose arguments have been read. -/
def withCommand (state : ProgramState) (command : Command) : Except UsageError Invocation := do
  let state ← state.resolve
  return ⟨state.config, state.logLevel, state.foldIdentifiers, command⟩

/-- The command of a name with its arguments; nothing if there is no such command. -/
def command? (name : String) (arguments : List String) : Option (Except UsageError Command) :=
  match name with
  | "parse" => some (Command.parse <$> InputState.start.read false arguments)
  | "tokens" => some (Command.tokens <$> InputState.start.read false arguments)
  | "config" => some ((fun _ => Command.config) <$> readNothing arguments)
  | "help" => some (.error (helpOn arguments))
  | _ => none

/-- Whether an option still lacks its value. -/
def isAwaiting (state : ProgramState) : Bool :=
  match state.pending with
  | some (.awaiting _) => true
  | _ => false

/-- Read the arguments of the program. -/
def read (state : ProgramState) : List String → Except UsageError Invocation
  | [] => state.withoutCommand
  | argument :: rest =>
    match if state.isAwaiting then none else command? argument rest with
    | some command => do state.withCommand (← command)
    | none =>
      match Argument.ofText argument with
      | .escape =>
        match rest with
        | [] => state.withoutCommand
        | next :: _ =>
          .error (if commandNames.contains next then .unknownArgument else .unknownCommand)
      | .long "config" value => do (← state.option .config value).read rest
      | .long "log-level" value => do (← state.option .logLevel value).read rest
      | .long "fold-identifiers" value => do (← state.fold value).read rest
      | .long "help" value => state.leave .help value
      | .long "version" value => state.leave .version value
      | .long _ _ => .error .unknownArgument
      | .short 'c' tail => do (← state.option .config (attached? tail)).read rest
      | .short 'h' _ => state.leave .help none
      | .short 'V' _ => state.leave .version none
      | .short _ _ => .error .unknownArgument
      | .text value =>
        match state.pending with
        | some (.awaiting option) => read { state with pending := some (.given option value) } rest
        | _ => .error .unknownCommand

end ProgramState

/-- What the arguments of the program ask for. -/
def Invocation.ofArguments (arguments : List String) : Except UsageError Invocation :=
  ProgramState.start.read arguments

end SqlDdl.CommandLine
