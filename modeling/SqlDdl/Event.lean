import SqlDdl.Statement.Outline

/-!
# Events of reading

What happens while a statement is read, as it is told to a log. Events are kept as
values in the order in which they happen, those before an error included; they are
worded only when they are asked for.
-/

namespace SqlDdl

/-- How much a log tells, from nothing to everything. -/
inductive LogLevel where
  | off
  | error
  | warn
  | info
  | debug
  | trace
  deriving DecidableEq, Inhabited

namespace LogLevel

/-- All levels, the most silent first. -/
def all : List LogLevel := [.off, .error, .warn, .info, .debug, .trace]

/-- The name of a level. -/
def spelling : LogLevel → String
  | .off => "OFF"
  | .error => "ERROR"
  | .warn => "WARN"
  | .info => "INFO"
  | .debug => "DEBUG"
  | .trace => "TRACE"

/-- The place of a level in the order of detail. -/
def rank : LogLevel → Nat
  | .off => 0
  | .error => 1
  | .warn => 2
  | .info => 3
  | .debug => 4
  | .trace => 5

/-- The level with a name, in any mix of ASCII upper and lower case. -/
def ofText? (text : String) : Option LogLevel :=
  let capitals := String.ofList (text.toList.map Char.toUpper)
  all.find? (·.spelling == capitals)

end LogLevel

/-- Something that happened while a statement was read. -/
inductive Event where
  /-- A text of so many characters was cut into so many tokens. -/
  | scanned (characters tokens : Nat)
  | createdTable (name : ObjectName) (columns constraints : Nat)
  | createdSchema (name : ObjectName)
  | droppedTable (name : ObjectName)
  /-- A column was read, with the number of constraints it declares. -/
  | column (name : String) (dataType : DataType) (constraints : Nat)
  /-- A constraint of the table itself was read. -/
  | tableConstraint (constraint : Constraint)
  deriving DecidableEq, Inhabited

namespace Event

/-- The level at which an event is told. -/
def level : Event → LogLevel
  | .column .. => .trace
  | .tableConstraint _ => .trace
  | _ => .debug

/-- The wording of an event. -/
def message : Event → String
  | .scanned characters tokens => s!"tokenized {characters} characters into {tokens} tokens"
  | .createdTable name columns constraints =>
    s!"parsed CREATE TABLE {name.display} with {columns} columns and {constraints} constraints"
  | .createdSchema name => s!"parsed CREATE SCHEMA {name.display}"
  | .droppedTable name => s!"parsed DROP TABLE {name.display}"
  | .column name dataType constraints =>
    s!"column {name} {Outline.dataType dataType} with {constraints} constraints"
  | .tableConstraint constraint => s!"table constraint {Outline.constraint constraint}"

/-- Whether a log of the given level tells the event. -/
def isToldAt (event : Event) (level : LogLevel) : Bool := event.level.rank ≤ level.rank

end Event

end SqlDdl
