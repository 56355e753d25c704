import SqlDdl.Grammar.Reading
import SqlDdl.Settings
import SqlDdl.Text.LowerCase

/-!
# Reading names

Identifiers, dotted names and lists of columns. An identifier is a word that is
not empty; an unquoted one is kept in lower case where the settings say so.
-/

namespace SqlDdl

/-- The text that an identifier is kept as. -/
def Settings.identifier (settings : Settings) (word : Word) : String :=
  if settings.foldIdentifiers && !word.quoted then Text.toLowerCase word.value else word.value

namespace Grammar

/-- An identifier, described in errors by the expectation. -/
def identifier (settings : Settings) (expectation : Expectation) : Reading String := do
  match ← peek with
  | .word word =>
    if word.value.isEmpty then reject expectation
    else
      let _ ← next
      return settings.identifier word
  | _ => reject expectation

/-- A name of one or more parts with dots between them. -/
def objectName (settings : Settings) : Reading ObjectName :=
  return ⟨← separated (identifier settings .identifier) .period⟩

/-- The columns of a list whose opening parenthesis has been read. -/
def columnNames (settings : Settings) : Reading (List String) := do
  let columns ← separated (identifier settings .columnName) .comma
  require .rightParen
  return columns

/-- A list of columns in parentheses. -/
def columnList (settings : Settings) : Reading (List String) := do
  if ← consume .leftParen then columnNames settings else reject .columnList

/-- A list of columns in parentheses; no columns if there is no parenthesis. -/
def optionalColumnList (settings : Settings) : Reading (List String) := do
  if ← consume .leftParen then columnNames settings else return []

end Grammar

end SqlDdl
