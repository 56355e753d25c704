import SqlDdl.Grammar.Column

/-!
# Reading statements

The whole grammar: one statement, an optional semicolon, and the end of the input.
-/

namespace SqlDdl.Grammar

/-- The creation of a table, behind `CREATE TABLE`. -/
def createTable [Retreat] (settings : Settings) : Reading Statement := do
  let ifNotExists ← consumeKeywords [.«if», .not, .«exists»]
  let name ← objectName settings
  let entries ← tableEntries settings
  let columns := entries.filterMap TableEntry.column?
  let constraints := entries.flatMap TableEntry.constraints
  record (.createdTable name columns.length constraints.length)
  return .createTable ⟨name, ifNotExists, columns, constraints⟩

/-- The creation of a schema, behind `CREATE SCHEMA`. -/
def createSchema (settings : Settings) : Reading Statement := do
  let ifNotExists ← consumeKeywords [.«if», .not, .«exists»]
  let name ← objectName settings
  record (.createdSchema name)
  return .createSchema ⟨name, ifNotExists⟩

/-- What `CREATE` creates. -/
def create [Retreat] (settings : Settings) : Reading Statement := do
  match ← next with
  | .keyword .table => createTable settings
  | .keyword .schema => createSchema settings
  | .keyword .view => fail (.unsupported .createView)
  | .keyword .index => fail (.unsupported .createIndex)
  | other => rejectRead .afterCreate other

/-- The removal of a table, behind `DROP`. -/
def drop (settings : Settings) : Reading Statement := do
  unless ← consumeKeyword .table do reject .afterDrop
  let ifExists ← consumeKeywords [.«if», .«exists»]
  let name ← objectName settings
  let cascade ← consumeKeyword .cascade
  unless cascade do let _ ← consumeKeyword .restrict
  record (.droppedTable name)
  return .dropTable ⟨name, ifExists, cascade⟩

/-- A statement, whatever follows it. -/
def openStatement [Retreat] (settings : Settings) : Reading Statement := do
  match ← next with
  | .keyword .create => create settings
  | .keyword .drop => drop settings
  | other => rejectRead .statement other

/-- The end of a statement: an optional semicolon, then the end of the input, which is left
where it is. -/
def endOfStatement : Reading Unit := do
  let _ ← consume .semicolon
  unless (← peek).isEof do reject .endOfStatement

/-- A statement and its end. -/
def statement [Retreat] (settings : Settings) : Reading Statement := do
  let tree ← openStatement settings
  endOfStatement
  return tree

end SqlDdl.Grammar
