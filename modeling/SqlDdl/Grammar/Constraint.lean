import SqlDdl.Grammar.Name

/-!
# Reading constraints

References to other tables and the constraints that a table declares for itself.
After `CONSTRAINT` and a name a constraint has to follow; without them, another
token leaves the cursor where it was. A table constraint `NULL` means nothing.
-/

namespace SqlDdl.Grammar

/-- A referential action. -/
def referentialAction : Reading ReferentialAction := do
  match ← next with
  | .keyword .restrict => return .restrict
  | .keyword .cascade => return .cascade
  | .keyword .«set» =>
    if ← consumeKeyword .null then return .setNull
    else if ← consumeKeyword .default then return .setDefault
    else reject .afterSet
  | .keyword .no =>
    requireKeyword .action
    return .noAction
  | other => rejectRead .referentialAction other

/-- One step through the clauses of a reference: an action, each at most once, or the end. -/
def referenceClause (reference : ForeignKey) : Reading (ForeignKey ⊕ ForeignKey) := do
  if ← consumeKeyword .on then
    let start ← previousPosition
    if ← consumeKeyword .delete then
      if reference.onDelete.isSome then fail (.duplicateClause .onDelete start)
      return .inl { reference with onDelete := some (← referentialAction) }
    else if ← consumeKeyword .update then
      if reference.onUpdate.isSome then fail (.duplicateClause .onUpdate start)
      return .inl { reference with onUpdate := some (← referentialAction) }
    else reject .afterOn
  else return .inr reference

/-- What a foreign key refers to, behind the keyword `REFERENCES`. -/
def foreignKey (settings : Settings) : Reading ForeignKey := do
  let table ← objectName settings
  let columns ← optionalColumnList settings
  repeatStep referenceClause ⟨table, columns, none, none⟩

/-- The name that `CONSTRAINT` gives to what follows, if that keyword stands here. -/
def constraintName? (settings : Settings) : Reading (Option String) := do
  if ← consumeKeyword .constraint then
    return some (← identifier settings .constraintName)
  else return none

/-- The attributes that may follow a table constraint, each at most once, in this order. -/
def constraintAttributes (constraint : Constraint) : Reading Constraint := do
  let deferrable ←
    if ← consumeKeywords [.not, .deferrable] then pure false else consumeKeyword .deferrable
  let initiallyDeferred ←
    if ← consumeKeywords [.initially, .deferred] then pure true
    else
      let _ ← consumeKeywords [.initially, .immediate]
      pure false
  let noInherit ← consumeKeywords [.no, .inherit]
  return { constraint with
    deferrable := deferrable
    initiallyDeferred := initiallyDeferred
    noInherit := noInherit }

/-- What stands where a table constraint may stand. -/
inductive TableConstraint where
  | found (constraint : Constraint)
  /-- A constraint that means nothing. -/
  | discarded
  /-- No constraint; no token has been read. -/
  | absent
  deriving DecidableEq, Inhabited

/-- A table constraint whose kind and columns have been read. -/
def finishTableConstraint (constraint : Constraint) : Reading TableConstraint := do
  let complete ← constraintAttributes constraint
  record (.tableConstraint complete)
  return .found complete

/-- A table constraint, if one stands here. -/
def tableConstraint [Retreat] (settings : Settings) : Reading TableConstraint := do
  let entered ← here
  let name ← constraintName? settings
  let start ← here
  match ← next with
  | .keyword .not =>
    requireKeyword .null
    finishTableConstraint (.plain name .notNull [])
  | .keyword .null => return .discarded
  | .keyword .primary =>
    requireKeyword .key
    finishTableConstraint (.plain name .primaryKey (← columnList settings))
  | .keyword .unique => finishTableConstraint (.plain name .unique (← columnList settings))
  | .keyword .foreign =>
    requireKeyword .key
    let columns ← columnList settings
    requireKeyword .references
    finishTableConstraint (.plain name (.foreignKey (← foreignKey settings)) columns)
  | .keyword .check => fail (.unsupported .checkConstraint)
  | other =>
    if name.isSome then rejectRead .namedConstraint other
    else
      Retreat.back start
      Retreat.absent entered
      return .absent

end SqlDdl.Grammar
