import SqlDdl.Grammar.Name
import SqlDdl.Statement.Expression

/-!
# Reading default expressions

A pair of parentheses, a minus sign and a function argument each nest what they
hold one level deeper. The expressions that have been begun and not been ended are
counted, and the count is checked against the limit before the first token of a
level is read. However a level ends, it is not counted any more behind its end.
-/

namespace SqlDdl.Grammar

/-- Fail because the limit of nesting is reached. -/
def rejectDepth {α : Type} (settings : Settings) : Reading α := do
  fail (.expressionTooDeep settings.maxExpressionDepth (← position))

/-- A level of its own for what is read, unless as many as are allowed have been begun. -/
def nested (settings : Settings) (level : Reading Expression) : Reading Expression := fun s =>
  if s.nesting < settings.maxExpressionDepth then
    match level { s with nesting := s.nesting + 1 } with
    | .ok value s' => .ok value { s' with nesting := s'.nesting - 1 }
    | .error failure s' => .error failure { s' with nesting := s'.nesting - 1 }
  else rejectDepth settings s

/-- The arguments of a call whose opening parenthesis has been read. -/
def arguments (argument : Reading Expression) : Reading (List Expression) := do
  if ← consume .rightParen then return [] else closedList argument .argumentSeparator

/-- What one level of an expression holds; what it nests is read by `inner`. -/
def operand [Retreat] (settings : Settings) (inner : Reading Expression) : Reading Expression := do
  let start ← here
  match ← next with
  | .number text => return .literal (.number text)
  | .string value => return .literal (.string value)
  | .keyword .null => return .literal .null
  | .keyword .true => return .literal (.boolean true)
  | .keyword .false => return .literal (.boolean false)
  | .minus => return .negate (← inner)
  | .leftParen => do
    let value ← inner
    require .rightParen
    return value
  | .word _ => do
    Retreat.back start
    let name ← identifier settings .identifier
    if ← consume .leftParen then return .call name (← arguments inner)
    else return .identifier name
  | other => rejectRead .expression other

/-- An expression that may nest as many levels as are given. The levels only end the recursion:
counted from the limit on, they run out where the count of begun expressions reaches it, and an
expression is read the same with more of them. -/
def expressionWithin [Retreat] (settings : Settings) : Nat → Reading Expression
  | 0 => rejectDepth settings
  | levels + 1 => nested settings (operand settings (expressionWithin settings levels))

/-- An expression. -/
def expression [Retreat] (settings : Settings) : Reading Expression :=
  expressionWithin settings settings.maxExpressionDepth

end SqlDdl.Grammar
