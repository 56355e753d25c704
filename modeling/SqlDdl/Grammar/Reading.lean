import SqlDdl.Cursor
import SqlDdl.Event

/-!
# Reading tokens

The steps from which the grammar is built. A reading starts at a cursor and ends,
with a value or a failure, at a cursor; it also keeps the events on the way. After
a failure the cursor stays where the failure was found. A repeated step has to leave
fewer tokens than it found, so every reading ends.
-/

namespace SqlDdl.Grammar

/-- Where a reading stands. -/
structure State where
  /-- The place in the tokens. -/
  cursor : Cursor
  /-- The events so far, the last one first. -/
  events : List Event
  /-- How many expressions have been begun and not been ended. -/
  nesting : Nat
  deriving Inhabited

/-- Why a reading ended without a value. -/
inductive Failure where
  /-- The tokens are not what the grammar requires. -/
  | error (cause : Error)
  /-- The grammar made a request that is never met. -/
  | fault (cause : Fault)
  deriving DecidableEq, Inhabited

/-- The wording of a failure. -/
def Failure.message : Failure → String
  | .error cause => cause.message
  | .fault cause => cause.message

/-- A reading that gives a value. -/
abbrev Reading (α : Type) : Type := EStateM Failure State α

variable {α β : Type}

/-- The current token, left where it is. -/
def peek : Reading Token := fun s => .ok s.cursor.peek s

/-- The current token, read. -/
def next : Reading Token := fun s => .ok s.cursor.peek { s with cursor := s.cursor.advance }

/-- One token back. -/
def rewind : Reading Unit := fun s =>
  match s.cursor.rewind with
  | .ok cursor => .ok () { s with cursor := cursor }
  | .error fault => .error (.fault fault) s

/-- The cursor as it stands. -/
def here : Reading Cursor := fun s => .ok s.cursor s

/-- How the grammar goes back. Statements are read with the plain step back; another way to go
back can also look at where it is gone back from. -/
class Retreat where
  /-- Go back behind a token that was read from the given cursor on. -/
  back : Cursor → Reading Unit
  /-- What is done before a table constraint is called absent that was looked for from the given
  cursor on. -/
  absent : Cursor → Reading Unit

/-- The plain step back, and nothing else. -/
instance Retreat.plain : Retreat where
  back _ := rewind
  absent _ := return

/-- Going back is the plain step back, wherever the token was read. -/
theorem Retreat.back_eq (start : Cursor) : Retreat.back start = rewind := rfl

/-- Go on from a cursor if there is one, else stay, and tell which. -/
def moveTo (target : Option Cursor) : Reading Bool := fun s =>
  match target with
  | some cursor => .ok true { s with cursor := cursor }
  | none => .ok false s

/-- Read the current token if it is the given one. -/
def consume (token : Token) : Reading Bool := fun s => moveTo (s.cursor.consumeToken? token) s

/-- Read the current token if it is the given keyword. -/
def consumeKeyword (keyword : Keyword) : Reading Bool := consume (.keyword keyword)

/-- Read a run of keywords if all of it stands here, else read nothing. -/
def consumeKeywords (keywords : List Keyword) : Reading Bool := fun s =>
  let (found, cursor) := s.cursor.consumeKeywords keywords
  .ok found { s with cursor := cursor }

/-- Fail with an error. -/
def fail (error : Error) : Reading α := fun s => .error (.error error) s

/-- Fail at the current token, which is not what was expected. -/
def reject (expectation : Expectation) : Reading α := fun s =>
  fail (s.cursor.expected expectation s.cursor.peek) s

/-- Fail at the token just read, which is not what was expected. -/
def rejectRead (expectation : Expectation) (found : Token) : Reading α := fun s =>
  fail (.expected expectation found s.cursor.previousPosition) s

/-- Read the given token, which has to stand here. -/
def require (token : Token) : Reading Unit := do
  unless ← consume token do reject (.token token)

/-- Read the given keyword, which has to stand here. -/
def requireKeyword (keyword : Keyword) : Reading Unit := require (.keyword keyword)

/-- Where the current token starts. -/
def position : Reading Position := fun s => .ok s.cursor.position s

/-- Where the token just read starts. -/
def previousPosition : Reading Position := fun s => .ok s.cursor.previousPosition s

/-- Keep an event. -/
def record (event : Event) : Reading Unit := fun s =>
  .ok () { s with events := event :: s.events }

/-- Repeat a step that either goes on with a new value or ends with a result. A step that
goes on has to leave fewer tokens than it found. -/
def repeatStep (step : α → Reading (α ⊕ β)) (a : α) : Reading β := fun s =>
  match step a s with
  | .error failure s' => .error failure s'
  | .ok (.inr b) s' => .ok b s'
  | .ok (.inl a') s' =>
    if s'.cursor.remaining < s.cursor.remaining then repeatStep step a' s'
    else .error (.fault .stalled) s'
termination_by s => s.cursor.remaining

/-- One or more items with the given token between them. -/
def separated (item : Reading α) (separator : Token) : Reading (List α) := do
  let first ← item
  repeatStep (fun found => do
    if ← consume separator then return .inl ((← item) :: found)
    else return .inr found.reverse) [first]

/-- One or more items with commas between them, up to a closing parenthesis. -/
def closedList (item : Reading α) (expectation : Expectation) : Reading (List α) :=
  repeatStep (fun found => do
    let a ← item
    if ← consume .rightParen then return .inr (a :: found).reverse
    else if ← consume .comma then return .inl (a :: found)
    else reject expectation) []

end SqlDdl.Grammar
