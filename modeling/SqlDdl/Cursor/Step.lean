import SqlDdl.Cursor

/-!
# Steps of a cursor

The requests that can be made of a cursor and what it answers. A request that is not met
leaves the cursor where it was. Any sequence of steps is a walk through one and the same
stream; a request that is refused ends the walk.
-/

namespace SqlDdl.Cursor

/-- A request to a cursor. -/
inductive Step where
  | peek
  | lookAhead (n : Nat)
  | next
  | rewind
  | consumeToken (token : Token)
  | consumeKeyword (reserved : Keyword)
  | consumeKeywords (run : List Keyword)
  | expectToken (token : Token)
  | expectKeyword (reserved : Keyword)
  /-- Build the error that something else was expected here than a token. -/
  | complain (expectation : Expectation) (found : Token)
  deriving DecidableEq, Inhabited

/-- What a request is answered with. -/
inductive Answer where
  | token (token : Token)
  | done
  /-- Whether something was consumed. -/
  | consumed (yes : Bool)
  /-- What was required stands here and was read. -/
  | met
  | error (error : Error)
  deriving DecidableEq, Inhabited

/-- The answer to a conditional step, and the cursor after it. -/
def consumedOr (cursor : Cursor) : Option Cursor → Answer × Cursor
  | some behind => (.consumed true, behind)
  | none => (.consumed false, cursor)

/-- The answer to a required step, and the cursor after it. -/
def metOr (cursor : Cursor) : Except Error Cursor → Answer × Cursor
  | .ok behind => (.met, behind)
  | .error error => (.error error, cursor)

/-- One request: its answer and the cursor after it, or the fault that it is refused with. -/
def perform (cursor : Cursor) : Step → Except Fault (Answer × Cursor)
  | .peek => .ok (.token cursor.peek, cursor)
  | .lookAhead n => (cursor.lookAhead n).map fun token => (.token token, cursor)
  | .next => .ok (.token cursor.peek, cursor.advance)
  | .rewind => cursor.rewind.map fun back => (.done, back)
  | .consumeToken token => .ok (cursor.consumedOr (cursor.consumeToken? token))
  | .consumeKeyword reserved => .ok (cursor.consumedOr (cursor.consumeKeyword? reserved))
  | .consumeKeywords run =>
    let (found, behind) := cursor.consumeKeywords run
    .ok (.consumed found, behind)
  | .expectToken token => .ok (cursor.metOr (cursor.expectToken token))
  | .expectKeyword reserved => .ok (cursor.metOr (cursor.expectToken (.keyword reserved)))
  | .complain expectation found => .ok (.error (cursor.expected expectation found), cursor)

/-- What became of a sequence of requests. -/
structure Walk where
  /-- The answers, each with the cursor after it. -/
  answers : List (Answer × Cursor)
  /-- The cursor where the walk ended. -/
  left : Cursor
  /-- The fault that the last request was refused with, if it was. -/
  fault : Option Fault
  deriving DecidableEq, Inhabited

/-- A walk: each request is made of the cursor that the one before it left, up to the end or
to a request that is refused. -/
def walk (cursor : Cursor) : List Step → Walk
  | [] => ⟨[], cursor, none⟩
  | step :: steps =>
    match cursor.perform step with
    | .ok (answer, behind) =>
      let rest := behind.walk steps
      { rest with answers := (answer, behind) :: rest.answers }
    | .error fault => ⟨[], cursor, some fault⟩

end SqlDdl.Cursor
