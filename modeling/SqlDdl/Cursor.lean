import SqlDdl.Error
import SqlDdl.Token.Stream

/-!
# The token cursor

A place in a token stream from which tokens are read in order. The cursor sees the
end of the input from the end of the stream on. It can go back by one token after
each step forward, and no further. Requests that a correct reader never makes are
faults, kept apart from the errors of the text that is read.
-/

namespace SqlDdl

/-- A request that the cursor or a repetition refuses, whatever the text. -/
inductive Fault where
  /-- Stepping back without a step forward since the last time. -/
  | secondRewind
  /-- Looking ahead to an index that has no 64-bit representation. -/
  | lookAheadOverflow
  /-- Repeating a step that reads no token. -/
  | stalled
  deriving DecidableEq, Inhabited

/-- The wording of a fault. -/
def Fault.message : Fault → String
  | .secondRewind => "rewind called twice without advancing"
  | .lookAheadOverflow => "attempt to add with overflow"
  | .stalled => "repetition without advancing"

/-- A reading place in a token stream. -/
structure Cursor where
  /-- The tokens that are read. -/
  stream : TokenStream
  /-- How many tokens lie before the place. -/
  index : Nat
  /-- Whether the cursor may go back by one token. -/
  rewindable : Bool
  deriving DecidableEq, Inhabited

namespace Cursor

/-- The cursor before the first token. A stream that does not end with the
end-of-input token gets one, where its last token starts. -/
def ofStream (stream : TokenStream) : Cursor :=
  let closed := (stream.entries.back?.map (·.token)) == some .eof
  ⟨if closed then stream else stream.push .eof (stream.position stream.size), 0, false⟩

/-- The token `n` places ahead, the end of the input where there is none. -/
def peekNth (cursor : Cursor) (n : Nat) : Token :=
  (cursor.stream.get? (cursor.index + n)).getD .eof

/-- The token at the cursor. -/
def peek (cursor : Cursor) : Token := cursor.peekNth 0

/-- The token `n` places ahead, where its index is a 64-bit number. -/
def lookAhead (cursor : Cursor) (n : Nat) : Except Fault Token :=
  if cursor.index + n < UInt64.size then .ok (cursor.peekNth n) else .error .lookAheadOverflow

/-- Where the token at the cursor starts. -/
def position (cursor : Cursor) : Position := cursor.stream.position cursor.index

/-- Where the token before the cursor starts. -/
def previousPosition (cursor : Cursor) : Position := cursor.stream.position (cursor.index - 1)

/-- The number of tokens from the cursor on. -/
def remaining (cursor : Cursor) : Nat := cursor.stream.size - cursor.index

/-- The cursor behind the current token. At the end of the stream it stays where it is;
it may go back in either case. -/
def advance (cursor : Cursor) : Cursor :=
  { cursor with
    index := if cursor.index < cursor.stream.size then cursor.index + 1 else cursor.index
    rewindable := true }

/-- The cursor one token back. -/
def rewind (cursor : Cursor) : Except Fault Cursor :=
  if cursor.rewindable then .ok { cursor with index := cursor.index - 1, rewindable := false }
  else .error .secondRewind

/-- The cursor behind the current token, if that is the given one. -/
def consumeToken? (cursor : Cursor) (token : Token) : Option Cursor :=
  if cursor.peek = token then some cursor.advance else none

/-- The cursor behind the current token, if that is the given keyword. -/
def consumeKeyword? (cursor : Cursor) (keyword : Keyword) : Option Cursor :=
  cursor.consumeToken? (.keyword keyword)

/-- Go over a run of keywords one by one, up to the first that does not stand here, and tell
whether all of them do. -/
def passKeywords (cursor : Cursor) : List Keyword → Bool × Cursor
  | [] => (true, cursor)
  | keyword :: keywords =>
    match cursor.consumeKeyword? keyword with
    | some behind => behind.passKeywords keywords
    | none => (false, cursor)

/-- Go over a run of keywords and tell whether all of them stand here. Where one does not, the
cursor gets back the index and the permission to go back that it had before the run. -/
def consumeKeywords (cursor : Cursor) (run : List Keyword) : Bool × Cursor :=
  let (found, reached) := cursor.passKeywords run
  if found then (true, reached)
  else (false, { reached with index := cursor.index, rewindable := cursor.rewindable })

/-- The error that something else was expected at the cursor than `found`. -/
def expected (cursor : Cursor) (expectation : Expectation) (found : Token) : Error :=
  .expected expectation found cursor.position

/-- The cursor behind the current token, which has to be the given one. -/
def expectToken (cursor : Cursor) (token : Token) : Except Error Cursor :=
  match cursor.consumeToken? token with
  | some behind => .ok behind
  | none => .error (cursor.expected (.token token) cursor.peek)

end Cursor

end SqlDdl
