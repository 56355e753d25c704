import SqlDdl.Grammar.Statement
import SqlDdl.Token.Scan

/-!
# Sessions

A session reads one statement after another from a token stream. Every reading
goes on where the one before it stopped, be it at the end of its statement or at an
error. A text longer than its limit is refused before it is scanned.
-/

namespace SqlDdl

open Grammar (State Failure)

/-- A token stream that is being read. -/
structure Session where
  /-- How the statements of the stream are read. -/
  settings : Settings
  /-- Where the reading stands; a call begins where the one before ended. -/
  state : State

namespace Session

/-- The session before the first token of a stream. -/
def ofStream (settings : Settings) (stream : TokenStream) : Session :=
  ⟨settings, ⟨.ofStream stream, [], 0⟩⟩

/-- The session before the first token of a text. -/
def ofText (settings : Settings) (text : String) : Except Error Session :=
  if settings.maxInputLength < text.length then
    .error (.inputTooLarge text.length settings.maxInputLength)
  else
    match TokenStream.scan text with
    | .error error => .error error
    | .ok stream =>
      .ok ⟨settings, ⟨.ofStream stream, [.scanned text.length stream.size], 0⟩⟩

/-- Read the next statement: its tree or why there is none, and the session after it. -/
def parse (session : Session) : Except Failure Statement × Session :=
  match Grammar.statement session.settings session.state with
  | .ok tree state => (.ok tree, { session with state := state })
  | .error failure state => (.error failure, { session with state := state })

/-- Read so many statements one after another, and what each reading gave. -/
def parseMany (session : Session) : Nat → List (Except Failure Statement)
  | 0 => []
  | count + 1 =>
    let (result, behind) := session.parse
    result :: behind.parseMany count

end Session

/-- The statement that a text holds or why it holds none, and the events on the way. -/
def parseWithEvents (settings : Settings) (text : String) :
    Except Failure Statement × List Event :=
  match Session.ofText settings text with
  | .error error => (.error (.error error), [])
  | .ok session =>
    let (result, behind) := session.parse
    (result, behind.state.events.reverse)

/-- The statement that a text holds, or why it holds none. -/
def parse (settings : Settings) (text : String) : Except Failure Statement :=
  (parseWithEvents settings text).1

end SqlDdl
