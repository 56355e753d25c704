import SqlDdl.Keyword
import SqlDdl.Text.Quoted

/-!
# Tokens

The closed set of tokens that a statement is made of. Two tokens are equal when
they are of one kind and hold the same text; where a token stands is recorded
beside it and is no part of it. A token can hold texts that no scanned text gives.
-/

namespace SqlDdl

/-- An identifier as it is written. -/
structure Word where
  /-- The text, without its quotes where it has any. -/
  value : String
  /-- Whether the word was written between double quotes. -/
  quoted : Bool
  deriving DecidableEq, Inhabited

namespace Word

/-- The word as it is written in a text. -/
def display (word : Word) : String :=
  if word.quoted then String.ofList (Text.enclose '\x22' word.value.toList) else word.value

end Word

/-- One token. -/
inductive Token where
  | comma
  | leftParen
  | rightParen
  | semicolon
  | period
  | minus
  | equal
  /-- The inequality sign, in the spelling that was used. -/
  | notEqual (spelling : String)
  | lessThan
  | greaterThan
  | lessOrEqual
  | greaterOrEqual
  | keyword (reserved : Keyword)
  | word (identifier : Word)
  /-- A number, in the spelling that was used. -/
  | number (text : String)
  /-- The content of a string literal. -/
  | string (value : String)
  /-- The end of the input. -/
  | eof
  deriving DecidableEq, Inhabited

namespace Token

/-- The token as it is written in a text; the end of the input is written `EOF`. -/
def display : Token → String
  | .comma => ","
  | .leftParen => "("
  | .rightParen => ")"
  | .semicolon => ";"
  | .period => "."
  | .minus => "-"
  | .equal => "="
  | .notEqual spelling => spelling
  | .lessThan => "<"
  | .greaterThan => ">"
  | .lessOrEqual => "<="
  | .greaterOrEqual => ">="
  | .keyword reserved => reserved.spelling
  | .word identifier => identifier.display
  | .number text => text
  | .string value => String.ofList (Text.enclose '\x27' value.toList)
  | .eof => "EOF"

/-- Whether a token is the given keyword. -/
def isKeyword (token : Token) (reserved : Keyword) : Bool := token == .keyword reserved

/-- Whether a token is an identifier. -/
def isWord : Token → Bool
  | .word _ => true
  | _ => false

/-- Whether a token is the end of the input. -/
def isEof (token : Token) : Bool := token == .eof

/-- The sign that begins with the character `current` when `next` follows it, and the
number of characters it takes. The longer of two signs wins. -/
def ofSymbol? (current : Char) (next : Option Char) : Option (Token × Nat) :=
  match current, next with
  | '<', some '=' => some (.lessOrEqual, 2)
  | '<', some '>' => some (.notEqual "<>", 2)
  | '>', some '=' => some (.greaterOrEqual, 2)
  | '!', some '=' => some (.notEqual "!=", 2)
  | '<', _ => some (.lessThan, 1)
  | '>', _ => some (.greaterThan, 1)
  | '=', _ => some (.equal, 1)
  | '(', _ => some (.leftParen, 1)
  | ')', _ => some (.rightParen, 1)
  | ',', _ => some (.comma, 1)
  | ';', _ => some (.semicolon, 1)
  | '.', _ => some (.period, 1)
  | '-', _ => some (.minus, 1)
  | _, _ => none

end Token

end SqlDdl
