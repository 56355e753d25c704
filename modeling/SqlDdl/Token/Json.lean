import SqlDdl.Json
import SqlDdl.Token

/-!
# Tokens in JSON

A sign and the end of the input are their names; other tokens name their kind and
carry their text. A keyword is named by its spelling with a single capital.
-/

namespace SqlDdl

namespace Keyword

/-- The spelling with only the first letter in capitals. -/
def title (keyword : Keyword) : String :=
  match keyword.spelling.toList with
  | [] => ""
  | c :: rest => String.ofList (c :: rest.map Char.toLower)

/-- The keyword with a title. -/
def ofTitle? (text : String) : Option Keyword := all.find? (·.title == text)

end Keyword

namespace Token

/-- The tokens without text, with their names. -/
def plainNames : List (String × Token) :=
  [("Comma", .comma), ("LeftParen", .leftParen), ("RightParen", .rightParen),
   ("Semicolon", .semicolon), ("Period", .period), ("Minus", .minus), ("Equal", .equal),
   ("LessThan", .lessThan), ("GreaterThan", .greaterThan), ("LessThanOrEqual", .lessOrEqual),
   ("GreaterThanOrEqual", .greaterOrEqual), ("Eof", .eof)]

/-- A token as a JSON value. -/
def toJson : Token → Json
  | .comma => .string "Comma"
  | .leftParen => .string "LeftParen"
  | .rightParen => .string "RightParen"
  | .semicolon => .string "Semicolon"
  | .period => .string "Period"
  | .minus => .string "Minus"
  | .equal => .string "Equal"
  | .notEqual spelling => .tagged "NotEqual" (.string spelling)
  | .lessThan => .string "LessThan"
  | .greaterThan => .string "GreaterThan"
  | .lessOrEqual => .string "LessThanOrEqual"
  | .greaterOrEqual => .string "GreaterThanOrEqual"
  | .keyword reserved => .tagged "Keyword" (.string reserved.title)
  | .word identifier =>
    .tagged "Word"
      (.object [("value", .string identifier.value), ("quoted", .bool identifier.quoted)])
  | .number text => .tagged "Number" (.string text)
  | .string value => .tagged "String" (.string value)
  | .eof => .string "Eof"

/-- The word that a JSON value describes. -/
def wordOfJson? (value : Json) : Option Word := do
  let [text, quoted] ← value.fields? ["value", "quoted"] | none
  return ⟨← (← text).string?, ← (← quoted).bool?⟩

/-- The token that a JSON value describes. -/
def ofJson? (value : Json) : Option Token := do
  let (tag, body) ← value.variant?
  match tag with
  | "NotEqual" => .notEqual <$> (← body).string?
  | "Keyword" => .keyword <$> (← body).unitVariant? (Keyword.all.map fun k => (k.title, k))
  | "Word" => .word <$> wordOfJson? (← body)
  | "Number" => .number <$> (← body).string?
  | "String" => .string <$> (← body).string?
  | _ => value.unitVariant? plainNames

end Token

end SqlDdl
