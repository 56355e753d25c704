import SqlDdl.Json

/-!
# Indented JSON text

JSON values as text with one item or member a line, each level indented by two
spaces. Empty lists and objects stay on their line. Within texts only quotes,
backslashes and control characters are escaped.
-/

namespace SqlDdl.Json

/-- A digit of a control character's number, in lower case. -/
def hexDigits (n : Nat) : List Char := [Nat.digitChar (n / 16), Nat.digitChar (n % 16)]

/-- A character of a text. -/
def escapeChar (c : Char) : List Char :=
  match c with
  | '\x22' => ['\\', '\x22']
  | '\\' => ['\\', '\\']
  | '\x08' => ['\\', 'b']
  | '\x0c' => ['\\', 'f']
  | '\n' => ['\\', 'n']
  | '\r' => ['\\', 'r']
  | '\t' => ['\\', 't']
  | c => if c.toNat < 0x20 then ['\\', 'u', '0', '0'] ++ hexDigits c.toNat else [c]

/-- A text in double quotes. -/
def quote (text : String) : String :=
  String.ofList ('\x22' :: text.toList.flatMap escapeChar ++ ['\x22'])

/-- The number `digits / 10 ^ places`, with a point before the last `places` digits. -/
def fractionText (digits : Int) (places : Nat) : String :=
  let shift := Nat.pow 10 places
  let size := digits.natAbs
  let decimals := toString (size % shift)
  let zeros := String.ofList (List.replicate (places - decimals.length) '0')
  (if digits < 0 then "-" else "") ++ toString (size / shift) ++ "." ++ zeros ++ decimals

/-- The beginning of a line at a level. -/
def newline (level : Nat) : String := "\n" ++ String.ofList (List.replicate (2 * level) ' ')

mutual

/-- The text `out` with a value written behind it at a level. -/
def write (level : Nat) (out : String) : Json → String
  | .null => out ++ "null"
  | .bool value => out ++ (if value then "true" else "false")
  | .integer value => out ++ toString value
  | .fraction digits places => out ++ fractionText digits places
  | .string value => out ++ quote value
  | .array [] => out ++ "[]"
  | .array (item :: items) =>
    writeItems (level + 1) (write (level + 1) (out ++ "[" ++ newline (level + 1)) item) items ++
      newline level ++ "]"
  | .object [] => out ++ "\x7b\x7d"
  | .object ((name, value) :: members) =>
    writeMembers (level + 1)
        (write (level + 1) (out ++ "\x7b" ++ newline (level + 1) ++ quote name ++ ": ") value)
        members ++
      newline level ++ "\x7d"

/-- The text `out` with further items of a list written behind it. -/
def writeItems (level : Nat) (out : String) : List Json → String
  | [] => out
  | item :: items => writeItems level (write level (out ++ "," ++ newline level) item) items

/-- The text `out` with further members of an object written behind it. -/
def writeMembers (level : Nat) (out : String) : List (String × Json) → String
  | [] => out
  | (name, value) :: members =>
    writeMembers level (write level (out ++ "," ++ newline level ++ quote name ++ ": ") value)
      members

end

/-- A value as indented text. -/
def pretty (value : Json) : String := value.write 0 ""

end SqlDdl.Json
