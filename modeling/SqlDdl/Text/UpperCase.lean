/-!
# Upper-case forms within ASCII

Names of ASCII letters are compared without regard to case by their upper-case
forms. Besides the ASCII letters ten characters have an upper-case form made of
ASCII letters alone; every other character keeps itself here, since no name of
ASCII letters holds it or its form.
-/

namespace SqlDdl.Text

/-- The upper-case form of a character where it is ASCII, else the character. -/
def upperForm (c : Char) : List Char :=
  if c.toNat ≤ 127 then [c.toUpper]
  else match c with
    | '\u00DF' => ['S', 'S']
    | '\u0131' => ['I']
    | '\u017F' => ['S']
    | '\uFB00' => ['F', 'F']
    | '\uFB01' => ['F', 'I']
    | '\uFB02' => ['F', 'L']
    | '\uFB03' => ['F', 'F', 'I']
    | '\uFB04' => ['F', 'F', 'L']
    | '\uFB05' => ['S', 'T']
    | '\uFB06' => ['S', 'T']
    | _ => [c]

/-- The upper-case form of a text as far as it is ASCII. -/
def toUpperCase (text : String) : String :=
  String.ofList (text.toList.flatMap upperForm)

/-- The text with its ASCII letters in upper case and all else unchanged. -/
def toUpperASCII (text : String) : String :=
  String.ofList (text.toList.map Char.toUpper)

end SqlDdl.Text
