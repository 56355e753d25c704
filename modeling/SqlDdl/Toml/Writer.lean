/-!
# Writing TOML strings

A string is written in the plainest form that holds it: between double quotes if
nothing needs an escape, else between single quotes, else across lines, and with
escapes only where control characters or many quotes leave no other form. Between
double quotes a tab is an escape, for the look of it: it decides nothing.
-/

namespace SqlDdl.Toml

/-- The length of the longest run of a character. -/
def longestRun (c : Char) (cs : List Char) : Nat :=
  (cs.foldl (fun (longest, run) d => if d = c then (max longest (run + 1), run + 1) else (longest, 0))
    (0, 0)).1

/-- Whether a character can only be written as an escape. -/
def needsEscape (c : Char) : Bool :=
  (c.toNat < 0x20 && c ≠ '\t' && c ≠ '\n') || c.toNat = 0x7F

/-- The escape of a control character, by its number in four digits. -/
def numberEscape (c : Char) : List Char :=
  let digit (n : Nat) : Char := (Nat.digitChar n).toUpper
  ['\\', 'u', '0', '0', digit (c.toNat / 16), digit (c.toNat % 16)]

/-- A text with escapes. A line break is kept if the form runs across lines, and so are up to
`quotes` quotes in a row, of which `run` came just before. -/
def escapeText (keepBreaks : Bool) (quotes : Nat) (run : Nat) : List Char → List Char
  | [] => []
  | c :: rest =>
    if c = '\x22' then
      if run < quotes then c :: escapeText keepBreaks quotes (run + 1) rest
      else '\\' :: c :: escapeText keepBreaks quotes 0 rest
    else
      let form : List Char := match c with
        | '\\' => ['\\', '\\']
        | '\x08' => ['\\', 'b']
        | '\t' => ['\\', 't']
        | '\n' => if keepBreaks then ['\n'] else ['\\', 'n']
        | '\x0c' => ['\\', 'f']
        | '\r' => ['\\', 'r']
        | c => if needsEscape c then numberEscape c else [c]
      form ++ escapeText keepBreaks quotes 0 rest

/-- A text between a mark and its repetition; a form across lines begins with a line break if
the text has one. -/
def surround (mark : String) (breaks : Bool) (text : String) : String :=
  mark ++ (if breaks then "\n" else "") ++ text ++ mark

/-- A string in its plainest form. -/
def writeString (text : String) : String :=
  let cs := text.toList
  let controls := cs.any needsEscape
  let backslash := cs.contains '\\'
  let breaks := cs.contains '\n'
  let double := longestRun '\x22' cs
  let single := longestRun '\x27' cs
  let escaped (keepBreaks : Bool) (quotes : Nat) := String.ofList (escapeText keepBreaks quotes 0 cs)
  if !controls && !backslash && double = 0 && !breaks then surround "\x22" false (escaped false 0)
  else if !controls && single = 0 && !breaks then surround "\x27" false text
  else if !controls && !backslash && double ≤ 2 then surround "\x22\x22\x22" breaks (escaped true 2)
  else if !controls && single ≤ 2 then surround "\x27\x27\x27" breaks text
  else if breaks then surround "\x22\x22\x22" true (escaped true 2)
  else surround "\x22" false (escaped false 0)

end SqlDdl.Toml
