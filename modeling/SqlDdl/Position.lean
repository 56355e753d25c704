/-!
# Positions in a text

Where a token or an error stands: the line and column that a reader sees, both
counted from one, and the number of characters before it. Columns and offsets
count code points. A line ends with a line feed and with nothing else.
-/

namespace SqlDdl

/-- A place in a text. -/
structure Position where
  /-- One more than the number of line feeds before the place. -/
  line : Nat
  /-- One more than the number of characters since the last line feed. -/
  column : Nat
  /-- The number of characters before the place. -/
  offset : Nat
  deriving DecidableEq, Inhabited

namespace Position

/-- The place before the first character. -/
def start : Position := ⟨1, 1, 0⟩

/-- The place behind one more character. -/
def after (p : Position) (c : Char) : Position :=
  if c = '\n' then ⟨p.line + 1, 1, p.offset + 1⟩
  else ⟨p.line, p.column + 1, p.offset + 1⟩

/-- The place behind a run of characters. -/
def afterAll (p : Position) (cs : List Char) : Position := cs.foldl after p

end Position

end SqlDdl
