/-!
# Object names

The name of a table, schema, type or collation: parts joined by dots. A part may
be any text, so that a name that is displayed need not split into the same parts.
-/

namespace SqlDdl

/-- A name made of parts, the outermost first. -/
structure ObjectName where
  /-- The parts in the order of writing. -/
  parts : List String
  deriving DecidableEq, Inhabited

namespace ObjectName

/-- The pieces of a text that has one more character in front: a dot begins a new piece,
any other character extends the first. -/
def pushFront (c : Char) (pieces : List (List Char)) : List (List Char) :=
  if c = '.' then [] :: pieces
  else match pieces with
    | [] => [[c]]
    | piece :: rest => (c :: piece) :: rest

/-- A text cut at every dot, the dots left out. -/
def splitDots (cs : List Char) : List (List Char) := cs.foldr pushFront [[]]

/-- The name whose parts are the pieces of a text between its dots. -/
def ofText (text : String) : ObjectName := ⟨(splitDots text.toList).map String.ofList⟩

/-- The parts joined by dots. -/
def display (name : ObjectName) : String := ".".intercalate name.parts

/-- The last part, which is the object's own name; empty if there is no part. -/
def baseName (name : ObjectName) : String := name.parts.getLast?.getD ""

end ObjectName

end SqlDdl
