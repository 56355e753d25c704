/-!
# Settings of reading

The two limits that a text has to keep and the choice of how unquoted identifiers
are kept. Any numbers are settings here; a configuration admits positive ones only.
-/

namespace SqlDdl

/-- How statements are read. -/
structure Settings where
  /-- The greatest number of characters in a text. -/
  maxInputLength : Nat
  /-- The greatest nesting of a default expression. -/
  maxExpressionDepth : Nat
  /-- Whether unquoted identifiers are kept in lower case. -/
  foldIdentifiers : Bool
  deriving DecidableEq

namespace Settings

/-- The settings that hold where none are given. -/
def standard : Settings := ⟨1048576, 128, false⟩

instance : Inhabited Settings := ⟨standard⟩

end Settings

end SqlDdl
