import SqlDdl.Cursor.Step
import SqlDdl.Configuration.Json
import SqlDdl.Main
import SqlDdl.Proofs.Passage
import SqlDdl.Proofs.Sentence
import SqlDdl.Proofs.Steps
import SqlDdl.Proofs.Names
import SqlDdl.Proofs.DataTypes
import SqlDdl.Proofs.Expressions
import SqlDdl.Proofs.References
import SqlDdl.Proofs.Constraints
import SqlDdl.Proofs.Columns
import SqlDdl.Proofs.Statements
import SqlDdl.Proofs.Layouts
import SqlDdl.Proofs.Lexemes
import SqlDdl.Proofs.Lexable
import SqlDdl.Proofs.LetterCase
import SqlDdl.Proofs.Scans
import SqlDdl.Proofs.Lookahead
import SqlDdl.Proofs.BadPlaces
import SqlDdl.Proofs.TruePlaces
import SqlDdl.Proofs.Lines
import SqlDdl.Proofs.Spellings
import SqlDdl.Proofs.SideBySide
import SqlDdl.Proofs.SideBySide.Grammar
import SqlDdl.Proofs.Sessions
import SqlDdl.Proofs.Retreats
import SqlDdl.Proofs.WellFormed
import SqlDdl.Proofs.SideBySide.Settings
import SqlDdl.Proofs.Stops
import SqlDdl.Proofs.Stops.Grammar
import SqlDdl.Proofs.CorrectPrefix
import SqlDdl.Proofs.Limits
import SqlDdl.Proofs.Folding
import SqlDdl.Proofs.Recasing
import SqlDdl.Proofs.RecasedScans
import SqlDdl.Proofs.SideBySide.Recased
import SqlDdl.Proofs.Levels
import SqlDdl.Proofs.CutOff
import SqlDdl.Proofs.Nesting
import SqlDdl.Proofs.FoundTokens
import SqlDdl.Proofs.Reordering
import SqlDdl.Proofs.TypeNames
import SqlDdl.Proofs.Decimals
import SqlDdl.Proofs.Precedence
import SqlDdl.Proofs.ReadBack
import SqlDdl.Proofs.ReadBack.Statement
import SqlDdl.Proofs.NumberEnds
import SqlDdl.Proofs.Walks
import SqlDdl.Proofs.Documents
import SqlDdl.Proofs.Documents.Values
import SqlDdl.Proofs.Saving
import SqlDdl.Proofs.DottedNames
import SqlDdl.Proofs.BeyondTheEnd
import SqlDdl.Proofs.Onward
import SqlDdl.Proofs.Modifiers
import SqlDdl.Proofs.Modifiers.Places
import SqlDdl.Proofs.Modifiers.Numbers
