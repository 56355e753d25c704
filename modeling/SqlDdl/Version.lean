/-!
# Version

The version that the library and its program tell.
-/

namespace SqlDdl

/-- The version of the library. -/
def version : String := "0.1.0"

end SqlDdl
