/-!
# Files

Why a file cannot be read or written, and a flat directory of files held in memory.
A path is taken from the directory itself; anything outside it does not exist.
-/

namespace SqlDdl

/-- Why a file could not be read or written. -/
inductive FileError where
  | notFound
  | isDirectory
  | notDirectory
  | nameTooLong
  /-- A path with the character that ends names in the system. -/
  | nullInPath
  /-- The content is no text. -/
  | invalidText
  /-- Anything else, in the words of the system. -/
  | other (text : String)
  deriving DecidableEq, Inhabited

/-- The wording of a file error. -/
def FileError.message : FileError → String
  | .notFound => "No such file or directory (os error 2)"
  | .isDirectory => "Is a directory (os error 21)"
  | .notDirectory => "Not a directory (os error 20)"
  | .nameTooLong => "File name too long (os error 36)"
  | .nullInPath => "file name contained an unexpected NUL byte"
  | .invalidText => "stream did not contain valid UTF-8"
  | .other text => text

/-- What a file holds. -/
inductive Content where
  | text (text : String)
  /-- Bytes that are no text. -/
  | bytes
  deriving DecidableEq, Inhabited

/-- A directory of files without subdirectories. -/
structure Directory where
  /-- The files by name; of two with one name the first counts. -/
  files : List (String × Content)
  deriving DecidableEq, Inhabited

namespace Directory

/-- What a path leads to. -/
inductive Target where
  /-- The directory itself. -/
  | itself
  /-- A file of that name, if there is one. -/
  | file (name : String)
  /-- A file of that name with a slash behind it, as if it were a directory. -/
  | slashed (name : String)
  /-- Something below a file of that name. -/
  | below (name : String)
  /-- A place outside the directory. -/
  | outside
  deriving DecidableEq, Inhabited

/-- What the steps of a path lead to, taken one by one; `slash` tells that the path ends with a
slash. A single dot leads nowhere. -/
def targetOf (slash : Bool) : List String → Target
  | [] => .itself
  | [name] =>
    if name = "." then .itself
    else if name = ".." then .outside
    else if slash then .slashed name
    else .file name
  | name :: next :: steps =>
    if name = "." then targetOf slash (next :: steps)
    else if name = ".." then .outside
    else .below name

/-- What a path leads to. Slashes in a row are one. -/
def target (path : String) : Target :=
  if path.isEmpty || path.startsWith "/" then .outside
  else targetOf (path.endsWith "/") ((path.splitOn "/").filter (· ≠ ""))

/-- What is wrong with a path, whatever files there are. A path has fewer than 4096 bytes. -/
def pathFault? (path : String) : Option FileError :=
  if path.toList.contains '\x00' then some .nullInPath
  else if 4096 ≤ path.utf8ByteSize then some .nameTooLong
  else none

/-- The file of a name, which has at most 255 bytes. -/
def find? (directory : Directory) (name : String) : Except FileError (Option Content) :=
  if 255 < name.utf8ByteSize then .error .nameTooLong else .ok (directory.files.lookup name)

/-- Why nothing can be found below a file of a name. -/
def belowFault (directory : Directory) (name : String) : FileError :=
  match directory.find? name with
  | .error cause => cause
  | .ok (some _) => .notDirectory
  | .ok none => .notFound

/-- The text of the file at a path. -/
def read (directory : Directory) (path : String) : Except FileError String :=
  match pathFault? path, target path with
  | some cause, _ => .error cause
  | none, .itself => .error .isDirectory
  | none, .outside => .error .notFound
  | none, .slashed name => .error (directory.belowFault name)
  | none, .below name => .error (directory.belowFault name)
  | none, .file name =>
    match directory.find? name with
    | .error cause => .error cause
    | .ok (some (.text text)) => .ok text
    | .ok (some .bytes) => .error .invalidText
    | .ok none => .error .notFound

/-- The directory after a text has been written to the file at a path. -/
def write (directory : Directory) (path text : String) : Except FileError Directory :=
  match pathFault? path, target path with
  | some cause, _ => .error cause
  | none, .itself => .error .isDirectory
  | none, .outside => .error .notFound
  | none, .slashed _ => .error .isDirectory
  | none, .below name => .error (directory.belowFault name)
  | none, .file name =>
    match directory.find? name with
    | .error cause => .error cause
    | .ok _ => .ok ⟨(name, .text text) :: directory.files⟩

end Directory

end SqlDdl
