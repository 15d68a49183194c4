import DispatchCoverage.Text.Lines
import DispatchCoverage.Text.Quoted

/-!
# Files as the command sees them

The command reads the files that it is given and writes at most one. The bytes
at a path, and whether it may write there, is all that it needs to know of the
place that it runs in. A path to be read is first written without the names
that mean nothing; a path to be written to is taken as it stands.
-/

namespace DispatchCoverage.Command

/-- Why a file could not be opened. -/
inductive FileError where
  /-- Nothing stands at the path. -/
  | missing (path : String)
  /-- A directory stands at the path. -/
  | directory (path : String)
  /-- A name in front of the last one is a file. -/
  | insideFile (path : String)
  /-- The path or one of its names is too long. -/
  | tooLong (path : String)
  /-- The path holds the null character, which no path may hold. -/
  | nullCharacter

/-- The text that reports why a file could not be opened. -/
def FileError.message : FileError → String
  | missing path => "[Errno 2] No such file or directory: " ++ Text.quoted path
  | directory path => "[Errno 21] Is a directory: " ++ Text.quoted path
  | insideFile path => "[Errno 20] Not a directory: " ++ Text.quoted path
  | tooLong path => "[Errno 36] File name too long: " ++ Text.quoted path
  | nullCharacter => "embedded null byte"

/-- The place that files are read from and written to. -/
structure Storage where
  /-- The bytes of the file at a path. -/
  bytes : String → Except FileError ByteArray
  /-- Whether a file can be written at a path. -/
  checkWritable : String → Except FileError Unit

/-- The names of a path, in order. -/
def pathNames (path : String) : List String := (path.splitOn "/").filter (· != "")

/-- The slashes that a path from the root begins with: two slashes stay two, any
other number counts as one. -/
def rootOf (path : String) : String :=
  let slashes := (path.toList.takeWhile (· = '/')).length
  if slashes = 0 then "" else if slashes = 2 then "//" else "/"

/-- A path written without the names that mean nothing, which are the empty name
and the single dot; the path of the working directory itself is a dot. -/
def tidyPath (path : String) : String :=
  let tidy := rootOf path ++ "/".intercalate ((pathNames path).filter (· != "."))
  if tidy.isEmpty then "." else tidy

/-- The bytes of a file that is given by any path. -/
def Storage.read (storage : Storage) (path : String) : Except FileError ByteArray :=
  storage.bytes (tidyPath path)

/-- The text of bytes in UTF-8 with unified line feeds; none if the bytes are no
UTF-8. A byte order mark stays. -/
def decode? (bytes : ByteArray) : Option (List Char) :=
  (String.fromUTF8? bytes).map fun text => Text.unifyLineFeeds text.toList

end DispatchCoverage.Command
