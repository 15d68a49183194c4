import DispatchCoverage.Command.Storage

/-!
# A working directory in memory

A storage that consists of the files of one directory, by their paths. A path is
followed name by name, and what it passes through has to be a directory: two
dots lead to the directory above only from there. Of what lies outside the
working directory, the directories above it are known, the usual directories at
the root, and the empty device.
-/

namespace DispatchCoverage.Command

/-- The files of a directory by their paths. -/
abbrev Files := List (String × ByteArray)

/-- A place in the tree of directories. -/
inductive Place where
  /-- The place with some names below the working directory. -/
  | inside (names : List String)
  /-- The place with some names below a directory above the working one. -/
  | above (names : List String)
  /-- The place with some names below the root. -/
  | rooted (names : List String)

namespace Place

/-- The place that a path starts from. -/
def start (path : String) : Place := if path.startsWith "/" then rooted [] else inside []

/-- The place of a name in a directory. -/
def child (name : String) : Place → Place
  | inside names => inside (names ++ [name])
  | above names => above (names ++ [name])
  | rooted names => rooted (names ++ [name])

/-- The directory that holds a place; the root holds itself. -/
def parent : Place → Place
  | inside [] => above []
  | inside names => inside names.dropLast
  | above names => above names.dropLast
  | rooted names => rooted names.dropLast

end Place

/-- What stands at a place. -/
inductive Entry where
  /-- A file with its bytes. -/
  | file (bytes : ByteArray)
  /-- A directory. -/
  | directory
  /-- Nothing. -/
  | nothing

/-- The usual directories at the root. -/
def usualDirectories : List String :=
  ["bin", "dev", "etc", "home", "lib", "media", "mnt", "opt", "proc", "root", "run", "sbin", "srv",
    "sys", "tmp", "usr", "var"]

/-- Whether a name has more bytes than the name of a file can have. -/
def isLongName (name : String) : Bool := 255 < name.utf8ByteSize

/-- Whether a path has more bytes than a path can have. -/
def isLongPath (path : String) : Bool := 4095 < path.utf8ByteSize

/-- What makes a path unusable, which the error states of the whole path. -/
abbrev Obstacle := String → FileError

namespace Files

/-- What stands at a place. -/
def entry (files : Files) : Place → Entry
  | .inside names =>
    match files.find? (fun f => pathNames f.1 == names) with
    | some (_, bytes) => .file bytes
    | none =>
      if names.isEmpty || files.any (fun f => names.isPrefixOf (pathNames f.1)) then .directory
      else .nothing
  | .above names => if names.isEmpty then .directory else .nothing
  | .rooted [] => .directory
  | .rooted [name] => if usualDirectories.contains name then .directory else .nothing
  | .rooted names => if names == ["dev", "null"] then .file .empty else .nothing

/-- Make sure that a place is a directory. -/
def enter (files : Files) (place : Place) : Except Obstacle Unit :=
  match files.entry place with
  | .directory => .ok ()
  | .file _ => .error .insideFile
  | .nothing => .error .missing

/-- Follow one name from a place. -/
def follow (files : Files) (place : Place) (name : String) : Except Obstacle Place := do
  files.enter place
  if name = "." then return place
  else if name = ".." then return place.parent
  else if isLongName name then .error .tooLong
  else return place.child name

/-- Follow several names from a place. -/
def walk (files : Files) (place : Place) (names : List String) : Except Obstacle Place :=
  names.foldlM files.follow place

/-- Carry out what a path is wanted for, unless it is no path at all. -/
def withPath {α : Type} (path : String) (r : Except Obstacle α) : Except FileError α :=
  if path.toList.contains (Char.ofNat 0) then .error .nullCharacter
  else if isLongPath path then .error (.tooLong path)
  else r.mapError (· path)

/-- The bytes of the file at a path. -/
def bytes (files : Files) (path : String) : Except FileError ByteArray :=
  withPath path do
    match files.entry (← files.walk (.start path) (pathNames path)) with
    | .file bytes => return bytes
    | .directory => .error .directory
    | .nothing => .error .missing

/-- The place that would be written to: the directory has to be there, and the
last name must not be that of a directory nor be written like one. -/
def target (files : Files) (path : String) : Except Obstacle Place := do
  match (pathNames path).reverse with
  | [] => .error (if path.isEmpty then .missing else .directory)
  | name :: names =>
    let holder ← files.walk (.start path) names.reverse
    files.enter holder
    if name = "." || name = ".." || path.endsWith "/" then .error .directory
    else
      let place ← files.follow holder name
      match files.entry place with
      | .directory => .error .directory
      | _ => return place

/-- Whether a file can be written at a path. -/
def checkWritable (files : Files) (path : String) : Except FileError Unit :=
  withPath path ((files.target path).map fun _ => ())

/-- The path, in the directory, of a file that was written; none if it lies
outside. -/
def written? (files : Files) (path : String) : Option String :=
  match files.target path with
  | .ok (.inside names) => some ("/".intercalate names)
  | _ => none

/-- Whether a file of the directory has some bytes already. -/
def holds (files : Files) (path : String) (bytes : ByteArray) : Bool :=
  match files.entry (.inside (pathNames path)) with
  | .file present => present == bytes
  | _ => false

/-- The storage of the files of a directory. -/
def storage (files : Files) : Storage := ⟨files.bytes, files.checkWritable⟩

end Files

end DispatchCoverage.Command
