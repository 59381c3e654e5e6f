/-! A view of the files that a compile can read and write. -/

namespace Xkb

/-- What is found at a place of the file tree. -/
inductive FileEntry where
  | directory
  | text (content : String)
  /-- A file whose bytes are no text. -/
  | binary
deriving DecidableEq, Inhabited

/-- Why a file cannot be read or written. -/
inductive FileError where
  | notFound
  | notDirectory
  | isDirectory
  | notText
  | nulInName
  | nameTooLong
deriving DecidableEq, Inhabited

/-- The words of an error about a file. -/
def FileError.message : FileError → String
  | notFound => "No such file or directory (os error 2)"
  | notDirectory => "Not a directory (os error 20)"
  | isDirectory => "Is a directory (os error 21)"
  | notText => "stream did not contain valid UTF-8"
  | nulInName => "file name contained an unexpected NUL byte"
  | nameTooLong => "File name too long (os error 36)"

/-- A place of the file tree: the names on the way from the working directory, or from the top
where the first name is a slash. -/
abbrev Place := List String

/-- The files, each with its place. -/
structure FileTree where
  entries : List (Place × FileEntry)
deriving DecidableEq, Inhabited

namespace FileTree

/-- The most bytes that a name can have. -/
def longestName : Nat :=
  255

/-- The most bytes that a path can have. -/
def longestPath : Nat :=
  4095

/-- The bytes by which the name of a file is longer while the file is written. -/
def draftMargin : Nat :=
  8

/-- The names of a path; one slash or more at its end count as the name of the directory itself. -/
def pathNames (path : String) : List String :=
  let names := path.splitOn "/"
  names.dropLast.filter (· != "") ++ (names.getLast?.map fun name =>
    if name == "" then "." else name).toList

/-- The place that a path starts from. -/
def pathStart (path : String) : Place :=
  if path.toList.head? == some '/' then ["/"] else []

/-- A name behind a path; a name that starts at the top stands alone. -/
def join (path name : String) : String :=
  if path == "" || name.toList.head? == some '/' then name
  else if path.toList.getLast? == some '/' then path ++ name
  else path ++ "/" ++ name

/-- Whether a place is the working directory or one above it. -/
def isAbove (place : Place) : Bool :=
  place.all (· == "..")

/-- What is found at a place; a directory is there as soon as something is in it, and the working
directory, those above it and the top are always there. -/
def entryAt (tree : FileTree) (place : Place) : Option FileEntry :=
  match tree.entries.find? (·.1 == place) with
  | some (_, entry) => some entry
  | none =>
    if isAbove place || place == ["/"] || tree.entries.any (fun entry => place.isPrefixOf entry.1)
    then some .directory
    else none

/-- The directory above a place. -/
def parent (place : Place) : Place :=
  if isAbove place then place ++ [".."] else if place == ["/"] then place else place.dropLast

/-- The place that a name leads to from a directory; a name that is too long leads nowhere. -/
def step (tree : FileTree) (place : Place) (name : String) : Except FileError Place :=
  match tree.entryAt place with
  | none => .error .notFound
  | some .directory =>
    if name == "." then .ok place else if name == ".." then .ok (parent place)
    else if longestName < name.utf8ByteSize then .error .nameTooLong
    else .ok (place ++ [name])
  | some _ => .error .notDirectory

/-- The place that a path leads to. -/
def locate (tree : FileTree) (path : String) : Except FileError Place :=
  if path.toList.contains '\x00' then .error .nulInName
  else if path == "" then .error .notFound
  else if longestPath < path.utf8ByteSize then .error .nameTooLong
  else (pathNames path).foldlM tree.step (pathStart path)

/-- What a path leads to. -/
def find (tree : FileTree) (path : String) : Except FileError FileEntry := do
  match tree.entryAt (← tree.locate path) with
  | some entry => return entry
  | none => throw .notFound

/-- Whether a path leads anywhere. -/
def contains (tree : FileTree) (path : String) : Bool :=
  (tree.find path).toOption.isSome

/-- Whether a path leads to a directory. -/
def isDirectory (tree : FileTree) (path : String) : Bool :=
  (tree.find path).toOption == some .directory

/-- Whether a path leads to a file. -/
def isFile (tree : FileTree) (path : String) : Bool :=
  (tree.find path).toOption.any (· != .directory)

/-- The text of a file. -/
def read (tree : FileTree) (path : String) : Except FileError String := do
  match ← tree.find path with
  | .text content => return content
  | .directory => throw .isDirectory
  | .binary => throw .notText

/-- The tree with an entry at a place. -/
def insert (tree : FileTree) (place : Place) (entry : FileEntry) : FileTree :=
  ⟨(place, entry) :: tree.entries.filter (·.1 != place)⟩

/-- Whether a name stands for the directory it is found in. -/
def staysPut (name : String) : Bool :=
  name == "" || name == "."

/-- The path of the directory and the name of the file that a path is for; a path that ends in `..`
or has no name at all is for none. -/
def splitFile (path : String) : Option (String × String) :=
  match (path.splitOn "/").reverse.dropWhile staysPut with
  | [] | ".." :: _ => none
  | name :: above =>
    match above.dropWhile staysPut with
    | [] => some (if pathStart path == [] then "." else "/", name)
    | names => some ("/".intercalate names.reverse, name)

end FileTree

/-- Why a file cannot be written: it cannot be begun, or not be put in its place. -/
inductive WriteError where
  | cannotOpen (path : String) (cause : FileError)
  | cannotCommit (cause : FileError)
deriving DecidableEq, Inhabited

/-- The words of an error about writing a file. -/
def WriteError.message : WriteError → String
  | cannotOpen path cause =>
    s!"Atomic write failed: Failed to open {path} for atomic write: " ++ cause.message
  | cannotCommit cause =>
    "Atomic write failed: Failed to commit atomic write: " ++ cause.message

namespace FileTree

/-- The place where the file that a path is for is written, in a directory that is there; the name
leaves room for the longer one that the file has while it is written. -/
def placeToWrite (tree : FileTree) (path : String) : Except FileError Place := do
  if path.toList.contains '\x00' then throw .nulInName
  match splitFile path with
  | none => throw .isDirectory
  | some (directory, name) =>
    let place ← tree.step (← tree.locate directory) name
    if longestName < name.utf8ByteSize + draftMargin then throw .nameTooLong
    return place

/-- The tree with a text in the file that a path is for; a directory is never written over. -/
def write (tree : FileTree) (path content : String) : Except WriteError FileTree :=
  match tree.placeToWrite path with
  | .error cause => .error (.cannotOpen path cause)
  | .ok place =>
    if tree.entryAt place == some .directory then .error (.cannotCommit .isDirectory)
    else .ok (tree.insert place (.text content))

end FileTree

end Xkb
