import Xkb.CommandLine

/-! The program: it loads the files that a command needs, runs the command and puts out what comes
of it. -/

namespace Xkb

/-- What is found at a path of the disk, if anything. -/
def diskEntry (path : String) : IO (Option FileEntry) := do
  let file := (← IO.currentDir) / path
  if ← file.isDir then return some .directory
  if !(← file.pathExists) then return none
  match String.fromUTF8? (← IO.FS.readBinFile file) with
  | some content => return some (.text content)
  | none => return some .binary

/-- Adds what the disk has on the way that a path leads, name by name. -/
def loadNames (tree : FileTree) (place : Place) (way : String) : List String → IO FileTree
  | [] => return tree
  | name :: rest => do
    match tree.step place name with
    | .error _ => return tree
    | .ok next =>
      let way := FileTree.join way name
      match ← diskEntry way with
      | none => return tree
      | some entry => loadNames (tree.insert next entry) next way rest

/-- Adds what the disk has at a path. -/
def loadPath (tree : FileTree) (path : String) : IO FileTree :=
  let start := FileTree.pathStart path
  loadNames tree start (start.headD "") (FileTree.pathNames path)

/-- Adds what the disk has at paths and at the paths that the files found there include. -/
partial def loadAll (library : Library) (seen : List String) (tree : FileTree) :
    List String → IO FileTree
  | [] => return tree
  | path :: rest => do
    if seen.contains path then return ← loadAll library seen tree rest
    let tree ← loadPath tree path
    let wanted :=
      match tree.read path with
      | .ok text => ((Source.parse text).toOption.map library.wantedPaths).getD []
      | .error _ => []
    loadAll library (path :: seen) tree (rest ++ wanted)

/-- The files that a command needs. -/
def loadCommand (command : Command) (home : Option String) : IO FileTree := do
  let library := { Library.empty with roots := command.settings.roots home }
  let tree ← loadAll library [] ⟨[]⟩ (command.namedPaths home)
  (command.outputPaths home).foldlM loadPath tree

/-- Writes a file next to its place and then moves it there. -/
def writeFile (path content : String) : IO Unit := do
  let file := (← IO.currentDir) / path
  let draft := file.addExtension "new"
  IO.FS.writeFile draft content
  IO.FS.rename draft file

/-- Puts out what a run leaves behind. -/
def putOut (outcome : Outcome) : IO UInt32 := do
  if let some (path, content) := outcome.written then writeFile path content
  IO.print outcome.output
  IO.eprint outcome.errorText
  return outcome.exit

end Xkb

/-- Runs the program. -/
def main (arguments : List String) : IO UInt32 := do
  let home ← IO.getEnv "HOME"
  let files ←
    match Xkb.Command.ofArguments arguments with
    | some command => Xkb.loadCommand command home
    | none => pure ⟨[]⟩
  Xkb.putOut (Xkb.runArguments arguments home files)
