import Xkb.Compiler

/-! What a user sets for a compile: the warning level, where includes are looked for, and how
reports are shown. -/

namespace Xkb

/-- The highest warning level. -/
def highestLevel : Nat :=
  10

/-- The settings of a compile. -/
structure Settings where
  level : Nat
  /-- The directory that is searched first. -/
  root : Option String
  /-- The directories that are searched next, in order. -/
  directories : List String
  /-- What stands in front of every line of a report. -/
  lead : Option String
  /-- The line that follows the reports where there were errors. -/
  footer : Option String
deriving DecidableEq, Inhabited

/-- Why settings cannot be used. -/
inductive SettingsError where
  | levelOutOfRange (level : Nat)
  | notFound (directory : String)
  | notDirectory (path : String)
deriving DecidableEq, Inhabited

/-- The words of an error about settings. -/
def SettingsError.message : SettingsError → String
  | levelOutOfRange level => s!"Warning level {level} out of range (must be 0..10)"
  | notFound directory => s!"Include directory not found: {directory}"
  | notDirectory path => s!"Include path is not a directory: {path}"

/-- A path with the home directory in place of a tilde that stands alone or before a slash. -/
def expandPath (home : Option String) (path : String) : String :=
  match home, path.toList with
  | some home, '~' :: rest =>
    if rest.isEmpty || rest.head? == some '/' then home ++ String.ofList rest else path
  | _, _ => path

/-- The filter for the log that goes with a warning level. -/
def logFilter (level : Nat) : String :=
  let detail := if level ≤ 4 then "warn" else if level ≤ 8 then "info" else "debug"
  detail ++ ",xkb_compiler::diag=off"

namespace Settings

/-- Quiet, with nowhere to look for includes. -/
def default : Settings :=
  ⟨0, none, [], none, none⟩

/-- The directories that are searched for includes, in order. -/
def roots (settings : Settings) (home : Option String) : List String :=
  (settings.root.toList ++ settings.directories).map (expandPath home)

/-- What is wrong with a directory to search, if anything. -/
def checkRoot (files : FileTree) (root : String) : Except SettingsError Unit :=
  if !files.contains root then .error (.notFound root)
  else if !files.isDirectory root then .error (.notDirectory root)
  else .ok ()

/-- The directories that are searched for includes, if the settings can be used. -/
def validate (settings : Settings) (home : Option String) (files : FileTree) :
    Except SettingsError (List String) := do
  if settings.level > highestLevel then throw (.levelOutOfRange settings.level)
  let roots := settings.roots home
  roots.forM (checkRoot files)
  return roots

/-- A compiler with these settings. -/
def compiler (settings : Settings) (home : Option String) (files : FileTree) :
    Except SettingsError Compiler :=
  return .new settings.level { Library.empty with roots := ← settings.validate home files, files }

/-- The lines that show the reports of a compile, each report written in a given way. -/
def reportLines (settings : Settings) (write : Diagnostic → String)
    (diagnostics : List Diagnostic) (failed : Bool) : List String :=
  let lines := diagnostics.flatMap fun diagnostic =>
    (Text.lines (write diagnostic)).map (settings.lead.getD "" ++ ·)
  let hadErrors := failed || diagnostics.any (·.severity == .error)
  lines ++ if hadErrors then settings.footer.toList else []

end Settings

end Xkb
