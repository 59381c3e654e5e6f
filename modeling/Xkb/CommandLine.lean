import Xkb.Keymap.Printer
import Xkb.Settings

/-! The command line: its arguments, and what a run reads, prints and writes. -/

namespace Xkb

/-- The options that take a value. -/
inductive CommandOption where
  | level
  | root
  | directory
  | lead
  | footer
deriving DecidableEq, Inhabited

namespace CommandOption

/-- The option of a letter. -/
def ofLetter : Char → Option CommandOption
  | 'w' => some level
  | 'R' => some root
  | 'I' => some directory
  | _ => none

/-- The option of a word. -/
def ofWord : String → Option CommandOption
  | "emp" => some lead
  | "eml" => some footer
  | _ => none

end CommandOption

/-- An argument, told by how it starts. -/
inductive Argument where
  /-- Two dashes alone, behind which everything is a plain value. -/
  | endOfOptions
  /-- An option with the value attached to it, if there is one. -/
  | option (option : CommandOption) (value : Option String)
  | unknown
  | plain (value : String)
deriving DecidableEq, Inhabited

namespace Argument

/-- A value behind the letter of an option, with or without an equals sign. -/
def attachedValue : List Char → Option String
  | [] => none
  | '=' :: value => some (String.ofList value)
  | value => some (String.ofList value)

/-- An option in words, with its value behind an equals sign. -/
def ofWordOption (text : List Char) : Argument :=
  let word := text.takeWhile (· != '=')
  match CommandOption.ofWord (String.ofList word), text.drop word.length with
  | none, _ => unknown
  | some known, [] => option known none
  | some known, _ :: value => option known (some (String.ofList value))

/-- Tells what an argument is; a dash alone is a plain value. -/
def ofString (text : String) : Argument :=
  match text.toList with
  | ['-', '-'] => endOfOptions
  | '-' :: '-' :: rest => ofWordOption rest
  | '-' :: letter :: rest =>
    match CommandOption.ofLetter letter with
    | some known => option known (attachedValue rest)
    | none => unknown
  | _ => plain text

end Argument

/-- What the arguments ask for. -/
structure Command where
  settings : Settings
  /-- The options that were given. -/
  given : List CommandOption
  /-- The file to compile, perhaps with a map. -/
  input : Option String
  output : Option String
deriving DecidableEq, Inhabited

namespace Command

/-- What no arguments ask for. -/
def empty : Command :=
  ⟨.default, [], none, none⟩

/-- The warning level that a text stands for; zero may have either sign. -/
def readLevel (text : String) : Option Nat :=
  match text.toList with
  | '-' :: digits => Text.readDigits 10 0 digits
  | digits => Text.readNumber 10 highestLevel digits

/-- A text that is not empty. -/
def nonEmpty (text : String) : Option String :=
  if text.isEmpty then none else some text

/-- The settings with an option set, unless the value is refused. -/
def setOption (settings : Settings) (value : String) : CommandOption → Option Settings
  | .level => (readLevel value).map fun level => { settings with level }
  | .root => (nonEmpty value).map fun root => { settings with root := some root }
  | .directory => (nonEmpty value).map fun directory =>
    { settings with directories := settings.directories ++ [directory] }
  | .lead => some { settings with lead := some value }
  | .footer => some { settings with footer := some value }

/-- Takes an option with its value; only directories may be given more than once. -/
def takeOption (command : Command) (option : CommandOption) (value : String) : Option Command := do
  guard (option == .directory || !command.given.contains option)
  return { command with
    settings := ← setOption command.settings value option
    given := option :: command.given }

/-- Takes a plain value: first the input, then the output. -/
def takePlain (command : Command) (value : String) : Option Command :=
  match command.input, command.output with
  | none, _ => some { command with input := some value }
  | some _, none => (nonEmpty value).map fun output => { command with output := some output }
  | some _, some _ => none

/-- Reads the arguments one after another. -/
def readArguments (command : Command) : List String → Option Command
  | [] => some command
  | text :: rest =>
    match Argument.ofString text, rest with
    | .endOfOptions, rest => rest.foldlM takePlain command
    | .option option (some value), rest => do
      readArguments (← command.takeOption option value) rest
    | .option option none, value :: rest =>
      match Argument.ofString value with
      | .plain value => do readArguments (← command.takeOption option value) rest
      | _ => none
    | .option _ none, [] => none
    | .unknown, _ => none
    | .plain value, rest => do readArguments (← command.takePlain value) rest

/-- What arguments ask for, if they can be understood. -/
def ofArguments (arguments : List String) : Option Command :=
  readArguments empty arguments

/-- The file and the map that `file(map)` stands for. -/
def splitMap (text : String) : String × Option String :=
  let file := text.toList.takeWhile (· != '(')
  let rest := text.toList.drop (file.length + 1)
  let map := rest.dropLast
  if !file.isEmpty && !map.isEmpty && rest.getLast? == some ')' then
    (String.ofList file, some (String.ofList map))
  else (text, none)

/-- Whether an output stands for the standard output. -/
def isStandardOutput (output : String) : Bool :=
  match output.splitOn "/" with
  | "-" :: rest => rest.all fun name => name == "" || name == "."
  | _ => false

end Command

/-- What a run leaves behind. -/
structure Outcome where
  exit : UInt32
  output : String
  errors : List String
  /-- The path and the text of the file that was written, if any. -/
  written : Option (String × String)
  files : FileTree

namespace Outcome

/-- A run whose arguments cannot be understood. -/
def misused (files : FileTree) : Outcome :=
  ⟨2, "", [], none, files⟩

/-- A run that failed, with what was said before. -/
def failed (files : FileTree) (said : List String) (message : String) : Outcome :=
  ⟨1, "", said ++ ["✗ " ++ message], none, files⟩

/-- The text on the error output. -/
def errorText (outcome : Outcome) : String :=
  String.join (outcome.errors.map (· ++ "\n"))

end Outcome

namespace Command

/-- The words for a file that is not compiled; the cause of a file that is not read stands last. -/
def failureText (path : String) (error : CompileError) : String :=
  let text := s!"Failed to compile {path}: " ++ error.message
  match error with
  | .unreadable _ cause => text ++ ": " ++ cause.message
  | _ => text

/-- Puts out a keymap. -/
def deliver (command : Command) (home : Option String) (files : FileTree) (said : List String)
    (text : String) : Outcome :=
  match command.output with
  | none => ⟨0, text, said, none, files⟩
  | some output =>
    if isStandardOutput output then ⟨0, text, said, none, files⟩
    else
      let path := expandPath home output
      match files.write path text with
      | .error error => .failed files said error.message
      | .ok written => ⟨0, "", said ++ ["✓ Wrote " ++ path], some (path, text), written⟩

/-- Runs a command. -/
def run (command : Command) (home : Option String) (files : FileTree) : Outcome :=
  match command.settings.compiler home files with
  | .error error => .failed files [] error.message
  | .ok compiler =>
    let (file, map) := splitMap (command.input.getD "")
    let path := expandPath home file
    let (result, after) := compiler.compileFile path map
    let said := command.settings.reportLines (Diagnostic.render false) after.diagnostics
      (result.toOption.isNone)
    match result with
    | .error error => .failed files said (failureText path error)
    | .ok keymap => command.deliver home files said keymap.text

/-- The paths that a command names, apart from its output. -/
def namedPaths (command : Command) (home : Option String) : List String :=
  command.settings.roots home ++ [expandPath home (splitMap (command.input.getD "")).1]

/-- The directory that a command writes to. -/
def outputPaths (command : Command) (home : Option String) : List String :=
  (command.output.map (expandPath home)).toList

end Command

/-- Runs the arguments of a command line. -/
def runArguments (arguments : List String) (home : Option String) (files : FileTree) : Outcome :=
  match Command.ofArguments arguments with
  | some command =>
    if command.input.isNone then .misused files else command.run home files
  | none => .misused files

end Xkb
