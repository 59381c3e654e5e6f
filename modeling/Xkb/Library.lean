import Xkb.Definition
import Xkb.Diagnostic
import Xkb.FileTree
import Xkb.Source.Section

/-! The library of sections that include statements draw on. -/

namespace Xkb

/-- Why an include statement cannot be followed. -/
inductive IncludeError where
  | notFound (file : String) (kind : SectionKind)
  | unreadable (path : String) (cause : FileError)
  | unparsable (file : String) (cause : ParseError)
  | noSuchMap (file map : String) (kind : SectionKind)
  | empty (file : String)
  | wrongKind (expected found : SectionKind)
  | recursive (file : String) (kind : SectionKind)

/-- The words of an error about an include statement. -/
def IncludeError.message : IncludeError → String
  | notFound file kind => s!"Can't find file \"{file}\" for {kind.label} include"
  | unreadable path cause => s!"Failed to read {path}: " ++ cause.message
  | unparsable file cause => s!"Error parsing include file \"{file}\": " ++ cause.message
  | noSuchMap file map kind => s!"No {kind.label} named \"{map}\" in the include file \"{file}\""
  | empty file => s!"Include file \"{file}\" is empty"
  | wrongKind expected found =>
    s!"Include file wrong type (expected {expected.label}, got {found.label})"
  | recursive file kind => s!"Recursive include of \"{file}\" in {kind.label}"

/-- An include that is being followed: the file, the section in it and the kind asked for. -/
structure Frame where
  file : String
  map : String
  kind : SectionKind
deriving DecidableEq, Inhabited

/-- The sections that a file was parsed to when it was included for a kind. -/
structure ParsedFile where
  file : String
  kind : SectionKind
  sections : List Section
deriving Inhabited

/-- The texts that can be included, what was parsed of them and what is being followed. -/
structure Library where
  /-- The directories that files are looked for in. -/
  roots : List String
  files : FileTree
  /-- The texts that are at hand without a file, by the path they stand for. -/
  sources : List (String × String)
  parsed : List ParsedFile
  /-- The includes that are being followed, the innermost first. -/
  stack : List Frame
deriving Inhabited

namespace Library

/-- A library without texts. -/
def empty : Library :=
  ⟨[], ⟨[]⟩, [], [], []⟩

/-- The path of a file among the sections of a kind. -/
def scopedPath (kind : SectionKind) (file : String) : String :=
  kind.directory ++ "/" ++ file

/-- The library with a text for a file, in place of an earlier one. -/
def addSource (library : Library) (kind : SectionKind) (file text : String) : Library :=
  let path := scopedPath kind file
  { library with sources := (path, text) :: library.sources.filter (·.1 != path) }

/-- The text at a path, if there is one at hand. -/
def source (library : Library) (path : String) : Option String :=
  (library.sources.find? (·.1 == path)).map Prod.snd

/-- The paths that a file is looked for at, in order. -/
def candidates (library : Library) (kind : SectionKind) (file : String) : List String :=
  library.roots.flatMap fun root =>
    [FileTree.join (FileTree.join root kind.directory) file, FileTree.join root file]

/-- The text of a file for a kind: a text at hand, else the first file that is found. -/
def text (library : Library) (kind : SectionKind) (file : String) : Except IncludeError String :=
  match library.source (scopedPath kind file) with
  | some text => .ok text
  | none =>
    match library.source file with
    | some text => .ok text
    | none =>
      match (library.candidates kind file).find? library.files.isFile with
      | some path => (library.files.read path).mapError (IncludeError.unreadable path)
      | none => .error (.notFound file kind)

/-- The sections of a file for a kind, parsed at most once. -/
def load (library : Library) (kind : SectionKind) (file : String) :
    Except IncludeError (List Section × Library) :=
  match library.parsed.find? fun known => known.file == file && known.kind == kind with
  | some known => .ok (known.sections, library)
  | none => do
    let text ← library.text kind file
    let sections ← (Source.parse text).mapError (IncludeError.unparsable file)
    return (sections, { library with parsed := library.parsed ++ [⟨file, kind, sections⟩] })

/-- The position of the section that an include asks for: by name, else the default, else the
first one. -/
def choose (sections : List Section) (kind : SectionKind) (file : String) (map : Option String) :
    Report (Except IncludeError Nat) := do
  match map with
  | some map =>
    match sections.findIdx? (·.name == map) with
    | some position => return .ok position
    | none => return .error (.noSuchMap file map kind)
  | none =>
    match sections.head?, sections.findIdx? Section.isDefault with
    | none, _ => return .error (.empty file)
    | some _, some position => return .ok position
    | some first, none =>
      if sections.length > 1 && (← Report.level) > 5 then
        Report.warn s!"No map in include statement, but \"{file}\" contains several"
          [s!"Using first defined map, \"{first.name}\""]
      return .ok 0

/-- The section that an include asks for, out of the sections of a file, and where it is from. -/
def pick (sections : List Section) (kind : SectionKind) (file : String) (map : Option String) :
    Report (Except IncludeError (Section × Origin)) := do
  match ← choose sections kind file map with
  | .error error => return .error error
  | .ok position =>
    match sections[position]? with
    | none => return .error (.empty file)
    | some part =>
      if part.kind == kind then return .ok (part, .included file position)
      else return .error (.wrongKind kind part.kind)

/-- The section that an include asks for, and the library after looking for it. -/
def find (library : Library) (kind : SectionKind) (file : String) (map : Option String) :
    Report (Except IncludeError (Section × Origin) × Library) := do
  match library.load kind file with
  | .error error => return (.error error, library)
  | .ok (sections, library) => return (← pick sections kind file map, library)

/-- Starts to follow an include, unless it is being followed already. -/
def enter (library : Library) (frame : Frame) : Except IncludeError Library :=
  if library.stack.contains frame then .error (.recursive frame.file frame.kind)
  else .ok { library with stack := frame :: library.stack }

/-- Ends following the innermost include. -/
def leave (library : Library) : Library :=
  { library with stack := library.stack.tail }

/-- The files that a section includes. -/
def includedFiles (part : Section) : List String :=
  part.statements.flatMap fun statement =>
    match statement with
    | .inclusion included => included.terms.filterMap (·.file)
    | _ => []

/-- The paths where the files that sections and their parts include are looked for. -/
def wantedPaths (library : Library) (sections : List Section) : List String :=
  (sections.flatMap fun part => part :: part.parts).flatMap fun part =>
    (includedFiles part).flatMap (library.candidates part.kind)

/-- The sum of a size over a list. -/
def total {α : Type} (size : α → Nat) (list : List α) : Nat :=
  list.foldr (fun item rest => size item + rest) 0

/-- The number of include terms of a section. -/
def termCount (part : Section) : Nat :=
  total (fun statement =>
    match statement with
    | .inclusion included => included.terms.length
    | _ => 0) part.statements

/-- The size of a file entry. -/
def entrySize : FileEntry → Nat
  | .text content => content.length
  | _ => 0

/-- A bound for the number of different includes that the library can lead to. -/
def reach (library : Library) : Nat :=
  total (fun source => source.2.length) library.sources
    + total (fun entry => entrySize entry.2) library.files.entries
    + total (fun known => total termCount known.sections) library.parsed

end Library

end Xkb
