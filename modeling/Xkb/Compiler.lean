import Xkb.Assembly

/-! The compiler: from the text of a composite map to a keymap. -/

namespace Xkb

/-- Why there is no keymap. -/
inductive CompileError where
  | unreadable (path : String) (cause : FileError)
  | unparsable (cause : ParseError)
  | noSuchMap (map : String)
  | empty
  | notComposite (kind : SectionKind)
  | missing (kind composite : SectionKind)
  | failed (kind : SectionKind) (name : String)

/-- The words of an error that leaves no keymap. -/
def CompileError.message : CompileError → String
  | unreadable path cause => s!"Failed to read {path}: " ++ cause.message
  | unparsable cause => cause.message
  | noSuchMap map => s!"No map named \"{map}\" in the input file"
  | empty => "Input contains no keymap"
  | notComposite kind =>
    s!"Cannot compile a lone {kind.label} section; "
      ++ "expected xkb_keymap, xkb_semantics or xkb_layout"
  | missing kind composite => s!"Required {kind.label} section missing from {composite.label}"
  | failed kind name => s!"Failed to compile {kind.label} section \"{name}\""

namespace SectionKind

/-- The kinds of section that are compiled, in that order. -/
def compiled : List SectionKind :=
  [keycodes, types, compatibility, symbols]

/-- The kinds of section that a composite section must have. -/
def required : SectionKind → List SectionKind
  | semantics => [compatibility]
  | layout => [keycodes, types, symbols]
  | _ => compiled

/-- The kinds of section that a composite section may have. -/
def legal : SectionKind → List SectionKind
  | semantics => [types, compatibility]
  | layout => [keycodes, types, symbols, geometry]
  | _ => compiled ++ [geometry]

end SectionKind

/-- The section to compile: by name, else the default, else the first one. -/
def selectMap (sections : List Section) : Option String → Except CompileError Section
  | some map =>
    match sections.find? (·.name == map) with
    | some part => .ok part
    | none => .error (.noSuchMap map)
  | none =>
    match sections.find? Section.isDefault <|> sections.head? with
    | some part => .ok part
    | none => .error .empty

namespace Assembly

/-- The part of a kind. -/
def partOf (parts : List Section) (kind : SectionKind) : Option Section :=
  parts.find? (·.kind == kind)

/-- The parts of a composite section that count: the first one of each legal kind. -/
def chooseParts (composite : SectionKind) (parts : List Section) : Report (List Section) :=
  parts.foldlM
    (fun chosen part => do
      if !composite.legal.contains part.kind then
        Report.error s!"Cannot define {part.kind.label} in a {composite.label}"
          [s!"Ignoring section \"{part.name}\""]
        return chosen
      if (partOf chosen part.kind).isSome then
        Report.error s!"More than one {part.kind.label} section in a {composite.label} file"
          ["All sections after the first ignored"]
        return chosen
      return chosen ++ [part])
    []

/-- The first required kind that no part has. -/
def missingKind (composite : SectionKind) (chosen : List Section) : Option SectionKind :=
  composite.required.find? fun kind => (partOf chosen kind).isNone

/-- Notes that a geometry section is passed over, if that is wanted. -/
def noteGeometry (chosen : List Section) : Report Unit := do
  if let some part := partOf chosen .geometry then
    if (← Report.level) > 0 then Report.info s!"Geometry section \"{part.name}\" not compiled"

/-- Compiles the parts of the given kinds up to the first that fails, and gives the indicator maps
that are left over. -/
def compileKinds (chosen : List Section) :
    List SectionKind → List IndicatorDraft →
      Assembling (Except CompileError (List IndicatorDraft))
  | [], unbound => return .ok unbound
  | kind :: rest, unbound => do
    match partOf chosen kind with
    | none => compileKinds chosen rest unbound
    | some part =>
      match ← compilePart .override part with
      | none => return .error (.failed kind part.name)
      | some left => compileKinds chosen rest (unbound ++ left)

/-- Compiles a composite section. -/
def compileComposite (part : Section) : Assembling (Except CompileError Unit) := do
  if !part.kind.isComposite then return .error (.notComposite part.kind)
  let chosen ← report (chooseParts part.kind part.parts)
  match missingKind part.kind chosen with
  | some kind =>
    Report.error s!"Required section {kind.label} missing from {part.kind.label}" []
    return .error (.missing kind part.kind)
  | none =>
    report (noteGeometry chosen)
    match ← compileKinds chosen SectionKind.compiled [] with
    | .error error => return .error error
    | .ok unbound =>
      bindLeftover unbound
      return .ok ()

end Assembly

/-- A compiler that can be used many times: its library keeps what was parsed, and the diagnostics
of the last use stay at hand. -/
structure Compiler where
  level : Nat
  library : Library
  diagnostics : List Diagnostic

namespace Compiler

/-- A compiler that was not used yet. -/
def new (level : Nat) (library : Library) : Compiler :=
  ⟨level, library, []⟩

/-- Makes a text includable. -/
def addSource (compiler : Compiler) (kind : SectionKind) (file text : String) : Compiler :=
  { compiler with library := compiler.library.addSource kind file text }

/-- Compiles a composite section. -/
def compileSection (compiler : Compiler) (part : Section) :
    Except CompileError Keymap × Compiler :=
  let (outcome, assembly) :=
    (Assembly.compileComposite part).run (.start compiler.level compiler.library)
  let after :=
    { compiler with library := assembly.library, diagnostics := assembly.diagnostics.records }
  (outcome.map fun _ => assembly.keymap, after)

/-- Compiles one of the maps of a text. -/
def compileText (compiler : Compiler) (text : String) (map : Option String) :
    Except CompileError Keymap × Compiler :=
  let fresh := { compiler with diagnostics := [] }
  match (Source.parse text).mapError CompileError.unparsable with
  | .error error => (.error error, fresh)
  | .ok sections =>
    match selectMap sections map with
    | .error error => (.error error, fresh)
    | .ok part => fresh.compileSection part

/-- Compiles one of the maps of a file. -/
def compileFile (compiler : Compiler) (path : String) (map : Option String) :
    Except CompileError Keymap × Compiler :=
  match compiler.library.files.read path with
  | .error cause => (.error (.unreadable path cause), compiler)
  | .ok text => compiler.compileText text map

end Compiler

end Xkb
