import Xkb.Library
import Xkb.Section.Draft

/-! Reading a section statement by statement, with the sections that it includes. -/

namespace Xkb

/-- What reading a section changes besides the section. -/
structure Workspace where
  modifiers : VirtualModifiers
  diagnostics : Diagnostics
  library : Library

/-- A computation that reads sections, on top of whatever else `m` does. -/
abbrev ReadingT (m : Type → Type) := StateT Workspace m

/-- A computation that reads sections. -/
abbrev Reading := ReadingT Id

namespace Reading

variable {m : Type → Type} [Monad m]

/-- Runs a computation that only reports. -/
def report {α : Type} (report : Report α) : ReadingT m α := do
  let workspace ← get
  let (value, diagnostics) := report.run workspace.diagnostics
  set { workspace with diagnostics }
  return value

instance : MonadLift Report (ReadingT m) :=
  ⟨report⟩

/-- What names refer to, given the keys. -/
def scope (keycodes : KeycodeTable) : ReadingT m Scope :=
  return ⟨(← get).modifiers, keycodes⟩

/-- The section that an include asks for. -/
def find (kind : SectionKind) (file : String) (map : Option String) :
    ReadingT m (Except IncludeError (Section × Origin)) := do
  let (found, library) ← report ((← get).library.find kind file map)
  modify ({ · with library })
  return found

/-- Handles the declaration of a virtual modifier, and tells whether it is right. -/
def declareModifier (name : String) (value : Option Expr) (mode : MergeMode) :
    ReadingT m Bool := do
  match ← report ((← get).modifiers.declare name value mode) with
  | .ok (modifiers, _) =>
    modify ({ · with modifiers })
    return true
  | .error _ => return false

end Reading

/-- How a section is read into a draft, given where it is from. -/
abbrev SectionReader (m : Type → Type) (γ : Type) :=
  Section → Origin → Draft γ → ReadingT m (Draft γ)

/-- The errors that an include counts for if it cannot be followed. -/
def failedIncludeErrors : Nat :=
  10

/-- The errors after which the rest of a section is left out. -/
def errorLimit : Nat :=
  10

/-- An include statement halfway: the including section, what the terms have made so far, and
whether the including section itself was one of the terms. -/
structure Inclusion (γ : Type) where
  own : Draft γ
  made : Draft γ
  hasOwn : Bool

section Inclusion

variable {m : Type → Type} [Monad m] {γ : Type} [SectionContents γ]

/-- Reads the section that a term names into a draft of its own. -/
def readTerm (read : SectionReader m γ) (parent : γ) (term : IncludeTerm) :
    ReadingT m (Except IncludeError (Draft γ)) := do
  let kind := SectionContents.kind γ
  let file := term.file.getD ""
  match ← Reading.find kind file term.map with
  | .error error => return .error error
  | .ok (part, origin) =>
    match (← get).library.enter ⟨file, part.name, kind⟩ with
    | .error error => return .error error
    | .ok library =>
      modify ({ · with library })
      let draft ← read part origin ⟨.empty, SectionContents.forTerm term parent⟩
      modify fun workspace => { workspace with library := workspace.library.leave }
      return .ok draft

/-- Adds a further term to what an include statement has made. -/
def Inclusion.addTerm (keycodes : KeycodeTable) (read : SectionReader m γ) (state : Inclusion γ)
    (term : IncludeTerm) : ReadingT m (Except IncludeError (Inclusion γ)) := do
  if term.isSelf then
    let made ← Draft.absorb (← Reading.scope keycodes) term.merge state.own state.made
    return .ok ⟨.empty, made, true⟩
  match SectionContents.builtin term state.made.contents with
  | some contents => return .ok { state with made := { state.made with contents } }
  | none =>
    match ← readTerm read state.own.contents term with
    | .error error => return .error error
    | .ok draft =>
      let made ← Draft.absorb (← Reading.scope keycodes) term.merge draft state.made
      return .ok { state with made }

/-- Gives up an include statement that cannot be followed. -/
def failInclusion (own : Draft γ) (included : IncludeStatement) (error : IncludeError) :
    ReadingT m (Draft γ × Bool) := do
  Report.error error.message [s!"Include \"{included.text}\" ignored"]
  return (own.addErrors failedIncludeErrors, false)

/-- Adds the further terms of an include statement, and then the whole to the section. -/
def Inclusion.finish (keycodes : KeycodeTable) (read : SectionReader m γ)
    (included : IncludeStatement) (mode : MergeMode) :
    List IncludeTerm → Inclusion γ → ReadingT m (Draft γ × Bool)
  | [], state => do
    let own ←
      if state.hasOwn then pure state.made
      else Draft.absorb (← Reading.scope keycodes) mode state.made state.own
    return (own, own.isClean)
  | term :: rest, state => do
    match ← state.addTerm keycodes read term with
    | .error error => failInclusion state.own included error
    | .ok state => finish keycodes read included mode rest state

/-- Follows an include statement, and tells whether the section is free of errors after it. -/
def followInclude (keycodes : KeycodeTable) (read : SectionReader m γ) (own : Draft γ)
    (included : IncludeStatement) : ReadingT m (Draft γ × Bool) := do
  match included.terms with
  | [] => return (own, own.isClean)
  | first :: rest =>
    let mode := first.merge.or included.merge
    let finish (state : Inclusion γ) : ReadingT m (Draft γ × Bool) :=
      state.finish keycodes read included mode (if state.made.isClean then rest else [])
    if first.isSelf then finish ⟨.empty, own, true⟩
    else
      match SectionContents.builtin first own.contents with
      | some contents => return ({ own with contents }, own.isClean)
      | none =>
        match ← readTerm read own.contents first with
        | .error error => failInclusion own included error
        | .ok draft =>
          let made := { draft with header := { draft.header with name := some included.text } }
          finish ⟨own, made, false⟩

/-- Handles a statement of a section, and tells whether it is right. -/
def readStatement (keycodes : KeycodeTable) (read : SectionReader m γ) (mode : MergeMode)
    (draft : Draft γ) (statement : Statement) : ReadingT m (Draft γ × Bool) := do
  match statement, SectionContents.declaresModifiers γ with
  | .inclusion included, _ => followInclude keycodes read draft included
  | .virtualModifier merge name value, true =>
    return (draft, ← Reading.declareModifier name value (merge.or mode))
  | _, _ =>
    let scope ← Reading.scope keycodes
    let (contents, right) ←
      SectionContents.handle scope draft.header mode statement draft.contents
    return ({ draft with contents }, right)

/-- Reads the statements of a section one after another, until there are too many errors. -/
def readStatements (keycodes : KeycodeTable) (read : SectionReader m γ) (mode : MergeMode)
    (name : String) : List Statement → Draft γ → ReadingT m (Draft γ)
  | [], draft => return draft
  | statement :: rest, draft => do
    let (draft, right) ← readStatement keycodes read mode draft statement
    let draft := if right then draft else draft.addErrors 1
    if draft.header.errors > errorLimit then
      let noun := SectionContents.noun γ
      Report.error "Too many errors" [s!"Abandoning {noun} \"{name}\""]
      return draft
    readStatements keycodes read mode name rest draft

/-- Reads a section into a draft, following includes no deeper than a limit. -/
def readSection (keycodes : KeycodeTable) : Nat → MergeMode → SectionReader m γ
  | 0, _, _, _, draft => return draft
  | limit + 1, mode, part, origin, draft =>
    readStatements keycodes (readSection keycodes limit .override) (SectionContents.mode γ mode)
      part.name part.statements (draft.begin part.name origin)

/-- Reads a section that is compiled; the limit is beyond what its includes can lead to, since no
include is followed within itself. -/
def readMain (keycodes : KeycodeTable) (mode : MergeMode) (part : Section) :
    ReadingT m (Draft γ) := do
  let limit := Library.termCount part + (← get).library.reach + 1
  readSection keycodes limit mode part .main Draft.empty

end Inclusion

end Xkb
