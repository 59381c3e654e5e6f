import Xkb.Definition
import Xkb.Diagnostic
import Xkb.Scope
import Xkb.Statement

/-! A section while it is read: what it holds so far and how many errors were found in it. -/

namespace Xkb

/-- What is known of any section while it is read. -/
structure Header where
  name : Option String
  origin : Origin
  errors : Nat
deriving DecidableEq, Inhabited

namespace Header

/-- The header of a section that is not begun. -/
def empty : Header :=
  ⟨none, .initial, 0⟩

end Header

/-- What a kind of section holds and how its statements add to that. -/
class SectionContents (γ : Type) where
  kind : SectionKind
  /-- How messages name a section of this kind. -/
  noun : String
  /-- What a section holds before its first statement. -/
  empty : γ
  /-- What an included section starts with, given what the including one holds. -/
  forTerm : IncludeTerm → γ → γ
  /-- What becomes of the contents at an include that needs no file. -/
  builtin : IncludeTerm → γ → Option γ
  /-- The mode of the statements in a section that is read in a mode. -/
  mode : MergeMode → MergeMode
  /-- Whether virtual modifiers may be declared. -/
  declaresModifiers : Bool
  /-- Adds what a statement says, and tells whether the statement is right. -/
  handle : Scope → Header → MergeMode → Statement → γ → Report (γ × Bool)
  /-- Adds what another section holds in a mode, and counts the errors in doing so. -/
  absorb : Scope → MergeMode → Header → γ → γ → Report (γ × Nat)

/-- A section while it is read. -/
structure Draft (γ : Type) where
  header : Header
  contents : γ

namespace Draft

variable {γ : Type} [SectionContents γ]

/-- A section that is not begun. -/
def empty : Draft γ :=
  ⟨.empty, SectionContents.empty⟩

/-- The draft with more errors. -/
def addErrors (draft : Draft γ) (count : Nat) : Draft γ :=
  { draft with header := { draft.header with errors := draft.header.errors + count } }

/-- Whether no error was found so far. -/
def isClean (draft : Draft γ) : Bool :=
  draft.header.errors == 0

/-- The draft of a section with a name, at its first statement. -/
def begin (draft : Draft γ) (name : String) (origin : Origin) : Draft γ :=
  { draft with header := { draft.header with name := some name, origin } }

/-- Adds what another draft holds in a mode; of a draft with errors only these are added. -/
def absorb (scope : Scope) (mode : MergeMode) (new old : Draft γ) : Report (Draft γ) := do
  if !new.isClean then return old.addErrors new.header.errors
  let (contents, errors) ←
    SectionContents.absorb scope mode new.header new.contents old.contents
  let header := { old.header with
    name := old.header.name <|> new.header.name
    errors := old.header.errors + errors }
  return ⟨header, contents⟩

end Draft

end Xkb
