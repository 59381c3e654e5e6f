import Xkb.Section.Interpretations
import Xkb.Section.KeyPlacement
import Xkb.Section.KeyTypes
import Xkb.Section.Keycodes
import Xkb.Section.Reading

/-! A keymap put together section by section. -/

namespace Xkb

/-- A keymap in the making. -/
structure Assembly where
  keymap : Keymap
  diagnostics : Diagnostics
  library : Library

/-- A computation that adds to a keymap. -/
abbrev Assembling := StateM Assembly

namespace Assembly

/-- The start of a keymap, for messages up to a level. -/
def start (level : Nat) (library : Library) : Assembly :=
  ⟨.empty, .atLevel level, library⟩

/-- Runs a computation that only reports. -/
def report {α : Type} (report : Report α) : Assembling α := do
  let assembly ← get
  let (value, diagnostics) := report.run assembly.diagnostics
  set { assembly with diagnostics }
  return value

instance : MonadLift Report Assembling :=
  ⟨report⟩

/-- Reads a section in a mode; the virtual modifiers that it declares stay declared even if the
section has errors. -/
def readPart {γ : Type} [SectionContents γ] (mode : MergeMode) (part : Section) :
    Assembling (Draft γ) := do
  let ⟨keymap, diagnostics, library⟩ ← get
  let reading : Reading (Draft γ) := readMain keymap.keycodes mode part
  let (draft, workspace) := reading.run ⟨keymap.modifiers, diagnostics, library⟩
  let keymap := { keymap with modifiers := workspace.modifiers }
  set (⟨keymap, workspace.diagnostics, workspace.library⟩ : Assembly)
  return draft

/-- Changes the keymap by what a section without errors holds. -/
def applyPart {γ : Type} [SectionContents γ] (mode : MergeMode) (part : Section)
    (apply : γ → Option String → Keymap → Report (Keymap × List IndicatorDraft)) :
    Assembling (Option (List IndicatorDraft)) := do
  let draft : Draft γ ← readPart mode part
  if !draft.isClean then return none
  let (keymap, unbound) ← report (apply draft.contents draft.header.name (← get).keymap)
  modify ({ · with keymap })
  return some unbound

/-- Adds the keycodes of a section. -/
def addKeycodes (contents : KeycodeContents) (name : Option String) (keymap : Keymap) :
    Report (Keymap × List IndicatorDraft) :=
  return ({ keymap with keycodes := ← contents.apply name keymap.keycodes }, [])

/-- Adds the types of a section. -/
def addTypes (contents : TypeContents) (name : Option String) (keymap : Keymap) :
    Report (Keymap × List IndicatorDraft) :=
  return ({ keymap with types := ⟨name, contents.finish keymap.modifiers⟩ }, [])

/-- Adds the keys of a section. -/
def addSymbols (contents : SymbolContents) (name : Option String) (keymap : Keymap) :
    Report (Keymap × List IndicatorDraft) :=
  return (← contents.apply name keymap, [])

/-- Compiles a section in a mode, and gives the indicator maps that are left over; there is no
result if the section has errors or is of a kind that is not compiled. -/
def compilePart (mode : MergeMode) (part : Section) : Assembling (Option (List IndicatorDraft)) :=
  match part.kind with
  | .keycodes => applyPart mode part addKeycodes
  | .types => applyPart mode part addTypes
  | .compatibility => applyPart mode part CompatContents.apply
  | .symbols => applyPart mode part addSymbols
  | _ => return none

/-- Binds indicator maps that are left over. -/
def bindLeftover (unbound : List IndicatorDraft) : Assembling Unit := do
  let keymap ← report (IndicatorDraft.bindAllFree unbound (← get).keymap)
  modify ({ · with keymap })

end Assembly

end Xkb
