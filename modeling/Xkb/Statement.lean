import Xkb.Expr
import Xkb.MergeMode
import Xkb.SectionKind

/-! Statements and the sections they stand in. -/

namespace Xkb

/-- An assignment of a value; without a target it is the unnamed list of a key's body. -/
structure Assignment where
  merge : MergeMode
  target : Option Expr
  value : Option Expr
deriving Inhabited

/-- One `file(map):group` of an include statement. -/
structure IncludeTerm where
  /-- The mode the operator in front of the term asks for. -/
  merge : MergeMode
  file : Option String
  map : Option String
  group : Option UInt32
deriving DecidableEq, Inhabited

/-- Whether a term names nothing and so stands for the including section itself. -/
def IncludeTerm.isSelf (term : IncludeTerm) : Bool :=
  term.file.isNone && term.map.isNone

/-- An include statement: its text and the terms the text is split into. -/
structure IncludeStatement where
  merge : MergeMode
  text : String
  terms : List IncludeTerm
deriving DecidableEq, Inhabited

/-- The statements of a section. -/
inductive Statement where
  | inclusion (included : IncludeStatement)
  | assignment (assigned : Assignment)
  | virtualModifier (merge : MergeMode) (name : String) (value : Option Expr)
  | keycode (merge : MergeMode) (name : KeyName) (value : Int64)
  | keyAlias (merge : MergeMode) (name real : KeyName)
  | keyType (merge : MergeMode) (name : String) (body : List Assignment)
  | interpretation (merge : MergeMode) (keysym : String) (predicate : Option Expr)
      (body : List Assignment)
  | keySymbols (merge : MergeMode) (key : KeyName) (body : List Assignment)
  | modifierMap (merge : MergeMode) (modifier : String) (keys : List Expr)
  | groupMask (merge : MergeMode) (group : Int64) (value : Expr)
  | indicatorMap (merge : MergeMode) (name : String) (body : List Assignment)
  | indicatorName (merge : MergeMode) (index : Int64) (name : Expr) (isVirtual : Bool)
deriving Inhabited

namespace Statement

/-- The mode a statement asks for. -/
def merge : Statement → MergeMode
  | inclusion included => included.merge
  | assignment assigned => assigned.merge
  | virtualModifier merge .. | keycode merge .. | keyAlias merge .. | keyType merge ..
  | interpretation merge .. | keySymbols merge .. | modifierMap merge .. | groupMask merge ..
  | indicatorMap merge .. | indicatorName merge .. => merge

/-- The same statement in another mode. -/
def withMerge (mode : MergeMode) : Statement → Statement
  | inclusion included => inclusion { included with merge := mode }
  | assignment assigned => assignment { assigned with merge := mode }
  | virtualModifier _ name value => virtualModifier mode name value
  | keycode _ name value => keycode mode name value
  | keyAlias _ name real => keyAlias mode name real
  | keyType _ name body => keyType mode name body
  | interpretation _ keysym predicate body => interpretation mode keysym predicate body
  | keySymbols _ key body => keySymbols mode key body
  | modifierMap _ modifier keys => modifierMap mode modifier keys
  | groupMask _ group value => groupMask mode group value
  | indicatorMap _ name body => indicatorMap mode name body
  | indicatorName _ index name isVirtual => indicatorName mode index name isVirtual

/-- How messages name what a statement declares. -/
def description : Statement → String
  | inclusion _ => "an include statement"
  | assignment _ => "a global variable"
  | virtualModifier .. => "virtual modifiers"
  | keycode .. => "a key name"
  | keyAlias .. => "a key alias"
  | keyType .. => "a key type"
  | interpretation .. => "a symbol interpretation"
  | keySymbols .. => "key symbols"
  | modifierMap .. => "a modifier map"
  | groupMask .. => "a group compatibility map"
  | indicatorMap .. => "an indicator map"
  | indicatorName .. => "an indicator name"

end Statement

/-- The bit of the flag `default`. -/
def defaultFlag : UInt16 :=
  1

/-- The flags that may stand in front of a section, with their bits. -/
def sectionFlags : List (String × UInt16) :=
  [("default", defaultFlag), ("partial", 2), ("hidden", 4), ("alphanumeric_keys", 8),
    ("modifier_keys", 16), ("keypad_keys", 32), ("function_keys", 64), ("alternate_group", 128)]

/-- A section of a source text: statements, or the parts of a composite section. -/
structure Section where
  kind : SectionKind
  name : String
  flags : UInt16
  statements : List Statement
  parts : List Section
deriving Inhabited

/-- Whether a section is the one to take where none is named. -/
def Section.isDefault (part : Section) : Bool :=
  part.flags &&& defaultFlag != 0

end Xkb
