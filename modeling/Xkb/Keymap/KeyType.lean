import Xkb.Modifier

/-! Key types: which shift level a set of modifiers selects. -/

namespace Xkb

/-- A set of modifiers with the level it selects, from 0, and the modifiers it leaves in force. -/
structure TypeEntry where
  mods : ModMask
  level : Nat
  preserve : ModMask
deriving DecidableEq, Inhabited

/-- A key type. -/
structure KeyType where
  name : String
  mods : ModMask
  levels : Nat
  entries : List TypeEntry
  /-- The names of the levels, from level 0 on. -/
  levelNames : List (Option String)
deriving DecidableEq, Inhabited

/-- The key types of a keymap. -/
structure TypeTable where
  name : Option String
  types : List KeyType
deriving DecidableEq, Inhabited

namespace TypeTable

/-- No types. -/
def empty : TypeTable :=
  ⟨none, []⟩

/-- The position of the type with a name. -/
def find (table : TypeTable) (name : String) : Option Nat :=
  table.types.findIdx? (·.name == name)

end TypeTable

end Xkb
