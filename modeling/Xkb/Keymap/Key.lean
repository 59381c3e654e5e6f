import Xkb.Action.Basic
import Xkb.Keysym.Basic

/-! Keys: the symbols and actions of each group and how the key behaves. -/

namespace Xkb

/-- What becomes of a group that a key does not have; groups count from 0. -/
inductive GroupRange where
  | wrap
  | clamp
  | redirect (group : UInt8)
deriving DecidableEq, Inhabited

/-- What a key does beside its actions. -/
inductive BehaviorKind where
  | default
  | lock
  /-- One of a set of keys of which at most one is down; sets count from 0. -/
  | radioGroup (group : UInt8) (allowNone : Bool)
  /-- Another key while an overlay is on. -/
  | overlay (overlay : UInt8) (key : Nat)
deriving DecidableEq, Inhabited

/-- What a key does beside its actions, and whether it is built that way. -/
structure Behavior where
  kind : BehaviorKind
  permanent : Bool
deriving DecidableEq, Inhabited

namespace Behavior

/-- Nothing beside the actions. -/
def default : Behavior :=
  ⟨.default, false⟩

end Behavior

/-- A group of a key: the position of its type, its symbols and as many actions, if any. -/
structure KeyGroup where
  typeIndex : Nat
  syms : List Keysym
  actions : Option (List Action)
deriving DecidableEq, Inhabited

/-- A key. -/
structure Key where
  groups : List KeyGroup
  groupRange : GroupRange
  /-- One bit for each part of the key that was given explicitly. -/
  explicit : UInt8
  autoRepeat : Option Bool
  behavior : Behavior
  virtualMods : UInt16
  modifierMap : UInt8
deriving DecidableEq, Inhabited

namespace Explicit

/-- The type of a group, from 0, was given. -/
def keyType (group : Nat) : UInt8 := bit8 group

/-- The actions were given. -/
def interpretation : UInt8 := bit8 4

/-- Automatic repeat was given. -/
def autoRepeat : UInt8 := bit8 5

/-- The behavior was given. -/
def behavior : UInt8 := bit8 6

/-- The virtual modifiers were given. -/
def virtualMods : UInt8 := bit8 7

end Explicit

namespace Key

/-- A key without symbols. -/
def empty : Key :=
  ⟨[], .wrap, 0, none, .default, 0, 0⟩

/-- The number of levels of the widest group. -/
def width (key : Key) : Nat :=
  key.groups.foldl (fun widest group => max widest group.syms.length) 0

/-- The symbols of all groups, group by group. -/
def syms (key : Key) : List Keysym :=
  key.groups.flatMap (·.syms)

/-- Whether a key has anything beside its modifier map. -/
def hasSymbols (key : Key) : Bool :=
  !key.groups.isEmpty || key.explicit != 0 || key.autoRepeat.isSome || key.behavior != .default
    || key.virtualMods != 0 || key.groupRange != .wrap

end Key

/-- The name of the type for a group of a width that names none, and whether the choice is so plain
that the type does not count as given; there is none for more than four levels. -/
def automaticType (width : Nat) (syms : List Keysym) : Option (String × Bool) :=
  let sym (level : Nat) : Keysym := syms.getD level .noSymbol
  let alphabetic (level : Nat) : Bool :=
    Keysym.isLower (sym level) && Keysym.isUpper (sym (level + 1))
  let keypad := Keysym.isKeypad (sym 0) || Keysym.isKeypad (sym 1)
  if width ≤ 1 then some ("ONE_LEVEL", true)
  else if width == 2 then
    if alphabetic 0 then some ("ALPHABETIC", false)
    else if keypad then some ("KEYPAD", true)
    else some ("TWO_LEVEL", true)
  else if width ≤ 4 then
    if alphabetic 0 && alphabetic 2 then some ("FOUR_LEVEL_ALPHABETIC", false)
    else if alphabetic 0 then some ("FOUR_LEVEL_SEMIALPHABETIC", false)
    else if keypad then some ("FOUR_LEVEL_KEYPAD", false)
    else some ("FOUR_LEVEL", false)
  else none

/-- The keys of a keymap with the names of the groups. -/
structure SymbolTable where
  name : Option String
  keys : Vector Key 256
  groupNames : Vector (Option String) 4
deriving DecidableEq, Inhabited

namespace SymbolTable

/-- Keys without symbols. -/
def empty : SymbolTable :=
  ⟨none, Vector.replicate 256 .empty, Vector.replicate 4 none⟩

end SymbolTable

end Xkb
