import Xkb.Action.Basic
import Xkb.Keysym.Basic

/-! Interpretations: what a keysym does on keys that have certain modifiers. -/

namespace Xkb

/-- How the modifiers of a key are compared with those of an interpretation. -/
inductive Predicate where
  | noneOf
  | anyOfOrNone
  | anyOf
  | allOf
  | exactly
deriving DecidableEq, Inhabited

namespace Predicate

/-- The names that a predicate is written with. -/
def names : List (String × Predicate) :=
  [("noneof", noneOf), ("anyofornone", anyOfOrNone), ("anyof", anyOf), ("allof", allOf),
    ("exactly", exactly)]

/-- The name that a predicate is printed with. -/
def name : Predicate → String
  | noneOf => "NoneOf"
  | anyOfOrNone => "AnyOfOrNone"
  | anyOf => "AnyOf"
  | allOf => "AllOf"
  | exactly => "Exactly"

/-- Whether the modifiers of a key satisfy a predicate. -/
def accepts (predicate : Predicate) (mask mods : UInt8) : Bool :=
  match predicate with
  | noneOf => mods &&& mask == 0
  | anyOfOrNone => mods == 0 || mods &&& mask != 0
  | anyOf => mods &&& mask != 0
  | allOf => mods &&& mask == mask
  | exactly => mods == mask

end Predicate

/-- What a keysym does on keys whose modifiers satisfy a predicate. -/
structure Interpretation where
  /-- The keysym, or `noSymbol` for any. -/
  sym : Keysym
  predicate : Predicate
  mods : UInt8
  levelOneOnly : Bool
  virtualModifier : Option Nat
  autoRepeat : Bool
  locking : Bool
  action : Action
deriving DecidableEq

/-- Whether an interpretation applies to a keysym on a key with certain modifiers. -/
def Interpretation.applies (interpretation : Interpretation) (sym : Keysym) (modmap : UInt8) :
    Bool :=
  (interpretation.sym == sym || interpretation.sym == Keysym.noSymbol)
    && interpretation.predicate.accepts interpretation.mods modmap

/-- When an indicator is lit. -/
structure IndicatorMap where
  flags : UInt8
  whichGroups : UInt8
  groups : UInt8
  whichMods : UInt8
  mods : ModMask
  controls : UInt32
deriving DecidableEq, Inhabited

namespace IndicatorMap

/-- The indicator does not change when it is set explicitly. -/
def noExplicit : UInt8 := bit8 7

/-- The indicator does not follow the keyboard. -/
def noAutomatic : UInt8 := bit8 6

/-- The keyboard follows the indicator. -/
def drivesKeyboard : UInt8 := bit8 5

/-- An indicator that is never lit. -/
def empty : IndicatorMap :=
  ⟨0, 0, 0, 0, .empty, 0⟩

/-- The bit for modifiers or groups that are locked. -/
def locked : UInt8 := bit8 2

/-- The bit for modifiers or groups that are in force. -/
def effective : UInt8 := bit8 3

/-- The states of modifiers and groups that an indicator can look at. -/
def stateNames : List (String × UInt32) :=
  [("base", bit32 0), ("latched", bit32 1), ("locked", bit32 2), ("effective", bit32 3),
    ("compat", bit32 4), ("any", 0x1f), ("none", 0)]

end IndicatorMap

/-- The interpretations of a keymap with its group masks and indicator maps. -/
structure CompatTable where
  name : Option String
  interpretations : List Interpretation
  groupMasks : Vector ModMask 4
  indicators : Vector (Option IndicatorMap) 32
deriving DecidableEq

namespace CompatTable

/-- Nothing interpreted and no indicator lit. -/
def empty : CompatTable :=
  ⟨none, [], Vector.replicate 4 .empty, Vector.replicate 32 none⟩

end CompatTable

end Xkb
