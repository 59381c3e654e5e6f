import Xkb.Bits
import Xkb.Text.Ascii

/-! Modifier masks of eight real and sixteen virtual modifiers. -/

namespace Xkb

/-- The names of the real modifiers, by bit position. -/
def realModifierNames : List String :=
  ["Shift", "Lock", "Control", "Mod1", "Mod2", "Mod3", "Mod4", "Mod5"]

/-- The bit position of a real modifier. -/
def realModifierIndex (name : String) : Option Nat :=
  realModifierNames.findIdx? fun known => Text.sameName known name

/-- The name of a real modifier, by bit position. -/
def realModifierName (index : Nat) : String :=
  realModifierNames.getD index ""

/-- A mask of real modifiers as text, `none` and `all` for the two extremes. -/
def realModifiersText (mask : UInt8) : String :=
  if mask == 0 then "none"
  else if mask == 0xff then "all"
  else "+".intercalate
    (((List.range 8).filter fun index => meets8 mask (bit8 index)).map realModifierName)

/-- A mask of real and virtual modifiers. -/
structure ModMask where
  real : UInt8
  virtual : UInt16
deriving DecidableEq, Inhabited

namespace ModMask

/-- The mask without any modifier. -/
def empty : ModMask :=
  ⟨0, 0⟩

/-- The mask of the real modifier `Shift`. -/
def shift : ModMask :=
  ⟨bit8 0, 0⟩

/-- The mask of the real modifier `Lock`. -/
def lock : ModMask :=
  ⟨bit8 1, 0⟩

/-- The mask that a word holds, real modifiers in its low byte and virtual ones above. -/
def ofPacked (packed : UInt32) : ModMask :=
  ⟨packed.toUInt8, (packed >>> 8).toUInt16⟩

/-- The word that holds a mask. -/
def packed (mask : ModMask) : UInt32 :=
  mask.real.toUInt32 ||| mask.virtual.toUInt32 <<< 8

/-- Whether a mask has no modifier. -/
def isEmpty (mask : ModMask) : Bool :=
  mask.real == 0 && mask.virtual == 0

/-- The modifiers of either mask. -/
def union (left right : ModMask) : ModMask :=
  ⟨left.real ||| right.real, left.virtual ||| right.virtual⟩

/-- The modifiers of both masks. -/
def intersect (left right : ModMask) : ModMask :=
  ⟨left.real &&& right.real, left.virtual &&& right.virtual⟩

/-- The modifiers of the first mask that the second does not have. -/
def without (left right : ModMask) : ModMask :=
  ⟨left.real &&& ~~~right.real, left.virtual &&& ~~~right.virtual⟩

/-- Whether every modifier of the first mask is one of the second. -/
def subsetOf (left right : ModMask) : Bool :=
  (left.without right).isEmpty

end ModMask

end Xkb
