import Xkb.Expr.Value

/-! The boolean controls of a keyboard and the masks they make up. -/

namespace Xkb

/-- The names of the controls with their bits, the name that is printed first. -/
def controlNames : List (String × UInt32) :=
  [("RepeatKeys", bit32 0), ("SlowKeys", bit32 1), ("BounceKeys", bit32 2),
    ("StickyKeys", bit32 3), ("MouseKeys", bit32 4), ("MouseKeysAccel", bit32 5),
    ("AccessXKeys", bit32 6), ("AccessXTimeout", bit32 7), ("AccessXFeedback", bit32 8),
    ("AudibleBell", bit32 9), ("Overlay1", bit32 10), ("Overlay2", bit32 11),
    ("IgnoreGroupLock", bit32 12), ("repeat", bit32 0), ("autorepeat", bit32 0),
    ("all", 0x1fff), ("none", 0)]

/-- The mask of all controls. -/
def allControls : UInt32 :=
  0x1fff

/-- The controls by name. -/
def Lookup.controls : Lookup :=
  Lookup.ofTable controlNames

/-- Whether exactly one bit of a word is set. -/
def isSingleBit (bits : UInt32) : Bool :=
  bits != 0 && bits &&& (bits - 1) == 0

/-- The names of a table that stand for the bits of a mask, first come first taken, together with
the bits that they cover. -/
def coveringNames (mask : UInt32) (table : List (String × UInt32)) : List String × UInt32 :=
  table.foldl
    (fun (names, covered) (name, bits) =>
      if isSingleBit bits && meets32 mask bits && !meets32 covered bits then
        (names ++ [name], covered ||| bits)
      else (names, covered))
    ([], 0)

/-- A mask as a sum of names; the bits that no name covers come last as one number. -/
def maskNames (mask : UInt32) (table : List (String × UInt32)) : String :=
  if mask == 0 then "none"
  else
    let (names, covered) := coveringNames mask table
    let rest := mask &&& ~~~covered
    "+".intercalate (if rest == 0 then names else names ++ [Text.hexText 1 rest.toNat])

end Xkb
