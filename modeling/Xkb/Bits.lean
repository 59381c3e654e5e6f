/-! Single bits of the fixed-width masks a keymap is made of. -/

namespace Xkb

/-- The byte with one bit set. -/
def bit8 (index : Nat) : UInt8 :=
  1 <<< index.toUInt8

/-- The 16-bit word with one bit set. -/
def bit16 (index : Nat) : UInt16 :=
  1 <<< index.toUInt16

/-- The 32-bit word with one bit set. -/
def bit32 (index : Nat) : UInt32 :=
  1 <<< index.toUInt32

/-- Whether two bytes have a bit in common. -/
def meets8 (mask bits : UInt8) : Bool :=
  mask &&& bits != 0

/-- Whether two 16-bit words have a bit in common. -/
def meets16 (mask bits : UInt16) : Bool :=
  mask &&& bits != 0

/-- Whether two 32-bit words have a bit in common. -/
def meets32 (mask bits : UInt32) : Bool :=
  mask &&& bits != 0

/-- The byte with some bits switched on or off. -/
def switch8 (mask bits : UInt8) (on : Bool) : UInt8 :=
  if on then mask ||| bits else mask &&& ~~~bits

/-- The 32-bit word with some bits switched on or off. -/
def switch32 (mask bits : UInt32) (on : Bool) : UInt32 :=
  if on then mask ||| bits else mask &&& ~~~bits

end Xkb
