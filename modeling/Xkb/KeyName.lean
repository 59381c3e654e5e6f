/-! Key names such as `<AE01>`: up to four bytes packed into one word. -/

namespace Xkb

/-- A key name, its bytes packed from the high end and padded with zeros. -/
structure KeyName where
  packed : UInt32
deriving DecidableEq, Inhabited

namespace KeyName

/-- The name of no key. -/
def empty : KeyName :=
  ⟨0⟩

/-- Packs the first four bytes of a list. -/
def pack (bytes : List UInt8) : KeyName :=
  let byte (index : Nat) : UInt32 := (bytes.getD index 0).toUInt32
  ⟨byte 0 <<< 24 ||| byte 1 <<< 16 ||| byte 2 <<< 8 ||| byte 3⟩

/-- The name that a text is packed to; what comes after its fourth byte is lost. -/
def ofString (name : String) : KeyName :=
  pack (name.toList.flatMap String.utf8EncodeChar)

/-- Whether this is the name of no key. -/
def isEmpty (name : KeyName) : Bool :=
  name.packed == 0

/-- The four bytes of a name, high end first. -/
def bytes (name : KeyName) : List UInt8 :=
  [(name.packed >>> 24).toUInt8, (name.packed >>> 16).toUInt8, (name.packed >>> 8).toUInt8,
    name.packed.toUInt8]

/-- The characters of a name, one for each byte before the first zero. -/
def text (name : KeyName) : String :=
  String.ofList ((name.bytes.takeWhile (· != 0)).map fun byte => Char.ofNat byte.toNat)

/-- A name between angle brackets, as it is written in a source text. -/
def label (name : KeyName) : String :=
  "<" ++ name.text ++ ">"

end KeyName

end Xkb
