import Xkb.Keysym.Names
import Xkb.Text.Ascii
import Xkb.Text.CaseMap
import Xkb.Text.Number

/-! Keysyms: codes for what a key produces, with their names and their cases. -/

namespace Xkb

/-- The code of what a key produces. -/
abbrev Keysym := UInt32

namespace Keysym

/-- The code that stands for nothing at all. -/
def noSymbol : Keysym :=
  0

/-- The code of a key that is there and does nothing. -/
def voidSymbol : Keysym :=
  0xffffff

/-- The bit that marks a code as a Unicode character. -/
def unicodeMark : Keysym :=
  0x1000000

/-- Whether a code stands for a Unicode character. -/
def isUnicode (sym : Keysym) : Bool :=
  sym &&& 0xff000000 == unicodeMark

/-- The code of a Unicode character; control characters have none. -/
def ofCodePoint (point : Nat) : Option Keysym :=
  if point < 0x20 || (0x7f ≤ point && point ≤ 0x9f) then none
  else if point ≤ 0xff then some point.toUInt32
  else if point ≤ 0x10ffff then some (point.toUInt32 ||| unicodeMark)
  else none

/-- The code of a keysym that is written as a number and has no name of its own. -/
def ofNumeral : List Char → Option Keysym
  | 'U' :: hex =>
    if !hex.isEmpty && hex.all (Text.isDigitOf 16) then
      (Text.readDigits 16 0xffffffff hex).bind ofCodePoint
    else none
  | '0' :: 'x' :: hex => (Text.readNumber 16 0xffffffff hex).map Nat.toUInt32
  | _ => none

/-- The code behind a name, a Unicode code or a plain hexadecimal code. -/
def ofName (name : String) : Option Keysym :=
  match names.find? fun entry => entry.1 == name with
  | some (_, sym) => some sym
  | none => ofNumeral name.toList

/-- The code behind a name as key definitions use it, with words for no and for a void symbol. -/
def lookup (name : String) : Option Keysym :=
  let word := Text.foldCase name
  if word == "any" || word == "nosymbol" then some noSymbol
  else if word == "none" || word == "voidsymbol" then some voidSymbol
  else ofName name

/-- The name of a code, in hexadecimal where it has none. -/
def name (sym : Keysym) : String :=
  if sym == noSymbol then "NoSymbol"
  else if sym == voidSymbol then "VoidSymbol"
  else
    match names.find? fun entry => entry.2 == sym with
    | some (name, _) => name
    | none =>
      if isUnicode sym then "U" ++ Text.upperHexText 4 (sym &&& 0xffffff).toNat
      else Text.hexText 8 sym.toNat

/-- Whether a code lies between two others. -/
def within (low high sym : Keysym) : Bool :=
  low ≤ sym && sym ≤ high

/-- The lower and upper case of a code of the first Latin block. -/
def latin1Cases (sym : Keysym) : Keysym × Keysym :=
  if within 0x41 0x5a sym || within 0xc0 0xd6 sym || within 0xd8 0xde sym then (sym + 0x20, sym)
  else if within 0x61 0x7a sym || within 0xe0 0xf6 sym || within 0xf8 0xfe sym then
    (sym, sym - 0x20)
  else (sym, sym)

/-- The lower and upper case of a code of the second Latin block. -/
def latin2Cases (sym : Keysym) : Keysym × Keysym :=
  if within 0x1a1 0x1af sym then (sym + 0x10, sym)
  else if within 0x1b1 0x1bf sym then (sym, sym - 0x10)
  else if within 0x1c0 0x1de sym then (sym + 0x20, sym)
  else if within 0x1e0 0x1fe sym then (sym, sym - 0x20)
  else (sym, sym)

/-- The lower and upper case of a Unicode character. -/
def unicodeCases (sym : Keysym) : Keysym × Keysym :=
  let point := (sym &&& 0xffffff).toNat
  ((Text.lowerCode point).toUInt32 ||| unicodeMark, (Text.upperCode point).toUInt32 ||| unicodeMark)

/-- The lower and upper case of a code, which is itself twice where it has no cases. -/
def cases (sym : Keysym) : Keysym × Keysym :=
  if sym < 0x100 then latin1Cases sym
  else if isUnicode sym then unicodeCases sym
  else if sym >>> 8 == 1 then latin2Cases sym
  else (sym, sym)

/-- Whether a code is the lower case of a letter with two cases. -/
def isLower (sym : Keysym) : Bool :=
  let (lower, upper) := cases sym
  lower != upper && sym == lower

/-- Whether a code is the upper case of a letter with two cases. -/
def isUpper (sym : Keysym) : Bool :=
  let (lower, upper) := cases sym
  lower != upper && sym == upper

/-- Whether a code belongs to a key of the keypad. -/
def isKeypad (sym : Keysym) : Bool :=
  within 0xff80 0xffbd sym

end Keysym

end Xkb
