import Xkb.KeyName
import Xkb.Source.Scan
import Xkb.Text.Ascii
import Xkb.Text.Blank
import Xkb.Text.Number

/-! The tokens of a source text; each reader passes over the blanks in front of its token. -/

namespace Xkb.Source

/-- Reads one given character. -/
def punct (c : Char) : Scan Unit := fun cs =>
  match skip cs with
  | found :: rest => if found = c then some ((), rest) else none
  | [] => none

/-- Whether an identifier can start with a character. -/
def isIdentStart (c : Char) : Bool :=
  c.isAlpha || c == '_'

/-- Whether an identifier can go on with a character. -/
def isIdentRest (c : Char) : Bool :=
  c.isAlphanum || c == '_'

/-- Reads an identifier. -/
def ident : Scan String := fun cs =>
  match skip cs with
  | c :: rest =>
    if isIdentStart c then
      some (String.ofList (c :: rest.takeWhile isIdentRest), rest.dropWhile isIdentRest)
    else none
  | [] => none

/-- Reads an identifier that is a given word in lower case, its own case aside. -/
def keyword (word : String) : Scan Unit := do
  guard (Text.foldCase (← ident) == word)

/-- The largest integer that can be written. -/
def largestInteger : Nat :=
  0x7fffffffffffffff

/-- Reads the digits of a base that a text starts with. -/
def digits (base : Nat) (cs : List Char) : Option (Int64 × List Char) :=
  (Text.readDigits base largestInteger (cs.takeWhile (Text.isDigitOf base))).map
    fun value => (Int64.ofNat value, cs.dropWhile (Text.isDigitOf base))

/-- Reads the digits behind a hexadecimal marker. -/
def hexInteger : List Char → Option (Int64 × List Char)
  | '0' :: 'x' :: rest => digits 16 rest
  | '0' :: 'X' :: rest => digits 16 rest
  | _ => none

/-- Reads an integer, hexadecimal where that is possible and decimal otherwise. -/
def integer : Scan Int64 := fun cs =>
  hexInteger (skip cs) <|> digits 10 (skip cs)

/-- The octal digits that an escape takes, three at most. -/
def octalRun (cs : List Char) : List Char :=
  (cs.takeWhile (Text.isDigitOf 8)).take 3

/-- The character that an escape denotes and how many characters of the text it takes. -/
def escape : List Char → Option (Char × Nat)
  | [] => none
  | 'n' :: _ => some ('\n', 1)
  | 't' :: _ => some ('\t', 1)
  | 'r' :: _ => some ('\r', 1)
  | 'b' :: _ => some ('\x08', 1)
  | 'f' :: _ => some ('\x0c', 1)
  | 'v' :: _ => some ('\x0b', 1)
  | 'e' :: _ => some ('\x1b', 1)
  | c :: rest =>
    match Text.readDigits 8 255 (octalRun (c :: rest)) with
    | some code => some (Char.ofNat code, (octalRun (c :: rest)).length)
    | none => some (c, 1)

/-- The characters of a string up to its closing quote, after so many characters to pass over. -/
def stringFrom : Nat → List Char → Option (List Char × List Char)
  | _, [] => none
  | pending + 1, _ :: rest => stringFrom pending rest
  | 0, '"' :: rest => some ([], rest)
  | 0, '\\' :: rest =>
    match escape rest with
    | none => none
    | some (c, length) => (stringFrom length rest).map fun (found, left) => (c :: found, left)
  | 0, c :: rest => (stringFrom 0 rest).map fun (found, left) => (c :: found, left)

/-- Reads a string that starts right here with its opening quote. -/
def stringBody : Scan String
  | '"' :: rest => (stringFrom 0 rest).map fun (found, left) => (String.ofList found, left)
  | _ => none

/-- Reads a string. -/
def stringLiteral : Scan String := fun cs =>
  stringBody (skip cs)

/-- Whether a character can stand in a key name. -/
def isKeyNameChar (c : Char) : Bool :=
  c != '>' && !Text.isBlank c

/-- Reads a key name between angle brackets. -/
def keyName : Scan KeyName := fun cs =>
  match skip cs with
  | '<' :: rest =>
    match rest.dropWhile isKeyNameChar with
    | '>' :: left => some (KeyName.ofString (String.ofList (rest.takeWhile isKeyNameChar)), left)
    | _ => none
  | _ => none

/-- The name of the keysym that a number stands for: a digit key, or a code in hexadecimal. -/
def keysymOfNumber (number : Int64) : String :=
  if number < 10 then toString number.toInt else Text.hexText 1 number.toInt.toNat

/-- Reads the name or the number of a keysym. -/
def keysym : Scan String :=
  ident <|> keysymOfNumber <$> integer

end Xkb.Source
