/-! Numbers as digits in a base, read and written. -/

namespace Xkb.Text

/-- The value of a digit, letters of either case standing for ten to fifteen. -/
def digitValue (c : Char) : Option Nat :=
  if '0' ≤ c ∧ c ≤ '9' then some (c.toNat - '0'.toNat)
  else if 'a' ≤ c ∧ c ≤ 'f' then some (c.toNat - 'a'.toNat + 10)
  else if 'A' ≤ c ∧ c ≤ 'F' then some (c.toNat - 'A'.toNat + 10)
  else none

/-- Whether a character is a digit of a base. -/
def isDigitOf (base : Nat) (c : Char) : Bool :=
  (digitValue c).any (· < base)

/-- The number that digits of a base denote. -/
def digitsValue (base : Nat) (cs : List Char) : Nat :=
  cs.foldl (fun value c => value * base + (digitValue c).getD 0) 0

/-- Reads digits of a base, at least one and up to a largest number. -/
def readDigits (base largest : Nat) (cs : List Char) : Option Nat :=
  if !cs.isEmpty && cs.all (isDigitOf base) && digitsValue base cs ≤ largest then
    some (digitsValue base cs)
  else none

/-- Reads digits of a base behind an optional plus sign. -/
def readNumber (base largest : Nat) : List Char → Option Nat
  | '+' :: rest => readDigits base largest rest
  | cs => readDigits base largest cs

/-- The hexadecimal digits of a number, letters in lower case. -/
def hexDigits (n : Nat) : List Char :=
  Nat.toDigits 16 n

/-- The characters with zeros in front up to a width. -/
def padZeros (width : Nat) (cs : List Char) : List Char :=
  List.replicate (width - cs.length) '0' ++ cs

/-- A number in hexadecimal behind its marker, with at least so many digits. -/
def hexText (width n : Nat) : String :=
  String.ofList ('0' :: 'x' :: padZeros width (hexDigits n))

/-- A number in hexadecimal with upper case letters and at least so many digits. -/
def upperHexText (width n : Nat) : String :=
  String.ofList ((padZeros width (hexDigits n)).map Char.toUpper)

end Xkb.Text
