import Xkb.Bits
import Xkb.KeyName

/-! The keycodes of a keymap: which key each code belongs to, and the names of the indicators. -/

namespace Xkb

/-- A second name for a key. -/
structure KeyAlias where
  name : KeyName
  real : KeyName
deriving DecidableEq, Inhabited

/-- The lowest code that a key may have. -/
def lowestKeycode : Nat :=
  8

/-- The highest code that a key may have. -/
def highestKeycode : Nat :=
  255

/-- The keycodes of a keymap, with key aliases and indicator names. -/
structure KeycodeTable where
  name : Option String
  low : Nat
  high : Nat
  /-- The name of the key at each code, empty where there is none. -/
  names : Vector KeyName 256
  aliases : List KeyAlias
  indicatorNames : Vector (Option String) 32
  /-- One bit for each indicator that is a physical light. -/
  physical : UInt32
deriving DecidableEq, Inhabited

namespace KeycodeTable

/-- No keys and no indicators. -/
def empty : KeycodeTable where
  name := none
  low := lowestKeycode
  high := highestKeycode
  names := Vector.replicate 256 KeyName.empty
  aliases := []
  indicatorNames := Vector.replicate 32 none
  physical := 0

/-- The name of the key at a code, empty where there is none. -/
def nameAt (table : KeycodeTable) (code : Nat) : KeyName :=
  (table.names[code]?).getD KeyName.empty

/-- The codes of the range. -/
def codes (table : KeycodeTable) : List Nat :=
  List.range' table.low (table.high + 1 - table.low)

/-- Whether a code is in the range. -/
def inRange (table : KeycodeTable) (code : Nat) : Bool :=
  table.low ≤ code && code ≤ table.high

theorem mem_codes {table : KeycodeTable} {code : Nat} :
    code ∈ table.codes ↔ table.inRange code = true := by
  simp only [codes, inRange, List.mem_range'_1, Bool.and_eq_true, decide_eq_true_eq]
  omega

/-- The first code from `start` on, within the range, whose key has a name. -/
def findNamed (table : KeycodeTable) (name : KeyName) (start : Nat) : Option Nat :=
  table.codes.find? fun code => start ≤ code && table.names[code]? == some name

/-- The codes from `start` on, within the range, whose keys have a name. -/
def codesNamed (table : KeycodeTable) (name : KeyName) (start : Nat) : List Nat :=
  table.codes.filter fun code => start ≤ code && table.names[code]? == some name

/-- The name that a key alias stands for. -/
def realName (table : KeycodeTable) (name : KeyName) : Option KeyName :=
  (table.aliases.find? (·.name == name)).map (·.real)

/-- The code of the key with a name, which may be an alias. -/
def findKey (table : KeycodeTable) (name : KeyName) (start : Nat) : Option Nat :=
  match table.findNamed name start with
  | some code => some code
  | none => (table.realName name).bind fun real => table.findNamed real start

/-- The name of an indicator. -/
def indicatorName (table : KeycodeTable) (slot : Nat) : Option String :=
  (table.indicatorNames[slot]?).join

end KeycodeTable

end Xkb
