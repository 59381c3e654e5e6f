import Xkb.Keymap.Interpretation
import Xkb.Keymap.Key
import Xkb.Keymap.KeyType
import Xkb.Keymap.Keycodes
import Xkb.VirtualModifier

/-! A compiled keymap and what can be asked of it. -/

namespace Xkb

/-- A compiled keymap. -/
structure Keymap where
  keycodes : KeycodeTable
  modifiers : VirtualModifiers
  types : TypeTable
  compat : CompatTable
  symbols : SymbolTable
deriving DecidableEq

namespace Keymap

/-- A keymap without keys. -/
def empty : Keymap :=
  ⟨.empty, .empty, .empty, .empty, .empty⟩

instance : Inhabited Keymap :=
  ⟨empty⟩

/-- The key at a code. -/
def key? (keymap : Keymap) (code : Nat) : Option Key :=
  keymap.symbols.keys[code]?

/-- The number of symbols at a code. -/
def symbolCount (keymap : Keymap) (code : Nat) : Nat :=
  ((keymap.key? code).map (·.syms.length)).getD 0

/-- The symbol at a position of a code, counted group by group. -/
def symbolAt (keymap : Keymap) (code position : Nat) : Option Keysym :=
  (keymap.key? code).bind fun key => key.syms[position]?

/-- The first code of the range that has a symbol at a position. -/
def codeWithSymbolAt (keymap : Keymap) (sym : Keysym) (position : Nat) : Option Nat :=
  keymap.keycodes.codes.find? fun code => keymap.symbolAt code position == some sym

/-- The number of symbols at the code that has most. -/
def widestCode (keymap : Keymap) : Nat :=
  keymap.keycodes.codes.foldl (fun widest code => max widest (keymap.symbolCount code)) 0

/-- The code that has a symbol, where a lower position counts first and then a lower code. -/
def findSymbol (keymap : Keymap) (sym : Keysym) : Option Nat :=
  (List.range keymap.widestCode).findSome? (keymap.codeWithSymbolAt sym)

/-- The first interpretation that applies to a keysym on a key with certain modifiers. -/
def findInterpretation (keymap : Keymap) (sym : Keysym) (modmap : UInt8) :
    Option Interpretation :=
  keymap.compat.interpretations.find? (·.applies sym modmap)

end Keymap

end Xkb
