import Xkb.Expr
import Xkb.Keysym.Basic
import Xkb.Modifier

/-! The values of expressions: each context reads an expression as the kind of value it needs. -/

namespace Xkb

/-- Why an expression has no value of the kind that is needed. -/
inductive ValueError where
  | mismatch (expected found : String)
  | unknownIdent (name kind : String)
  | unknownField (element field kind : String)
  | illegalOperation (operation kind : String)
  | divideByZero
  | overflow (operation : String)
  | stringTooLong
  | illegalChoice (name expected : String)
  | unexpectedInMask (found : String)
  | unknownKeysym (name : String)
  | illegalTarget (found : String)
deriving DecidableEq, Inhabited

/-- The words of a value error. -/
def ValueError.message : ValueError → String
  | mismatch expected found => s!"Found constant of type {found} where {expected} was expected"
  | unknownIdent name kind => s!"Identifier \"{name}\" of type {kind} is unknown"
  | unknownField element field kind =>
    s!"Default \"{element}.{field}\" of type {kind} is unknown"
  | illegalOperation operation kind => s!"{operation} of {kind} values not permitted"
  | divideByZero => "Cannot divide by zero"
  | overflow operation => s!"{operation} overflows an integer"
  | stringTooLong => "Strings of length >1 not supported where an integer is expected"
  | illegalChoice name expected => s!"Illegal identifier {name} (expected one of: {expected})"
  | unexpectedInMask found => s!"Unexpected {found} in mask expression"
  | unknownKeysym name => s!"\"{name}\" is not a valid keysym"
  | illegalTarget found => s!"Illegal left hand side of assignment ({found})"

/-- The numbers that a context gives to identifiers and to fields of elements. -/
abbrev Lookup := Option String → String → Option UInt32

namespace Lookup

/-- A context that knows no identifier. -/
def none : Lookup :=
  fun _ _ => .none

/-- A context that knows the names of a table. -/
def ofTable (table : List (String × UInt32)) : Lookup := fun element field =>
  if element.isSome then .none else Text.lookupName table field

/-- The names of the groups. -/
def groups : Lookup :=
  ofTable ((List.range 8).map fun index => (s!"group{index + 1}", (index + 1).toUInt32))

/-- The names of the shift levels. -/
def levels : Lookup :=
  ofTable ((List.range 8).map fun index => (s!"level{index + 1}", (index + 1).toUInt32))

/-- The digits of a radio group's name, behind the words that may stand in front. -/
def radioDigits (name : String) : String :=
  (["radiogroup", "group", "rg"].findSome? fun lead => Text.afterLead lead name).getD name

/-- The radio groups, by number or by a word and a number. -/
def radioGroups : Lookup := fun element field =>
  if element.isSome then .none
  else
    match Text.readDigits 10 32 (radioDigits (Text.foldCase field)).toList with
    | some number => if number = 0 then .none else some number.toUInt32
    | .none => .none

/-- The bit positions of the real modifiers. -/
def modifierIndexes : Lookup := fun element field =>
  if element.isSome then .none else (realModifierIndex field).map Nat.toUInt32

/-- The masks of the real modifiers, of all and of none. -/
def modifierMasks : Lookup := fun element field =>
  if element.isSome then .none
  else if Text.sameName field "all" then some 0xff
  else if Text.sameName field "none" then some 0
  else (realModifierIndex field).map bit32

/-- The number of an identifier or of a field of an element, or the error that it has none. -/
def resolve (lookup : Lookup) (element : Option String) (field kind : String) :
    Except ValueError UInt32 :=
  match lookup element field, element with
  | some value, _ => .ok value
  | .none, some element => .error (.unknownField element field kind)
  | .none, .none => .error (.unknownIdent field kind)

end Lookup

namespace Expr

/-- The truth value of an expression. -/
def toBoolean (lookup : Lookup) : Expr → Except ValueError Bool
  | boolean value => .ok value
  | ident name =>
    match Text.foldCase name with
    | "true" | "yes" | "on" => .ok true
    | "false" | "no" | "off" => .ok false
    | _ => (lookup.resolve none name "boolean").map (· != 0)
  | fieldRef element field => (lookup.resolve (some element) field "boolean").map (· != 0)
  | unary .not operand | unary .invert operand => (operand.toBoolean lookup).map (!·)
  | unary op _ => .error (.illegalOperation op.label "boolean")
  | binary op _ _ => .error (.illegalOperation op.label "boolean")
  | other => .error (.mismatch "boolean" other.kindName)

/-- The quotient of two integers, cut off toward zero. -/
def quotient (left right : Int64) : Except ValueError Int64 :=
  if right == 0 then .error .divideByZero
  else if left == Int64.minValue && right == -1 then .error (.overflow BinaryOp.divide.label)
  else .ok (left / right)

/-- The integer value of an expression; sums, differences and products wrap around. -/
def toInteger (lookup : Lookup) : Expr → Except ValueError Int64
  | integer value => .ok value
  | text value =>
    match value.toList with
    | [] => .ok 0
    | [c] => .ok (Int64.ofNat c.toNat)
    | _ => .error .stringTooLong
  | ident name => (lookup.resolve none name "int").map fun value => Int64.ofNat value.toNat
  | fieldRef element field =>
    (lookup.resolve (some element) field "int").map fun value => Int64.ofNat value.toNat
  | binary .assign _ _ => .error (.illegalOperation BinaryOp.assign.label "int")
  | binary .add left right => return (← left.toInteger lookup) + (← right.toInteger lookup)
  | binary .subtract left right => return (← left.toInteger lookup) - (← right.toInteger lookup)
  | binary .multiply left right => return (← left.toInteger lookup) * (← right.toInteger lookup)
  | binary .divide left right => do
    quotient (← left.toInteger lookup) (← right.toInteger lookup)
  | unary .negate operand => do
    let value ← operand.toInteger lookup
    if value == Int64.minValue then .error (.overflow UnaryOp.negate.label) else .ok (-value)
  | unary .invert operand => return ~~~(← operand.toInteger lookup)
  | unary .plus operand => operand.toInteger lookup
  | unary .not _ => .error (.illegalOperation UnaryOp.not.label "int")
  | other => .error (.mismatch "an int" other.kindName)

/-- The text of an expression, where a sum joins two texts. -/
def toText : Expr → Except ValueError String
  | text value => .ok value
  | binary .add left right => return (← left.toText) ++ (← right.toText)
  | binary op _ _ => .error (.illegalOperation op.label "string")
  | unary op _ => .error (.illegalOperation op.label "string")
  | ident name => .error (.unknownIdent name "string")
  | other => .error (.mismatch "string" other.kindName)

/-- The key name that an expression is. -/
def toKeyName : Expr → Except ValueError KeyName
  | keyName name => .ok name
  | ident name => .error (.unknownIdent name "key name")
  | other => .error (.mismatch "key name" other.kindName)

/-- What a table gives to the identifier that an expression is. -/
def toChoice {α : Type} (table : List (String × α)) : Expr → Except ValueError α
  | ident name =>
    match Text.lookupName table name with
    | some value => .ok value
    | none => .error (.illegalChoice name (", ".intercalate (table.map Prod.fst)))
  | other => .error (.mismatch "an enumerated value" other.kindName)

/-- The low word of an integer. -/
def wordOf (value : Int64) : UInt32 :=
  value.toUInt64.toUInt32

/-- The mask of an expression: a sum joins masks, a difference removes bits. -/
def toMask (lookup : Lookup) : Expr → Except ValueError UInt32
  | integer value => .ok (wordOf value)
  | ident name => lookup.resolve none name "int"
  | fieldRef element field => lookup.resolve (some element) field "int"
  | arrayRef .. => .error (.unexpectedInMask "array reference")
  | call .. => .error (.unexpectedInMask "action")
  | binary .add left right => return (← left.toMask lookup) ||| (← right.toMask lookup)
  | binary .subtract left right => return (← left.toMask lookup) &&& ~~~(← right.toMask lookup)
  | binary op _ _ => .error (.illegalOperation op.label "mask")
  | unary .invert operand => return ~~~(wordOf (← operand.toInteger lookup))
  | unary op _ => .error (.illegalOperation op.label "mask")
  | other => .error (.mismatch "mask" other.kindName)

/-- The mask of real modifiers that an expression denotes. -/
def toModMask (expr : Expr) : Except ValueError ModMask :=
  return ModMask.ofPacked (← expr.toMask Lookup.modifierMasks)

/-- The keysym of a number, where the numbers below ten are the digit keys. -/
def keysymOfInteger (value : Int64) : Keysym :=
  if 0 ≤ value && value < 10 then wordOf value + 0x30 else wordOf value

/-- The keysym of an expression that is no keysym name. -/
def numericKeysym (expr : Expr) : Except ValueError Keysym :=
  match expr.toInteger Lookup.none, expr with
  | .ok value, _ => .ok (keysymOfInteger value)
  | .error _, ident name => .error (.unknownKeysym name)
  | .error _, other => .error (.mismatch "keysym" other.kindName)

/-- The keysym that an expression denotes. -/
def toKeysym (expr : Expr) : Except ValueError Keysym :=
  match expr with
  | ident name =>
    match Keysym.lookup name with
    | some sym => .ok sym
    | none => expr.numericKeysym
  | _ => expr.numericKeysym

/-- The target that an expression denotes on the left of an assignment. -/
def toTarget : Expr → Except ValueError Target
  | ident name => .ok ⟨none, name, none⟩
  | fieldRef element field => .ok ⟨some element, field, none⟩
  | arrayRef element field index => .ok ⟨element, field, some index⟩
  | other => .error (.illegalTarget other.kindName)

end Expr

end Xkb
