import Xkb.KeyName

/-! Expressions as they are written, before anything in them is looked up. -/

namespace Xkb

/-- The operators that stand between two expressions. -/
inductive BinaryOp where
  | add
  | subtract
  | multiply
  | divide
  | assign
deriving DecidableEq, Inhabited

/-- The operators that stand before an expression. -/
inductive UnaryOp where
  | negate
  | plus
  | not
  | invert
deriving DecidableEq, Inhabited

/-- How messages name an operator between two expressions. -/
def BinaryOp.label : BinaryOp → String
  | add => "Addition"
  | subtract => "Subtraction"
  | multiply => "Multiplication"
  | divide => "Division"
  | assign => "Assignment"

/-- How messages name an operator before an expression. -/
def UnaryOp.label : UnaryOp → String
  | negate => "Negation"
  | plus => "Unary plus"
  | not => "Logical not"
  | invert => "Bitwise inversion"

/-- An expression. -/
inductive Expr where
  | boolean (value : Bool)
  | integer (value : Int64)
  | text (value : String)
  | keyName (name : KeyName)
  | ident (name : String)
  /-- A field of an element, `element.field`. -/
  | fieldRef (element field : String)
  /-- A field with a subscript, `field[index]` or `element.field[index]`. -/
  | arrayRef (element : Option String) (field : String) (index : Expr)
  /-- A name with arguments, `Name(argument, field = value)`. -/
  | call (name : String) (args : List Expr)
  /-- A list of keysym names between brackets. -/
  | keysyms (names : List String)
  /-- A list of calls between brackets. -/
  | calls (list : List Expr)
  | binary (op : BinaryOp) (left right : Expr)
  | unary (op : UnaryOp) (operand : Expr)
deriving Inhabited

namespace Expr

/-- How messages name the kind of an expression. -/
def kindName : Expr → String
  | boolean _ => "boolean"
  | integer _ => "integer"
  | text _ => "string"
  | keyName _ => "key name"
  | ident _ => "identifier"
  | fieldRef .. => "field reference"
  | arrayRef .. => "array reference"
  | call .. => "action"
  | keysyms _ => "keysym list"
  | calls _ => "action list"
  | binary .. => "binary expression"
  | unary .. => "unary expression"

end Expr

/-- What an assignment sets: a field, perhaps of an element, perhaps with a subscript. -/
structure Target where
  element : Option String
  field : String
  index : Option Expr
deriving Inhabited

end Xkb
