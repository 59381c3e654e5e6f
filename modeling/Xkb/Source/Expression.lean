import Xkb.Expr
import Xkb.Source.Token

/-! The grammar of expressions.

An assignment binds loosest and to the right, then come sums, products and the operators in front
of an operand. Every reader takes a limit on how deep and how often it repeats; the length of the
text is always enough. -/

namespace Xkb.Source

/-- Reads one or more items with commas between them. -/
def separatedSome {α : Type} (item : Scan α) (limit : Nat) : Scan (List α) := do
  let first ← item
  return first :: (← many (punct ',' *> item) limit)

/-- Reads items with commas between them. -/
def separated {α : Type} (item : Scan α) (limit : Nat) : Scan (List α) :=
  separatedSome item limit <|> pure []

/-- Reads items with commas between them and perhaps one behind the last. -/
def commaList {α : Type} (item : Scan α) (limit : Nat) : Scan (List α) := do
  let items ← separated item limit
  let _ ← optional (punct ',')
  return items

/-- Reads what stands between two given characters. -/
def enclosed {α : Type} (opening closing : Char) (content : Scan α) : Scan α := do
  punct opening
  let found ← content
  punct closing
  return found

/-- Reads further operands with their operators, each joined to all that is left of it. -/
def chain (operator : Scan BinaryOp) (operand : Scan Expr) : Nat → Expr → Scan Expr
  | 0, _ => failure
  | limit + 1, left => do
    match ← optional operator with
    | none => pure left
    | some op => chain operator operand limit (.binary op left (← operand))

/-- Reads the arguments of a call. -/
def arguments (expr : Scan Expr) (limit : Nat) : Scan (List Expr) :=
  enclosed '(' ')' (commaList expr limit)

/-- Reads a call. -/
def call (expr : Scan Expr) (limit : Nat) : Scan Expr := do
  let name ← ident
  return .call name (← arguments expr limit)

/-- Reads a list between brackets, of calls if it starts with one and of keysyms otherwise. -/
def bracketList (expr : Scan Expr) (limit : Nat) : Scan Expr :=
  enclosed '[' ']'
    (.calls <$> separatedSome (call expr limit) limit <|> .keysyms <$> separated keysym limit)

/-- Reads the field and the subscript that may follow a name. -/
def targetTail (expr : Scan Expr) (name : String) : Scan Expr := do
  let field ← optional (punct '.' *> ident)
  let index ← optional (enclosed '[' ']' expr)
  return match field, index with
    | none, none => .ident name
    | some field, none => .fieldRef name field
    | none, some index => .arrayRef none name index
    | some field, some index => .arrayRef (some name) field index

/-- Reads a call, an identifier or a field. -/
def reference (expr : Scan Expr) (limit : Nat) : Scan Expr := do
  let name ← ident
  match ← optional (arguments expr limit) with
  | some args => return .call name args
  | none => targetTail expr name

/-- Reads an operand without operators. -/
def primary (expr : Scan Expr) (limit : Nat) : Scan Expr :=
  enclosed '(' ')' expr
    <|> .text <$> stringLiteral
    <|> .keyName <$> keyName
    <|> .integer <$> integer
    <|> bracketList expr limit
    <|> reference expr limit

/-- Reads an operator that stands in front of an operand. -/
def unaryOperator : Scan UnaryOp :=
  (punct '-' *> pure .negate)
    <|> (punct '+' *> pure .plus)
    <|> (punct '!' *> pure .not)
    <|> (punct '~' *> pure .invert)

/-- Reads an operand behind any number of operators. -/
def unary (expr : Scan Expr) (limit : Nat) : Scan Expr := do
  let operators ← many unaryOperator limit
  let operand ← primary expr limit
  return operators.foldr .unary operand

/-- Reads a product or quotient. -/
def product (expr : Scan Expr) (limit : Nat) : Scan Expr := do
  let first ← unary expr limit
  let operator := (punct '*' *> pure .multiply) <|> (punct '/' *> pure .divide)
  chain operator (unary expr limit) limit first

/-- Reads a sum or difference. -/
def sum (expr : Scan Expr) (limit : Nat) : Scan Expr := do
  let first ← product expr limit
  let operator := (punct '+' *> pure .add) <|> (punct '-' *> pure .subtract)
  chain operator (product expr limit) limit first

/-- Reads an expression. -/
def expression : Nat → Scan Expr
  | 0 => failure
  | limit + 1 => do
    let left ← sum (expression limit) limit
    match ← optional (punct '=') with
    | none => return left
    | some () => return .binary .assign left (← expression limit)

/-- Reads what an assignment sets. -/
def target (limit : Nat) : Scan Expr := do
  targetTail (expression limit) (← ident)

end Xkb.Source
