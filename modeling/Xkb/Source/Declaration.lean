import Xkb.Source.Expression
import Xkb.Source.Inclusion

/-! The grammar of statements. -/

namespace Xkb.Source

/-- An assignment without a mode of its own. -/
def assign (target value : Expr) : Assignment :=
  ⟨.unspecified, some target, some value⟩

/-- Reads a target and its value, which is true where none is written. -/
def valueOf (limit : Nat) : Scan Assignment := do
  let name ← target limit
  let value ← optional (punct '=' *> expression limit)
  return assign name (value.getD (.boolean true))

/-- Reads a target that is set to false. -/
def negated (limit : Nat) : Scan Assignment := do
  punct '!'
  return assign (← target limit) (.boolean false)

/-- Reads an assignment up to its semicolon. -/
def assignment (limit : Nat) : Scan Assignment :=
  (negated limit <* punct ';') <|> (valueOf limit <* punct ';')

/-- Reads a body of assignments. -/
def body (limit : Nat) : Scan (List Assignment) :=
  enclosed '\x7b' '\x7d' (many (assignment limit) limit) <* punct ';'

/-- Reads one entry of a key's body. -/
def keyEntry (limit : Nat) : Scan Assignment :=
  (fun list => ⟨.unspecified, none, some list⟩) <$> bracketList (expression limit) limit
    <|> negated limit
    <|> valueOf limit

/-- Reads the code of a key. -/
def keycodeStatement : Scan (List Statement) := do
  let name ← keyName
  punct '='
  let value ← integer
  punct ';'
  return [.keycode .unspecified name value]

/-- Reads a further name of a key. -/
def aliasStatement : Scan (List Statement) := do
  keyword "alias"
  let name ← keyName
  punct '='
  let real ← keyName
  punct ';'
  return [.keyAlias .unspecified name real]

/-- Reads one virtual modifier and what it is bound to. -/
def virtualModifier (limit : Nat) : Scan Statement := do
  let name ← ident
  let value ← optional (punct '=' *> expression limit)
  return .virtualModifier .unspecified name value

/-- Reads virtual modifiers, which become a statement each. -/
def virtualModifiersStatement (limit : Nat) : Scan (List Statement) := do
  keyword "virtual_modifiers"
  let modifiers ← separatedSome (virtualModifier limit) limit
  punct ';'
  return modifiers

/-- Reads an interpretation of a keysym. -/
def interpretationStatement (limit : Nat) : Scan (List Statement) := do
  keyword "interpret"
  let name ← keysym
  let predicate ← optional (punct '+' *> expression limit)
  return [.interpretation .unspecified name predicate (← body limit)]

/-- Reads a key type. -/
def typeStatement (limit : Nat) : Scan (List Statement) := do
  keyword "type"
  let name ← stringLiteral
  return [.keyType .unspecified name (← body limit)]

/-- Reads the symbols of a key. -/
def keyStatement (limit : Nat) : Scan (List Statement) := do
  keyword "key"
  let name ← keyName
  let entries ← enclosed '\x7b' '\x7d' (commaList (keyEntry limit) limit)
  punct ';'
  return [.keySymbols .unspecified name entries]

/-- Reads the keys of a modifier. -/
def modifierMapStatement (limit : Nat) : Scan (List Statement) := do
  keyword "modifier_map" <|> keyword "mod_map" <|> keyword "modmap"
  let modifier ← ident
  let keys ← enclosed '\x7b' '\x7d' (commaList (expression limit) limit)
  punct ';'
  return [.modifierMap .unspecified modifier keys]

/-- Reads the compatibility mask of a group. -/
def groupStatement (limit : Nat) : Scan (List Statement) := do
  keyword "group"
  let group ← integer
  punct '='
  let value ← expression limit
  punct ';'
  return [.groupMask .unspecified group value]

/-- Reads an indicator map. -/
def indicatorMapStatement (limit : Nat) : Scan (List Statement) := do
  keyword "indicator"
  let name ← stringLiteral
  return [.indicatorMap .unspecified name (← body limit)]

/-- Reads the name of an indicator. -/
def indicatorNameStatement (limit : Nat) : Scan (List Statement) := do
  let isVirtual ← optional (keyword "virtual")
  keyword "indicator"
  let index ← integer
  punct '='
  let name ← expression limit
  punct ';'
  return [.indicatorName .unspecified index name isVirtual.isSome]

/-- Reads a statement other than an include statement, without its mode. -/
def declaration (limit : Nat) : Scan (List Statement) :=
  keycodeStatement
    <|> aliasStatement
    <|> virtualModifiersStatement limit
    <|> interpretationStatement limit
    <|> typeStatement limit
    <|> keyStatement limit
    <|> modifierMapStatement limit
    <|> groupStatement limit
    <|> indicatorMapStatement limit
    <|> indicatorNameStatement limit
    <|> (fun assigned => [.assignment assigned]) <$> assignment limit

/-- Reads the word in front of a statement that sets its mode. -/
def mergeWord : Scan MergeMode :=
  (keyword "include" *> pure .unspecified)
    <|> (keyword "augment" *> pure .augment)
    <|> (keyword "override" *> pure .override)
    <|> (keyword "replace" *> pure .replace)
    <|> (keyword "alternate" *> pure .alternate)

end Xkb.Source
