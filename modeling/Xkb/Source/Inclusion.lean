import Xkb.Statement
import Xkb.Text.Blank
import Xkb.Text.Number

/-! The text of an include statement, such as `pc+us(intl):2|extra`, split into its terms. -/

namespace Xkb.Source

/-- Whether a character joins two terms. -/
def isTermOperator (c : Char) : Bool :=
  c == '+' || c == '|'

/-- The first piece of a text between operators, and each further one with its operator. -/
def splitTerms : List Char → List Char × List (Char × List Char)
  | [] => ([], [])
  | c :: rest =>
    let (piece, more) := splitTerms rest
    if isTermOperator c then ([], (c, piece) :: more) else (c :: piece, more)

/-- What stands before and behind the first occurrence of a character. -/
def splitAtFirst (mark : Char) (cs : List Char) : Option (List Char × List Char) :=
  match cs.dropWhile (· != mark) with
  | [] => none
  | _ :: rest => some (cs.takeWhile (· != mark), rest)

/-- What stands before and behind the last occurrence of a character. -/
def splitAtLast (mark : Char) (cs : List Char) : Option (List Char × List Char) :=
  (splitAtFirst mark cs.reverse).map fun (behind, before) => (before.reverse, behind.reverse)

/-- A text without the closing parenthesis at its end. -/
def dropClosing (cs : List Char) : Option (List Char) :=
  if cs.getLast? = some ')' then some cs.dropLast else none

/-- The number of a group. -/
def groupNumber (cs : List Char) : Option UInt32 :=
  (Text.readNumber 10 0xffffffff (Text.trim cs)).map Nat.toUInt32

/-- Splits off a group between parentheses that follows a map, as in `us(intl)(2)`. -/
def groupBehindMap (spec : List Char) : Option (List Char × UInt32) := do
  let (head, number) ← splitAtLast '(' (← dropClosing spec)
  guard (head.getLast? = some ')')
  return (head, ← groupNumber number)

/-- Splits off the group of a term; a colon has to be followed by a number. -/
def splitGroup (spec : List Char) : Option (List Char × Option UInt32) :=
  match splitAtFirst ':' spec with
  | some (spec, number) => (groupNumber number).map fun group => (spec, some group)
  | none =>
    match groupBehindMap spec with
    | some (spec, group) => some (spec, some group)
    | none => some (spec, none)

/-- Splits off the map of a term, which has no parentheses inside its own. -/
def splitMap (spec : List Char) : Option (List Char × Option (List Char)) :=
  match splitAtFirst '(' spec with
  | none => some (spec, none)
  | some (file, rest) => do
    let map ← dropClosing rest
    guard (!map.contains '(' && !map.contains ')')
    return (file, some map)

/-- Reads one term. -/
def includeTerm (merge : MergeMode) (spec : List Char) : Option IncludeTerm := do
  let (spec, group) ← splitGroup spec
  let (file, map) ← splitMap spec
  return {
    merge
    file := if file.isEmpty then none else some (String.ofList file)
    map := map.map String.ofList
    group }

/-- The mode that an operator asks for. -/
def operatorMode (operator : Char) : MergeMode :=
  if operator == '|' then .augment else .override

/-- Reads an include text; at most one of its terms may stand for the including section. -/
def includeStatement (merge : MergeMode) (text : String) : Option IncludeStatement := do
  let (first, more) := splitTerms text.toList
  let firstTerm ← includeTerm merge first
  let moreTerms ← more.mapM fun (operator, spec) => includeTerm (operatorMode operator) spec
  let terms := firstTerm :: moreTerms
  guard (terms.countP IncludeTerm.isSelf ≤ 1)
  return { merge, text, terms }

end Xkb.Source
