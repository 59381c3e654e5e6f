import Xkb.Source.Declaration
import Xkb.Text.Lines

/-! The grammar of sections and whole source texts, with the errors a reader is shown. -/

namespace Xkb.Source

/-- Why a text cannot be read, with the text from that place on. -/
inductive Fault where
  | unexpected (rest : List Char)
  | illegalInclude (rest : List Char)
deriving DecidableEq, Inhabited

/-- A reader that says why a text does not fit. -/
abbrev Parse := StateT (List Char) (Except Fault)

/-- Reads what a reader finds, if it finds anything. -/
def attempt {α : Type} (reader : Scan α) : Parse (Option α) := fun cs =>
  match reader cs with
  | some (found, rest) => .ok (some found, rest)
  | none => .ok (none, cs)

/-- Reads one given character, which has to be there. -/
def expect (c : Char) : Parse Unit := fun cs =>
  match punct c cs with
  | some (_, rest) => .ok ((), rest)
  | none => .error (.unexpected (skip cs))

/-- Reads a statement, if there is one, behind the word that sets its mode. -/
def statement (limit : Nat) : Parse (Option (List Statement)) := fun cs =>
  match mergeWord cs with
  | none => attempt (declaration limit) cs
  | some (merge, rest) =>
    match stringLiteral rest with
    | some (text, left) =>
      match includeStatement merge text with
      | some included => .ok (some [.inclusion included], left)
      | none => .error (.illegalInclude (skip rest))
    | none =>
      if merge = .unspecified then .ok (none, cs)
      else
        match declaration limit rest with
        | some (found, left) => .ok (some (found.map (Statement.withMerge merge)), left)
        | none => .ok (none, cs)

/-- Reads statements up to the first text that is none, at most so many. -/
def statements (limit : Nat) : Nat → Parse (List Statement)
  | 0 => pure []
  | count + 1 => do
    match ← statement limit with
    | none => return []
    | some found => return found ++ (← statements limit count)

/-- Passes over a block whose inside is not read, so many braces deep. -/
def skipBlock : Nat → Nat → Parse Unit
  | 0, _ => fun cs => .error (.unexpected cs)
  | limit + 1, depth => fun cs =>
    match skip cs with
    | [] => .error (.unexpected [])
    | '"' :: rest =>
      match stringFrom 0 rest with
      | some (_, left) => skipBlock limit depth left
      | none => .error (.unexpected [])
    | '\x7b' :: rest => skipBlock limit (depth + 1) rest
    | '\x7d' :: rest => if depth ≤ 1 then .ok ((), rest) else skipBlock limit (depth - 1) rest
    | _ :: rest => skipBlock limit depth rest

/-- Reads a flag in front of a section. -/
def sectionFlag : Scan UInt16 := do
  let word ← ident
  match Text.lookupName sectionFlags word with
  | some flag => return flag
  | none => failure

/-- Reads the word that says the kind of a section. -/
def sectionKind : Parse SectionKind := fun cs =>
  match ident cs with
  | none => .error (.unexpected (skip cs))
  | some (word, rest) =>
    match SectionKind.ofKeyword (Text.foldCase word) with
    | some kind => .ok (kind, rest)
    | none => .error (.unexpected cs)

/-- Reads the parts of a composite section up to its closing brace. -/
def parts (part : Parse Section) : Nat → Parse (List Section)
  | 0 => fun cs => .error (.unexpected cs)
  | limit + 1 => do
    match ← attempt (punct '\x7d') with
    | some () => return []
    | none => return (← part) :: (← parts part limit)

/-- Reads a section. -/
def readSection : Nat → Parse Section
  | 0 => fun cs => .error (.unexpected cs)
  | limit + 1 => do
    let flags := (← attempt (many sectionFlag limit)).getD []
    let kind ← sectionKind
    let name := (← attempt stringLiteral).getD ""
    expect '\x7b'
    let header : Section := ⟨kind, name, flags.foldl (· ||| ·) 0, [], []⟩
    let found ←
      if kind.isComposite then
        pure { header with parts := ← parts (readSection limit) limit }
      else if kind = .geometry then do
        skipBlock limit 1
        pure header
      else do
        let found ← statements limit limit
        expect '\x7d'
        pure { header with statements := found }
    let _ ← attempt (punct ';')
    return found

/-- Reads sections up to the end of the text. -/
def sections : Nat → List Char → Except Fault (List Section)
  | 0, cs => .error (.unexpected cs)
  | limit + 1, cs =>
    match skip cs with
    | [] => .ok []
    | c :: rest => do
      let (found, left) ← readSection (limit + 1) (c :: rest)
      return found :: (← sections limit left)

end Xkb.Source

namespace Xkb

/-- Why a source text cannot be read. -/
inductive ParseError where
  /-- The text on a line fits no rule of the grammar. -/
  | unexpected (line : Nat) (found : String)
  /-- The text ends too early. -/
  | unexpectedEnd (line : Nat)
  /-- The text of an include statement cannot be split into terms. -/
  | illegalInclude (line : Nat) (text : String)
deriving DecidableEq, Inhabited

/-- The words of a parse error. -/
def ParseError.message : ParseError → String
  | unexpected line found =>
    s!"Parse error on line {line}: unexpected " ++ "`" ++ found ++ "`"
  | unexpectedEnd line => s!"Parse error on line {line}: unexpected end of input"
  | illegalInclude line text => s!"Illegal include statement \"{text}\" on line {line}"

namespace Source

/-- The number of the line on which the rest of a text starts. -/
def lineOf (text rest : List Char) : Nat :=
  Text.lineFeeds text - Text.lineFeeds rest + 1

/-- The start of the first line of a text, short enough for a message. -/
def snippet (cs : List Char) : String :=
  String.ofList (Text.trimEnd (((Text.linesFrom [] cs).headD []).take 24))

/-- What a reader is told of a fault in a text. -/
def Fault.explain (text : List Char) : Fault → ParseError
  | .illegalInclude rest =>
    .illegalInclude (lineOf text rest) (((stringBody rest).map Prod.fst).getD "")
  | .unexpected rest =>
    match skip rest with
    | [] => .unexpectedEnd (lineOf text rest)
    | found => .unexpected (lineOf text rest) (snippet found)

/-- The sections of a source text. -/
def parse (text : String) : Except ParseError (List Section) :=
  match sections (text.toList.length + 1) text.toList with
  | .ok found => .ok found
  | .error fault => .error (fault.explain text.toList)

end Source

end Xkb
