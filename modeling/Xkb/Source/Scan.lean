/-! Readers of a source text, and the blanks and comments that stand between its tokens. -/

namespace Xkb.Source

/-- A reader: what it found and the text it left, or nothing where the text does not fit. -/
abbrev Scan := StateT (List Char) Option

/-- Whether a character separates tokens and is none itself. -/
def isSpace (c : Char) : Bool :=
  c == ' ' || c == '\t' || c == '\r' || c == '\n'

/-- The length of a comment that ends with its line; a lone carriage return spoils it. -/
def lineCommentLength : List Char → Option Nat
  | [] => some 0
  | '\n' :: _ => some 0
  | '\r' :: '\n' :: _ => some 0
  | '\r' :: _ => none
  | _ :: rest => (lineCommentLength rest).map (· + 1)

/-- The length of a comment up to the mark that closes it, with the mark. -/
def blockCommentLength : List Char → Option Nat
  | [] => none
  | '*' :: '/' :: _ => some 2
  | _ :: rest => (blockCommentLength rest).map (· + 1)

/-- The length of the comment that a text starts with, less its first character. -/
def commentTail : List Char → Option Nat
  | '#' :: rest => lineCommentLength rest
  | '/' :: '/' :: rest => (lineCommentLength rest).map (· + 1)
  | '/' :: '*' :: rest => (blockCommentLength rest).map (· + 1)
  | _ => none

/-- What is left of a text after so many characters and the blanks and comments behind them. -/
def skipFrom : Nat → List Char → List Char
  | _, [] => []
  | pending + 1, _ :: rest => skipFrom pending rest
  | 0, c :: rest =>
    if isSpace c then skipFrom 0 rest
    else
      match commentTail (c :: rest) with
      | some length => skipFrom length rest
      | none => c :: rest

/-- What is left of a text after the blanks and comments it starts with. -/
def skip (cs : List Char) : List Char :=
  skipFrom 0 cs

/-- Reads items up to the first that does not fit, at most so many. -/
def many {α : Type} (item : Scan α) : Nat → Scan (List α)
  | 0 => pure []
  | limit + 1 => do
    match ← optional item with
    | none => pure []
    | some first => return first :: (← many item limit)

end Xkb.Source
