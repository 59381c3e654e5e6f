/-! A text as the list of its lines. -/

namespace Xkb.Text

/-- A line without the carriage return that stood before its line feed. -/
def dropReturn (line : List Char) : List Char :=
  match line.reverse with
  | '\r' :: rest => rest.reverse
  | _ => line

/-- The lines from here on, `line` being what is read of the current one, last character first. -/
def linesFrom (line : List Char) : List Char → List (List Char)
  | [] => if line.isEmpty then [] else [line.reverse]
  | '\n' :: rest => dropReturn line.reverse :: linesFrom [] rest
  | c :: rest => linesFrom (c :: line) rest

/-- The lines of a text; a final line feed opens no further line. -/
def lines (text : String) : List String :=
  (linesFrom [] text.toList).map String.ofList

/-- The number of line feeds. -/
def lineFeeds (cs : List Char) : Nat :=
  cs.count '\n'

/-- Whether a text occurs within another. -/
def occurs (part : List Char) : List Char → Bool
  | [] => part.isEmpty
  | c :: rest => part.isPrefixOf (c :: rest) || occurs part rest

end Xkb.Text
