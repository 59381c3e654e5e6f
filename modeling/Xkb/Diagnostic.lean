import Xkb.Text.Lines

/-! What a compile reports: notes, warnings and errors, with what was done about them. -/

namespace Xkb

/-- How grave a report is. -/
inductive Severity where
  | info
  | warning
  | error
deriving DecidableEq, Inhabited

/-- How a report is headed. -/
def Severity.label : Severity → String
  | info => "Info:"
  | warning => "Warning:"
  | error => "Error:"

/-- The terminal code that colours the heading of a report. -/
def Severity.colour : Severity → String
  | info => "36"
  | warning => "1;33"
  | error => "1;31"

/-- A report: what was found, and what was done about it, in one or several lines. -/
structure Diagnostic where
  severity : Severity
  message : String
  action : Option String
deriving DecidableEq, Inhabited

namespace Diagnostic

/-- The report that a message and the lines on what was done make. -/
def ofLines (severity : Severity) (message : String) (actions : List String) : Diagnostic :=
  ⟨severity, message, if actions.isEmpty then none else some ("\n".intercalate actions)⟩

/-- The lines on what was done. -/
def actionLines (diagnostic : Diagnostic) : List String :=
  match diagnostic.action with
  | some action => Text.lines action
  | none => []

/-- The margin of a line on what was done. -/
def margin : String :=
  "\n          "

/-- A text with spaces behind it up to a width. -/
def padded (width : Nat) (text : String) : String :=
  text.pushn ' ' (width - text.length)

/-- A report as plain text, its message starting in a fixed column. -/
def text (diagnostic : Diagnostic) : String :=
  padded 9 diagnostic.severity.label ++ " " ++ diagnostic.message
    ++ String.join (diagnostic.actionLines.map (margin ++ ·))

/-- A text between the terminal codes of a colour, where colours are on. -/
def painted (colours : Bool) (colour text : String) : String :=
  if colours then "\x1b[" ++ colour ++ "m" ++ text ++ "\x1b[0m" else text

/-- A report for a terminal, with an arrow before each line on what was done. -/
def render (colours : Bool) (diagnostic : Diagnostic) : String :=
  painted colours diagnostic.severity.colour diagnostic.severity.label ++ " " ++ diagnostic.message
    ++ String.join
      (diagnostic.actionLines.map fun line => margin ++ painted colours "36" "→" ++ " " ++ line)

end Diagnostic

/-- The reports of a compile, and the level that says which warnings are wanted. -/
structure Diagnostics where
  level : Nat
  records : List Diagnostic
  /-- What has been reported and is not to be reported again. -/
  noticed : List String
deriving DecidableEq, Inhabited

namespace Diagnostics

/-- No reports yet, at a level from 0 (quiet) to 10 (everything). -/
def atLevel (level : Nat) : Diagnostics :=
  ⟨level, [], []⟩

/-- The reports with one more at the end. -/
def push (diagnostics : Diagnostics) (diagnostic : Diagnostic) : Diagnostics :=
  { diagnostics with records := diagnostics.records ++ [diagnostic] }

/-- The number of reports of a severity. -/
def count (diagnostics : Diagnostics) (severity : Severity) : Nat :=
  diagnostics.records.countP (·.severity == severity)

/-- Whether an error was reported. -/
def hasErrors (diagnostics : Diagnostics) : Bool :=
  diagnostics.records.any (·.severity == .error)

/-- Whether the message of a report holds a text. -/
def mentions (diagnostics : Diagnostics) (text : String) : Bool :=
  diagnostics.records.any fun record => Text.occurs text.toList record.message.toList

end Diagnostics

/-- A computation that reports. -/
abbrev Report := StateM Diagnostics

namespace Report

/-- The level that says which warnings are wanted. -/
def level : Report Nat :=
  return (← get).level

/-- Reports an error with the lines on what was done about it. -/
def error (message : String) (actions : List String) : Report Unit :=
  modify (·.push (.ofLines .error message actions))

/-- Reports a warning with the lines on what was done about it. -/
def warn (message : String) (actions : List String) : Report Unit :=
  modify (·.push (.ofLines .warning message actions))

/-- Reports a note. -/
def info (message : String) : Report Unit :=
  modify (·.push (.ofLines .info message []))

/-- Whether something comes up for the first time. -/
def firstTime (key : String) : Report Bool := do
  let diagnostics ← get
  if diagnostics.noticed.contains key then return false
  set { diagnostics with noticed := key :: diagnostics.noticed }
  return true

end Report

end Xkb
