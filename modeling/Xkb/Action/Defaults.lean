import Xkb.Action.Field

/-! Actions as they are written: a call, on top of the defaults set before it. -/

namespace Xkb

/-- A field value that actions start out with. -/
structure ActionDefault where
  /-- The kind of action it applies to, or every kind. -/
  kind : Option ActionKind
  field : ActionField
  index : Option Expr
  value : Expr

/-- The field values that actions start out with, in the order they were set. -/
structure ActionDefaults where
  entries : List ActionDefault
deriving Inhabited

namespace ActionDefaults

/-- No defaults. -/
def empty : ActionDefaults :=
  ⟨[]⟩

/-- The kind of action that a default is set for, `action` standing for all of them. -/
def readKind (element field : String) : Except ActionError (Option ActionKind) :=
  if Text.sameName element "action" then .ok none
  else
    match ActionKind.ofName element with
    | none => .error (.unknownAction element)
    | some .noAction => .error (.noActionField field)
    | some kind => .ok (some kind)

/-- The field that a name stands for. -/
def readField (name : String) : Except ActionError ActionField :=
  match ActionField.ofName name with
  | some field => .ok field
  | none => .error (.unknownField name)

/-- The defaults with one more; its value is looked at when an action is made. -/
def set (defaults : ActionDefaults) (element field : String) (index : Option Expr) (value : Expr) :
    Except ActionError ActionDefaults := do
  let kind ← readKind element field
  let field ← readField field
  return ⟨defaults.entries ++ [⟨kind, field, index, value⟩]⟩

/-- The defaults that apply to a kind of action. -/
def entriesFor (defaults : ActionDefaults) (kind : ActionKind) : List ActionDefault :=
  if kind == .noAction then []
  else defaults.entries.filter fun entry => entry.kind == none || entry.kind == some kind

/-- What an argument of a call sets and to what value; one without a value is true, or false
behind a negation. -/
def argument : Expr → Expr × Expr
  | .binary .assign target value => (target, value)
  | .unary .not target | .unary .invert target => (target, .boolean false)
  | target => (target, .boolean true)

/-- The action with the field set that an argument of a call sets. -/
def applyArgument (scope : Scope) (action : Action) (arg : Expr) :
    Except ActionError Action := do
  let (target, value) := argument arg
  let target ← target.toTarget.mapError ActionError.badTarget
  if let some element := target.element then
    throw (.defaultsInDefinition element target.field)
  action.assign scope (← readField target.field) target.index value

/-- The action that a call denotes: the defaults in order, then the arguments in order. -/
def resolve (defaults : ActionDefaults) (scope : Scope) (expr : Expr) :
    Except ActionError Action := do
  match expr with
  | .call name args =>
    match ActionKind.ofName name with
    | none => throw (.unknownAction name)
    | some kind =>
      let start ← (defaults.entriesFor kind).foldlM
        (fun action entry => action.assign scope entry.field entry.index entry.value)
        (Action.ofKind kind)
      args.foldlM (applyArgument scope) start
  | other => throw (.notAnAction other.kindName)

end ActionDefaults

end Xkb
