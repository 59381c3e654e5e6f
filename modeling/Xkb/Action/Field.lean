import Xkb.Action.Basic
import Xkb.Control
import Xkb.Scope

/-! Setting the fields of actions: which fields a kind of action has and what values they take. -/

namespace Xkb

/-- Why an action cannot be made. -/
inductive ActionError where
  | notAnAction (found : String)
  | unknownAction (name : String)
  | unknownField (name : String)
  | noActionField (field : String)
  | defaultsInDefinition (element field : String)
  | illegalField (kind : ActionKind) (field : ActionField)
  | notArray (kind : ActionKind) (field : ActionField)
  | mismatch (kind : ActionKind) (field : ActionField) (expected : String)
  | outOfRange (rule : String)
  | keyNotFound (kind : ActionKind) (field : ActionField) (name : KeyName)
  | unsupported (kind : ActionKind)
  | badTarget (cause : ValueError)
deriving DecidableEq, Inhabited

/-- The words of an error about an action. -/
def ActionError.message : ActionError → String
  | notAnAction found => s!"Expected an action definition, found {found}"
  | unknownAction name => s!"Unknown action {name}"
  | unknownField name => s!"Unknown field name {name}"
  | noActionField field => s!"\"{field}\" is not a valid field in a NoAction action"
  | defaultsInDefinition element field =>
    "Cannot change defaults in an action definition "
      ++ s!"(ignoring attempt to change {element}.{field})"
  | illegalField kind field =>
    s!"Field {field.name} is not defined for an action of type {kind.name}"
  | notArray kind field => s!"The {field.name} field in the {kind.name} action is not an array"
  | mismatch kind field expected =>
    s!"Value of {field.name} field must be of type {expected} "
      ++ s!"(action {kind.name} definition ignored)"
  | outOfRange rule => rule
  | keyNotFound kind field name =>
    s!"Key named {name.label} not found "
      ++ s!"(ignoring the {field.name} field of a {kind.name} action)"
  | unsupported kind => s!"{kind.name} actions are not supported"
  | badTarget cause => cause.message

/-- A value split from the sign in front of it: an index without a sign, an offset with one. -/
structure SignedOperand where
  absolute : Bool
  negative : Bool
  operand : Expr

/-- The sign in front of a value, which makes it an offset. -/
def SignedOperand.ofExpr : Expr → SignedOperand
  | .unary .negate operand => ⟨false, true, operand⟩
  | .unary .plus operand => ⟨false, false, operand⟩
  | operand => ⟨true, false, operand⟩

/-- A number with the sign of an operand. -/
def SignedOperand.signed (operand : SignedOperand) (number : Int64) : Int32 :=
  (if operand.negative then -number else number).toInt32

namespace Action

/-- What the `affect` field of a lock may be. -/
def lockNames : List (String × UInt8) :=
  [("both", 0), ("lock", ActionFlag.noUnlock), ("neither", ActionFlag.lockMask),
    ("unlock", ActionFlag.noLock)]

/-- The names of the pointer buttons. -/
def buttonNames : List (String × UInt32) :=
  [("button1", 1), ("button2", 2), ("button3", 3), ("button4", 4), ("button5", 5), ("default", 0)]

/-- The names of the pointer's defaults. -/
def pointerDefaultNames : List (String × UInt8) :=
  [("dfltbtn", ActionFlag.defaultButton), ("defaultbutton", ActionFlag.defaultButton),
    ("button", ActionFlag.defaultButton)]

/-- What an ISO lock can act on. -/
def isoNames : List (String × UInt32) :=
  [("mods", ActionFlag.isoKeepMods.toUInt32), ("modifiers", ActionFlag.isoKeepMods.toUInt32),
    ("group", ActionFlag.isoKeepGroup.toUInt32), ("groups", ActionFlag.isoKeepGroup.toUInt32),
    ("ptr", ActionFlag.isoKeepPointer.toUInt32), ("pointer", ActionFlag.isoKeepPointer.toUInt32),
    ("ctrls", ActionFlag.isoKeepControls.toUInt32),
    ("controls", ActionFlag.isoKeepControls.toUInt32),
    ("all", ActionFlag.isoKeepMask.toUInt32), ("none", 0)]

/-- The key events that a message can be sent on. -/
def eventNames : List (String × UInt32) :=
  [("press", ActionFlag.messageOnPress.toUInt32), ("keypress", ActionFlag.messageOnPress.toUInt32),
    ("release", ActionFlag.messageOnRelease.toUInt32),
    ("keyrelease", ActionFlag.messageOnRelease.toUInt32),
    ("all", (ActionFlag.messageOnPress ||| ActionFlag.messageOnRelease).toUInt32), ("none", 0)]

/-- The value that an expression was read as, or the error that a field needs another type. -/
def expecting {α : Type} (kind : ActionKind) (field : ActionField) (expected : String)
    (read : Except ValueError α) : Except ActionError α :=
  read.mapError fun _ => .mismatch kind field expected

/-- A truth value for a field. -/
def readFlag (kind : ActionKind) (field : ActionField) (value : Expr) : Except ActionError Bool :=
  expecting kind field "boolean" (value.toBoolean Lookup.none)

/-- A number for a field, from 0 up to a largest one. -/
def readNumber (kind : ActionKind) (field : ActionField) (lookup : Lookup) (largest : Int64)
    (rule : String) (value : Expr) : Except ActionError Int64 := do
  let number ← expecting kind field "integer" (value.toInteger lookup)
  if 0 ≤ number && number ≤ largest then return number
  throw (.outOfRange (rule ++ s!" (got {number.toInt})"))

/-- A byte for a field, up to a largest one. -/
def readByte (kind : ActionKind) (field : ActionField) (lookup : Lookup) (largest : Int64)
    (rule : String) (value : Expr) : Except ActionError UInt8 :=
  return (← readNumber kind field lookup largest rule value).toUInt64.toUInt8

/-- The flags with the bit of `clearLocks` or `latchToLock` set as a value says. -/
def readLatchFlags (kind : ActionKind) (field : ActionField) (flags : UInt8) (value : Expr) :
    Except ActionError UInt8 := do
  let on ← readFlag kind field value
  let bit := if field == .clearLocks then ActionFlag.clearLocks else ActionFlag.latchToLock
  return switch8 flags bit on

/-- Whether a value asks for the modifiers of the key's modifier map. -/
def asksForModMap : Expr → Bool
  | .ident name => Text.sameName name "usemodmapmods" || Text.sameName name "modmapmods"
  | _ => false

/-- The flags and the modifiers that a value of the `modifiers` field gives. -/
def readModifiers (scope : Scope) (kind : ActionKind) (flags : UInt8) (value : Expr) :
    Except ActionError (UInt8 × ModMask) := do
  if asksForModMap value then return (flags ||| ActionFlag.modMapMods, .empty)
  let mask ← expecting kind .modifiers "modifier mask" (scope.modifiers.maskOf value)
  return (flags &&& ~~~ActionFlag.modMapMods, mask)

/-- The flags and the group that a value of the `group` field gives. -/
def readGroup (kind : ActionKind) (flags : UInt8) (value : Expr) :
    Except ActionError (UInt8 × Int32) := do
  let signed := SignedOperand.ofExpr value
  let group ← expecting kind .group "integer (range 1..8)" (signed.operand.toInteger Lookup.groups)
  unless 1 ≤ group && group ≤ 4 do
    throw (.outOfRange s!"Illegal group {group.toInt} (must be in the range 1..4)")
  return (switch8 flags ActionFlag.groupAbsolute signed.absolute,
    if signed.absolute then (group - 1).toInt32 else signed.signed group)

/-- The flags with the bits that a value of a lock's `affect` field gives. -/
def readLock (kind : ActionKind) (flags : UInt8) (value : Expr) : Except ActionError UInt8 := do
  let bits ← expecting kind .affect "lock or unlock" (value.toChoice lockNames)
  return (flags &&& ~~~ActionFlag.lockMask) ||| bits

/-- The bytes with those of a text, cut off or filled up with zeros, or with one byte at a
subscript set. -/
def readData {n : Nat} (kind : ActionKind) (data : Vector UInt8 n) (index : Option Expr)
    (value : Expr) : Except ActionError (Vector UInt8 n) := do
  match index with
  | .none =>
    let text ← expecting kind .data "string" value.toText
    let bytes := text.toList.flatMap String.utf8EncodeChar
    return Vector.ofFn fun position => bytes.getD position.val 0
  | some index =>
    let position ← expecting kind .data "integer" (index.toInteger Lookup.none)
    unless 0 ≤ position && position < Int64.ofNat n do
      throw (.outOfRange
        s!"Array subscript must be in the range 0..{n - 1} (got {position.toInt})")
    let byte ← readByte kind .data Lookup.none 255 "Data must be in the range 0..255" value
    return data.setIfInBounds position.toInt.toNat byte

/-- Sets a field of an action that sets or latches modifiers. -/
def assignMods (scope : Scope) (kind : ActionKind) (act : ModAction) (field : ActionField)
    (value : Expr) : Except ActionError ModAction := do
  match field with
  | .clearLocks | .latchToLock =>
    return { act with flags := ← readLatchFlags kind field act.flags value }
  | .modifiers =>
    let (flags, mods) ← readModifiers scope kind act.flags value
    return { act with flags, mods }
  | _ => throw (.illegalField kind field)

/-- Sets a field of an action that locks modifiers. -/
def assignLockMods (scope : Scope) (kind : ActionKind) (act : ModAction)
    (field : ActionField) (value : Expr) : Except ActionError ModAction := do
  match field with
  | .affect => return { act with flags := ← readLock kind act.flags value }
  | .modifiers =>
    let (flags, mods) ← readModifiers scope kind act.flags value
    return { act with flags, mods }
  | _ => throw (.illegalField kind field)

/-- Sets a field of an action that sets or latches the group. -/
def assignGroup (kind : ActionKind) (act : GroupAction) (field : ActionField) (value : Expr) :
    Except ActionError GroupAction := do
  match field with
  | .clearLocks | .latchToLock =>
    return { act with flags := ← readLatchFlags kind field act.flags value }
  | .group =>
    let (flags, group) ← readGroup kind act.flags value
    return { act with flags, group }
  | _ => throw (.illegalField kind field)

/-- Sets a field of an action that locks the group. -/
def assignLockGroup (kind : ActionKind) (act : GroupAction) (field : ActionField) (value : Expr) :
    Except ActionError GroupAction := do
  match field with
  | .group =>
    let (flags, group) ← readGroup kind act.flags value
    return { act with flags, group }
  | _ => throw (.illegalField kind field)

/-- Sets a field of an action that moves the pointer. -/
def assignMove (kind : ActionKind) (act : MoveAction) (field : ActionField) (value : Expr) :
    Except ActionError MoveAction := do
  let absolute := (SignedOperand.ofExpr value).absolute
  match field with
  | .x =>
    let x ← expecting kind field "integer" (value.toInteger Lookup.none)
    return { act with x := x.toInt32, flags := switch8 act.flags ActionFlag.absoluteX absolute }
  | .y =>
    let y ← expecting kind field "integer" (value.toInteger Lookup.none)
    return { act with y := y.toInt32, flags := switch8 act.flags ActionFlag.absoluteY absolute }
  | .accel =>
    let on ← readFlag kind field value
    return { act with flags := switch8 act.flags ActionFlag.noAcceleration (!on) }
  | _ => throw (.illegalField kind field)

/-- The rule for the `count` field of a button. -/
def countRule : String :=
  "The count field must have a value in the range 0..255"

/-- Sets a field of an action on a pointer button, which may be a lock. -/
def assignButton (kind : ActionKind) (act : ButtonAction) (field : ActionField) (value : Expr) :
    Except ActionError ButtonAction := do
  match field with
  | .button =>
    let rule := "Button must specify default or be in the range 1..5"
    return { act with button := ← readByte kind field (Lookup.ofTable buttonNames) 5 rule value }
  | .count =>
    let lookup := Lookup.ofTable buttonNames
    return { act with count := ← readByte kind field lookup 255 countRule value }
  | .affect =>
    unless kind == .lockPointerButton do throw (.illegalField kind field)
    return { act with flags := ← readLock kind act.flags value }
  | _ => throw (.illegalField kind field)

/-- Sets a field of an action on the pointer's default button. -/
def assignPointerDefault (kind : ActionKind) (act : PointerDefaultAction) (field : ActionField)
    (value : Expr) : Except ActionError PointerDefaultAction := do
  match field with
  | .affect =>
    let affect ← expecting kind field "pointer component" (value.toChoice pointerDefaultNames)
    return { act with affect }
  | .button | .value =>
    let signed := SignedOperand.ofExpr value
    let rule := "New default button value must be in the range 1..5"
    let number ← readNumber kind field (Lookup.ofTable buttonNames) 5 rule signed.operand
    if number == 0 then throw (.outOfRange "Cannot set default pointer button to \"default\"")
    return { act with
      value := signed.signed number
      flags := switch8 act.flags ActionFlag.buttonAbsolute signed.absolute }
  | _ => throw (.illegalField kind field)

/-- Sets a field of an ISO lock, which acts on what was set last, modifiers or group. -/
def assignIsoLock (scope : Scope) (kind : ActionKind) (act : IsoLockAction)
    (field : ActionField) (value : Expr) : Except ActionError IsoLockAction := do
  match field with
  | .modifiers =>
    let (flags, mods) ← readModifiers scope kind act.flags value
    return { act with flags := flags &&& ~~~ActionFlag.isoGroup, mods }
  | .group =>
    let (flags, group) ← readGroup kind act.flags value
    return { act with flags := flags ||| ActionFlag.isoGroup, group }
  | .affect =>
    let mask ← expecting kind field "keyboard component" (value.toMask (Lookup.ofTable isoNames))
    return { act with affect := ~~~mask.toUInt8 &&& ActionFlag.isoKeepMask }
  | _ => throw (.illegalField kind field)

/-- Sets a field of an action that switches the screen. -/
def assignScreen (kind : ActionKind) (act : ScreenAction) (field : ActionField) (value : Expr) :
    Except ActionError ScreenAction := do
  match field with
  | .screen =>
    let signed := SignedOperand.ofExpr value
    let rule := "Screen index must be in the range 1..255"
    let number ← readNumber kind field Lookup.none 255 rule signed.operand
    return { act with
      screen := signed.signed number
      flags := switch8 act.flags ActionFlag.switchAbsolute signed.absolute }
  | .same =>
    let same ← readFlag kind field value
    return { act with flags := switch8 act.flags ActionFlag.switchApplication (!same) }
  | _ => throw (.illegalField kind field)

/-- Sets a field of an action on controls, which may be a lock. -/
def assignControls (kind : ActionKind) (act : ControlsAction) (field : ActionField)
    (value : Expr) : Except ActionError ControlsAction := do
  match field with
  | .controls =>
    let mask ← expecting kind field "controls mask" (value.toMask Lookup.controls)
    return { act with controls := mask &&& allControls }
  | .affect =>
    unless kind == .lockControls do throw (.illegalField kind field)
    return { act with flags := ← readLock kind act.flags value }
  | _ => throw (.illegalField kind field)

/-- Sets a field of an action that sends a message. -/
def assignMessage (kind : ActionKind) (act : MessageAction) (field : ActionField)
    (index : Option Expr) (value : Expr) : Except ActionError MessageAction := do
  match field with
  | .report =>
    let mask ← expecting kind field "key event mask" (value.toMask (Lookup.ofTable eventNames))
    let events := ActionFlag.messageOnPress ||| ActionFlag.messageOnRelease
    return { act with flags := (act.flags &&& ~~~events) ||| (mask.toUInt8 &&& events) }
  | .genKeyEvent =>
    let on ← readFlag kind field value
    return { act with flags := switch8 act.flags ActionFlag.messageKeyEvent on }
  | .data => return { act with message := ← readData kind act.message index value }
  | _ => throw (.illegalField kind field)

/-- Sets a field of an action that acts for another key. -/
def assignRedirect (scope : Scope) (kind : ActionKind) (act : RedirectAction)
    (field : ActionField) (value : Expr) : Except ActionError RedirectAction := do
  match field with
  | .keycode =>
    let name ← expecting kind field "key name" value.toKeyName
    match scope.keycodes.findKey name 0 with
    | some key => return { act with key }
    | .none => throw (.keyNotFound kind field name)
  | .modifiers =>
    let (_, mask) ← readModifiers scope kind 0 value
    return { act with touched := act.touched.union mask, mods := act.mods.union mask }
  | .clearMods =>
    let (_, mask) ← readModifiers scope kind 0 value
    return { act with touched := act.touched.union mask, mods := act.mods.without mask }
  | _ => throw (.illegalField kind field)

/-- Sets a field of an action on a device button, which may be a lock. -/
def assignDeviceButton (kind : ActionKind) (act : DeviceButtonAction) (field : ActionField)
    (value : Expr) : Except ActionError DeviceButtonAction := do
  match field with
  | .button =>
    let rule := "Button must specify default or be in the range 1..255"
    return { act with button := ← readByte kind field Lookup.none 255 rule value }
  | .affect =>
    unless kind == .lockDeviceButton do throw (.illegalField kind field)
    return { act with flags := ← readLock kind act.flags value }
  | .count =>
    let lookup := Lookup.ofTable buttonNames
    return { act with count := ← readByte kind field lookup 255 countRule value }
  | .device =>
    let rule := "Device must specify default or be in the range 1..255"
    return { act with device := ← readByte kind field Lookup.none 255 rule value }
  | _ => throw (.illegalField kind field)

/-- Sets a field of an action of a kind without a name. -/
def assignCustom (kind : ActionKind) (act : CustomAction) (field : ActionField)
    (index : Option Expr) (value : Expr) : Except ActionError CustomAction := do
  match field with
  | .type =>
    let rule := "Private action type must be in the range 0..255"
    return { act with type := ← readByte kind field Lookup.none 255 rule value }
  | .data => return { act with data := ← readData kind act.data index value }
  | _ => throw (.illegalField kind field)

/-- Sets a field of an action, where only `data` takes a subscript. -/
def assign (scope : Scope) (action : Action) (field : ActionField) (index : Option Expr)
    (value : Expr) : Except ActionError Action := do
  let kind := action.kind
  if field != .data && index.isSome then throw (.notArray kind field)
  match action with
  | none | terminate => throw (.illegalField kind field)
  | setMods act => return setMods (← assignMods scope kind act field value)
  | latchMods act => return latchMods (← assignMods scope kind act field value)
  | lockMods act => return lockMods (← assignLockMods scope kind act field value)
  | setGroup act => return setGroup (← assignGroup kind act field value)
  | latchGroup act => return latchGroup (← assignGroup kind act field value)
  | lockGroup act => return lockGroup (← assignLockGroup kind act field value)
  | movePointer act => return movePointer (← assignMove kind act field value)
  | pointerButton act => return pointerButton (← assignButton kind act field value)
  | lockPointerButton act => return lockPointerButton (← assignButton kind act field value)
  | setPointerDefault act => return setPointerDefault (← assignPointerDefault kind act field value)
  | isoLock act => return isoLock (← assignIsoLock scope kind act field value)
  | switchScreen act => return switchScreen (← assignScreen kind act field value)
  | setControls act => return setControls (← assignControls kind act field value)
  | lockControls act => return lockControls (← assignControls kind act field value)
  | message act => return message (← assignMessage kind act field index value)
  | redirectKey act => return redirectKey (← assignRedirect scope kind act field value)
  | deviceButton act => return deviceButton (← assignDeviceButton kind act field value)
  | lockDeviceButton act => return lockDeviceButton (← assignDeviceButton kind act field value)
  | deviceValuator => throw (.unsupported kind)
  | custom act => return custom (← assignCustom kind act field index value)

end Action

end Xkb
