import Xkb.Text.Ascii

/-! The kinds of action and the names of their fields. -/

namespace Xkb

/-- What an action does. -/
inductive ActionKind where
  | noAction
  | setMods
  | latchMods
  | lockMods
  | setGroup
  | latchGroup
  | lockGroup
  | movePointer
  | pointerButton
  | lockPointerButton
  | setPointerDefault
  | isoLock
  | terminate
  | switchScreen
  | setControls
  | lockControls
  | message
  | redirectKey
  | deviceButton
  | lockDeviceButton
  | deviceValuator
  | custom
deriving DecidableEq, Inhabited

namespace ActionKind

/-- The names that an action may be called by. -/
def names : List (String × ActionKind) :=
  [("noaction", noAction), ("setmods", setMods), ("latchmods", latchMods), ("lockmods", lockMods),
    ("setgroup", setGroup), ("latchgroup", latchGroup), ("lockgroup", lockGroup),
    ("moveptr", movePointer), ("movepointer", movePointer),
    ("ptrbtn", pointerButton), ("pointerbutton", pointerButton),
    ("lockptrbtn", lockPointerButton), ("lockpointerbutton", lockPointerButton),
    ("lockptrbutton", lockPointerButton), ("lockpointerbtn", lockPointerButton),
    ("setptrdflt", setPointerDefault), ("setpointerdefault", setPointerDefault),
    ("isolock", isoLock), ("terminate", terminate), ("terminateserver", terminate),
    ("switchscreen", switchScreen), ("setcontrols", setControls), ("lockcontrols", lockControls),
    ("actionmessage", message), ("messageaction", message), ("message", message),
    ("redirect", redirectKey), ("redirectkey", redirectKey),
    ("devbtn", deviceButton), ("devicebtn", deviceButton), ("devbutton", deviceButton),
    ("devicebutton", deviceButton),
    ("lockdevbtn", lockDeviceButton), ("lockdevicebtn", lockDeviceButton),
    ("lockdevbutton", lockDeviceButton), ("lockdevicebutton", lockDeviceButton),
    ("devval", deviceValuator), ("deviceval", deviceValuator), ("devvaluator", deviceValuator),
    ("devicevaluator", deviceValuator), ("private", custom)]

/-- The kind of action that a name calls for. -/
def ofName (name : String) : Option ActionKind :=
  Text.lookupName names name

/-- The name that an action is printed with. -/
def name : ActionKind → String
  | noAction => "NoAction"
  | setMods => "SetMods"
  | latchMods => "LatchMods"
  | lockMods => "LockMods"
  | setGroup => "SetGroup"
  | latchGroup => "LatchGroup"
  | lockGroup => "LockGroup"
  | movePointer => "MovePtr"
  | pointerButton => "PtrBtn"
  | lockPointerButton => "LockPtrBtn"
  | setPointerDefault => "SetPtrDflt"
  | isoLock => "ISOLock"
  | terminate => "Terminate"
  | switchScreen => "SwitchScreen"
  | setControls => "SetControls"
  | lockControls => "LockControls"
  | message => "ActionMessage"
  | redirectKey => "RedirectKey"
  | deviceButton => "DevBtn"
  | lockDeviceButton => "LockDevBtn"
  | deviceValuator => "DevVal"
  | custom => "Private"

end ActionKind

/-- The fields that actions have, each kind of action some of them. -/
inductive ActionField where
  | clearLocks
  | latchToLock
  | genKeyEvent
  | report
  | default
  | affect
  | increment
  | modifiers
  | group
  | x
  | y
  | accel
  | button
  | value
  | controls
  | type
  | count
  | screen
  | same
  | data
  | device
  | keycode
  | clearMods
deriving DecidableEq, Inhabited

namespace ActionField

/-- The names that a field may be written with. -/
def names : List (String × ActionField) :=
  [("clearlocks", clearLocks), ("latchtolock", latchToLock),
    ("genkeyevent", genKeyEvent), ("generatekeyevent", genKeyEvent),
    ("report", report), ("default", default), ("affect", affect), ("increment", increment),
    ("mods", modifiers), ("modifiers", modifiers), ("group", group), ("x", x), ("y", y),
    ("accel", accel), ("accelerate", accel), ("repeat", accel),
    ("button", button), ("value", value), ("controls", controls), ("ctrls", controls),
    ("type", type), ("count", count), ("screen", screen), ("same", same), ("sameserver", same),
    ("data", data), ("device", device), ("dev", device),
    ("key", keycode), ("keycode", keycode), ("kc", keycode),
    ("clearmods", clearMods), ("clearmodifiers", clearMods)]

/-- The field that a name stands for. -/
def ofName (name : String) : Option ActionField :=
  Text.lookupName names name

/-- How messages name a field. -/
def name : ActionField → String
  | clearLocks => "clearLocks"
  | latchToLock => "latchToLock"
  | genKeyEvent => "genKeyEvent"
  | report => "report"
  | default => "default"
  | affect => "affect"
  | increment => "increment"
  | modifiers => "modifiers"
  | group => "group"
  | x => "x"
  | y => "y"
  | accel => "accel"
  | button => "button"
  | value => "value"
  | controls => "controls"
  | type => "type"
  | count => "count"
  | screen => "screen"
  | same => "same"
  | data => "data"
  | device => "device"
  | keycode => "keycode"
  | clearMods => "clearmods"

end ActionField

end Xkb
