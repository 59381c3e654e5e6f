import Xkb.Action.Kind
import Xkb.Modifier

/-! The actions that keys and interpretations carry. -/

namespace Xkb

/-- What an action on modifiers says. -/
structure ModAction where
  flags : UInt8
  mods : ModMask
deriving DecidableEq, Inhabited

/-- What an action on the group says: an index from 0, or an offset unless it is absolute. -/
structure GroupAction where
  flags : UInt8
  group : Int32
deriving DecidableEq, Inhabited

/-- What an action that moves the pointer says. -/
structure MoveAction where
  flags : UInt8
  x : Int32
  y : Int32
deriving DecidableEq, Inhabited

/-- What an action on a pointer button says. -/
structure ButtonAction where
  flags : UInt8
  count : UInt8
  button : UInt8
deriving DecidableEq, Inhabited

/-- What an action on the pointer's default button says. -/
structure PointerDefaultAction where
  flags : UInt8
  affect : UInt8
  value : Int32
deriving DecidableEq, Inhabited

/-- What an ISO lock says; the bits of `affect` name what is left alone. -/
structure IsoLockAction where
  flags : UInt8
  mods : ModMask
  group : Int32
  affect : UInt8
deriving DecidableEq, Inhabited

/-- What an action that switches the screen says. -/
structure ScreenAction where
  flags : UInt8
  screen : Int32
deriving DecidableEq, Inhabited

/-- What an action on keyboard controls says. -/
structure ControlsAction where
  flags : UInt8
  controls : UInt32
deriving DecidableEq, Inhabited

/-- What an action that sends a message says. -/
structure MessageAction where
  flags : UInt8
  message : Vector UInt8 6
deriving DecidableEq, Inhabited

/-- What an action that acts for another key says: the modifiers it touches and their new state. -/
structure RedirectAction where
  key : Nat
  touched : ModMask
  mods : ModMask
deriving DecidableEq, Inhabited

/-- What an action on a device button says. -/
structure DeviceButtonAction where
  flags : UInt8
  count : UInt8
  button : UInt8
  device : UInt8
deriving DecidableEq, Inhabited

/-- What an action of a kind without a name says. -/
structure CustomAction where
  type : UInt8
  data : Vector UInt8 7
deriving DecidableEq, Inhabited

/-- An action. -/
inductive Action where
  | none
  | setMods (act : ModAction)
  | latchMods (act : ModAction)
  | lockMods (act : ModAction)
  | setGroup (act : GroupAction)
  | latchGroup (act : GroupAction)
  | lockGroup (act : GroupAction)
  | movePointer (act : MoveAction)
  | pointerButton (act : ButtonAction)
  | lockPointerButton (act : ButtonAction)
  | setPointerDefault (act : PointerDefaultAction)
  | isoLock (act : IsoLockAction)
  | terminate
  | switchScreen (act : ScreenAction)
  | setControls (act : ControlsAction)
  | lockControls (act : ControlsAction)
  | message (act : MessageAction)
  | redirectKey (act : RedirectAction)
  | deviceButton (act : DeviceButtonAction)
  | lockDeviceButton (act : DeviceButtonAction)
  | deviceValuator
  | custom (act : CustomAction)
deriving DecidableEq, Inhabited

namespace ActionFlag

/-- Locks are cleared. -/
def clearLocks : UInt8 := bit8 0

/-- A latch becomes a lock. -/
def latchToLock : UInt8 := bit8 1

/-- The modifiers are those of the key's modifier map. -/
def modMapMods : UInt8 := bit8 2

/-- The group is an index. -/
def groupAbsolute : UInt8 := bit8 2

/-- The pointer moves without acceleration. -/
def noAcceleration : UInt8 := bit8 0

/-- The pointer moves to a horizontal position. -/
def absoluteX : UInt8 := bit8 1

/-- The pointer moves to a vertical position. -/
def absoluteY : UInt8 := bit8 2

/-- Nothing is locked. -/
def noLock : UInt8 := bit8 0

/-- Nothing is unlocked. -/
def noUnlock : UInt8 := bit8 1

/-- The bits that say what a lock does. -/
def lockMask : UInt8 := noLock ||| noUnlock

/-- An ISO lock acts on the group. -/
def isoGroup : UInt8 := bit8 7

/-- An ISO lock leaves modifiers alone. -/
def isoKeepMods : UInt8 := bit8 6

/-- An ISO lock leaves the group alone. -/
def isoKeepGroup : UInt8 := bit8 5

/-- An ISO lock leaves the pointer alone. -/
def isoKeepPointer : UInt8 := bit8 4

/-- An ISO lock leaves controls alone. -/
def isoKeepControls : UInt8 := bit8 3

/-- The bits that say what an ISO lock leaves alone. -/
def isoKeepMask : UInt8 := 0x78

/-- The screen is switched within the application. -/
def switchApplication : UInt8 := bit8 0

/-- The screen is an index. -/
def switchAbsolute : UInt8 := bit8 2

/-- A message is sent when the key goes down. -/
def messageOnPress : UInt8 := bit8 0

/-- A message is sent when the key goes up. -/
def messageOnRelease : UInt8 := bit8 1

/-- A message comes with a key event. -/
def messageKeyEvent : UInt8 := bit8 2

/-- The part of the pointer's defaults that is the button. -/
def defaultButton : UInt8 := 1

/-- The default button is an index. -/
def buttonAbsolute : UInt8 := bit8 2

end ActionFlag

namespace Action

/-- The action of a kind before any field is set. -/
def ofKind : ActionKind → Action
  | .noAction => none
  | .setMods => setMods ⟨0, .empty⟩
  | .latchMods => latchMods ⟨0, .empty⟩
  | .lockMods => lockMods ⟨0, .empty⟩
  | .setGroup => setGroup ⟨0, 0⟩
  | .latchGroup => latchGroup ⟨0, 0⟩
  | .lockGroup => lockGroup ⟨0, 0⟩
  | .movePointer => movePointer ⟨0, 0, 0⟩
  | .pointerButton => pointerButton ⟨0, 0, 0⟩
  | .lockPointerButton => lockPointerButton ⟨0, 0, 0⟩
  | .setPointerDefault => setPointerDefault ⟨0, ActionFlag.defaultButton, 1⟩
  | .isoLock => isoLock ⟨0, .lock, 0, 0⟩
  | .terminate => terminate
  | .switchScreen => switchScreen ⟨0, 0⟩
  | .setControls => setControls ⟨0, 0⟩
  | .lockControls => lockControls ⟨0, 0⟩
  | .message => message ⟨0, Vector.replicate 6 0⟩
  | .redirectKey => redirectKey ⟨0, .empty, .empty⟩
  | .deviceButton => deviceButton ⟨0, 0, 0, 0⟩
  | .lockDeviceButton => lockDeviceButton ⟨0, 0, 0, 0⟩
  | .deviceValuator => deviceValuator
  | .custom => custom ⟨0, Vector.replicate 7 0⟩

/-- The kind of an action. -/
def kind : Action → ActionKind
  | none => .noAction
  | setMods _ => .setMods
  | latchMods _ => .latchMods
  | lockMods _ => .lockMods
  | setGroup _ => .setGroup
  | latchGroup _ => .latchGroup
  | lockGroup _ => .lockGroup
  | movePointer _ => .movePointer
  | pointerButton _ => .pointerButton
  | lockPointerButton _ => .lockPointerButton
  | setPointerDefault _ => .setPointerDefault
  | isoLock _ => .isoLock
  | terminate => .terminate
  | switchScreen _ => .switchScreen
  | setControls _ => .setControls
  | lockControls _ => .lockControls
  | message _ => .message
  | redirectKey _ => .redirectKey
  | deviceButton _ => .deviceButton
  | lockDeviceButton _ => .lockDeviceButton
  | deviceValuator => .deviceValuator
  | custom _ => .custom

/-- Whether this is no action. -/
def isNone (action : Action) : Bool :=
  action == none

end Action

end Xkb
