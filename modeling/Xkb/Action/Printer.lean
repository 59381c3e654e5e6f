import Xkb.Action.Field

/-! Actions as text, in the form of a call that makes the same action again. -/

namespace Xkb

/-- An offset, always with its sign. -/
def offsetText (value : Int32) : String :=
  if value < 0 then toString value.toInt else s!"+{value.toInt}"

/-- A position, a negative one as a difference so that no sign stands in front of it. -/
def positionText (value : Int32) : String :=
  if value < 0 then s!"(0{value.toInt})" else toString value.toInt

namespace Action

/-- What an ISO lock acts on, one name for each bit. -/
def isoPrintNames : List (String × UInt32) :=
  [("mods", ActionFlag.isoKeepMods.toUInt32), ("group", ActionFlag.isoKeepGroup.toUInt32),
    ("ptr", ActionFlag.isoKeepPointer.toUInt32), ("ctrls", ActionFlag.isoKeepControls.toUInt32)]

/-- The key events of a message, one name for each bit. -/
def eventPrintNames : List (String × UInt32) :=
  [("press", ActionFlag.messageOnPress.toUInt32),
    ("release", ActionFlag.messageOnRelease.toUInt32)]

/-- An argument, where it is wanted. -/
def argIf (wanted : Bool) (text : String) : List String :=
  if wanted then [text] else []

/-- The modifiers as an argument. -/
def modsArg (scope : Scope) (modMap : Bool) (mods : ModMask) : String :=
  if modMap then "modifiers=modMapMods" else "modifiers=" ++ scope.modifiers.maskText mods

/-- The latch flags as arguments. -/
def latchArgs (flags : UInt8) : List String :=
  argIf (meets8 flags ActionFlag.clearLocks) "clearLocks"
    ++ argIf (meets8 flags ActionFlag.latchToLock) "latchToLock"

/-- What a lock does, as an argument. -/
def lockArgs (flags : UInt8) : List String :=
  let bits := flags &&& ActionFlag.lockMask
  if bits == 0 then []
  else if bits == ActionFlag.noUnlock then ["affect=lock"]
  else if bits == ActionFlag.noLock then ["affect=unlock"]
  else ["affect=neither"]

/-- The group as an argument, left out where it is an offset of zero. -/
def groupArgs (flags : UInt8) (group : Int32) : List String :=
  if meets8 flags ActionFlag.groupAbsolute then [s!"group={(group + 1).toInt}"]
  else argIf (group != 0) ("group=" ++ offsetText group)

/-- The bytes other than zero as arguments. -/
def dataArgs (bytes : List UInt8) : List String :=
  bytes.zipIdx.flatMap fun (byte, index) =>
    argIf (byte != 0) (s!"data[{index}]=" ++ Text.hexText 2 byte.toNat)

/-- A number as an argument, left out where it is zero. -/
def numberArgs (name : String) (number : UInt8) : List String :=
  argIf (number != 0) s!"{name}={number.toNat}"

/-- A position or an offset, whichever it is. -/
def coordinateText (absolute : Bool) (value : Int32) : String :=
  if absolute then positionText value else offsetText value

/-- The arguments of an ISO lock; the field that it acts on comes last. -/
def isoLockArgs (scope : Scope) (act : IsoLockAction) : List String :=
  let onGroup := meets8 act.flags ActionFlag.isoGroup
  let mods := modsArg scope (meets8 act.flags ActionFlag.modMapMods && !onGroup) act.mods
  let affected := ~~~act.affect &&& ActionFlag.isoKeepMask
  (if onGroup then mods :: groupArgs act.flags act.group
    else argIf (act.group != 0) ("group=" ++ offsetText act.group) ++ [mods])
    ++ argIf (act.affect != 0) ("affect=" ++ maskNames affected.toUInt32 isoPrintNames)

/-- The arguments of an action that acts for another key. -/
def redirectArgs (scope : Scope) (act : RedirectAction) : List String :=
  let cleared := act.touched.without act.mods
  argIf (act.key != 0) ("key=" ++ (scope.keycodes.nameAt act.key).label)
    ++ argIf (!act.mods.isEmpty) ("modifiers=" ++ scope.modifiers.maskText act.mods)
    ++ argIf (!cleared.isEmpty) ("clearmods=" ++ scope.modifiers.maskText cleared)

/-- The arguments that make an action again. -/
def args (scope : Scope) : Action → List String
  | none | terminate | deviceValuator => []
  | setMods act | latchMods act =>
    modsArg scope (meets8 act.flags ActionFlag.modMapMods) act.mods :: latchArgs act.flags
  | lockMods act =>
    modsArg scope (meets8 act.flags ActionFlag.modMapMods) act.mods :: lockArgs act.flags
  | setGroup act | latchGroup act => groupArgs act.flags act.group ++ latchArgs act.flags
  | lockGroup act => groupArgs act.flags act.group
  | movePointer act =>
    ["x=" ++ coordinateText (meets8 act.flags ActionFlag.absoluteX) act.x,
      "y=" ++ coordinateText (meets8 act.flags ActionFlag.absoluteY) act.y]
      ++ argIf (meets8 act.flags ActionFlag.noAcceleration) "!accel"
  | pointerButton act => numberArgs "button" act.button ++ numberArgs "count" act.count
  | lockPointerButton act =>
    numberArgs "button" act.button ++ numberArgs "count" act.count ++ lockArgs act.flags
  | setPointerDefault act =>
    argIf (act.affect == ActionFlag.defaultButton) "affect=defaultButton"
      ++ ["button=" ++ if meets8 act.flags ActionFlag.buttonAbsolute then toString act.value.toInt
          else offsetText act.value]
  | isoLock act => isoLockArgs scope act
  | switchScreen act =>
    ("screen=" ++ if meets8 act.flags ActionFlag.switchAbsolute then toString act.screen.toInt
        else offsetText act.screen)
      :: argIf (meets8 act.flags ActionFlag.switchApplication) "!same"
  | setControls act => ["controls=" ++ maskNames act.controls controlNames]
  | lockControls act =>
    ("controls=" ++ maskNames act.controls controlNames) :: lockArgs act.flags
  | message act =>
    let events := act.flags &&& (ActionFlag.messageOnPress ||| ActionFlag.messageOnRelease)
    argIf (events != 0) ("report=" ++ maskNames events.toUInt32 eventPrintNames)
      ++ argIf (meets8 act.flags ActionFlag.messageKeyEvent) "genKeyEvent"
      ++ dataArgs act.message.toList
  | redirectKey act => redirectArgs scope act
  | deviceButton act =>
    numberArgs "button" act.button ++ numberArgs "count" act.count
      ++ numberArgs "device" act.device
  | lockDeviceButton act =>
    numberArgs "button" act.button ++ numberArgs "count" act.count
      ++ numberArgs "device" act.device ++ lockArgs act.flags
  | custom act => ("type=" ++ Text.hexText 2 act.type.toNat) :: dataArgs act.data.toList

/-- An action as the call that makes it. -/
def text (scope : Scope) (action : Action) : String :=
  action.kind.name ++ "(" ++ ",".intercalate (action.args scope) ++ ")"

end Action

end Xkb
