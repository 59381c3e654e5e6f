import Xkb.Control
import Xkb.Keymap.Basic
import Xkb.Section.Draft

/-! Indicator maps: how they are put together and how they find their indicators. -/

namespace Xkb

/-- An indicator map while it is put together. -/
structure IndicatorDraft where
  definition : Definition
  name : String
  /-- The number of the indicator, from 1, or 0 where none is given. -/
  index : Nat
  map : IndicatorMap
deriving DecidableEq, Inhabited

namespace IndicatorField

/-- The number of the indicator. -/
def index : UInt32 := bit32 0

/-- The modifiers and the state they are looked at in. -/
def mods : UInt32 := bit32 1

/-- The groups and the state they are looked at in. -/
def groups : UInt32 := bit32 2

/-- The controls. -/
def controls : UInt32 := bit32 3

/-- Whether the indicator can be set explicitly. -/
def explicit : UInt32 := bit32 4

/-- Whether the indicator follows the keyboard. -/
def automatic : UInt32 := bit32 5

/-- Whether the keyboard follows the indicator. -/
def drivesKeyboard : UInt32 := bit32 6

/-- All fields. -/
def all : List UInt32 :=
  [index, mods, groups, controls, explicit, automatic, drivesKeyboard]

end IndicatorField

namespace IndicatorDraft

/-- What indicator maps start out with. -/
def base : IndicatorDraft :=
  ⟨.start .initial .override, "", 0, .empty⟩

/-- The groups by name, each a bit. -/
def groupNames : List (String × UInt32) :=
  [("group1", 0x01), ("group2", 0x02), ("group3", 0x04), ("group4", 0x08), ("group5", 0x10),
    ("group6", 0x20), ("group7", 0x40), ("group8", 0x80), ("none", 0x00), ("all", 0xff)]

/-- The states of groups that an indicator can look at. -/
def groupStateNames : List (String × UInt32) :=
  [("base", bit32 0), ("latched", bit32 1), ("locked", bit32 2), ("effective", bit32 3),
    ("any", 0x0f), ("none", 0)]

/-- The draft with a field marked as set. -/
def define (draft : IndicatorDraft) (field : UInt32) : IndicatorDraft :=
  { draft with definition := draft.definition.define field }

/-- The draft with a flag of its map switched. -/
def setFlag (draft : IndicatorDraft) (flag : UInt8) (on : Bool) : IndicatorDraft :=
  { draft with map := { draft.map with flags := switch8 draft.map.flags flag on } }

/-- Sets a field to a value that an expression was read as, or refuses the value. -/
def setValue {α : Type} (draft : IndicatorDraft) (field wanted : String)
    (read : Except ValueError α) (change : α → IndicatorDraft) :
    Report (IndicatorDraft × Bool) := do
  match read with
  | .ok value => return (change value, true)
  | .error _ =>
    Report.error s!"The {field} field of the {draft.name} indicator map must be {wanted}" []
    return (draft, false)

/-- Sets the number of the indicator. -/
def setIndex (draft : IndicatorDraft) (field : String) (value : Expr) :
    Report (IndicatorDraft × Bool) := do
  match value.toInteger Lookup.none with
  | .error _ =>
    Report.error
      s!"The {field} field of the {draft.name} indicator map must be an indicator index" []
    return (draft, false)
  | .ok index =>
    if 1 ≤ index && index ≤ 32 then
      return ({ draft with index := index.toInt.toNat }.define IndicatorField.index, true)
    Report.error s!"Illegal indicator index {index.toInt} (range 1..32)"
      [s!"Index definition for {draft.name} indicator ignored"]
    return (draft, false)

/-- Sets a field of an indicator map that has no subscript. -/
def setPlainField (modifiers : VirtualModifiers) (draft : IndicatorDraft) (field : String)
    (value : Expr) : Report (IndicatorDraft × Bool) := do
  let map := draft.map
  match Text.foldCase field with
  | "modifiers" | "mods" =>
    draft.setValue field "a modifier mask" (modifiers.maskOf value) fun mods =>
      { draft with map := { map with mods } }.define IndicatorField.mods
  | "groups" =>
    draft.setValue field "a group mask" (value.toMask (Lookup.ofTable groupNames)) fun mask =>
      { draft with map := { map with groups := mask.toUInt8 } }.define IndicatorField.groups
  | "controls" | "ctrls" =>
    draft.setValue field "a controls mask" (value.toMask Lookup.controls) fun controls =>
      { draft with map := { map with controls } }.define IndicatorField.controls
  | "allowexplicit" =>
    draft.setValue field "a boolean" (value.toBoolean Lookup.none) fun allowed =>
      (draft.setFlag IndicatorMap.noExplicit !allowed).define IndicatorField.explicit
  | "whichmodstate" | "whichmodifierstate" =>
    draft.setValue field "a mask of modifier state components"
      (value.toMask (Lookup.ofTable IndicatorMap.stateNames)) fun mask =>
      { draft with map := { map with whichMods := mask.toUInt8 } }.define IndicatorField.mods
  | "whichgroupstate" =>
    draft.setValue field "a mask of group state components"
      (value.toMask (Lookup.ofTable groupStateNames)) fun mask =>
      { draft with map := { map with whichGroups := mask.toUInt8 } }.define IndicatorField.groups
  | "driveskbd" | "driveskeyboard" | "leddriveskbd" | "leddriveskeyboard" | "indicatordriveskbd"
  | "indicatordriveskeyboard" =>
    draft.setValue field "a boolean" (value.toBoolean Lookup.none) fun drives =>
      (draft.setFlag IndicatorMap.drivesKeyboard drives).define IndicatorField.drivesKeyboard
  | "index" => draft.setIndex field value
  | _ =>
    Report.error s!"Unknown field {field} in map for {draft.name} indicator"
      ["Definition ignored"]
    return (draft, false)

/-- Sets a field of an indicator map. -/
def setField (modifiers : VirtualModifiers) (draft : IndicatorDraft) (field : String)
    (index : Option Expr) (value : Expr) : Report (IndicatorDraft × Bool) := do
  if index.isSome then
    Report.error s!"The {field} field of the {draft.name} indicator map is not an array"
      ["Illegal array reference ignored"]
    return (draft, false)
  draft.setPlainField modifiers field value

/-- Handles an assignment in the body of an indicator map. -/
def handleAssignment (modifiers : VirtualModifiers) (draft : IndicatorDraft)
    (assigned : Assignment) : Report (IndicatorDraft × Bool) := do
  let refuse (message : String) (actions : List String) : Report (IndicatorDraft × Bool) := do
    Report.error message actions
    return (draft, false)
  match assigned.target.map Expr.toTarget with
  | none => refuse s!"Unnamed value in the {draft.name} indicator map" []
  | some (.error error) => refuse error.message []
  | some (.ok ⟨some element, field, _⟩) =>
    refuse s!"Cannot set defaults for \"{element}\" element in indicator map"
      [s!"Assignment to {element}.{field} ignored"]
  | some (.ok ⟨none, field, index⟩) =>
    draft.setField modifiers field index (assigned.value.getD (.boolean true))

/-- The indicator map that a definition makes, if all of its body is right. -/
def ofBody (modifiers : VirtualModifiers) (base : IndicatorDraft) (name : String)
    (body : List Assignment) : Report (Option IndicatorDraft) := do
  let (draft, right) ← body.foldlM
    (fun (draft, right) assigned => do
      let (draft, good) ← draft.handleAssignment modifiers assigned
      return (draft, good && right))
    ({ base with name }, true)
  return if right then some draft else none

/-- Whether two maps light an indicator at the same times. -/
def sameContent (left right : IndicatorDraft) : Bool :=
  left.map.mods == right.map.mods && left.map.groups == right.map.groups
    && left.map.controls == right.map.controls && left.map.whichMods == right.map.whichMods
    && left.map.whichGroups == right.map.whichGroups

/-- The flags of the new map where its field counts, and of the old one elsewhere. -/
def mergeFlags (old new : IndicatorDraft) : UInt8 :=
  let pick (field : UInt32) (flag : UInt8) : UInt8 :=
    if old.definition.takes new.definition field then new.map.flags &&& flag
    else old.map.flags &&& flag
  let rest := ~~~(IndicatorMap.noExplicit ||| IndicatorMap.noAutomatic
    ||| IndicatorMap.drivesKeyboard)
  (old.map.flags &&& rest) ||| pick IndicatorField.explicit IndicatorMap.noExplicit
    ||| pick IndicatorField.automatic IndicatorMap.noAutomatic
    ||| pick IndicatorField.drivesKeyboard IndicatorMap.drivesKeyboard

/-- The old map with the fields of the new one that count. -/
def mergeFields (old new : IndicatorDraft) : IndicatorDraft :=
  let takes (field : UInt32) : Bool := old.definition.takes new.definition field
  let modsFrom := if takes IndicatorField.mods then new.map else old.map
  let groupsFrom := if takes IndicatorField.groups then new.map else old.map
  { old with
    definition := old.definition.adopt new.definition IndicatorField.all
    index := if takes IndicatorField.index then new.index else old.index
    map := {
      flags := mergeFlags old new
      whichGroups := groupsFrom.whichGroups
      groups := groupsFrom.groups
      whichMods := modsFrom.whichMods
      mods := modsFrom.mods
      controls := if takes IndicatorField.controls then new.map.controls else old.map.controls } }

/-- What becomes of a map when another one for the same indicator is added. -/
def merge (old new : IndicatorDraft) : Report IndicatorDraft := do
  let level ← Report.level
  if old.sameContent new then
    let fields := old.definition.fields ||| new.definition.fields
    return { old with definition := { old.definition with fields } }
  let warn (action : String) : Report Unit :=
    Report.warn s!"Map for indicator {new.name} redefined" [action]
  if new.definition.merge == .replace then
    if reportsClash old.definition.origin new.definition.origin level then
      warn "Earlier definition ignored"
    return new
  if old.definition.clashingFields new.definition level IndicatorField.all != 0 then
    warn s!"Using {new.definition.winnerWord} definition for duplicate fields"
  return old.mergeFields new

/-- Adds a map to the list of maps, of which no two have the same name. -/
def add (new : IndicatorDraft) : List IndicatorDraft → Report (List IndicatorDraft)
  | [] => return [new]
  | old :: rest => do
    if old.name == new.name then return (← old.merge new) :: rest
    else return old :: (← add new rest)

/-- The finished map: modifiers and groups are looked at in force where nothing else is said. -/
def effectiveMap (draft : IndicatorDraft) : IndicatorMap :=
  let map := draft.map
  { map with
    whichGroups :=
      if map.groups != 0 && map.whichGroups == 0 then IndicatorMap.effective else map.whichGroups
    whichMods :=
      if map.whichMods == 0 && !map.mods.isEmpty then IndicatorMap.effective else map.whichMods }

/-- The place of an indicator with a name. -/
def slotNamed (names : Vector (Option String) 32) (name : String) : Option Nat :=
  names.toList.findIdx? (· == some name)

/-- The keymap with a map for the indicator at a place, which gets the name of the map. -/
def bindAt (keymap : Keymap) (slot : Nat) (draft : IndicatorDraft) : Keymap :=
  { keymap with
    keycodes := { keymap.keycodes with
      indicatorNames := keymap.keycodes.indicatorNames.setIfInBounds slot (some draft.name) }
    compat := { keymap.compat with
      indicators := keymap.compat.indicators.setIfInBounds slot (some draft.effectiveMap) } }

/-- The keymap with a map for the indicator that it names or numbers, or else the map as one that
is left over. -/
def bindNamed (keymap : Keymap) (draft : IndicatorDraft) :
    Report (Keymap × Option IndicatorDraft) := do
  let named := (slotNamed keymap.keycodes.indicatorNames draft.name).map (· + 1)
  let index := if draft.index == 0 then named.getD 0 else draft.index
  if index == 0 then return (keymap, some draft)
  match (keymap.keycodes.indicatorName (index - 1)).filter (· != draft.name) with
  | some known =>
    Report.error s!"Multiple names bound to indicator {index}"
      [s!"Using {known}, ignoring {draft.name}"]
    return (keymap, some { draft with index := 0 })
  | none => return (bindAt keymap (index - 1) draft, none)

/-- The keymap with those maps that find their indicators, and the maps that are left over. -/
def bindAllNamed (drafts : List IndicatorDraft) (keymap : Keymap) :
    Report (Keymap × List IndicatorDraft) :=
  drafts.foldlM
    (fun (keymap, unbound) draft => do
      let (keymap, left) ← bindNamed keymap draft
      return (keymap, unbound ++ left.toList))
    (keymap, [])

/-- The keymap with a map for the indicator of its name or for the first one without a name. -/
def bindFree (keymap : Keymap) (draft : IndicatorDraft) : Report Keymap := do
  let names := keymap.keycodes.indicatorNames
  match slotNamed names draft.name <|> names.toList.findIdx? Option.isNone with
  | some slot => return bindAt keymap slot draft
  | none =>
    Report.warn "No unnamed indicators found"
      [s!"Virtual indicator map \"{draft.name}\" not bound"]
    return keymap

/-- The keymap with the maps that were left over. -/
def bindAllFree (drafts : List IndicatorDraft) (keymap : Keymap) : Report Keymap :=
  drafts.foldlM bindFree keymap

end IndicatorDraft

end Xkb
