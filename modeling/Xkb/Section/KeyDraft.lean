import Xkb.Action.Defaults
import Xkb.Keymap.Key
import Xkb.Section.Draft

/-! Keys as they are put together, field by field. -/

namespace Xkb

/-- A group of a key while it is put together; the lists that are there have `levels` entries. -/
structure GroupDraft where
  levels : Nat
  syms : Option (List Keysym)
  actions : Option (List Action)
  typeName : Option String
deriving DecidableEq, Inhabited

/-- A list cut off or filled up to a width. -/
def fitTo {α : Type} (width : Nat) (filler : α) (list : List α) : List α :=
  list.take width ++ List.replicate (width - list.length) filler

/-- A list with entries put over its first ones. -/
def overwrite {α : Type} (entries list : List α) : List α :=
  entries ++ list.drop entries.length

namespace GroupDraft

/-- A group without levels. -/
def empty : GroupDraft :=
  ⟨0, none, none, none⟩

/-- The symbol at a level. -/
def symAt (group : GroupDraft) (level : Nat) : Keysym :=
  (group.syms.bind (·[level]?)).getD .noSymbol

/-- The action at a level, if there are actions up to there. -/
def actionAt (group : GroupDraft) (level : Nat) : Option Action :=
  group.actions.bind (·[level]?)

/-- A list that grows with the levels; one that is wanted is made if there is none. -/
def growList {α : Type} (wanted : Bool) (levels width : Nat) (filler : α) :
    Option (List α) → Option (List α)
  | none => if wanted then some (List.replicate width filler) else none
  | some list => some (if levels < width then fitTo width filler list else list)

/-- The group with symbols, and with actions if these are wanted, for at least so many levels. -/
def grow (group : GroupDraft) (levels : Nat) (acting : Bool) : GroupDraft :=
  let width := max group.levels levels
  { group with
    levels := width
    syms := growList true group.levels width .noSymbol group.syms
    actions := growList acting group.levels width .none group.actions }

/-- The group cut off at a level. -/
def cut (group : GroupDraft) (levels : Nat) : GroupDraft :=
  { group with
    levels
    syms := group.syms.map (·.take levels)
    actions := group.actions.map (·.take levels) }

/-- The number of levels up to the last one with a symbol. -/
def usedLevels (group : GroupDraft) : Nat → Nat
  | 0 => 0
  | levels + 1 => if group.symAt levels == .noSymbol then group.usedLevels levels else levels + 1

/-- The group with symbols, where levels without a symbol at the end are cut off. -/
def putSyms (group : GroupDraft) (syms : List Keysym) : GroupDraft :=
  let grown := group.grow syms.length false
  let filled := { grown with syms := grown.syms.map (overwrite syms) }
  filled.cut (filled.usedLevels filled.levels)

/-- The group with actions. -/
def putActions (group : GroupDraft) (actions : List Action) : GroupDraft :=
  let grown := group.grow actions.length true
  { grown with actions := grown.actions.map (overwrite actions) }

end GroupDraft

/-- A key while it is put together. -/
structure KeyDraft where
  definition : Definition
  name : KeyName
  groups : Vector GroupDraft 4
  /-- One bit for each group that has symbols. -/
  symsDefined : UInt8
  /-- One bit for each group that has actions. -/
  actionsDefined : UInt8
  /-- One bit for each group that has a type. -/
  typesDefined : UInt8
  /-- The type of the groups that have none. -/
  defaultType : Option String
  autoRepeat : Option Bool
  behavior : Behavior
  /-- The key that an overlay puts in place of this one. -/
  overlayKey : Option KeyName
  /-- One bit for each radio group of which no key need be down. -/
  allowNone : UInt32
  virtualMods : UInt16
  groupRange : GroupRange
deriving DecidableEq, Inhabited

namespace KeyField

/-- Whether the key repeats. -/
def autoRepeat : UInt32 := bit32 2

/-- The behavior. -/
def behavior : UInt32 := bit32 3

/-- The type of the groups that have none. -/
def defaultType : UInt32 := bit32 4

/-- What becomes of other groups. -/
def groupRange : UInt32 := bit32 6

/-- The virtual modifiers. -/
def virtualMods : UInt32 := bit32 7

/-- All fields. -/
def all : List UInt32 :=
  [behavior, virtualMods, autoRepeat, defaultType, groupRange]

end KeyField

namespace KeyDraft

/-- What keys start out with. -/
def base : KeyDraft where
  definition := .start .initial .override
  name := .ofString "*"
  groups := Vector.replicate 4 .empty
  symsDefined := 0
  actionsDefined := 0
  typesDefined := 0
  defaultType := none
  autoRepeat := none
  behavior := .default
  overlayKey := none
  allowNone := 0
  virtualMods := 0
  groupRange := .wrap

/-- A group of the key, from 0. -/
def groupAt (key : KeyDraft) (group : Nat) : GroupDraft :=
  (key.groups[group]?).getD .empty

/-- The key with a group changed. -/
def setGroup (key : KeyDraft) (group : Nat) (draft : GroupDraft) : KeyDraft :=
  { key with groups := key.groups.setIfInBounds group draft }

/-- One bit for each group that anything was said of. -/
def definedGroups (key : KeyDraft) : UInt8 :=
  key.symsDefined ||| key.actionsDefined ||| key.typesDefined

/-- The key with a field marked as set. -/
def define (key : KeyDraft) (field : UInt32) : KeyDraft :=
  { key with definition := key.definition.define field }

/-- Refuses an assignment with an error. -/
def refuse (key : KeyDraft) (message : String) (actions : List String) :
    Report (KeyDraft × Bool) := do
  Report.error message actions
  return (key, false)

/-- The group, from 0, that a list is for: the one that is given, else the first one without such
a list. -/
def listGroup (key : KeyDraft) (index : Option Expr) (what : String) (defined : UInt8) :
    Report (Option Nat) := do
  let refuse (message action : String) : Report (Option Nat) := do
    Report.error message [action]
    return none
  let keyText := key.name.label
  match index.map (Expr.toInteger Lookup.groups) with
  | none =>
    match (List.range 4).find? fun group => !meets8 defined (bit8 group) with
    | some group => return some group
    | none =>
      refuse s!"Too many groups of {what} for key {keyText} (max 4)"
        s!"Ignoring {what} defined for extra groups"
  | some (.error _) =>
    refuse s!"Illegal group index for {what} of key {keyText}"
      "Definition with non-integer array index ignored"
  | some (.ok group) =>
    if group < 1 || 4 < group then
      refuse s!"Group index for {what} of key {keyText} is out of range (1..4)"
        s!"Ignoring {what} for group {group.toInt}"
    else return some (group.toInt.toNat - 1)

/-- The keysym of a name, or none with a warning. -/
def readSym (name : String) : Report Keysym := do
  match Keysym.lookup name with
  | some sym => return sym
  | none =>
    if (← Report.level) > 0 then Report.warn s!"Could not resolve keysym {name}" []
    return .noSymbol

/-- Adds the symbols of a group. -/
def addSyms (key : KeyDraft) (index : Option Expr) (value : Option Expr) :
    Report (KeyDraft × Bool) := do
  match ← key.listGroup index "symbols" key.symsDefined with
  | none => return (key, false)
  | some group =>
    let marked := { key with symsDefined := key.symsDefined ||| bit8 group }
    match value with
    | none => return (marked, true)
    | some (.keysyms names) =>
      if (key.groupAt group).syms.isSome then
        key.refuse s!"Symbols for key {key.name.label}, group {group + 1} already defined" []
      else
        let syms ← names.mapM readSym
        return (marked.setGroup group ((key.groupAt group).putSyms syms), true)
    | some other =>
      key.refuse s!"Expected a list of symbols, found {other.kindName}"
        [s!"Ignoring symbols for group {group + 1} of {key.name.label}"]

/-- The action of a call, or none with an error. -/
def readAction (scope : Scope) (defaults : ActionDefaults) (key : KeyDraft) (group : Nat)
    (call : Expr) (level : Nat) : Report Action := do
  match defaults.resolve scope call with
  | .ok action => return action
  | .error error =>
    Report.error (s!"Illegal action definition for {key.name.label}: " ++ error.message)
      [s!"Action for group {group + 1}/level {level + 1} ignored"]
    return .none

/-- Adds the actions of a group. -/
def addActions (scope : Scope) (defaults : ActionDefaults) (key : KeyDraft) (index : Option Expr)
    (value : Option Expr) : Report (KeyDraft × Bool) := do
  match ← key.listGroup index "actions" key.actionsDefined with
  | none => return (key, false)
  | some group =>
    let marked := { key with actionsDefined := key.actionsDefined ||| bit8 group }
    match value with
    | none => return (marked, true)
    | some (.calls calls) =>
      if (key.groupAt group).actions.isSome then
        key.refuse s!"Actions for key {key.name.label}, group {group + 1} already defined" []
      else if calls.isEmpty then
        key.refuse s!"Empty action list for group {group + 1} of key {key.name.label}" []
      else
        let actions ← calls.zipIdx.mapM fun (call, level) =>
          readAction scope defaults key group call level
        return (marked.setGroup group ((key.groupAt group).putActions actions), true)
    | some other =>
      key.refuse s!"Bad expression type ({other.kindName}) for action list value"
        [s!"Ignoring actions for group {group + 1} of {key.name.label}"]

/-- Sets whether no key of a radio group need be down, for one radio group or for all. -/
def setAllowNone (key : KeyDraft) (index : Option Expr) (value : Expr) :
    Report (KeyDraft × Bool) := do
  let set (groups : UInt32) : Report (KeyDraft × Bool) :=
    match value.toBoolean Lookup.none with
    | .ok on => return ({ key with allowNone := switch32 key.allowNone groups on }, true)
    | .error _ =>
      key.refuse s!"Illegal \"allow none\" value for {key.name.label}"
        ["Non-boolean value ignored"]
  match index.map (Expr.toInteger Lookup.radioGroups) with
  | none => set 0xffffffff
  | some (.error _) =>
    key.refuse "Illegal index in allow none definition"
      ["Definition with non-integer array index ignored"]
  | some (.ok group) =>
    if group < 1 || 32 < group then
      key.refuse "Illegal radio group specified (must be 1..32)"
        [s!"Value of \"allow none\" for group {group.toInt} ignored"]
    else set (bit32 (group.toInt.toNat - 1))

/-- Sets the type of a group, or of the groups that have none. -/
def setType (key : KeyDraft) (index : Option Expr) (value : Expr) : Report (KeyDraft × Bool) := do
  match value.toText with
  | .error _ =>
    if (← Report.level) > 0 then
      Report.warn "The type field of a key symbol map must be a string"
        ["Ignoring illegal type definition"]
    return (key, false)
  | .ok name =>
    match index.map (Expr.toInteger Lookup.groups) with
    | none => return ({ key with defaultType := some name }.define KeyField.defaultType, true)
    | some (.error _) =>
      key.refuse s!"Illegal group index for type of key {key.name.label}"
        ["Definition with non-integer array index ignored"]
    | some (.ok group) =>
      if group < 1 || 4 < group then
        key.refuse s!"Group index for type of key {key.name.label} is out of range (1..4)"
          [s!"Ignoring type for group {group.toInt}"]
      else
        let group := group.toInt.toNat - 1
        let typed := key.setGroup group { key.groupAt group with typeName := some name }
        return ({ typed with typesDefined := key.typesDefined ||| bit8 group }, true)

/-- Sets the virtual modifiers. -/
def setVirtualMods (modifiers : VirtualModifiers) (key : KeyDraft) (value : Expr) :
    Report (KeyDraft × Bool) :=
  match modifiers.maskOf value with
  | .ok mask => return ({ key with virtualMods := mask.virtual }.define KeyField.virtualMods, true)
  | .error _ =>
    key.refuse s!"Expected a virtual modifier mask, found {value.kindName}"
      [s!"Ignoring virtual modifiers definition for key {key.name.label}"]

/-- The choice that a truth value or a name makes. -/
def readChoice {α : Type} (yes no : α) (others : List (String × α)) (value : Expr) : Option α :=
  match value with
  | .boolean on => some (if on then yes else no)
  | other =>
    (other.toChoice ([("true", yes), ("yes", yes), ("on", yes), ("false", no), ("no", no),
      ("off", no)] ++ others)).toOption

/-- Sets whether the key locks. -/
def setLock (key : KeyDraft) (value : Expr) : Report (KeyDraft × Bool) := do
  let marked := key.define KeyField.behavior
  let choice := readChoice ⟨.lock, false⟩ Behavior.default [("permanent", ⟨.lock, true⟩)] value
  match choice with
  | some behavior => return ({ marked with behavior }, true)
  | none => marked.refuse s!"Illegal locking setting for {key.name.label}" ["Ignored"]

/-- Sets the radio group, from 1, or 0 for none. -/
def setRadioGroup (key : KeyDraft) (permanent : Bool) (value : Expr) :
    Report (KeyDraft × Bool) := do
  match value.toInteger (Lookup.ofTable [("none", 0)]) with
  | .error _ =>
    key.refuse s!"Illegal radio group specification for {key.name.label}"
      ["Non-integer radio group ignored"]
  | .ok group =>
    if group == 0 then return ({ key with behavior := .default }, true)
    if group < 1 || 32 < group then
      return ← key.refuse s!"Radio group specification for {key.name.label} out of range (1..32)"
        [s!"Illegal radio group {group.toInt} ignored"]
    let slot := group.toInt.toNat - 1
    let kind := BehaviorKind.radioGroup slot.toUInt8 (meets32 key.allowNone (bit32 slot))
    return ({ key with behavior := ⟨kind, permanent⟩ }.define KeyField.behavior, true)

/-- What is left of a text behind a leading text, as often as that one stands there. -/
def dropLeads (lead : String) : Nat → String → String
  | 0, text => text
  | limit + 1, text =>
    match Text.afterLead lead text with
    | some rest => dropLeads lead limit rest
    | none => text

/-- Whether an overlay field is for a permanent overlay, and what its name says of the number. -/
def overlayField (field : String) : Bool × String :=
  match Text.afterLead "permanentoverlay" field with
  | some rest => (true, rest)
  | none => (false, dropLeads "overlay" field.length field)

/-- The number of an overlay, which is 1 where none is said. -/
def overlayNumber (text : String) : Option Nat :=
  if text == "" then some 1 else (Text.readNumber 10 2 text.toList).filter (· != 0)

/-- Sets the key that an overlay puts in place of this one. -/
def setOverlay (key : KeyDraft) (field : String) (value : Expr) : Report (KeyDraft × Bool) := do
  let (permanent, which) := overlayField field
  match overlayNumber which, value.toKeyName with
  | none, _ =>
    key.refuse s!"Illegal overlay \"{which}\" specified for {key.name.label}" ["Ignored"]
  | some _, .error _ =>
    key.refuse s!"Illegal overlay key specification for {key.name.label}"
      ["Overlay key must be specified by name"]
  | some number, .ok target =>
    let behavior : Behavior := ⟨.overlay number.toUInt8 0, permanent⟩
    return ({ key with behavior, overlayKey := some target }.define KeyField.behavior, true)

/-- Sets whether the key repeats. -/
def setRepeat (key : KeyDraft) (value : Expr) : Report (KeyDraft × Bool) :=
  match readChoice (some true) (some false) [("default", none)] value with
  | some autoRepeat => return ({ key with autoRepeat }.define KeyField.autoRepeat, true)
  | none =>
    key.refuse s!"Illegal repeat setting for {key.name.label}"
      ["Non-boolean repeat setting ignored"]

/-- Sets whether other groups wrap around or are clamped. -/
def setWrap (key : KeyDraft) (field : String) (wraps : Bool) (value : Expr) :
    Report (KeyDraft × Bool) :=
  match value.toBoolean Lookup.none with
  | .error _ =>
    key.refuse s!"Illegal {field} setting for {key.name.label}" ["Non-boolean value ignored"]
  | .ok on =>
    let groupRange := if wraps == on then GroupRange.wrap else .clamp
    return ({ key with groupRange }.define KeyField.groupRange, true)

/-- Sets the group that other groups are redirected to. -/
def setRedirect (key : KeyDraft) (value : Expr) : Report (KeyDraft × Bool) := do
  match value.toInteger Lookup.groups with
  | .error _ =>
    key.refuse s!"Illegal group index for redirect of key {key.name.label}"
      ["Definition with non-integer group ignored"]
  | .ok group =>
    if group < 1 || 4 < group then
      return ← key.refuse s!"Out-of-range (1..4) group for redirect of key {key.name.label}"
        [s!"Ignoring illegal group {group.toInt}"]
    let groupRange := GroupRange.redirect (group.toInt.toNat - 1).toUInt8
    return ({ key with groupRange }.define KeyField.groupRange, true)

/-- Sets what becomes of other groups, if that is what a field in lower case is for. -/
def setGroupRange (key : KeyDraft) (field : String) (value : Expr) :
    Option (Report (KeyDraft × Bool)) :=
  match field with
  | "groupswrap" | "wrapgroups" => some (key.setWrap field true value)
  | "groupsclamp" | "clampgroups" => some (key.setWrap field false value)
  | "groupsredirect" | "redirectgroups" => some (key.setRedirect value)
  | _ => none

/-- Sets a field other than the lists; a field without a value is true. -/
def setScalar (modifiers : VirtualModifiers) (key : KeyDraft) (field : String)
    (index : Option Expr) (value : Expr) : Report (KeyDraft × Bool) :=
  let lower := Text.foldCase field
  match lower with
  | "type" => key.setType index value
  | "vmods" | "virtualmods" | "virtualmodifiers" => key.setVirtualMods modifiers value
  | "locking" | "lock" | "locks" => key.setLock value
  | "radiogroup" => key.setRadioGroup false value
  | "permanentradiogroup" => key.setRadioGroup true value
  | "allownone" => key.setAllowNone index value
  | "repeating" | "repeats" | "repeat" => key.setRepeat value
  | _ =>
    if (Text.afterLead "overlay" lower).isSome || (Text.afterLead "permanentoverlay" lower).isSome
    then key.setOverlay lower value
    else
      (key.setGroupRange lower value).getD
        (key.refuse s!"Unknown field {field} in a key symbol definition" ["Definition ignored"])

/-- Sets a field of a key. -/
def setField (scope : Scope) (defaults : ActionDefaults) (key : KeyDraft) (field : String)
    (index : Option Expr) (value : Option Expr) : Report (KeyDraft × Bool) :=
  match Text.foldCase field with
  | "symbols" => key.addSyms index value
  | "actions" => key.addActions scope defaults index value
  | _ => key.setScalar scope.modifiers field index (value.getD (.boolean true))

/-- Moves the first group of a key to another place, from 0; the other groups are dropped. -/
def moveGroup (key : KeyDraft) (group : Nat) (map : String) : Report (KeyDraft × Bool) := do
  if group == 0 then return (key, true)
  if 4 ≤ group then
    return ← key.refuse s!"Explicit group {group + 1} for map {map} is out of range (1..4)" []
  if meets8 key.definedGroups (~~~(bit8 0)) && (← Report.level) > 0 then
    Report.warn
      (s!"For map {map} an explicit group is specified but key {key.name.label} "
        ++ "has more than one group defined")
      ["All groups except first one will be ignored"]
  let bit := bit8 group
  let groups :=
    if meets8 key.definedGroups (~~~(bit8 0)) then Vector.replicate 4 GroupDraft.empty
    else key.groups.setIfInBounds 0 .empty
  return ({ key with
    groups := groups.setIfInBounds group (key.groupAt 0)
    symsDefined := bit, actionsDefined := bit, typesDefined := bit }, true)

/-- The key with a group that nothing was said of filled in from the first one. -/
def fillGroup (key : KeyDraft) (group : Nat) : KeyDraft :=
  let first := key.groupAt 0
  let own := key.groupAt group
  let bit := bit8 group
  let typed := meets8 key.typesDefined (bit8 0)
  let acting := meets8 key.actionsDefined (bit8 0) && first.actions.isSome
  let lettered := meets8 key.symsDefined (bit8 0) && first.syms.isSome
  let filled : GroupDraft := {
    levels := if meets8 key.definedGroups (bit8 0) then first.levels else own.levels
    syms := if lettered then first.syms else own.syms
    actions := if acting then first.actions else own.actions
    typeName := if typed then first.typeName else own.typeName }
  { key.setGroup group filled with
    typesDefined := if typed then key.typesDefined ||| bit else key.typesDefined
    actionsDefined := if acting then key.actionsDefined ||| bit else key.actionsDefined
    symsDefined := if lettered then key.symsDefined ||| bit else key.symsDefined }

/-- The key with its groups after the first dropped. -/
def collapse (key : KeyDraft) : KeyDraft :=
  { key with
    groups := (Vector.replicate 4 GroupDraft.empty).setIfInBounds 0 (key.groupAt 0)
    symsDefined := key.symsDefined &&& bit8 0
    actionsDefined := key.actionsDefined &&& bit8 0
    typesDefined := key.typesDefined &&& bit8 0 }

/-- The last group, from 0, that anything was said of. -/
def lastGroup (key : KeyDraft) : Option Nat :=
  (List.range 4).reverse.find? fun group => meets8 key.definedGroups (bit8 group)

/-- The key with the groups below the last one filled in, and with a single group where all are
alike. -/
def prepare (key : KeyDraft) : KeyDraft :=
  match key.lastGroup with
  | none | some 0 => key
  | some last =>
    let missing := (List.range' 1 last).filter fun group =>
      !meets8 key.definedGroups (bit8 group)
    let filled := missing.foldl fillGroup key
    if (List.range' 1 last).all fun group => filled.groupAt group == filled.groupAt 0 then
      filled.collapse
    else filled

end KeyDraft

end Xkb
