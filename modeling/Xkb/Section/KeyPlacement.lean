import Xkb.Keymap.Basic
import Xkb.Section.KeySymbols

/-! Symbols on their way into a keymap: every key is put on the codes of its name. -/

namespace Xkb

/-- A group with its type, as it is put on a code. -/
structure PlacedGroup where
  draft : GroupDraft
  typeIndex : Nat
  /-- The number of levels of the type. -/
  typeLevels : Nat
  /-- Whether the type counts as given. -/
  typeGiven : Bool

namespace PlacedGroup

/-- The position of the type for groups that have no other. -/
def twoLevelIndex : Nat :=
  1

/-- The type that a group names or gets, and whether it is plain. -/
def chooseType (key : KeyDraft) (code : Nat) (group : GroupDraft) :
    Report (Option String × Bool) := do
  match group.typeName <|> key.defaultType with
  | some name => return (some name, false)
  | none =>
    match automaticType group.levels (group.syms.getD []) with
    | some (name, plain) => return (some name, plain)
    | none =>
      if (← Report.level) ≥ 5 then
        Report.warn s!"No automatic type for {group.levels} symbols"
          [s!"Using TWO_LEVEL for the {key.name.label} key (keycode {code})"]
      return (none, false)

/-- The position of a type, unless there is none of the name. -/
def findType (types : TypeTable) (key : KeyDraft) (code : Nat) (name : Option String) :
    Report (Option Nat) := do
  match name.map fun name => (name, types.find name) with
  | none => return none
  | some (_, some index) => return some index
  | some (name, none) =>
    if (← Report.level) ≥ 3 then
      Report.warn s!"Type \"{name}\" is not defined"
        [s!"Using TWO_LEVEL for the {key.name.label} key (keycode {code})"]
    return none

/-- The group cut off at the levels of its type. -/
def clip (key : KeyDraft) (group : GroupDraft) (typeName : String) (typeLevels : Nat) :
    Report GroupDraft := do
  if group.levels ≤ typeLevels then return group
  if (← Report.level) > 5 then
    Report.warn
      (s!"Type \"{typeName}\" has {typeLevels} levels, "
        ++ s!"but {key.name.label} has {group.levels} symbols")
      ["Ignoring extra symbols"]
  return group.cut typeLevels

/-- A group of a key, from 0, with its type. -/
def ofGroup (types : TypeTable) (key : KeyDraft) (code group : Nat) : Report PlacedGroup := do
  let draft := key.groupAt group
  let (typeName, plain) ← chooseType key code draft
  let found ← findType types key code typeName
  let typeIndex := found.getD twoLevelIndex
  let (name, typeLevels) :=
    match types.types[typeIndex]? with
    | some type => (type.name, type.levels)
    | none => ("TWO_LEVEL", 2)
  let clipped ← clip key { draft with typeName } name typeLevels
  let isDefined := meets8 key.definedGroups (bit8 group)
  return {
    draft := clipped, typeIndex, typeLevels
    typeGiven := found.isSome && (!plain || 2 < draft.levels) && isDefined }

/-- The group of a key, of a width; a group without levels keeps the type of the earlier key. -/
def toKeyGroup (previous : Key) (width : Nat) (acting : Bool) (placed : PlacedGroup)
    (group : Nat) : KeyGroup :=
  let draft := placed.draft
  { typeIndex :=
      if 0 < draft.levels then placed.typeIndex
      else ((previous.groups[group]?).map (·.typeIndex)).getD placed.typeIndex
    syms := fitTo width .noSymbol ((draft.syms.getD []).take draft.levels)
    actions :=
      if acting then some (fitTo width .none ((draft.actions.getD []).take draft.levels))
      else none }

end PlacedGroup

namespace KeyDraft

/-- How messages name the keycodes of a keymap. -/
def keycodesLabel (keycodes : KeycodeTable) : String :=
  keycodes.name.getD "(unnamed)"

/-- The behavior of a key on a code, if it has one; an overlay needs the other key. -/
def placeBehavior (keycodes : KeycodeTable) (key : KeyDraft) : Report (Option Behavior) := do
  match key.behavior.kind with
  | .default => return none
  | .overlay overlay _ =>
    match key.overlayKey.bind (keycodes.findKey · 0) with
    | some code => return some ⟨.overlay overlay code, key.behavior.permanent⟩
    | none =>
      if (← Report.level) ≥ 1 then
        let missing := key.overlayKey.getD KeyName.empty
        Report.warn s!"Key {missing.label} not found in {keycodesLabel keycodes} keycodes"
          [s!"Not treating {key.name.label} as an overlay key"]
      return none
  | _ => return some key.behavior

/-- The number of groups up to the last one that anything was said of. -/
def groupCount (key : KeyDraft) : Nat :=
  match key.lastGroup with
  | some last => last + 1
  | none => 0

/-- The groups of a key on a code, in the place of those of the earlier key. -/
def placeGroups (key : KeyDraft) (previous : Key) (placed : List PlacedGroup) : List KeyGroup :=
  let acting := placed.any (·.draft.actions.isSome)
  let width := placed.foldl
    (fun widest group => max widest (max group.draft.levels group.typeLevels)) 0
  (placed.take key.groupCount).zipIdx.map fun (group, index) =>
    group.toKeyGroup previous width acting index

/-- The bits for the parts that the groups of a key give explicitly. -/
def explicitGroups (placed : List PlacedGroup) : UInt8 :=
  let types := placed.zipIdx.foldl
    (fun bits (group, index) => if group.typeGiven then bits ||| Explicit.keyType index else bits) 0
  if placed.any (·.draft.actions.isSome) then types ||| Explicit.interpretation else types

/-- The bits where a condition holds. -/
def bitsIf (condition : Bool) (bits : UInt8) : UInt8 :=
  if condition then bits else 0

/-- The key on a code, in the place of an earlier one, and the draft with the types that its
groups got. -/
def placeAt (types : TypeTable) (keycodes : KeycodeTable) (key : KeyDraft) (code : Nat)
    (previous : Key) : Report (KeyDraft × Key) := do
  let placed ← (List.range 4).mapM (PlacedGroup.ofGroup types key code)
  let behavior ← key.placeBehavior keycodes
  let givesMods := key.definition.defines KeyField.virtualMods
  let placedKey : Key := {
    groups := key.placeGroups previous placed
    groupRange :=
      if key.definition.defines KeyField.groupRange then key.groupRange else previous.groupRange
    explicit := previous.explicit ||| explicitGroups placed
      ||| bitsIf behavior.isSome Explicit.behavior
      ||| bitsIf givesMods Explicit.virtualMods
      ||| bitsIf key.autoRepeat.isSome Explicit.autoRepeat
    autoRepeat := key.autoRepeat <|> previous.autoRepeat
    behavior := behavior.getD previous.behavior
    virtualMods := if givesMods then key.virtualMods else previous.virtualMods
    modifierMap := previous.modifierMap }
  let typed := placed.zipIdx.foldl (fun key (group, index) => key.setGroup index group.draft) key
  return (typed, placedKey)

/-- The keys with a key on every code of its name. -/
def place (types : TypeTable) (keycodes : KeycodeTable) (keys : Vector Key 256)
    (key : KeyDraft) : Report (Vector Key 256) := do
  match keycodes.findKey key.name 0 with
  | none =>
    if (← Report.level) ≥ 5 then
      Report.warn s!"Key {key.name.label} not found in {keycodesLabel keycodes} keycodes"
        ["Symbols ignored"]
    return keys
  | some first =>
    let (_, keys) ← (first :: keycodes.codesNamed key.name (first + 1)).foldlM
      (fun (key, keys) code => do
        let previous := (keys[code]?).getD Key.empty
        let (key, placed) ← key.placeAt types keycodes code previous
        return (key, Vector.setIfInBounds keys code placed))
      (key, keys)
    return keys

end KeyDraft

namespace SymbolContents

/-- The code that an entry of the modifier map is for. -/
def findTarget (keymap : Keymap) (entry : ModifierEntry) : Report (Option Nat) := do
  let level ← Report.level
  let action := s!"Modifier map entry for {realModifierName entry.modifier} not updated"
  match entry.target with
  | .key name =>
    let found := keymap.keycodes.findKey name 0
    if found.isNone && level ≥ 5 then
      Report.warn
        s!"Key {name.label} not found in {KeyDraft.keycodesLabel keymap.keycodes} keycodes" [action]
    return found
  | .symbol sym =>
    let found := keymap.findSymbol sym
    if found.isNone && level > 5 then
      let map := keymap.symbols.name.getD ""
      Report.warn s!"Key \"{Keysym.name sym}\" not found in {map} symbol map" [action]
    return found

/-- The keymap with an entry of the modifier map. -/
def applyModifier (keymap : Keymap) (entry : ModifierEntry) : Report Keymap := do
  match ← findTarget keymap entry with
  | none => return keymap
  | some code =>
    let key := (keymap.key? code).getD .empty
    let marked := { key with modifierMap := key.modifierMap ||| bit8 entry.modifier }
    let keys := keymap.symbols.keys.setIfInBounds code marked
    return { keymap with symbols := { keymap.symbols with keys } }

/-- Notes the keys without symbols, if that is wanted. -/
def noteEmptyKeys (keymap : Keymap) : Report Unit := do
  if (← Report.level) > 3 then
    keymap.keycodes.codes.forM fun code => do
      let name := keymap.keycodes.nameAt code
      if !name.isEmpty && ((keymap.key? code).getD .empty).groups.isEmpty then
        Report.info s!"No symbols defined for {name.label} (keycode {code})"

/-- The keymap with what the section defines; a section without keys changes nothing. -/
def apply (contents : SymbolContents) (name : Option String) (keymap : Keymap) :
    Report Keymap := do
  if contents.keys.isEmpty then return keymap
  let keys ← (contents.keys.map KeyDraft.prepare).foldlM
    (KeyDraft.place keymap.types keymap.keycodes) keymap.symbols.keys
  let groupNames := mergeGroupNames .override contents.groupNames keymap.symbols.groupNames
  let keymap := { keymap with symbols := { name, keys, groupNames } }
  noteEmptyKeys keymap
  contents.modifierMap.foldlM applyModifier keymap

end SymbolContents

end Xkb
