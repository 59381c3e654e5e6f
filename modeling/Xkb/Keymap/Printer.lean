import Xkb.Action.Printer
import Xkb.Keymap.Basic

/-! Keymaps as text that can be compiled again: one composite map with its four sections. -/

namespace Xkb

namespace Text

/-- A character as it is written between quotes. -/
def escapeChar (c : Char) : List Char :=
  if c == '"' || c == '\\' then ['\\', c]
  else if c == '\n' then ['\\', 'n']
  else if c == '\t' then ['\\', 't']
  else [c]

/-- A text between quotes. -/
def quoted (text : String) : String :=
  "\"" ++ String.ofList (text.toList.flatMap escapeChar) ++ "\""

/-- Lines set in by one step, blank ones left blank. -/
def indent (lines : List String) : List String :=
  lines.map fun line => if line.isEmpty then line else "    " ++ line

/-- A heading with a body in braces. -/
def block (heading : String) (body : List String) : List String :=
  (heading ++ " \x7b") :: indent body ++ ["\x7d;"]

/-- Lines with a comma after each but the last. -/
def commaLines : List String → List String
  | [] => []
  | [line] => [line]
  | line :: rest => (line ++ ",") :: commaLines rest

end Text

namespace Keymap

/-- The name of a section between quotes, empty where it has none. -/
def sectionTitle (word : String) (name : Option String) : String :=
  word ++ " " ++ Text.quoted (name.getD "")

/-- A set of groups as text. -/
def groupMaskText (mask : UInt8) : String :=
  if mask == 0 then "none"
  else "+".intercalate
    (((List.range 8).filter fun group => meets8 mask (bit8 group)).map fun group =>
      s!"Group{group + 1}")

/-- A shift level, from 0, as text. -/
def levelText (level : Nat) : String :=
  if level < 8 then s!"Level{level + 1}" else toString (level + 1)

/-- What the actions of a keymap refer to. -/
def scope (keymap : Keymap) : Scope :=
  ⟨keymap.modifiers, keymap.keycodes⟩

/-- A modifier mask as text. -/
def maskText (keymap : Keymap) (mask : ModMask) : String :=
  keymap.modifiers.maskText mask

/-- The lines for the codes of the keys; a code whose name came before is an alternate one. -/
def codeLines (table : KeycodeTable) (seen : List KeyName) : List Nat → List String
  | [] => []
  | code :: rest =>
    let name := table.nameAt code
    if name.isEmpty then codeLines table seen rest
    else
      let word := if seen.contains name then "alternate " else ""
      s!"{word}{name.label} = {code};" :: codeLines table (name :: seen) rest

/-- The line for the name of an indicator. -/
def indicatorNameLines (table : KeycodeTable) (slot : Nat) : List String :=
  match table.indicatorName slot with
  | none => []
  | some name =>
    let word := if meets32 table.physical (bit32 slot) then "" else "virtual "
    [s!"{word}indicator {slot + 1} = " ++ Text.quoted name ++ ";"]

/-- The keycodes section. -/
def keycodesText (keymap : Keymap) : List String :=
  let table := keymap.keycodes
  Text.block (sectionTitle "xkb_keycodes" table.name)
    (s!"minimum = {table.low};" :: s!"maximum = {table.high};"
      :: codeLines table [] table.codes
      ++ (List.range 32).flatMap (indicatorNameLines table)
      ++ table.aliases.map fun key => s!"alias {key.name.label} = {key.real.label};")

/-- The declaration of a virtual modifier. -/
def modifierDeclaration (modifier : VirtualModifier) : String :=
  if modifier.real == 0 then modifier.name
  else modifier.name ++ "=" ++ realModifiersText modifier.real

/-- The lines for an entry of a key type. -/
def entryLines (keymap : Keymap) (entry : TypeEntry) : List String :=
  let mods := keymap.maskText entry.mods
  (if entry.level == 0 then [] else [s!"map[{mods}] = {levelText entry.level};"])
    ++ if entry.preserve.isEmpty then []
      else [s!"preserve[{mods}] = {keymap.maskText entry.preserve};"]

/-- The lines for the names of the levels of a key type. -/
def levelNameLines (names : List (Option String)) : List String :=
  names.zipIdx.flatMap fun (name, level) =>
    match name with
    | none => []
    | some name => [s!"level_name[{levelText level}] = " ++ Text.quoted name ++ ";"]

/-- A key type. -/
def typeText (keymap : Keymap) (type : KeyType) : List String :=
  Text.block ("type " ++ Text.quoted type.name)
    (s!"modifiers = {keymap.maskText type.mods};"
      :: type.entries.flatMap keymap.entryLines
      ++ levelNameLines type.levelNames)

/-- The types section, which declares the virtual modifiers. -/
def typesText (keymap : Keymap) : List String :=
  let declarations := keymap.modifiers.toList.map fun (_, modifier) => modifierDeclaration modifier
  let virtualLines :=
    if declarations.isEmpty then []
    else ["virtual_modifiers " ++ ",".intercalate declarations ++ ";", ""]
  Text.block (sectionTitle "xkb_types" keymap.types.name)
    (virtualLines ++ keymap.types.types.flatMap keymap.typeText)

/-- A truth value as text. -/
def truthText (value : Bool) : String :=
  if value then "True" else "False"

/-- An interpretation. -/
def interpretationText (keymap : Keymap) (interpretation : Interpretation) : List String :=
  let sym :=
    if interpretation.sym == Keysym.noSymbol then "Any" else Keysym.name interpretation.sym
  let mods := realModifiersText interpretation.mods
  let virtualModifier :=
    match interpretation.virtualModifier.bind keymap.modifiers.get? with
    | some modifier => [s!"virtualModifier = {modifier.name};"]
    | none => []
  Text.block s!"interpret {sym}+{interpretation.predicate.name}({mods})"
    (virtualModifier
      ++ (if interpretation.levelOneOnly then ["useModMapMods = level1;"] else [])
      ++ [s!"repeat = {truthText interpretation.autoRepeat};",
        s!"locking = {truthText interpretation.locking};",
        s!"action = {interpretation.action.text keymap.scope};"])

/-- A line where it is wanted. -/
def lineIf (wanted : Bool) (line : String) : List String :=
  if wanted then [line] else []

/-- An indicator map under the name of its indicator. -/
def indicatorText (keymap : Keymap) (name : String) (map : IndicatorMap) : List String :=
  let states (bits : UInt8) : String := maskNames bits.toUInt32 IndicatorMap.stateNames
  Text.block ("indicator " ++ Text.quoted name)
    (lineIf (meets8 map.flags IndicatorMap.noExplicit) "!allowExplicit;"
      ++ lineIf (meets8 map.flags IndicatorMap.drivesKeyboard) "drivesKeyboard;"
      ++ lineIf (map.whichMods != 0) s!"whichModState = {states map.whichMods};"
      ++ lineIf (!map.mods.isEmpty) s!"modifiers = {keymap.maskText map.mods};"
      ++ lineIf (map.whichGroups != 0) s!"whichGroupState = {states map.whichGroups};"
      ++ lineIf (map.groups != 0) s!"groups = {groupMaskText map.groups};"
      ++ lineIf (map.controls != 0) s!"controls = {maskNames map.controls controlNames};")

/-- The compatibility section; a map of an indicator without a name is left out. -/
def compatText (keymap : Keymap) : List String :=
  let groups := keymap.compat.groupMasks.toList.zipIdx.flatMap fun (mask, group) =>
    lineIf (!mask.isEmpty) s!"group {group + 1} = {keymap.maskText mask};"
  let indicators := keymap.compat.indicators.toList.zipIdx.flatMap fun (map, slot) =>
    match map, keymap.keycodes.indicatorName slot with
    | some map, some name => keymap.indicatorText name map
    | _, _ => []
  Text.block (sectionTitle "xkb_compatibility" keymap.compat.name)
    (keymap.compat.interpretations.flatMap keymap.interpretationText ++ groups ++ indicators)

/-- The fields for a group, from 0, of a key; the type is left out where it goes without saying. -/
def groupFields (keymap : Keymap) (key : Key) (info : KeyGroup) (group : Nat) : List String :=
  match keymap.types.types[info.typeIndex]? with
  | none => []
  | some type =>
    let syms := info.syms.take type.levels
    let inferred := (automaticType syms.length syms).map Prod.fst
    let typed := meets8 key.explicit (Explicit.keyType group) || inferred != some type.name
    let actions :=
      match info.actions with
      | none => []
      | some actions =>
        let texts := (actions.take syms.length).map (Action.text keymap.scope)
        [s!"actions[Group{group + 1}] = [ " ++ ", ".intercalate texts ++ " ]"]
    lineIf typed (s!"type[Group{group + 1}] = " ++ Text.quoted type.name)
      ++ [s!"symbols[Group{group + 1}] = [ " ++ ", ".intercalate (syms.map Keysym.name) ++ " ]"]
      ++ actions

/-- The fields for the behavior of a key. -/
def behaviorFields (keymap : Keymap) (behavior : Behavior) : List String :=
  match behavior.kind with
  | .default => []
  | .lock => [if behavior.permanent then "locks = permanent" else "locks = Yes"]
  | .radioGroup group allowNone =>
    let field := if behavior.permanent then "permanentRadioGroup" else "radioGroup"
    lineIf allowNone s!"allowNone[{group + 1}]" ++ [s!"{field} = {group + 1}"]
  | .overlay overlay code =>
    let field := if behavior.permanent then "permanentOverlay" else "overlay"
    [s!"{field}{overlay} = {(keymap.keycodes.nameAt code).label}"]

/-- The fields for what happens to groups out of range. -/
def groupRangeFields : GroupRange → List String
  | .wrap => []
  | .clamp => ["groupsClamp"]
  | .redirect group => [s!"groupsRedirect = Group{group + 1}"]

/-- The fields of a key. -/
def keyFields (keymap : Keymap) (key : Key) : List String :=
  let repeatField :=
    match key.autoRepeat with
    | none => []
    | some repeats => [if repeats then "repeat = Yes" else "repeat = No"]
  let virtualMods :=
    if key.virtualMods == 0 then "none" else keymap.modifiers.virtualText key.virtualMods
  key.groups.zipIdx.flatMap (fun (info, group) => keymap.groupFields key info group)
    ++ repeatField
    ++ lineIf (meets8 key.explicit Explicit.virtualMods) s!"virtualMods = {virtualMods}"
    ++ keymap.behaviorFields key.behavior
    ++ groupRangeFields key.groupRange

/-- A key with its fields. -/
def keyText (keymap : Keymap) (name : KeyName) (key : Key) : List String :=
  let fields := keymap.keyFields key
  if fields.isEmpty then [s!"key {name.label} \x7b \x7d;"]
  else Text.block s!"key {name.label}" (Text.commaLines fields)

/-- The names that keys of a kind have, without repetition, with the first key of each. -/
def namedKeys (keymap : Keymap) (isWanted : Key → Bool) : List (KeyName × Key) :=
  keymap.keycodes.codes.foldl
    (fun known code =>
      let name := keymap.keycodes.nameAt code
      match keymap.key? code with
      | none => known
      | some key =>
        if name.isEmpty || known.any (·.1 == name) || !isWanted key then known
        else known ++ [(name, key)])
    []

/-- The line for the keys that a real modifier is mapped to. -/
def modifierMapLines (keymap : Keymap) (modifier : Nat) : List String :=
  let keys := keymap.namedKeys fun key => meets8 key.modifierMap (bit8 modifier)
  let names := ", ".intercalate (keys.map fun (name, _) => name.label)
  lineIf (!keys.isEmpty) s!"modifier_map {realModifierName modifier} \x7b {names} \x7d;"

/-- The symbols section. -/
def symbolsText (keymap : Keymap) : List String :=
  let groupNames := keymap.symbols.groupNames.toList.zipIdx.flatMap fun (name, group) =>
    match name with
    | none => []
    | some name => [s!"name[Group{group + 1}] = " ++ Text.quoted name ++ ";"]
  let keys := (keymap.namedKeys Key.hasSymbols).flatMap fun (name, key) => keymap.keyText name key
  let modifierMap := (List.range 8).flatMap keymap.modifierMapLines
  Text.block (sectionTitle "xkb_symbols" keymap.symbols.name)
    (groupNames ++ keys ++ if modifierMap.isEmpty then [] else "" :: modifierMap)

/-- The lines of a keymap. -/
def lines (keymap : Keymap) : List String :=
  Text.block "xkb_keymap"
    (keymap.keycodesText ++ "" :: keymap.typesText ++ "" :: keymap.compatText
      ++ "" :: keymap.symbolsText)

/-- A keymap as text. -/
def text (keymap : Keymap) : String :=
  String.join (keymap.lines.map (· ++ "\n"))

end Keymap

end Xkb
