import Xkb.Keymap.KeyType
import Xkb.Section.Draft

/-! Types sections: key types as they are put together, field by field. -/

namespace Xkb

/-- The modifiers that stay in force where a set of modifiers is looked up. -/
structure PreserveEntry where
  mods : ModMask
  preserve : ModMask
deriving DecidableEq, Inhabited

/-- A set of modifiers with the level it selects, from 0. -/
structure MapEntry where
  mods : ModMask
  level : Nat
deriving DecidableEq, Inhabited

/-- A key type while it is put together. -/
structure TypeDraft where
  definition : Definition
  name : String
  mask : ModMask
  levels : Nat
  entries : List MapEntry
  preserves : List PreserveEntry
  levelNames : List (Option String)
deriving DecidableEq, Inhabited

namespace TypeDraft

/-- The bit that says that the modifiers of a type were given. -/
def maskField : UInt32 := bit32 0

/-- The highest level that a type can have, from 1. -/
def highestLevel : Int64 := 64

/-- A type of one level. -/
def start (name : String) (origin : Origin) (mode : MergeMode) : TypeDraft :=
  ⟨.start origin mode, name, .empty, 1, [], [], []⟩

/-- Adds the level of a set of modifiers; for a set that has one already, `clobber` says which
level counts. -/
def addEntry (modifiers : VirtualModifiers) (draft : TypeDraft) (new : MapEntry)
    (clobber report : Bool) : Report TypeDraft := do
  let mods := modifiers.maskText new.mods
  match draft.entries.find? (·.mods == new.mods) with
  | none =>
    return { draft with
      entries := draft.entries ++ [new]
      levels := max draft.levels (new.level + 1) }
  | some old =>
    let differs := report && old.level != new.level
    if differs then
      let (used, ignored) :=
        if clobber then (new.level + 1, old.level + 1) else (old.level + 1, new.level + 1)
      Report.warn s!"Multiple map entries for {mods} in {draft.name}"
        [s!"Using {used}, ignoring {ignored}"]
    else if (← Report.level) > 9 then
      Report.warn s!"Multiple occurrences of map[{mods}]= {old.level + 1} in {draft.name}"
        ["Ignored"]
      return draft
    let entries :=
      if clobber then
        changeFirst (·.mods == new.mods) ({ · with level := new.level })
          draft.entries
      else draft.entries
    return { draft with entries, levels := max draft.levels (new.level + 1) }

/-- Adds the modifiers that stay in force for a set; for a set that has some already, `clobber`
says which count. -/
def addPreserve (modifiers : VirtualModifiers) (draft : TypeDraft) (new : PreserveEntry)
    (clobber report : Bool) : Report TypeDraft := do
  match draft.preserves.find? (·.mods == new.mods) with
  | none => return { draft with preserves := draft.preserves ++ [new] }
  | some old =>
    let level ← Report.level
    let mods := modifiers.maskText new.mods
    if old.preserve == new.preserve then
      if level > 9 then
        Report.warn s!"Identical definitions for preserve[{mods}] in {draft.name}" ["Ignored"]
      return draft
    if report && level > 0 then
      let (used, ignored) :=
        if clobber then (new.preserve, old.preserve) else (old.preserve, new.preserve)
      Report.warn s!"Multiple definitions for preserve[{mods}] in {draft.name}"
        [s!"Using {modifiers.maskText used}, ignoring {modifiers.maskText ignored}"]
    if clobber then
      let preserves :=
        changeFirst (·.mods == new.mods) ({ · with preserve := new.preserve })
          draft.preserves
      return { draft with preserves }
    return draft

/-- The list with a name at a level, filled up as far as needed. -/
def setLevelName (names : List (Option String)) (level : Nat) (name : String) :
    List (Option String) :=
  (names ++ List.replicate (level + 1 - names.length) none).set level (some name)

/-- Adds the name of a level, from 0; for a level that has one already, `clobber` says which
counts. -/
def addLevelName (draft : TypeDraft) (level : Nat) (name : String) (clobber : Bool) :
    Report TypeDraft := do
  let named : TypeDraft :=
    { draft with
      levelNames := setLevelName draft.levelNames level name
      levels := max draft.levels (level + 1) }
  match (draft.levelNames[level]?).join with
  | none => return named
  | some old =>
    if old == name then
      if (← Report.level) > 9 then
        Report.warn s!"Duplicate names for level {level + 1} of key type {draft.name}" ["Ignored"]
      return draft
    if (← Report.level) > 0 then
      let (used, ignored) := if clobber then (name, old) else (old, name)
      Report.warn s!"Multiple names for level {level + 1} of key type {draft.name}"
        [s!"Using {used}, ignoring {ignored}"]
    return if clobber then named else draft

/-- Refuses an assignment with an error. -/
def refuse (draft : TypeDraft) (message : String) (actions : List String) :
    Report (TypeDraft × Bool) := do
  Report.error message actions
  return (draft, false)

/-- Refuses a value of the wrong type. -/
def refuseType (draft : TypeDraft) (field wanted : String) : Report (TypeDraft × Bool) :=
  draft.refuse s!"The {field} field in key type {draft.name} must be of type {wanted}" []

/-- Refuses an assignment without a subscript. -/
def refusePlain (draft : TypeDraft) (field : String) : Report (TypeDraft × Bool) :=
  draft.refuse s!"Missing subscript for {field} in key type {draft.name}"
    ["Ignoring illegal assignment"]

/-- Sets the modifiers of a type, once. -/
def setModifiers (modifiers : VirtualModifiers) (draft : TypeDraft) (index : Option Expr)
    (value : Expr) : Report (TypeDraft × Bool) := do
  if index.isSome then
    Report.warn "The modifiers field of a key type is not an array"
      ["Illegal array subscript ignored"]
  match modifiers.maskOf value with
  | .error _ =>
    draft.refuse "Key type mask field must be a modifier mask" ["Key type definition ignored"]
  | .ok mask =>
    if draft.definition.defines maskField then
      Report.warn s!"Multiple modifier mask definitions for key type {draft.name}"
        [s!"Using {modifiers.maskText draft.mask}, ignoring {modifiers.maskText mask}"]
      return (draft, false)
    return ({ draft with mask, definition := draft.definition.define maskField }, true)

/-- The modifiers of a set that belong to the type, with a warning if others are lost. -/
def clip (modifiers : VirtualModifiers) (draft : TypeDraft) (mods : ModMask) (message : String) :
    Report ModMask := do
  if mods.subsetOf draft.mask then return mods
  let clipped := mods.intersect draft.mask
  if (← Report.level) > 0 then
    Report.warn message
      [s!"Using {modifiers.maskText clipped} instead of {modifiers.maskText mods}"]
  return clipped

/-- Sets the level of a set of modifiers. -/
def setEntry (modifiers : VirtualModifiers) (draft : TypeDraft) (index : Option Expr)
    (value : Expr) : Report (TypeDraft × Bool) := do
  match index.map modifiers.maskOf with
  | none => draft.refusePlain "map entry"
  | some (.error _) => draft.refuseType "map entry" "modifier mask"
  | some (.ok mods) =>
    let mods ← draft.clip modifiers mods s!"Map entry for unused modifiers in {draft.name}"
    match value.toInteger Lookup.levels with
    | .error _ =>
      draft.refuse "Level specifications in a key type must be integer"
        ["Ignoring malformed level specification"]
    | .ok level =>
      if level < 1 || highestLevel < level then
        draft.refuse s!"Shift level {level.toInt} out of range (1..64) in key type {draft.name}"
          [s!"Ignoring illegal definition of map[{modifiers.maskText mods}]"]
      else
        let entry := ⟨mods, level.toInt.toNat - 1⟩
        return (← draft.addEntry modifiers entry true true, true)

/-- Sets the modifiers that stay in force for a set. -/
def setPreserve (modifiers : VirtualModifiers) (draft : TypeDraft) (index : Option Expr)
    (value : Expr) : Report (TypeDraft × Bool) := do
  match index.map modifiers.maskOf with
  | none => draft.refusePlain "preserve entry"
  | some (.error _) => draft.refuseType "preserve entry" "modifier mask"
  | some (.ok mods) =>
    let mods ← draft.clip modifiers mods
      s!"Preserve for modifiers not used by the {draft.name} type"
    let modsText := modifiers.maskText mods
    match modifiers.maskOf value with
    | .error _ =>
      draft.refuse "Preserve value in a key type is not a modifier mask"
        [s!"Ignoring preserve[{modsText}] in type {draft.name}"]
    | .ok preserve =>
      let clipped := preserve.intersect mods
      if clipped != preserve && (← Report.level) > 0 then
        Report.warn s!"Illegal value for preserve[{modsText}] in type {draft.name}"
          [s!"Converted {modifiers.maskText preserve} to {modifiers.maskText clipped}"]
      return (← draft.addPreserve modifiers ⟨mods, clipped⟩ true true, true)

/-- Sets the name of a level. -/
def setName (draft : TypeDraft) (index : Option Expr) (value : Expr) :
    Report (TypeDraft × Bool) := do
  match index.map (Expr.toInteger Lookup.levels) with
  | none => draft.refusePlain "level name"
  | some (.error _) => draft.refuseType "level name" "integer"
  | some (.ok level) =>
    if level < 1 || highestLevel < level then
      draft.refuse s!"Level name {level.toInt} out of range (1..64) in key type {draft.name}"
        ["Ignoring illegal level name definition"]
    else
      match value.toText with
      | .error _ =>
        draft.refuse s!"Non-string name for level {level.toInt} in key type {draft.name}"
          ["Ignoring illegal level name definition"]
      | .ok name => return (← draft.addLevelName (level.toInt.toNat - 1) name true, true)

/-- Sets a field of a type. -/
def setField (modifiers : VirtualModifiers) (draft : TypeDraft) (field : String)
    (index : Option Expr) (value : Expr) : Report (TypeDraft × Bool) :=
  match Text.foldCase field with
  | "modifiers" => draft.setModifiers modifiers index value
  | "map" => draft.setEntry modifiers index value
  | "preserve" => draft.setPreserve modifiers index value
  | "levelname" | "level_name" => draft.setName index value
  | _ =>
    draft.refuse s!"Unknown field {field} in key type {draft.name}" ["Definition ignored"]

/-- The entries of a type with the modifiers that one of them leaves in force. -/
def attach (entries : List TypeEntry) (known : PreserveEntry) : List TypeEntry :=
  if entries.any (·.mods == known.mods) then
    changeFirst (·.mods == known.mods) ({ · with preserve := known.preserve })
      entries
  else entries ++ [⟨known.mods, 0, known.preserve⟩]

/-- The finished type: sets of modifiers that select the first level are left out unless some
modifiers stay in force for them. -/
def finish (draft : TypeDraft) : KeyType :=
  let entries := (draft.entries.filter (·.level != 0)).map fun entry =>
    ⟨entry.mods, entry.level, .empty⟩
  { name := draft.name
    mods := draft.mask
    levels := draft.levels
    entries := draft.preserves.foldl attach entries
    levelNames := draft.levelNames.take draft.levels
      ++ List.replicate (draft.levels - draft.levelNames.length) none }

end TypeDraft

/-- The names of the types that every keymap has, in the order of the table. -/
def canonicalTypeNames : List String :=
  ["ONE_LEVEL", "TWO_LEVEL", "ALPHABETIC", "KEYPAD"]

/-- The number of levels that a type of a name must have. -/
def canonicalLevels : String → Option Nat
  | "ONE_LEVEL" => some 1
  | "TWO_LEVEL" | "ALPHABETIC" | "KEYPAD" => some 2
  | _ => none

/-- One of the types that every keymap has, where it is not defined: the keypad type looks at
`NumLock` if there is such a virtual modifier. -/
def canonicalType (index : Nat) (modifiers : VirtualModifiers) : KeyType :=
  match index with
  | 0 => ⟨"ONE_LEVEL", .empty, 1, [], [none]⟩
  | 1 => ⟨"TWO_LEVEL", .shift, 2, [⟨.shift, 1, .empty⟩], [none, none]⟩
  | 2 =>
    ⟨"ALPHABETIC", ModMask.shift.union .lock, 2, [⟨.shift, 1, .empty⟩, ⟨.lock, 0, .lock⟩],
      [none, none]⟩
  | _ =>
    match modifiers.index "NumLock" with
    | none => ⟨"KEYPAD", .shift, 2, [⟨.shift, 1, .empty⟩], [none, none]⟩
    | some slot =>
      let numLock : ModMask := ⟨0, bit16 slot⟩
      ⟨"KEYPAD", ModMask.shift.union numLock, 2, [⟨.shift, 1, .empty⟩, ⟨numLock, 1, .empty⟩],
        [none, none]⟩

/-- What a types section holds. -/
structure TypeContents where
  types : List TypeDraft
  /-- What types start out with. -/
  base : TypeDraft
deriving DecidableEq, Inhabited

namespace TypeContents

/-- A section without types. -/
def empty : TypeContents :=
  ⟨[], .start "default" .initial .override⟩

/-- Adds a type, in place of an earlier one of its name if the mode says so. -/
def addType (contents : TypeContents) (new : TypeDraft) : Report (TypeContents × Bool) := do
  match (canonicalLevels new.name).filter (· < new.levels) with
  | some required =>
    Report.error s!"Key type \"{new.name}\" has {new.levels} levels, must have {required}"
      ["Illegal type definition ignored"]
    return (contents, false)
  | none =>
    let new := { new with levels := (canonicalLevels new.name).getD new.levels }
    match contents.types.find? (·.name == new.name) with
    | none => return ({ contents with types := contents.types ++ [new] }, true)
    | some old =>
      let level ← Report.level
      let warn (action : String) : Report Unit :=
        Report.warn s!"Multiple definitions of the {new.name} key type" [action]
      if new.definition.merge.replacesEntity then
        if reportsClash old.definition.origin new.definition.origin level then
          warn "Earlier definition ignored"
        let types := changeFirst (·.name == new.name) (fun _ => new) contents.types
        return ({ contents with types }, true)
      if old.definition.origin == new.definition.origin && level > 0 then
        warn "Later definition ignored"
      return (contents, true)

/-- Handles an assignment to what types start out with. -/
def handleAssignment (modifiers : VirtualModifiers) (contents : TypeContents)
    (assigned : Assignment) : Report (TypeContents × Bool) := do
  let refuse (message : String) (actions : List String) : Report (TypeContents × Bool) := do
    Report.error message actions
    return (contents, false)
  match assigned.target.map Expr.toTarget with
  | none => refuse "Missing field name in key type assignment" []
  | some (.error error) => refuse error.message []
  | some (.ok target) =>
    match assigned.value, target.element with
    | none, _ => refuse s!"Missing value for {target.field}" []
    | some _, none => refuse s!"Default defined for unknown field {target.field}" ["Ignored"]
    | some value, some element =>
      if Text.sameName element "type" then
        let (base, right) ← contents.base.setField modifiers target.field target.index value
        return ({ contents with base }, right)
      refuse s!"Default for unknown element {element}" [s!"Value for field {target.field} ignored"]

/-- Handles an assignment in the body of a type. -/
def handleBodyAssignment (modifiers : VirtualModifiers) (contents : TypeContents)
    (draft : TypeDraft) (assigned : Assignment) : Report ((TypeContents × TypeDraft) × Bool) := do
  let refuse (message : String) : Report ((TypeContents × TypeDraft) × Bool) := do
    Report.error message []
    return ((contents, draft), false)
  match assigned.target with
  | none => refuse "Unnamed value in a key type definition"
  | some (.fieldRef ..) =>
    let (contents, right) ← contents.handleAssignment modifiers assigned
    return ((contents, draft), right)
  | some target =>
    match target.toTarget, assigned.value with
    | .error error, _ => refuse error.message
    | .ok target, none => refuse s!"Missing value for {target.field}"
    | .ok target, some value =>
      let (draft, right) ← draft.setField modifiers target.field target.index value
      return ((contents, draft), right)

/-- Handles the body of a type up to the first assignment that is wrong. -/
def handleBody (modifiers : VirtualModifiers) :
    List Assignment → TypeContents → TypeDraft → Report ((TypeContents × TypeDraft) × Bool)
  | [], contents, draft => return ((contents, draft), true)
  | assigned :: rest, contents, draft => do
    let ((contents, draft), right) ← contents.handleBodyAssignment modifiers draft assigned
    if !right then return ((contents, draft), false)
    handleBody modifiers rest contents draft

/-- The type with what types start out with added, as far as it belongs to the type and the body
does not say otherwise. -/
def complete (modifiers : VirtualModifiers) (base draft : TypeDraft) : Report TypeDraft := do
  let draft ← (base.entries.filter (·.mods.subsetOf draft.mask)).foldlM
    (fun draft entry => draft.addEntry modifiers entry false false) draft
  let draft ← (base.preserves.filter (·.mods.subsetOf draft.mask)).foldlM
    (fun draft known => draft.addPreserve modifiers known false false) draft
  base.levelNames.zipIdx.foldlM
    (fun draft (name, level) =>
      match name with
      | some name =>
        if level < draft.levels then draft.addLevelName level name false else pure draft
      | none => pure draft)
    draft

/-- Handles the definition of a type. -/
def handleType (modifiers : VirtualModifiers) (contents : TypeContents) (header : Header)
    (mode : MergeMode) (name : String) (body : List Assignment) :
    Report (TypeContents × Bool) := do
  let draft := { TypeDraft.start name header.origin mode with mask := contents.base.mask }
  let ((contents, draft), right) ← handleBody modifiers body contents draft
  if !right then return (contents, false)
  contents.addType (← complete modifiers contents.base draft)

/-- Handles a statement of the section. -/
def handle (modifiers : VirtualModifiers) (header : Header) (mode : MergeMode)
    (statement : Statement) (contents : TypeContents) : Report (TypeContents × Bool) := do
  match statement with
  | .keyType merge name body => contents.handleType modifiers header (merge.or mode) name body
  | .assignment assigned => contents.handleAssignment modifiers assigned
  | other =>
    Report.error "Key type files may not include other declarations"
      [s!"Ignoring definition of {other.description}"]
    return (contents, false)

/-- Adds what another section holds, and counts the types that are refused. -/
def absorb (mode : MergeMode) (new old : TypeContents) : Report (TypeContents × Nat) :=
  new.types.foldlM
    (fun (contents, errors) draft => do
      let definition := draft.definition.inMode mode
      let (contents, right) ← contents.addType { draft with definition }
      return (contents, if right then errors else errors + 1))
    (old, 0)

instance : SectionContents TypeContents where
  kind := .types
  noun := "keytypes file"
  empty := empty
  forTerm _ contents := { empty with base := contents.base }
  builtin _ _ := none
  mode mode := mode
  declaresModifiers := true
  handle scope header mode statement contents :=
    contents.handle scope.modifiers header mode statement
  absorb _ mode _ new old := absorb mode new old

/-- The types of a keymap: the canonical ones first, then the others in order. -/
def finish (contents : TypeContents) (modifiers : VirtualModifiers) : List KeyType :=
  let finished := contents.types.map TypeDraft.finish
  let canonical := canonicalTypeNames.zipIdx.map fun (name, index) =>
    (finished.find? (·.name == name)).getD (canonicalType index modifiers)
  canonical ++ finished.filter fun type => !canonicalTypeNames.contains type.name

end TypeContents

end Xkb
