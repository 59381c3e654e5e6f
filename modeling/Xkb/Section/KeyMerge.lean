import Xkb.Section.KeyDraft

/-! Two definitions of a key made one. -/

namespace Xkb

/-- What both sides of a merge have in common: where it happens and who wins. -/
structure KeyMerge where
  key : KeyName
  group : Nat
  /-- Whether the new side wins where both say something. -/
  clobber : Bool
  /-- Whether clashes are reported. -/
  report : Bool

namespace KeyMerge

/-- The symbol of a level: that of the only side that has one, or of the winner. -/
def mergeSym (merge : KeyMerge) (level : Nat) (old new : Keysym) : Report Keysym := do
  if new == .noSymbol || new == old then return old
  if old == .noSymbol then return new
  let (used, ignored) := if merge.clobber then (new, old) else (old, new)
  if merge.report then
    Report.warn
      (s!"Multiple symbols for level {level + 1}/group {merge.group + 1} "
        ++ s!"on key {merge.key.label}")
      [s!"Using {Keysym.name used}, ignoring {Keysym.name ignored}"]
  return used

/-- The action of a level: that of the only side that has one, or of the winner. -/
def mergeAction (merge : KeyMerge) (level : Nat) (old new : Option Action) : Report Action := do
  let oldAction := old.getD .none
  let newAction := new.getD .none
  if old.isSome && newAction.isNone then return oldAction
  if new.isSome && oldAction.isNone then return newAction
  let (used, ignored) := if merge.clobber then (newAction, oldAction) else (oldAction, newAction)
  if merge.report then
    Report.warn
      (s!"Multiple actions for level {level + 1}/group {merge.group + 1} "
        ++ s!"on key {merge.key.label}")
      [s!"Using {used.kind.name}, ignoring {ignored.kind.name}"]
  return used

/-- The symbol and the action of a level. -/
def mergeLevel (merge : KeyMerge) (acting : Bool) (old new : GroupDraft) (level : Nat) :
    Report (Keysym × Action) := do
  let sym ← merge.mergeSym level (old.symAt level) (new.symAt level)
  let action ←
    if acting then merge.mergeAction level (old.actionAt level) (new.actionAt level)
    else pure .none
  return (sym, action)

/-- The number of levels: that of the wider side, or of a winner that names a type. -/
def mergedWidth (merge : KeyMerge) (old new : GroupDraft) : Nat :=
  if old.levels < new.levels || (merge.clobber && new.typeName.isSome) then new.levels
  else old.levels

/-- The levels of two groups made one, with the type of the old one. -/
def mergeLevels (merge : KeyMerge) (old new : GroupDraft) : Report GroupDraft := do
  let acting := old.actions.isSome || new.actions.isSome
  let width := merge.mergedWidth old new
  let merged ← (List.range width).mapM (merge.mergeLevel acting old new)
  return { old with
    levels := width
    syms := some (merged.map Prod.fst)
    actions := if acting then some (merged.map Prod.snd) else none }

/-- The type of a group: that of the only side that names one, or of the winner. -/
def mergeType (merge : KeyMerge) (old new : Option String) : Report (Option String) := do
  match old, new with
  | _, none => return old
  | none, some new => return some new
  | some old, some new =>
    let (used, ignored) := if merge.clobber then (new, old) else (old, new)
    if merge.report && old != new then
      Report.warn s!"Multiple definitions for group {merge.group + 1} type of key {merge.key.label}"
        [s!"Using {used}, ignoring {ignored}"]
    return some used

/-- Whether both groups have a list or a type that differs, where that is reported. -/
def groupsClash (merge : KeyMerge) (old new : GroupDraft) : Bool :=
  let listsClash :=
    0 < new.levels && 0 < old.levels && (old.syms.isSome || old.actions.isSome)
  let typesClash :=
    match old.typeName, new.typeName with
    | some old, some new => old != new
    | _, _ => false
  merge.report && (listsClash || typesClash)

/-- Two groups made one. -/
def mergeGroup (merge : KeyMerge) (old new : GroupDraft) : Report GroupDraft := do
  let merged ←
    if new.levels == 0 then pure old
    else if old.levels == 0 then pure { new with typeName := old.typeName }
    else merge.mergeLevels old new
  return { merged with typeName := ← merge.mergeType old.typeName new.typeName }

end KeyMerge

namespace KeyDraft

/-- The key with one of its groups merged with that of another key, and whether they clash. -/
def mergeGroupOf (new : KeyDraft) (report : Bool) (old : KeyDraft) (group : Nat) :
    Report (KeyDraft × Bool) := do
  let merge : KeyMerge := ⟨old.name, group, new.definition.merge.clobbers, report⟩
  let oldGroup := old.groupAt group
  let newGroup := new.groupAt group
  let bit := bit8 group
  let merged := old.setGroup group (← merge.mergeGroup oldGroup newGroup)
  let marked :=
    if newGroup.levels == 0 then merged
    else if oldGroup.levels == 0 then { merged with symsDefined := merged.symsDefined ||| bit }
    else
      { merged with
        symsDefined := merged.symsDefined ||| bit
        actionsDefined := merged.actionsDefined ||| bit }
  return (marked, merge.groupsClash oldGroup newGroup)

/-- The key with those fields of another key that count, its groups apart. -/
def mergeFields (old new : KeyDraft) : KeyDraft :=
  let takes (field : UInt32) : Bool := old.definition.takes new.definition field
  let behaviorFrom := if takes KeyField.behavior then new else old
  { old with
    definition := old.definition.adopt new.definition KeyField.all
    typesDefined := old.typesDefined ||| new.typesDefined
    behavior := behaviorFrom.behavior
    overlayKey := behaviorFrom.overlayKey
    virtualMods := if takes KeyField.virtualMods then new.virtualMods else old.virtualMods
    autoRepeat := if takes KeyField.autoRepeat then new.autoRepeat else old.autoRepeat
    defaultType := if takes KeyField.defaultType then new.defaultType else old.defaultType
    groupRange := if takes KeyField.groupRange then new.groupRange else old.groupRange }

/-- What becomes of a key when another definition of it is added. -/
def merge (old new : KeyDraft) : Report KeyDraft := do
  if new.definition.merge == .replace then return new
  let level ← Report.level
  let report := reportsClash old.definition.origin new.definition.origin level
  let (grouped, groupsClash) ← (List.range 4).foldlM
    (fun (key, clash) group => do
      let (key, clashes) ← new.mergeGroupOf report key group
      return (key, clash || clashes))
    (old, false)
  let fieldsClash := old.definition.clashingFields new.definition level KeyField.all != 0
  if (groupsClash || fieldsClash) && level > 0 then
    Report.warn s!"Symbol map for key {old.name.label} redefined"
      [s!"Using {new.definition.winnerWord} definition for conflicting fields"]
  return grouped.mergeFields new

end KeyDraft

end Xkb
