import Xkb.Action.Defaults
import Xkb.Section.IndicatorMaps

/-! Compatibility sections: interpretations, group masks and indicator maps. -/

namespace Xkb

/-- An interpretation while it is put together. -/
structure InterpretationDraft where
  definition : Definition
  interpretation : Interpretation
deriving DecidableEq

namespace InterpretationField

/-- The virtual modifier. -/
def virtualModifier : UInt32 := bit32 0

/-- The action. -/
def action : UInt32 := bit32 1

/-- Whether the key repeats. -/
def autoRepeat : UInt32 := bit32 2

/-- Whether the key locks. -/
def locking : UInt32 := bit32 3

/-- Whether only the first level counts. -/
def levelOneOnly : UInt32 := bit32 4

/-- All fields. -/
def all : List UInt32 :=
  [virtualModifier, action, autoRepeat, locking, levelOneOnly]

end InterpretationField

namespace InterpretationDraft

/-- What interpretations start out with. -/
def base : InterpretationDraft :=
  ⟨.start .initial .override, ⟨.noSymbol, .anyOfOrNone, 0, false, none, false, false, .none⟩⟩

/-- Whether two interpretations are for the same keysym and modifiers. -/
def sameKey (left right : InterpretationDraft) : Bool :=
  left.interpretation.sym == right.interpretation.sym
    && left.interpretation.predicate == right.interpretation.predicate
    && left.interpretation.mods == right.interpretation.mods

/-- How messages name an interpretation. -/
def label (draft : InterpretationDraft) : String :=
  let sym := draft.interpretation.sym
  let symText := if sym == .noSymbol then "Any" else Keysym.name sym
  symText ++ "+" ++ draft.interpretation.predicate.name ++ "("
    ++ realModifiersText draft.interpretation.mods ++ ")"

/-- The old interpretation with the fields of the new one that count. -/
def mergeFields (old new : InterpretationDraft) : InterpretationDraft :=
  let pick {α : Type} (field : UInt32) (value : Interpretation → α) : α :=
    if old.definition.takes new.definition field then value new.interpretation
    else value old.interpretation
  { definition := old.definition.adopt new.definition InterpretationField.all
    interpretation := { old.interpretation with
      virtualModifier := pick InterpretationField.virtualModifier (·.virtualModifier)
      action := pick InterpretationField.action (·.action)
      autoRepeat := pick InterpretationField.autoRepeat (·.autoRepeat)
      locking := pick InterpretationField.locking (·.locking)
      levelOneOnly := pick InterpretationField.levelOneOnly (·.levelOneOnly) } }

/-- What becomes of an interpretation when another one for the same keysym and modifiers is
added. -/
def merge (old new : InterpretationDraft) : Report InterpretationDraft := do
  let level ← Report.level
  if new.definition.merge == .replace then
    if reportsClash old.definition.origin new.definition.origin level then
      Report.warn s!"Multiple definitions for \"{new.label}\"" ["Earlier interpretation ignored"]
    return new
  let clashes := old.definition.clashingFields new.definition level InterpretationField.all
  if clashes != 0 && level > 0 then
    Report.warn s!"Multiple interpretations of \"{new.label}\""
      [s!"Using {new.definition.winnerWord} definition for duplicate fields"]
  return old.mergeFields new

/-- Adds an interpretation to the list, of which no two are for the same keysym and modifiers. -/
def add (new : InterpretationDraft) : List InterpretationDraft → Report (List InterpretationDraft)
  | [] => return [new]
  | old :: rest => do
    if old.sameKey new then return (← old.merge new) :: rest
    else return old :: (← add new rest)

/-- The draft with a field changed and marked as set. -/
def change (draft : InterpretationDraft) (field : UInt32)
    (update : Interpretation → Interpretation) : InterpretationDraft :=
  ⟨draft.definition.define field, update draft.interpretation⟩

/-- What the field for the levels may be. -/
def levelNames : List (String × Bool) :=
  [("levelone", true), ("level1", true), ("anylevel", false), ("any", false)]

/-- Sets a field to a value that an expression was read as, or refuses the value. -/
def setValue {α : Type} (draft : InterpretationDraft) (field wanted : String)
    (read : Except ValueError α) (change : α → InterpretationDraft) :
    Report (InterpretationDraft × Bool) := do
  match read with
  | .ok value => return (change value, true)
  | .error _ =>
    Report.error
      s!"The {field} field of symbol interpretation {draft.label} must be a {wanted}" []
    return (draft, false)

/-- Sets a field of an interpretation that has no subscript, if it is one. -/
def setPlainField (scope : Scope) (actions : ActionDefaults) (draft : InterpretationDraft)
    (field : String) (value : Expr) : Option (Report (InterpretationDraft × Bool)) :=
  match Text.foldCase field with
  | "action" => some do
    match actions.resolve scope value with
    | .ok action => return (draft.change InterpretationField.action ({ · with action }), true)
    | .error error =>
      Report.error error.message []
      return (draft, false)
  | "virtualmodifier" | "virtualmod" =>
    some (draft.setValue field "virtual modifier" (scope.modifiers.slotOf value) fun slot =>
      draft.change InterpretationField.virtualModifier ({ · with virtualModifier := some slot }))
  | "repeat" =>
    some (draft.setValue field "boolean" (value.toBoolean Lookup.none) fun autoRepeat =>
      draft.change InterpretationField.autoRepeat ({ · with autoRepeat }))
  | "locking" =>
    some (draft.setValue field "boolean" (value.toBoolean Lookup.none) fun locking =>
      draft.change InterpretationField.locking ({ · with locking }))
  | "usemodmap" | "usemodmapmods" =>
    some (draft.setValue field "level specification" (value.toChoice levelNames)
      fun levelOneOnly => draft.change InterpretationField.levelOneOnly ({ · with levelOneOnly }))
  | _ => none

/-- Sets a field of an interpretation. -/
def setField (scope : Scope) (actions : ActionDefaults) (draft : InterpretationDraft)
    (field : String) (index : Option Expr) (value : Expr) :
    Report (InterpretationDraft × Bool) := do
  match draft.setPlainField scope actions field value with
  | none =>
    Report.error s!"Unknown field {field} in a symbol interpretation"
      [s!"Definition of {draft.label} ignored"]
    return (draft, false)
  | some setting =>
    if index.isSome then
      Report.error s!"The {field} field of symbol interpretation {draft.label} is not an array"
        ["Illegal array reference ignored"]
      return (draft, false)
    setting

/-- The kinds of predicate in the order in which interpretations are tried. -/
def predicateOrder : List (List Predicate) :=
  [[.exactly], [.allOf, .noneOf], [.anyOf], [.anyOfOrNone]]

/-- The interpretations in the order in which they are tried: those for one keysym before those
for any, and the narrower predicates first. -/
def ordered (drafts : List InterpretationDraft) : List Interpretation :=
  [true, false].flatMap fun forOne => predicateOrder.flatMap fun predicates =>
    (drafts.map (·.interpretation)).filter fun interpretation =>
      (interpretation.sym != .noSymbol) == forOne && predicates.contains interpretation.predicate

end InterpretationDraft

/-- The modifiers that stand for a group, while a section is read. -/
structure GroupMask where
  origin : Origin
  merge : MergeMode
  defined : Bool
  mods : ModMask
deriving DecidableEq, Inhabited

/-- What a compatibility section holds. -/
structure CompatContents where
  interpretations : List InterpretationDraft
  /-- What interpretations start out with. -/
  base : InterpretationDraft
  /-- What indicator maps start out with. -/
  indicatorBase : IndicatorDraft
  groupMasks : Vector GroupMask 4
  indicators : List IndicatorDraft
  actions : ActionDefaults

namespace CompatContents

/-- A section without interpretations. -/
def empty : CompatContents where
  interpretations := []
  base := .base
  indicatorBase := .base
  groupMasks := Vector.replicate 4 ⟨.initial, .unspecified, false, .empty⟩
  indicators := []
  actions := .empty

/-- Adds an interpretation. -/
def addInterpretation (contents : CompatContents) (new : InterpretationDraft) :
    Report CompatContents :=
  return { contents with interpretations := ← new.add contents.interpretations }

/-- Adds an indicator map. -/
def addIndicator (contents : CompatContents) (new : IndicatorDraft) : Report CompatContents :=
  return { contents with indicators := ← new.add contents.indicators }

/-- What becomes of the modifiers for a group, from 0, when others are added. -/
def mergeGroupMask (group : Nat) (old new : GroupMask) : Report GroupMask := do
  if old.mods == new.mods then return old
  let level ← Report.level
  if (old.defined && old.origin == new.origin && level > 0) || level > 9 then
    let used := if new.merge == .augment then "old" else "new"
    Report.warn s!"Compat map for group {group + 1} redefined" [s!"Using {used} definition"]
  return if new.defined && (new.merge.clobbers || !old.defined) then new else old

/-- Adds the modifiers for a group, from 0. -/
def addGroupMask (contents : CompatContents) (group : Nat) (new : GroupMask) :
    Report CompatContents := do
  match contents.groupMasks[group]? with
  | none => return contents
  | some old =>
    let merged ← mergeGroupMask group old new
    return { contents with groupMasks := contents.groupMasks.setIfInBounds group merged }

/-- Handles an assignment to what interpretations, indicator maps or actions start out with. -/
def handleAssignment (scope : Scope) (contents : CompatContents) (assigned : Assignment) :
    Report (CompatContents × Bool) := do
  let refuse (message : String) (actions : List String) : Report (CompatContents × Bool) := do
    Report.error message actions
    return (contents, false)
  match assigned.target.map Expr.toTarget with
  | none => refuse "Missing field name in compatibility map assignment" []
  | some (.error error) => refuse error.message []
  | some (.ok ⟨none, field, _⟩) =>
    refuse s!"Default defined for unknown field {field}" ["Ignored"]
  | some (.ok ⟨some element, field, index⟩) =>
    let value := assigned.value.getD (.boolean true)
    if Text.sameName element "interpret" then
      let (base, right) ← contents.base.setField scope contents.actions field index value
      return ({ contents with base }, right)
    else if Text.sameName element "indicator" then
      let (indicatorBase, right) ←
        contents.indicatorBase.setField scope.modifiers field index value
      return ({ contents with indicatorBase }, right)
    else
      match contents.actions.set element field index value with
      | .ok actions => return ({ contents with actions }, true)
      | .error error => refuse error.message []

/-- How the modifiers of an interpretation are compared, and with which modifiers. -/
def readPredicate : Option Expr → Report (Option (Predicate × UInt8))
  | none => return some (.anyOfOrNone, 0xff)
  | some (.call name args) => do
    match Text.lookupName Predicate.names name with
    | none =>
      Report.error s!"Illegal modifier predicate \"{name}\"" ["Ignored"]
      return none
    | some predicate =>
      return (args.head?.bind (·.toModMask.toOption)).map fun mask => (predicate, mask.real)
  | some expr => do
    if let .ident name := expr then
      if Text.sameName name "any" then return some (.anyOf, 0xff)
    return expr.toModMask.toOption.map fun mask => (.exactly, mask.real)

/-- Handles an assignment in the body of an interpretation. -/
def handleBodyAssignment (scope : Scope) (contents : CompatContents) (draft : InterpretationDraft)
    (assigned : Assignment) : Report ((CompatContents × InterpretationDraft) × Bool) := do
  let refuse (message : String) : Report ((CompatContents × InterpretationDraft) × Bool) := do
    Report.error message []
    return ((contents, draft), false)
  match assigned.target with
  | none => refuse s!"Unnamed value in symbol interpretation {draft.label}"
  | some (.fieldRef ..) =>
    let (contents, right) ← contents.handleAssignment scope assigned
    return ((contents, draft), right)
  | some target =>
    match target.toTarget with
    | .error error => refuse error.message
    | .ok target =>
      let value := assigned.value.getD (.boolean true)
      let (draft, right) ←
        draft.setField scope contents.actions target.field target.index value
      return ((contents, draft), right)

/-- Handles the body of an interpretation. -/
def handleBody (scope : Scope) (contents : CompatContents) (draft : InterpretationDraft)
    (body : List Assignment) : Report ((CompatContents × InterpretationDraft) × Bool) :=
  body.foldlM
    (fun ((contents, draft), right) assigned => do
      let (next, good) ← contents.handleBodyAssignment scope draft assigned
      return (next, good && right))
    ((contents, draft), true)

/-- Handles the definition of an interpretation; one for unknown modifiers or an unknown keysym is
left out and counts for no error. -/
def handleInterpretation (scope : Scope) (contents : CompatContents) (header : Header)
    (mode : MergeMode) (keysym : String) (predicate : Option Expr) (body : List Assignment) :
    Report (CompatContents × Bool) := do
  match ← readPredicate predicate with
  | none =>
    Report.error "Couldn't determine matching modifiers" ["Symbol interpretation ignored"]
    return (contents, true)
  | some (predicate, mods) =>
    match Keysym.lookup keysym with
    | none =>
      Report.error s!"Couldn't lookup keysym {keysym}" ["Symbol interpretation ignored"]
      return (contents, true)
    | some sym =>
      let base := contents.base
      let draft : InterpretationDraft :=
        { definition := { base.definition with merge := mode, origin := header.origin }
          interpretation := { base.interpretation with sym, predicate, mods } }
      let ((contents, draft), right) ← contents.handleBody scope draft body
      if !right then return (contents, false)
      return (← contents.addInterpretation draft, true)

/-- Handles a statement that gives the modifiers for a group. -/
def handleGroupMask (modifiers : VirtualModifiers) (contents : CompatContents) (header : Header)
    (mode : MergeMode) (group : Int64) (value : Expr) : Report (CompatContents × Bool) := do
  if group < 1 || 4 < group then
    Report.error "Keyboard group must be in the range 1..4"
      [s!"Compatibility map for illegal group {group.toInt} ignored"]
    return (contents, false)
  match modifiers.maskOf value with
  | .error _ =>
    Report.error "Expected a modifier mask in group compatibility definition"
      [s!"Ignoring illegal compatibility map for group {group.toInt}"]
    return (contents, false)
  | .ok mods =>
    let new : GroupMask := ⟨header.origin, mode, true, mods⟩
    return (← contents.addGroupMask (group.toInt.toNat - 1) new, true)

/-- Handles the definition of an indicator map. -/
def handleIndicatorMap (modifiers : VirtualModifiers) (contents : CompatContents)
    (header : Header) (mode : MergeMode) (name : String) (body : List Assignment) :
    Report (CompatContents × Bool) := do
  let base := contents.indicatorBase
  let definition := { base.definition with origin := header.origin, merge := mode }
  match ← IndicatorDraft.ofBody modifiers { base with definition } name body with
  | some draft => return (← contents.addIndicator draft, true)
  | none => return (contents, false)

/-- Handles a statement of the section. -/
def handle (scope : Scope) (header : Header) (mode : MergeMode) (statement : Statement)
    (contents : CompatContents) : Report (CompatContents × Bool) := do
  match statement with
  | .interpretation merge keysym predicate body =>
    contents.handleInterpretation scope header (merge.or mode) keysym predicate body
  | .groupMask merge group value =>
    contents.handleGroupMask scope.modifiers header (merge.or mode) group value
  | .indicatorMap merge name body =>
    contents.handleIndicatorMap scope.modifiers header (merge.or mode) name body
  | .assignment assigned => contents.handleAssignment scope assigned
  | other =>
    Report.error "Interpretation files may not include other types"
      [s!"Ignoring definition of {other.description}"]
    return (contents, false)

/-- Adds what another section holds. -/
def absorb (mode : MergeMode) (new old : CompatContents) : Report CompatContents := do
  let contents ← new.interpretations.foldlM
    (fun contents draft =>
      contents.addInterpretation { draft with definition := draft.definition.inMode mode })
    old
  let contents ← new.groupMasks.toList.zipIdx.foldlM
    (fun contents (mask, group) =>
      contents.addGroupMask group
        { mask with merge := if mode == .unspecified then mask.merge else mode })
    contents
  new.indicators.foldlM
    (fun contents draft =>
      contents.addIndicator { draft with definition := draft.definition.inMode mode })
    contents

instance : SectionContents CompatContents where
  kind := .compatibility
  noun := "compatibility map"
  empty := empty
  forTerm _ _ := empty
  builtin _ _ := none
  mode mode := mode.or .augment
  declaresModifiers := true
  handle scope header mode statement contents := contents.handle scope header mode statement
  absorb _ mode _ new old := return (← absorb mode new old, 0)

/-- The group masks with those that the section defines. -/
def applyGroupMasks (contents : CompatContents) (masks : Vector ModMask 4) : Vector ModMask 4 :=
  Vector.zipWith
    (fun mask known => if mask.defined || !mask.mods.isEmpty then mask.mods else known)
    contents.groupMasks masks

/-- The keymap with what the section defines, and the indicator maps that are left over. -/
def apply (contents : CompatContents) (name : Option String) (keymap : Keymap) :
    Report (Keymap × List IndicatorDraft) :=
  let compat := { keymap.compat with
    name
    interpretations := InterpretationDraft.ordered contents.interpretations
    groupMasks := contents.applyGroupMasks keymap.compat.groupMasks }
  IndicatorDraft.bindAllNamed contents.indicators { keymap with compat }

end CompatContents

end Xkb
