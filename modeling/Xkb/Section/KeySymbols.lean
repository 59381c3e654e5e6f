import Xkb.Section.KeyMerge

/-! Symbols sections: keys, group names and modifier maps. -/

namespace Xkb

/-- What a modifier is mapped to. -/
inductive MapTarget where
  | key (name : KeyName)
  | symbol (sym : Keysym)
deriving DecidableEq, Inhabited

/-- A modifier, by bit position, with the key or the symbol it is mapped to. -/
structure ModifierEntry where
  merge : MergeMode
  modifier : Nat
  target : MapTarget
deriving DecidableEq, Inhabited

/-- What a symbols section holds. -/
structure SymbolContents where
  /-- The group, from 0, that the keys are moved to. -/
  group : Nat
  keys : List KeyDraft
  /-- What keys start out with. -/
  base : KeyDraft
  actions : ActionDefaults
  groupNames : Vector (Option String) 4
  modifierMap : List ModifierEntry

namespace SymbolContents

/-- A section without keys. -/
def empty : SymbolContents where
  group := 0
  keys := []
  base := .base
  actions := .empty
  groupNames := Vector.replicate 4 none
  modifierMap := []

/-- The list of keys with the first one of a name merged with another definition. -/
def mergeNamed (name : KeyName) (new : KeyDraft) : List KeyDraft → Report (List KeyDraft)
  | [] => return []
  | old :: rest => do
    if old.name == name then return (← old.merge new) :: rest
    else return old :: (← mergeNamed name new rest)

/-- Adds a key, merged with an earlier one of its name or of the name it is an alias for. -/
def addKey (keycodes : KeycodeTable) (contents : SymbolContents) (new : KeyDraft) :
    Report SymbolContents := do
  let isKnown (name : KeyName) : Bool := contents.keys.any (·.name == name)
  match [some new.name, keycodes.realName new.name].filterMap id |>.find? isKnown with
  | some name => return { contents with keys := ← mergeNamed name new contents.keys }
  | none => return { contents with keys := contents.keys ++ [new] }

/-- Adds an entry of the modifier map; of two modifiers for one target one counts. -/
def addModifier (contents : SymbolContents) (new : ModifierEntry) : Report SymbolContents := do
  match contents.modifierMap.find? (·.target == new.target) with
  | none => return { contents with modifierMap := contents.modifierMap ++ [new] }
  | some old =>
    if old.modifier == new.modifier then return contents
    let (used, ignored) :=
      if new.merge.clobbers then (new.modifier, old.modifier) else (old.modifier, new.modifier)
    let message :=
      match new.target with
      | .symbol sym => Keysym.name sym ++ " added to symbol map for multiple modifiers"
      | .key name => s!"Key {name.label} added to map for multiple modifiers"
    Report.error message
      [s!"Using {realModifierName used}, ignoring {realModifierName ignored}."]
    let modifierMap :=
      changeFirst (·.target == new.target) ({ · with modifier := used }) contents.modifierMap
    return { contents with modifierMap }

/-- Sets the name of a group. -/
def setGroupName (contents : SymbolContents) (index : Option Expr) (value : Expr) :
    Report (SymbolContents × Bool) := do
  let refuse (message action : String) : Report (SymbolContents × Bool) := do
    Report.error message [action]
    return (contents, false)
  match index.map (Expr.toInteger Lookup.groups) with
  | none =>
    if (← Report.level) > 0 then
      Report.warn "You must specify an index when specifying a group name"
        ["Group name definition without array subscript ignored"]
    return (contents, false)
  | some (.error _) =>
    refuse "Illegal index in group name definition"
      "Definition with non-integer array index ignored"
  | some (.ok group) =>
    if group < 1 || 4 < group then
      return ← refuse "Attempt to specify name for illegal group (must be 1..4)"
        s!"Name for group {group.toInt} ignored"
    match value.toText with
    | .error _ =>
      refuse "Group name must be a string" s!"Illegal name for group {group.toInt} ignored"
    | .ok name =>
      let slot := group.toInt.toNat - 1 + contents.group
      if 4 ≤ slot then
        return ← refuse
          (s!"Name for group {group.toInt} lands on group {slot + 1} "
            ++ "after the explicit group offset")
          "Group name ignored"
      let groupNames := contents.groupNames.setIfInBounds slot (some name)
      return ({ contents with groupNames }, true)

/-- Sets a field of what keys start out with. -/
def setBase (contents : SymbolContents) (setting : Report (KeyDraft × Bool)) :
    Report (SymbolContents × Bool) := do
  let (base, right) ← setting
  return ({ contents with base }, right)

/-- Handles an assignment to a field of the section. -/
def handleField (contents : SymbolContents) (field : String) (index : Option Expr)
    (value : Expr) : Report (SymbolContents × Bool) := do
  let lower := Text.foldCase field
  if lower == "name" || lower == "groupname" then contents.setGroupName index value
  else if lower == "allownone" then contents.setBase (contents.base.setAllowNone index value)
  else
    match contents.base.setGroupRange lower value with
    | some setting => contents.setBase setting
    | none =>
      Report.error s!"Unknown global field {field} in a symbols section" ["Ignored"]
      return (contents, false)

/-- Handles an assignment outside of a key, or to what keys or actions start out with. -/
def handleAssignment (scope : Scope) (contents : SymbolContents) (assigned : Assignment) :
    Report (SymbolContents × Bool) := do
  let refuse (message : String) : Report (SymbolContents × Bool) := do
    Report.error message []
    return (contents, false)
  let value := assigned.value.getD (.boolean true)
  match assigned.target.map Expr.toTarget with
  | none => refuse "Missing field name in symbols assignment"
  | some (.error error) => refuse error.message
  | some (.ok ⟨none, field, index⟩) => contents.handleField field index value
  | some (.ok ⟨some element, field, index⟩) =>
    if Text.sameName element "key" then
      contents.setBase (contents.base.setField scope contents.actions field index (some value))
    else
      match contents.actions.set element field index value with
      | .ok actions => return ({ contents with actions }, true)
      | .error error => refuse error.message

/-- The field that an unnamed value in the body of a key is for. -/
def unnamedField : Option Expr → String
  | none | some (.keysyms _) => "symbols"
  | some _ => "actions"

/-- Handles an assignment in the body of a key. -/
def handleBodyAssignment (scope : Scope) (contents : SymbolContents) (key : KeyDraft)
    (assigned : Assignment) : Report ((SymbolContents × KeyDraft) × Bool) := do
  let set (field : String) (index : Option Expr) :
      Report ((SymbolContents × KeyDraft) × Bool) := do
    let (key, right) ← key.setField scope contents.actions field index assigned.value
    return ((contents, key), right)
  match assigned.target with
  | none => set (unnamedField assigned.value) none
  | some (.fieldRef ..) =>
    let (contents, right) ← contents.handleAssignment scope assigned
    return ((contents, key), right)
  | some target =>
    match target.toTarget with
    | .ok target => set target.field target.index
    | .error error =>
      Report.error error.message []
      return ((contents, key), false)

/-- Handles the body of a key. -/
def handleBody (scope : Scope) (contents : SymbolContents) (key : KeyDraft)
    (body : List Assignment) : Report ((SymbolContents × KeyDraft) × Bool) :=
  body.foldlM
    (fun ((contents, key), right) assigned => do
      let (next, good) ← contents.handleBodyAssignment scope key assigned
      return (next, good && right))
    ((contents, key), true)

/-- Handles the definition of a key. -/
def handleKey (scope : Scope) (contents : SymbolContents) (header : Header) (mode : MergeMode)
    (name : KeyName) (body : List Assignment) : Report (SymbolContents × Bool) := do
  let base := contents.base
  let definition := { base.definition with merge := mode, origin := header.origin }
  let ((contents, key), right) ← contents.handleBody scope { base with definition, name } body
  if !right then return (contents, false)
  let (key, right) ← key.moveGroup contents.group (header.name.getD "")
  if !right then return (contents, false)
  return (← contents.addKey scope.keycodes key, true)

/-- What an entry of a modifier map is for. -/
def readTarget : Expr → Option MapTarget
  | .keyName name => some (.key name)
  | other => other.toKeysym.toOption.map .symbol

/-- Handles a modifier map. -/
def handleModifierMap (contents : SymbolContents) (mode : MergeMode) (modifier : String)
    (keys : List Expr) : Report (SymbolContents × Bool) := do
  match realModifierIndex modifier with
  | none =>
    Report.error "Illegal modifier map definition"
      [s!"Ignoring map for non-modifier \"{modifier}\""]
    return (contents, false)
  | some index =>
    let contents ← keys.foldlM
      (fun contents key => do
        match readTarget key with
        | some target => contents.addModifier ⟨mode, index, target⟩
        | none =>
          Report.error "Modmap entries may contain only key names or keysyms"
            [s!"Illegal definition for {realModifierName index} modifier ignored"]
          return contents)
      contents
    return (contents, true)

/-- Handles a statement of the section. -/
def handle (scope : Scope) (header : Header) (mode : MergeMode) (statement : Statement)
    (contents : SymbolContents) : Report (SymbolContents × Bool) := do
  match statement with
  | .keySymbols merge name body => contents.handleKey scope header (merge.or mode) name body
  | .assignment assigned => contents.handleAssignment scope assigned
  | .modifierMap merge modifier keys =>
    contents.handleModifierMap (merge.or mode) modifier keys
  | other =>
    Report.error "Symbol files may not include other types"
      [s!"Ignoring definition of {other.description}"]
    return (contents, false)

/-- The group names of two sections. -/
def mergeGroupNames (mode : MergeMode) (new old : Vector (Option String) 4) :
    Vector (Option String) 4 :=
  Vector.zipWith (fun new old => if mode.clobbers then new <|> old else old <|> new) new old

/-- Adds what another section holds. -/
def absorb (keycodes : KeycodeTable) (mode : MergeMode) (new old : SymbolContents) :
    Report SymbolContents := do
  let contents := { old with groupNames := mergeGroupNames mode new.groupNames old.groupNames }
  let contents ← new.keys.foldlM
    (fun contents key =>
      contents.addKey keycodes { key with definition := key.definition.inMode mode })
    contents
  new.modifierMap.foldlM
    (fun contents entry =>
      contents.addModifier
        { entry with merge := if mode == .unspecified then entry.merge else mode })
    contents

instance : SectionContents SymbolContents where
  kind := .symbols
  noun := "symbols file"
  empty := empty
  forTerm term contents :=
    { empty with group := (term.group.map fun group => group.toNat - 1).getD contents.group }
  builtin _ _ := none
  mode mode := mode
  declaresModifiers := true
  handle scope header mode statement contents := contents.handle scope header mode statement
  absorb scope mode _ new old := return (← absorb scope.keycodes mode new old, 0)

end SymbolContents

end Xkb
