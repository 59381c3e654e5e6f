import Xkb.Proofs.Computation
import Xkb.Section.KeyPlacement

/-! What putting keys on their codes comes to, whatever is reported on the way. -/

namespace Xkb

namespace PlacedGroup

/-- The type that a group names or gets, given the one for groups that name none, and whether it is
plain. -/
def chosenType (fallback : Option String) (group : GroupDraft) : Option String × Bool :=
  match group.typeName <|> fallback with
  | some name => (some name, false)
  | none =>
    match automaticType group.levels (group.syms.getD []) with
    | some (name, plain) => (some name, plain)
    | none => (none, false)

/-- The name and the number of levels of the type at a position. -/
def typeAt (types : TypeTable) (index : Nat) : String × Nat :=
  match types.types[index]? with
  | some type => (type.name, type.levels)
  | none => ("TWO_LEVEL", 2)

/-- A group with its type. -/
def settled (types : TypeTable) (fallback : Option String) (isDefined : Bool)
    (group : GroupDraft) : PlacedGroup :=
  let chosen := chosenType fallback group
  let found := chosen.1.bind types.find
  let typeIndex := found.getD twoLevelIndex
  let typeLevels := (typeAt types typeIndex).2
  let typed := { group with typeName := chosen.1 }
  { draft := if group.levels ≤ typeLevels then typed else typed.cut typeLevels
    typeIndex, typeLevels
    typeGiven := found.isSome && (!chosen.2 || 2 < group.levels) && isDefined }

variable (types : TypeTable) (key : KeyDraft) (code : Nat) (group : GroupDraft)

theorem chooseType_gives :
    Gives (chooseType key code group) (· = chosenType key.defaultType group) := by
  simp only [chooseType, chosenType]
  cases group.typeName <|> key.defaultType with
  | some name => exact .pure rfl
  | none =>
    cases automaticType group.levels (group.syms.getD []) with
    | some chosen => exact .pure rfl
    | none => exact .after fun _ => .noted rfl

theorem findType_gives (name : Option String) :
    Gives (findType types key code name) (· = name.bind types.find) := by
  simp only [findType]
  cases name with
  | none => exact .pure rfl
  | some name =>
    simp only [Option.map_some, Option.bind_some]
    cases types.find name with
    | some index => exact .pure rfl
    | none => exact .after fun _ => .noted rfl

theorem clip_gives (typeName : String) (typeLevels : Nat) :
    Gives (clip key group typeName typeLevels)
      (· = if group.levels ≤ typeLevels then group else group.cut typeLevels) := by
  simp only [clip]
  refine .ite (fun fits => ?_) fun wide => ?_
  · rw [if_pos fits]
    exact .pure rfl
  · rw [if_neg wide]
    exact .after fun _ => .noted rfl

theorem ofGroup_gives (group : Nat) :
    Gives (ofGroup types key code group) (· = settled types key.defaultType
      (meets8 key.definedGroups (bit8 group)) (key.groupAt group)) := by
  simp only [ofGroup]
  refine .bind (chooseType_gives key code (key.groupAt group)) fun chosen known => ?_
  subst known
  refine .bind (findType_gives types key code _) fun found known => ?_
  subst known
  refine .bind (clip_gives key _ _ _) fun clipped known => .pure ?_
  subst known
  rfl

end PlacedGroup

namespace KeyDraft

variable {types : TypeTable} {keycodes : KeycodeTable}

/-- A group of a key, from 0, with its type. -/
def settledGroup (types : TypeTable) (key : KeyDraft) (group : Nat) : PlacedGroup :=
  .settled types key.defaultType (meets8 key.definedGroups (bit8 group)) (key.groupAt group)

/-- The groups of a key with their types. -/
def settledGroups (types : TypeTable) (key : KeyDraft) : List PlacedGroup :=
  (List.range 4).map (key.settledGroup types)

/-- The behavior of a key on a code, if it has one. -/
def settledBehavior (keycodes : KeycodeTable) (key : KeyDraft) : Option Behavior :=
  match key.behavior.kind with
  | .default => none
  | .overlay overlay _ => (key.overlayKey.bind (keycodes.findKey · 0)).map fun code =>
    ⟨.overlay overlay code, key.behavior.permanent⟩
  | _ => some key.behavior

/-- The key on a code, in the place of an earlier one. -/
def onCode (types : TypeTable) (keycodes : KeycodeTable) (key : KeyDraft) (previous : Key) : Key :=
  let placed := key.settledGroups types
  let behavior := key.settledBehavior keycodes
  let givesMods := key.definition.defines KeyField.virtualMods
  { groups := key.placeGroups previous placed
    groupRange :=
      if key.definition.defines KeyField.groupRange then key.groupRange else previous.groupRange
    explicit := previous.explicit ||| explicitGroups placed
      ||| bitsIf behavior.isSome Explicit.behavior
      ||| bitsIf givesMods Explicit.virtualMods
      ||| bitsIf key.autoRepeat.isSome Explicit.autoRepeat
    autoRepeat := key.autoRepeat <|> previous.autoRepeat
    behavior := behavior.getD previous.behavior
    virtualMods := if givesMods then key.virtualMods else previous.virtualMods
    modifierMap := previous.modifierMap }

/-- The key with the types that its groups got, as it goes on to the next code. -/
def typed (types : TypeTable) (key : KeyDraft) : KeyDraft :=
  { key with groups := Vector.ofFn fun group => (key.settledGroup types group.val).draft }

variable (key : KeyDraft)

theorem foldl_setGroup :
    (key.settledGroups types).zipIdx.foldl
      (fun key group => key.setGroup group.2 group.1.draft) key = key.typed types := by
  have four : (key.settledGroups types).zipIdx = [(key.settledGroup types 0, 0),
      (key.settledGroup types 1, 1), (key.settledGroup types 2, 2),
      (key.settledGroup types 3, 3)] := rfl
  rw [four]
  simp only [List.foldl_cons, List.foldl_nil, setGroup]
  congr 1
  ext group inside
  simp only [Vector.getElem_setIfInBounds]
  obtain rfl | rfl | rfl | rfl : group = 0 ∨ group = 1 ∨ group = 2 ∨ group = 3 := by omega
  · rfl
  · rfl
  · rfl
  · rfl

theorem placeBehavior_gives (keycodes : KeycodeTable) (key : KeyDraft) :
    Gives (key.placeBehavior keycodes) (· = key.settledBehavior keycodes) := by
  simp only [placeBehavior, settledBehavior]
  cases key.behavior.kind with
  | default => exact .pure rfl
  | overlay overlay target =>
    cases key.overlayKey.bind (keycodes.findKey · 0) with
    | some code => exact .pure rfl
    | none => exact .after fun _ => .noted rfl
  | lock => exact .pure rfl
  | radioGroup group allowNone => exact .pure rfl

theorem placeAt_gives (code : Nat) (previous : Key) :
    Gives (key.placeAt types keycodes code previous)
      (· = (key.typed types, key.onCode types keycodes previous)) := by
  simp only [placeAt]
  refine .bind (.mapM_eq (PlacedGroup.ofGroup_gives types key code) (List.range 4)) ?_
  intro placed known
  subst known
  refine .bind (placeBehavior_gives keycodes key) fun behavior known => .pure ?_
  subst known
  exact Prod.ext (foldl_setGroup key) rfl

/-- The keys after a key was put on codes one after another. -/
def putOn (types : TypeTable) (keycodes : KeycodeTable) :
    List Nat → KeyDraft → Vector Key 256 → Vector Key 256
  | [], _, keys => keys
  | code :: rest, key, keys =>
    putOn types keycodes rest (key.typed types)
      (keys.setIfInBounds code (key.onCode types keycodes ((keys[code]?).getD .empty)))

end KeyDraft

namespace KeycodeTable

variable {table : KeycodeTable} {name : KeyName} {code : Nat}

theorem inRange_of_findKey {start : Nat} (found : table.findKey name start = some code) :
    table.inRange code = true := by
  have named {name : KeyName} (found : table.findNamed name start = some code) :
      table.inRange code = true :=
    mem_codes.mp (List.mem_of_find?_eq_some found)
  simp only [findKey] at found
  split at found
  · rename_i direct
    exact named (Option.some.inj found ▸ direct)
  · obtain ⟨real, -, located⟩ := Option.bind_eq_some_iff.mp found
    exact named located

end KeycodeTable

/-- The codes that a key is put on: the first one of its name, which may be an alias, and the
further ones of just this name. -/
def KeycodeTable.codesFor (table : KeycodeTable) (name : KeyName) : List Nat :=
  match table.findKey name 0 with
  | none => []
  | some first => first :: table.codesNamed name (first + 1)

namespace KeyDraft

variable {types : TypeTable} {keycodes : KeycodeTable}

theorem place_gives (keys : Vector Key 256) (key : KeyDraft) :
    Gives (place types keycodes keys key)
      (· = putOn types keycodes (keycodes.codesFor key.name) key keys) := by
  have onward (codes : List Nat) : ∀ (key : KeyDraft) (keys : Vector Key 256),
      Gives (codes.foldlM (fun (pair : KeyDraft × Vector Key 256) code => do
        let placed ← pair.1.placeAt types keycodes code ((pair.2[code]?).getD Key.empty)
        return (placed.1, Vector.setIfInBounds pair.2 code placed.2)) (key, keys))
        fun made => made.2 = putOn types keycodes codes key keys := by
    induction codes with
    | nil =>
      intro key keys
      exact .pure rfl
    | cons code rest ih =>
      intro key keys
      rw [List.foldlM_cons]
      refine .bind (?_ : Gives _ (· = (key.typed types, keys.setIfInBounds code
        (key.onCode types keycodes ((keys[code]?).getD .empty))))) fun made known => ?_
      · refine .bind (placeAt_gives key code _) fun placed known => .pure ?_
        rw [known]
      · subst known
        exact ih _ _
  simp only [place, KeycodeTable.codesFor]
  cases keycodes.findKey key.name 0 with
  | none => exact .after fun _ => .noted rfl
  | some first => exact .bind (onward _ key keys) fun made known => .pure known

/-- The keys with each of several keys on all codes of its name, one key after another. -/
def putAll (types : TypeTable) (keycodes : KeycodeTable) (drafts : List KeyDraft)
    (keys : Vector Key 256) : Vector Key 256 :=
  drafts.foldl (fun keys key => putOn types keycodes (keycodes.codesFor key.name) key keys) keys

theorem placeAll_gives (drafts : List KeyDraft) (keys : Vector Key 256) :
    Gives (drafts.foldlM (place types keycodes) keys) (· = putAll types keycodes drafts keys) :=
  .foldlM_eq place_gives drafts keys

end KeyDraft

namespace SymbolContents

/-- The code that an entry of the modifier map is for. -/
def targetCode (keymap : Keymap) (entry : ModifierEntry) : Option Nat :=
  match entry.target with
  | .key name => keymap.keycodes.findKey name 0
  | .symbol sym => keymap.findSymbol sym

/-- The keymap after an entry of the modifier map. -/
def modified (keymap : Keymap) (entry : ModifierEntry) : Keymap :=
  match targetCode keymap entry with
  | none => keymap
  | some code =>
    let key := (keymap.key? code).getD .empty
    let marked := { key with modifierMap := key.modifierMap ||| bit8 entry.modifier }
    { keymap with symbols :=
        { keymap.symbols with keys := keymap.symbols.keys.setIfInBounds code marked } }

theorem applyModifier_gives (keymap : Keymap) (entry : ModifierEntry) :
    Gives (applyModifier keymap entry) (· = modified keymap entry) := by
  have found : Gives (findTarget keymap entry) (· = targetCode keymap entry) := by
    refine .after fun level => ?_
    simp only [targetCode]
    cases entry.target with
    | key name => exact .noted rfl
    | symbol sym => exact .noted rfl
  refine .bind found fun target known => ?_
  subst known
  simp only [modified]
  cases targetCode keymap entry with
  | none => exact .pure rfl
  | some code => exact .pure rfl

/-- The keymap with what a section defines. -/
def applied (contents : SymbolContents) (name : Option String) (keymap : Keymap) : Keymap :=
  if contents.keys.isEmpty then keymap
  else contents.modifierMap.foldl modified { keymap with symbols :=
    { name
      keys := KeyDraft.putAll keymap.types keymap.keycodes (contents.keys.map KeyDraft.prepare)
        keymap.symbols.keys
      groupNames := mergeGroupNames .override contents.groupNames keymap.symbols.groupNames } }

variable (contents : SymbolContents) (name : Option String)

theorem apply_gives (keymap : Keymap) :
    Gives (contents.apply name keymap) (· = contents.applied name keymap) := by
  simp only [apply, applied]
  split
  · exact .pure rfl
  · refine .bind (KeyDraft.placeAll_gives _ _) fun keys known => .after fun _ => ?_
    subst known
    exact .foldlM_eq applyModifier_gives _ _

/-- Keys that differ from earlier ones in their modifiers at most, and only on codes of the range. -/
def Remarked (keycodes : KeycodeTable) (old new : Vector Key 256) : Prop :=
  ∀ code, (∃ mods, new[code]? = (old[code]?).map ({ · with modifierMap := mods })) ∧
    (keycodes.inRange code = false → new[code]? = old[code]?)

theorem Remarked.refl (keycodes : KeycodeTable) (keys : Vector Key 256) :
    Remarked keycodes keys keys := by
  intro code
  refine ⟨?_, fun _ => rfl⟩
  cases keys[code]? with
  | none => exact ⟨0, rfl⟩
  | some key => exact ⟨key.modifierMap, rfl⟩

variable {keymap : Keymap} {old : Vector Key 256}

theorem targetCode_inRange {entry : ModifierEntry} {code : Nat}
    (found : targetCode keymap entry = some code) : keymap.keycodes.inRange code = true := by
  simp only [targetCode] at found
  split at found
  · exact KeycodeTable.inRange_of_findKey found
  · obtain ⟨position, -, located⟩ := List.exists_of_findSome?_eq_some found
    exact KeycodeTable.mem_codes.mp (List.mem_of_find?_eq_some located)

/-- An entry of the modifier map changes modifiers and nothing else. -/
theorem modified_remarked (keymap : Keymap) (entry : ModifierEntry)
    (before : Remarked keymap.keycodes old keymap.symbols.keys) :
    ∃ keys, modified keymap entry = { keymap with symbols := { keymap.symbols with keys } } ∧
      Remarked keymap.keycodes old keys := by
  simp only [modified]
  cases found : targetCode keymap entry with
  | none => exact ⟨_, rfl, before⟩
  | some target =>
    refine ⟨_, rfl, fun code => ?_⟩
    by_cases here : target = code
    · subst here
      refine ⟨?_, fun outside => by simp [targetCode_inRange found] at outside⟩
      obtain ⟨mods, known⟩ := (before target).1
      rw [Keymap.key?, known]
      by_cases inside : target < 256
      · exact ⟨mods ||| bit8 entry.modifier, by simp [inside]⟩
      · exact ⟨0, by simp [inside]⟩
    · rw [Vector.getElem?_setIfInBounds_ne here]
      exact before code

theorem foldl_modified (entries : List ModifierEntry)
    (before : Remarked keymap.keycodes old keymap.symbols.keys) :
    ∃ keys, entries.foldl modified keymap = { keymap with symbols := { keymap.symbols with keys } } ∧
      Remarked keymap.keycodes old keys := by
  induction entries generalizing keymap with
  | nil => exact ⟨_, rfl, before⟩
  | cons entry rest ih =>
    obtain ⟨keys, made, remarked⟩ := modified_remarked keymap entry before
    rw [List.foldl_cons, made]
    exact ih remarked

/-- A section changes nothing, or it writes symbols whose keys are put on their codes. -/
theorem apply_remarked (keymap : Keymap) :
    Gives (contents.apply name keymap) fun made => contents.keys = [] ∧ made = keymap ∨
      ∃ keys groupNames, made = { keymap with symbols := { name, keys, groupNames } } ∧
        Remarked keymap.keycodes (KeyDraft.putAll keymap.types keymap.keycodes
          (contents.keys.map KeyDraft.prepare) keymap.symbols.keys) keys := by
  refine (contents.apply_gives name keymap).mono ?_
  rintro _ rfl
  simp only [applied]
  split
  · rename_i empty
    exact .inl ⟨List.isEmpty_iff.mp empty, rfl⟩
  · obtain ⟨keys, made, remarked⟩ := foldl_modified contents.modifierMap (Remarked.refl _ _)
    exact .inr ⟨keys, _, made, remarked⟩

end SymbolContents

end Xkb
