import Xkb.Proofs.Section.KeyTypes
import Xkb.Proofs.Section.KeyPlacement

/-! A key that is put on several codes is the same on each of them, but for the types that its
groups got on the way: a type that was picked on one code counts as given on the next. -/

namespace Xkb

/-- The types at the start of a table are the canonical ones. -/
def TypeTable.Canonical (types : TypeTable) : Prop :=
  (types.types.take 4).map (fun type => (type.name, type.levels)) = canonicalHeads

theorem TypeTable.Canonical.find {types : TypeTable} (canonical : types.Canonical) {index : Nat}
    {head : String × Nat} (listed : canonicalHeads[index]? = some head) :
    types.find head.1 = some index ∧ (PlacedGroup.typeAt types index).2 = head.2 := by
  obtain ⟨name, list⟩ := types
  -- There are at least four types, and their names are different.
  have long : 4 ≤ list.length := by
    have heads := congrArg List.length canonical
    simp only [canonicalHeads, List.length_map, List.length_take, List.length_cons,
      List.length_nil] at heads
    omega
  obtain ⟨one, two, three, four, rest, rfl⟩ :
      ∃ one two three four rest, list = one :: two :: three :: four :: rest := by
    rcases list with _ | ⟨one, _ | ⟨two, _ | ⟨three, _ | ⟨four, rest⟩⟩⟩⟩
    · simp at long
    · simp at long
    · simp at long
    · simp at long
    · exact ⟨one, two, three, four, rest, rfl⟩
  simp only [Canonical, canonicalHeads, List.take_succ_cons, List.take_zero, List.map_cons,
    List.map_nil, List.cons.injEq, Prod.mk.injEq, and_true] at canonical
  obtain ⟨⟨oneName, oneLevels⟩, ⟨twoName, twoLevels⟩, ⟨threeName, threeLevels⟩, fourName,
    fourLevels⟩ := canonical
  have few : index < 4 := (List.getElem?_eq_some_iff.mp listed).1
  obtain rfl | rfl | rfl | rfl : index = 0 ∨ index = 1 ∨ index = 2 ∨ index = 3 := by omega
  all_goals
    cases listed
    simp [TypeTable.find, PlacedGroup.typeAt, List.findIdx?_cons, *]

theorem automaticType_two (syms : List Keysym) : ∃ name plain, ∃ index : Nat,
    automaticType 2 syms = some (name, plain) ∧ canonicalHeads[index]? = some (name, 2) := by
  simp only [automaticType]
  split
  · omega
  · rw [if_pos (by decide)]
    split
    · exact ⟨_, _, 2, rfl, rfl⟩
    · split
      · exact ⟨_, _, 3, rfl, rfl⟩
      · exact ⟨_, _, 1, rfl, rfl⟩

theorem automaticType_eq_none {width : Nat} {syms : List Keysym}
    (none : automaticType width syms = none) : 4 < width := by
  simp only [automaticType] at none
  by_cases few : width ≤ 4
  · repeat' split at none
    all_goals simp_all
  · omega

namespace PlacedGroup

/-- A group on an earlier code and on a later one: the same symbols and actions, and the same type
unless the earlier code has the type for groups that have no other. -/
structure RepeatedBy (first later : PlacedGroup) : Prop where
  levels : later.draft.levels = first.draft.levels
  syms : later.draft.syms = first.draft.syms
  actions : later.draft.actions = first.draft.actions
  typeLevels : later.typeLevels = first.typeLevels
  given : first.typeGiven = true → later.typeGiven = true
  typeIndex : later.typeIndex = first.typeIndex ∨
    first.typeIndex = twoLevelIndex ∧ first.typeGiven = false

variable {types : TypeTable} {group : GroupDraft} {fallback : Option String} {name : String}

theorem chosenType_of_named (named : group.typeName = some name) :
    chosenType fallback group = (some name, false) := by
  rw [chosenType, named]
  rfl

theorem chosenType_eq_none (untyped : (chosenType fallback group).1 = none) :
    fallback = none ∧ 4 < group.levels := by
  simp only [chosenType] at untyped
  cases named : group.typeName <|> fallback with
  | some name => simp [named] at untyped
  | none =>
    simp only [named] at untyped
    cases picked : automaticType group.levels (group.syms.getD []) with
    | some chosen => simp [picked] at untyped
    | none =>
      have neither : group.typeName = none ∧ fallback = none := by simpa using named
      exact ⟨neither.2, automaticType_eq_none picked⟩

theorem settled_of_named (named : group.typeName = some name) (isDefined : Bool)
    (fits : group.levels ≤ (typeAt types ((types.find name).getD twoLevelIndex)).2) :
    settled types fallback isDefined group =
      { draft := group
        typeIndex := (types.find name).getD twoLevelIndex
        typeLevels := (typeAt types ((types.find name).getD twoLevelIndex)).2
        typeGiven := (types.find name).isSome && isDefined } := by
  have same : { group with typeName := some name } = group := by rw [← named]
  simp [settled, chosenType_of_named named, fits, same]

theorem settled_of_pair (canonical : types.Canonical) (unnamed : group.typeName = none)
    (pair : group.levels = 2) (isDefined : Bool) :
    ∃ name index given, settled types none isDefined group =
      { draft := { group with typeName := some name }, typeIndex := index, typeLevels := 2,
        typeGiven := given } := by
  obtain ⟨name, plain, index, picked, listed⟩ := automaticType_two (group.syms.getD [])
  obtain ⟨located, levels⟩ := canonical.find listed
  have chosen : chosenType none group = (some name, plain) := by
    simp [chosenType, unnamed, pair, picked]
  exact ⟨name, index, (!plain || 2 < group.levels) && isDefined,
    by simp [settled, chosen, located, levels, pair]⟩

theorem settled_again (canonical : types.Canonical) (fallback : Option String) (isDefined : Bool)
    (group : GroupDraft) :
    (settled types fallback isDefined group).RepeatedBy
      (settled types fallback isDefined (settled types fallback isDefined group).draft) := by
  cases chosen : (chosenType fallback group).1 with
  | some name =>
    -- The group keeps the name of its type and fits the type by now.
    have named : (settled types fallback isDefined group).draft.typeName = some name := by
      simp only [settled, chosen]
      split <;> rfl
    have fits : (settled types fallback isDefined group).draft.levels ≤
        (typeAt types ((types.find name).getD twoLevelIndex)).2 := by
      simp only [settled, chosen]
      split
      · assumption
      · exact Nat.le_refl _
    rw [settled_of_named named isDefined fits]
    refine ⟨rfl, rfl, rfl, ?_, ?_, .inl ?_⟩
    · simp [settled, chosen]
    · intro given
      simp only [settled, chosen, Option.bind_some, Bool.and_eq_true] at given
      simp [given]
    · simp [settled, chosen]
  | none =>
    -- The group was cut to two levels, and for two levels there is a type.
    obtain ⟨unnamed, wide⟩ := chosenType_eq_none chosen
    have two : (typeAt types twoLevelIndex).2 = 2 :=
      (canonical.find (rfl : canonicalHeads[1]? = some ("TWO_LEVEL", 2))).2
    have first : settled types fallback isDefined group =
        { draft := { group with typeName := none }.cut 2, typeIndex := twoLevelIndex,
          typeLevels := 2, typeGiven := false } := by
      simp [settled, chosen, two, show ¬group.levels ≤ 2 by omega]
    rw [first, unnamed]
    obtain ⟨name, index, given, later⟩ :=
      settled_of_pair canonical (rfl : ({ group with typeName := none }.cut 2).typeName = none) rfl
        isDefined
    rw [later]
    exact ⟨rfl, rfl, rfl, rfl, by simp, .inr ⟨rfl, rfl⟩⟩

end PlacedGroup

/-- The bits of a key for other parts than the types of its groups. -/
def Explicit.besideTypes : UInt8 := 0xf0

namespace Key

/-- The types of all groups count as given. -/
def TypesGiven (key : Key) : Prop :=
  ∀ group < key.groups.length, meets8 key.explicit (Explicit.keyType group) = true

/-- A key on an earlier code and on a later one, modifiers aside: the same in all but the types of
its groups. A type that is given on the earlier code is the same and is given on the later one; one
that is not given is the same too, or it is the one for groups that have no other. -/
structure RepeatedBy (first later : Key) : Prop where
  lists : later.groups.map (fun group => (group.syms, group.actions)) =
    first.groups.map fun group => (group.syms, group.actions)
  groupRange : later.groupRange = first.groupRange
  autoRepeat : later.autoRepeat = first.autoRepeat
  behavior : later.behavior = first.behavior
  virtualMods : later.virtualMods = first.virtualMods
  explicit : later.explicit &&& Explicit.besideTypes = first.explicit &&& Explicit.besideTypes
  given : ∀ group < 4, meets8 first.explicit (Explicit.keyType group) = true →
    meets8 later.explicit (Explicit.keyType group) = true
  typeIndex : ∀ index < 4, ∀ group other, first.groups[index]? = some group →
    later.groups[index]? = some other → other.typeIndex = group.typeIndex ∨
      group.typeIndex = PlacedGroup.twoLevelIndex ∧
        meets8 first.explicit (Explicit.keyType index) = false
  /-- Where all types are given, the keys are the same. -/
  whole : first.TypesGiven → { later with modifierMap := first.modifierMap } = first

namespace RepeatedBy

variable {first second third : Key}

/-- A key repeats itself. -/
theorem refl (key : Key) : key.RepeatedBy key where
  lists := rfl
  groupRange := rfl
  autoRepeat := rfl
  behavior := rfl
  virtualMods := rfl
  explicit := rfl
  given _ _ known := known
  typeIndex _ _ group other here there := by
    rw [here] at there
    cases there
    exact .inl rfl
  whole _ := rfl

theorem length (repeated : first.RepeatedBy second) :
    second.groups.length = first.groups.length := by
  have lengths := congrArg List.length repeated.lists
  simpa using lengths

theorem trans (early : first.RepeatedBy second) (late : second.RepeatedBy third) :
    first.RepeatedBy third where
  lists := late.lists.trans early.lists
  groupRange := late.groupRange.trans early.groupRange
  autoRepeat := late.autoRepeat.trans early.autoRepeat
  behavior := late.behavior.trans early.behavior
  virtualMods := late.virtualMods.trans early.virtualMods
  explicit := late.explicit.trans early.explicit
  given group few known := late.given group few (early.given group few known)
  typeIndex := by
    intro index few group other here there
    -- The second code has a group in the same place.
    have within : index < second.groups.length := by
      rw [early.length]
      exact (List.getElem?_eq_some_iff.mp here).1
    have between := List.getElem?_eq_getElem within
    rcases early.typeIndex index few group _ here between with same | fallen
    · rcases late.typeIndex index few _ other between there with again | fallen
      · exact .inl (again.trans same)
      · -- What is not given on the second code was not given on the first.
        refine .inr ⟨same.symm.trans fallen.1, ?_⟩
        cases given : meets8 first.explicit (Explicit.keyType index) with
        | false => rfl
        | true => simp [early.given index few given] at fallen
    · exact .inr fallen
  whole known := by
    -- All types are given on the second code too, since it is the same key.
    have same := early.whole known
    have secondGiven : second.TypesGiven := by
      intro group within
      have explicit := congrArg Key.explicit same
      change second.explicit = first.explicit at explicit
      rw [explicit]
      exact known group (early.length ▸ within)
    have again := late.whole secondGiven
    rw [← same, ← again]

/-- The modifiers of the keys do not matter. -/
theorem withModifiers (repeated : first.RepeatedBy second) (mods others : UInt8) :
    RepeatedBy { first with modifierMap := mods } { second with modifierMap := others } :=
  { repeated with
    whole := fun known => by
      have same := repeated.whole known
      exact congrArg (fun key : Key => { key with modifierMap := mods }) same }

end RepeatedBy

end Key

namespace KeyDraft

variable {types : TypeTable} {keycodes : KeycodeTable}

/-- The bits of a key for the parts that were given. -/
def explicitBits (first second third fourth acting behaves mods repeats : Bool) : UInt8 :=
  let types := [(first, 0), (second, 1), (third, 2), (fourth, 3)].foldl
    (fun bits (given, group) => if given then bits ||| Explicit.keyType group else bits) 0
  0 ||| (if acting then types ||| Explicit.interpretation else types)
    ||| bitsIf behaves Explicit.behavior ||| bitsIf mods Explicit.virtualMods
    ||| bitsIf repeats Explicit.autoRepeat

theorem meets8_explicitBits : ∀ first second third fourth acting behaves mods repeats : Bool,
    (List.range 4).map (fun group =>
      meets8 (explicitBits first second third fourth acting behaves mods repeats)
        (Explicit.keyType group)) = [first, second, third, fourth] := by
  decide +kernel

theorem explicitBits_besideTypes : ∀ first second third fourth acting behaves mods repeats : Bool,
    explicitBits first second third fourth acting behaves mods repeats &&& Explicit.besideTypes =
      explicitBits false false false false acting behaves mods repeats := by
  decide +kernel

variable {keys : Vector Key 256} {group : Nat} (key : KeyDraft)

theorem typed_groupAt (few : group < 4) :
    (key.typed types).groupAt group = (key.settledGroup types group).draft := by
  simp [groupAt, typed, few]

theorem settledGroup_repeated (canonical : types.Canonical) (key : KeyDraft) (few : group < 4) :
    (key.settledGroup types group).RepeatedBy ((key.typed types).settledGroup types group) := by
  have again := PlacedGroup.settled_again canonical key.defaultType
    (meets8 key.definedGroups (bit8 group)) (key.groupAt group)
  rw [← settledGroup, ← key.typed_groupAt few] at again
  exact again

theorem lt_groupCount (few : group < 4) (defined : meets8 key.definedGroups (bit8 group) = true) :
    group < key.groupCount := by
  -- The groups are looked at from the last one on, so none behind the one that is found counts.
  have order : (List.range 4).reverse.Pairwise (· > ·) := by decide
  have member : group ∈ (List.range 4).reverse := by simpa using few
  cases found : key.lastGroup with
  | none => exact absurd defined (List.find?_eq_none.mp found group member)
  | some last =>
    simp only [groupCount, found]
    rcases rel_of_find? order found member defined with same | less
    · omega
    · omega

/-- The number of levels of the widest group or type of a key. -/
def settledWidth (types : TypeTable) (key : KeyDraft) : Nat :=
  (key.settledGroups types).foldl
    (fun widest group => max widest (max group.draft.levels group.typeLevels)) 0

/-- Whether a group of a key has actions. -/
def settledActing (types : TypeTable) (key : KeyDraft) : Bool :=
  (key.settledGroups types).any (·.draft.actions.isSome)

/-- The groups of a key on a code: as many as are counted, each with its type. -/
theorem onCode_groups (previous : Key) (index : Nat) :
    (key.onCode types keycodes previous).groups[index]? =
      if index < key.groupCount then
        some ((key.settledGroup types index).toKeyGroup previous (key.settledWidth types)
          (key.settledActing types) index)
      else none := by
  have few := key.groupCount_le
  change (((key.settledGroups types).take key.groupCount).zipIdx.map fun pair =>
    pair.1.toKeyGroup previous (key.settledWidth types) (key.settledActing types) pair.2)[index]? = _
  rw [List.getElem?_map, List.getElem?_zipIdx, List.getElem?_take]
  split
  · rename_i counted
    have within : index < 4 := by omega
    simp [settledGroups, within]
  · rfl

theorem onCode_length (previous : Key) :
    (key.onCode types keycodes previous).groups.length = key.groupCount := by
  have few := key.groupCount_le
  simp [onCode, placeGroups, settledGroups, few]

theorem onCode_explicit :
    (key.onCode types keycodes .empty).explicit =
      explicitBits (key.settledGroup types 0).typeGiven (key.settledGroup types 1).typeGiven
        (key.settledGroup types 2).typeGiven (key.settledGroup types 3).typeGiven
        (key.settledActing types) (key.settledBehavior keycodes).isSome
        (key.definition.defines KeyField.virtualMods) key.autoRepeat.isSome :=
  rfl

theorem meets8_onCode (few : group < 4) :
    meets8 (key.onCode types keycodes .empty).explicit (Explicit.keyType group) =
      (key.settledGroup types group).typeGiven := by
  have bits := meets8_explicitBits (key.settledGroup types 0).typeGiven
    (key.settledGroup types 1).typeGiven (key.settledGroup types 2).typeGiven
    (key.settledGroup types 3).typeGiven (key.settledActing types)
    (key.settledBehavior keycodes).isSome (key.definition.defines KeyField.virtualMods)
    key.autoRepeat.isSome
  rw [onCode_explicit]
  -- Each of the four groups has its place in the list of bits.
  have bit := congrArg (·[group]?) bits
  obtain rfl | rfl | rfl | rfl : group = 0 ∨ group = 1 ∨ group = 2 ∨ group = 3 := by omega
  · exact Option.some.inj bit
  · exact Option.some.inj bit
  · exact Option.some.inj bit
  · exact Option.some.inj bit

section Again

variable (canonical : types.Canonical) (key : KeyDraft)
include canonical

theorem settledGroups_typed {α : Type} {view : PlacedGroup → α}
    (common : ∀ first later, PlacedGroup.RepeatedBy first later → view later = view first) :
    ((key.typed types).settledGroups types).map view = (key.settledGroups types).map view := by
  rw [settledGroups, settledGroups, List.map_map, List.map_map]
  refine List.map_congr_left fun group member => ?_
  exact common _ _ (key.settledGroup_repeated canonical (List.mem_range.mp member))

theorem settledWidth_typed : (key.typed types).settledWidth types = key.settledWidth types := by
  have widths := settledGroups_typed canonical key
    (fun _ _ again => by rw [again.levels, again.typeLevels] :
      ∀ first later, PlacedGroup.RepeatedBy first later →
        max later.draft.levels later.typeLevels = max first.draft.levels first.typeLevels)
  have folded := congrArg (List.foldl max 0) widths
  rwa [List.foldl_map, List.foldl_map] at folded

theorem settledActing_typed : (key.typed types).settledActing types = key.settledActing types := by
  have acting := settledGroups_typed canonical key
    (fun _ _ again => by rw [again.actions] :
      ∀ first later, PlacedGroup.RepeatedBy first later →
        later.draft.actions.isSome = first.draft.actions.isSome)
  have any := congrArg (List.any · id) acting
  rwa [List.any_map, List.any_map] at any

variable {index : Nat}

theorem toKeyGroup_typed (few : index < 4) :
    ((key.typed types).settledGroup types index).toKeyGroup .empty (key.settledWidth types)
        (key.settledActing types) index =
      { (key.settledGroup types index).toKeyGroup .empty (key.settledWidth types)
          (key.settledActing types) index with
        typeIndex := ((key.typed types).settledGroup types index).typeIndex } := by
  have again := key.settledGroup_repeated canonical few
  simp [PlacedGroup.toKeyGroup, again.levels, again.syms, again.actions, Key.empty]

/-- A group on the next code: only its type may be another one. -/
theorem onCode_typed_groups (index : Nat) :
    ((key.typed types).onCode types keycodes .empty).groups[index]? =
      (key.onCode types keycodes .empty).groups[index]?.map fun group =>
        { group with typeIndex := ((key.typed types).settledGroup types index).typeIndex } := by
  have sameCount : (key.typed types).groupCount = key.groupCount := rfl
  have few := key.groupCount_le
  rw [onCode_groups, onCode_groups, sameCount, settledWidth_typed canonical,
    settledActing_typed canonical]
  by_cases counted : index < key.groupCount
  · rw [if_pos counted, if_pos counted, toKeyGroup_typed canonical key (by omega)]
    rfl
  · rw [if_neg counted, if_neg counted]
    rfl

omit canonical in
theorem onCode_typeIndex {group : KeyGroup}
    (here : (key.onCode types keycodes .empty).groups[index]? = some group) :
    index < key.groupCount ∧ group.typeIndex = (key.settledGroup types index).typeIndex := by
  rw [onCode_groups] at here
  split at here
  · rename_i counted
    cases here
    exact ⟨counted, by simp [PlacedGroup.toKeyGroup, Key.empty]⟩
  · cases here

theorem typeGiven_typed (known : (key.onCode types keycodes .empty).TypesGiven) (few : group < 4) :
    ((key.typed types).settledGroup types group).typeGiven =
      (key.settledGroup types group).typeGiven := by
  cases given : (key.settledGroup types group).typeGiven with
  | true => exact (key.settledGroup_repeated canonical few).given given
  | false =>
    -- A group whose type is not given is not counted, so nothing was said of it.
    have undefined : meets8 key.definedGroups (bit8 group) = false := by
      refine Bool.eq_false_iff.mpr fun defined => ?_
      have counted := key.lt_groupCount few defined
      have marked := known group (by rwa [onCode_length])
      rw [meets8_onCode key few, given] at marked
      cases marked
    have sameDefined : (key.typed types).definedGroups = key.definedGroups := rfl
    simp [settledGroup, PlacedGroup.settled, sameDefined, undefined]

theorem onCode_repeated :
    (key.onCode types keycodes .empty).RepeatedBy
      ((key.typed types).onCode types keycodes .empty) := by
  refine ⟨?_, rfl, rfl, rfl, rfl, ?_, ?_, ?_, ?_⟩
  · refine List.ext_getElem? fun index => ?_
    rw [List.getElem?_map, List.getElem?_map, onCode_typed_groups canonical]
    cases (key.onCode types keycodes .empty).groups[index]? with
    | none => rfl
    | some group => rfl
  · rw [onCode_explicit, onCode_explicit, explicitBits_besideTypes, explicitBits_besideTypes,
      settledActing_typed canonical]
    rfl
  · intro index within given
    rw [meets8_onCode _ within] at given ⊢
    exact (key.settledGroup_repeated canonical within).given given
  · intro index within first other here there
    rw [onCode_typed_groups canonical, here] at there
    cases there
    rw [meets8_onCode _ within, (key.onCode_typeIndex here).2]
    exact (key.settledGroup_repeated canonical within).typeIndex
  · intro known
    have sameGroups : ((key.typed types).onCode types keycodes .empty).groups =
        (key.onCode types keycodes .empty).groups := by
      refine List.ext_getElem? fun index => ?_
      rw [onCode_typed_groups canonical]
      cases here : (key.onCode types keycodes .empty).groups[index]? with
      | none => rfl
      | some group =>
        obtain ⟨counted, typed⟩ := key.onCode_typeIndex here
        have few : index < 4 := Nat.lt_of_lt_of_le counted key.groupCount_le
        -- The type is given, so it is the same.
        have given := known index (by rwa [onCode_length])
        rw [meets8_onCode key few] at given
        have sameType := (key.settledGroup_repeated canonical few).typeIndex.resolve_right
          fun fallen => by simp [given] at fallen
        rw [Option.map_some, sameType, ← typed]
    have sameExplicit : ((key.typed types).onCode types keycodes .empty).explicit =
        (key.onCode types keycodes .empty).explicit := by
      rw [onCode_explicit, typeGiven_typed canonical key known (by decide),
        typeGiven_typed canonical key known (by decide),
          typeGiven_typed canonical key known (by decide),
            typeGiven_typed canonical key known (by decide), settledActing_typed canonical]
      rfl
    rw [sameGroups, sameExplicit]
    rfl

end Again

variable {codes : List Nat} {code : Nat}

theorem putOn_other (absent : code ∉ codes) (key : KeyDraft) (keys : Vector Key 256) :
    (putOn types keycodes codes key keys)[code]? = keys[code]? := by
  induction codes generalizing key keys with
  | nil => rfl
  | cons first rest ih =>
    have apart : first ≠ code := fun same => absent (by simp [same])
    have later : code ∉ rest := fun member => absent (by simp [member])
    rw [putOn, ih later, Vector.getElem?_setIfInBounds_ne apart]

theorem putOn_free {rest : List Nat} (distinct : (code :: rest).Nodup) {key : KeyDraft}
    (free : ∀ other ∈ code :: rest, keys[other]? = some .empty) :
    ∃ next : Vector Key 256, (∀ other ∈ rest, next[other]? = some .empty) ∧
      putOn types keycodes (code :: rest) key keys =
        putOn types keycodes rest (key.typed types) next ∧
      (putOn types keycodes (code :: rest) key keys)[code]? =
        some (key.onCode types keycodes .empty) := by
  obtain ⟨absent, _⟩ := List.nodup_cons.mp distinct
  have here := free code (by simp)
  obtain ⟨within, _⟩ := Vector.getElem?_eq_some_iff.mp here
  refine ⟨keys.setIfInBounds code (key.onCode types keycodes .empty), fun other member => ?_, ?_, ?_⟩
  · have apart : code ≠ other := fun same => absent (same ▸ member)
    rw [Vector.getElem?_setIfInBounds_ne apart]
    exact free other (by simp [member])
  · rw [putOn, here, Option.getD_some]
  · rw [putOn, putOn_other absent, here]
    simp [within]

theorem putOn_repeats (canonical : types.Canonical) (distinct : codes.Nodup) {key : KeyDraft}
    (free : ∀ code ∈ codes, keys[code]? = some .empty) {earlier : Key}
    (begins : earlier.RepeatedBy (key.onCode types keycodes .empty)) (member : code ∈ codes)
    {later : Key} (found : (putOn types keycodes codes key keys)[code]? = some later) :
    earlier.RepeatedBy later := by
  induction codes generalizing key keys with
  | nil => nomatch member
  | cons first rest ih =>
    obtain ⟨next, nextFree, onward, here⟩ := putOn_free distinct free
    rcases List.mem_cons.mp member with same | further
    · rw [same, here] at found
      cases found
      exact begins
    · -- The next code gets the key as this code left it.
      rw [onward] at found
      exact ih (List.nodup_cons.mp distinct).2 nextFree
        (begins.trans (key.onCode_repeated canonical)) further found

theorem putOn_ascending (canonical : types.Canonical) (sorted : codes.Pairwise (· < ·))
    {key : KeyDraft} (free : ∀ code ∈ codes, keys[code]? = some .empty) {other : Nat}
    (ascends : code < other) (member : code ∈ codes) (otherMember : other ∈ codes)
    {first later : Key} (found : (putOn types keycodes codes key keys)[code]? = some first)
    (otherFound : (putOn types keycodes codes key keys)[other]? = some later) :
    first.RepeatedBy later := by
  induction codes generalizing key keys with
  | nil => nomatch member
  | cons head rest ih =>
    have distinct : (head :: rest).Nodup := sorted.imp Nat.ne_of_lt
    obtain ⟨next, nextFree, onward, here⟩ := putOn_free distinct free
    obtain ⟨least, restSorted⟩ := List.pairwise_cons.mp sorted
    -- The later of the two codes is not the first of all.
    have behind : other ∈ rest := by
      rcases List.mem_cons.mp otherMember with same | further
      · rcases List.mem_cons.mp member with codeSame | codeFurther
        · omega
        · have := least code codeFurther
          omega
      · exact further
    rw [onward] at otherFound
    rcases List.mem_cons.mp member with same | further
    · rw [same, here] at found
      cases found
      exact putOn_repeats canonical (List.nodup_cons.mp distinct).2 nextFree
        (key.onCode_repeated canonical) behind otherFound
    · rw [onward] at found
      exact ih restSorted nextFree further behind found otherFound

end KeyDraft

namespace KeycodeTable

variable {table : KeycodeTable} {name : KeyName} {code : Nat}

theorem codes_sorted (table : KeycodeTable) : table.codes.Pairwise (· < ·) :=
  List.pairwise_lt_range'

theorem named_of_findNamed {start : Nat} (found : table.findNamed name start = some code) :
    table.names[code]? = some name := by
  have known := List.find?_some found
  simp only [Bool.and_eq_true, beq_iff_eq] at known
  exact known.2

theorem named_of_found {first : Nat} (found : table.findNamed name 0 = some first)
    (member : code ∈ table.codesFor name) : table.names[code]? = some name := by
  simp only [codesFor, findKey, found] at member
  rcases List.mem_cons.mp member with same | further
  · exact same ▸ named_of_findNamed found
  · have known := (List.mem_filter.mp further).2
    simp only [Bool.and_eq_true, beq_iff_eq] at known
    exact known.2

theorem named_of_mem_codesFor (member : code ∈ table.codesFor name) :
    table.names[code]? = some name ∨
      ∃ real, table.realName name = some real ∧ table.names[code]? = some real := by
  cases direct : table.findNamed name 0 with
  | some first => exact .inl (named_of_found direct member)
  | none =>
    simp only [codesFor, findKey, direct] at member
    cases isAlias : table.realName name with
    | none => simp [isAlias] at member
    | some real =>
      simp only [isAlias, Option.bind_some] at member
      cases found : table.findNamed real 0 with
      | none => simp [found] at member
      | some first =>
        simp only [found] at member
        rcases List.mem_cons.mp member with same | further
        · exact .inr ⟨real, rfl, same ▸ named_of_findNamed found⟩
        · have known := (List.mem_filter.mp further).2
          simp only [Bool.and_eq_true, beq_iff_eq] at known
          exact .inl known.2

/-- A name that a code of the range has is found, there or at an earlier code. -/
theorem findNamed_of_named (within : table.inRange code = true)
    (named : table.names[code]? = some name) :
    ∃ first, table.findNamed name 0 = some first ∧
      (code = first ∨ code ∈ table.codesNamed name (first + 1)) := by
  have listed := mem_codes.mpr within
  have satisfies : (decide (0 ≤ code) && table.names[code]? == some name) = true := by
    simp [named]
  have carried : (table.findNamed name 0).isSome = true :=
    List.find?_isSome.mpr ⟨code, listed, satisfies⟩
  obtain ⟨first, found⟩ := Option.isSome_iff_exists.mp carried
  refine ⟨first, found, ?_⟩
  -- The first code of the name is this one or one before it.
  rcases rel_of_find? table.codes_sorted found listed satisfies with same | less
  · exact .inl same
  · refine .inr (List.mem_filter.mpr ⟨listed, ?_⟩)
    simp only [named, beq_self_eq_true, Bool.and_true, decide_eq_true_eq]
    exact less

theorem mem_codesFor (within : table.inRange code = true)
    (named : table.names[code]? = some name) : code ∈ table.codesFor name := by
  obtain ⟨first, found, reached⟩ := findNamed_of_named within named
  simp only [codesFor, findKey, found]
  exact List.mem_cons.mpr reached

theorem codesFor_sorted (table : KeycodeTable) (name : KeyName) :
    (table.codesFor name).Pairwise (· < ·) := by
  simp only [codesFor]
  split
  · exact .nil
  · rename_i first _
    refine List.pairwise_cons.mpr ⟨fun other further => ?_, table.codes_sorted.filter _⟩
    have known := (List.mem_filter.mp further).2
    simp only [Bool.and_eq_true, decide_eq_true_eq] at known
    exact known.1

end KeycodeTable

/-- Of two codes of the range with a name, the later one has the key of the earlier one again. -/
def KeysRepeated (keycodes : KeycodeTable) (name : KeyName) (keys : Vector Key 256) : Prop :=
  ∀ code other, code < other → keycodes.inRange code = true → keycodes.inRange other = true →
    keycodes.names[code]? = some name → keycodes.names[other]? = some name →
      ∀ first later, keys[code]? = some first → keys[other]? = some later → first.RepeatedBy later

namespace KeyDraft

variable {types : TypeTable} {keycodes : KeycodeTable} {name : KeyName} {drafts : List KeyDraft}
  {code : Nat}

/-- A key is put on no code of another name, unless its name is an alias for that one. -/
theorem not_mem_codesFor {key : KeyDraft} (apart : key.name ≠ name)
    (direct : keycodes.realName key.name ≠ some name) (named : keycodes.names[code]? = some name) :
    code ∉ keycodes.codesFor key.name := by
  intro member
  rcases KeycodeTable.named_of_mem_codesFor member with own | ⟨real, isAlias, own⟩
  · rw [named] at own
    exact apart (Option.some.inj own).symm
  · rw [named] at own
    exact direct (own ▸ isAlias)

theorem putAll_other (apart : ∀ key ∈ drafts, key.name ≠ name)
    (direct : ∀ key ∈ drafts, keycodes.realName key.name ≠ some name) (keys : Vector Key 256)
    (named : keycodes.names[code]? = some name) :
    (putAll types keycodes drafts keys)[code]? = keys[code]? := by
  induction drafts generalizing keys with
  | nil => rfl
  | cons key rest ih =>
    have absent := not_mem_codesFor (apart key (by simp)) (direct key (by simp)) named
    have onward := ih (fun other member => apart other (by simp [member]))
      (fun other member => direct other (by simp [member]))
      (putOn types keycodes (keycodes.codesFor key.name) key keys)
    exact onward.trans (putOn_other absent key keys)

/-- Keys of different names, none of which is an alias for a name, leave the codes of that name with
one key. -/
theorem putAll_repeated (canonical : types.Canonical) (distinct : (drafts.map KeyDraft.name).Nodup)
    (direct : ∀ key ∈ drafts, keycodes.realName key.name ≠ some name) {keys : Vector Key 256}
    (free : ∀ code : Nat, keycodes.names[code]? = some name → keys[code]? = some .empty) :
    KeysRepeated keycodes name (putAll types keycodes drafts keys) := by
  induction drafts generalizing keys with
  | nil =>
    intro code other _ _ _ named otherNamed first later found otherFound
    cases (free code named).symm.trans found
    cases (free other otherNamed).symm.trans otherFound
    exact .refl _
  | cons key rest ih =>
    obtain ⟨fresh, restDistinct⟩ := List.nodup_cons.mp distinct
    have restDirect (other : KeyDraft) (member : other ∈ rest) :
        keycodes.realName other.name ≠ some name :=
      direct other (by simp [member])
    by_cases own : key.name = name
    · -- This is the only key of the name, so what it puts on the codes stays there.
      have apart (other : KeyDraft) (member : other ∈ rest) : other.name ≠ name := fun same =>
        fresh (List.mem_map.mpr ⟨other, member, same.trans own.symm⟩)
      intro code other ascends within otherWithin named otherNamed first later found otherFound
      have stays {code : Nat} (named : keycodes.names[code]? = some name) :
          (putAll types keycodes (key :: rest) keys)[code]? =
            (putOn types keycodes (keycodes.codesFor key.name) key keys)[code]? :=
        putAll_other apart restDirect _ named
      rw [stays named, own] at found
      rw [stays otherNamed, own] at otherFound
      obtain ⟨_, carried, _⟩ := KeycodeTable.findNamed_of_named within named
      refine putOn_ascending canonical (keycodes.codesFor_sorted name) (fun code member => ?_) ascends
        (KeycodeTable.mem_codesFor within named) (KeycodeTable.mem_codesFor otherWithin otherNamed)
        found otherFound
      exact free code (KeycodeTable.named_of_found carried member)
    · refine ih restDistinct restDirect fun code named => ?_
      have absent := not_mem_codesFor own (direct key (by simp)) named
      rw [putOn_other absent]
      exact free code named

end KeyDraft

end Xkb
