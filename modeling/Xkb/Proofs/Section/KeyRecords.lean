import Xkb.Proofs.Computation
import Xkb.Proofs.MergePolicy
import Xkb.Section.KeySymbols

/-! The record that the body of a key makes: what it does not set is as it was at the start. -/

namespace Xkb

/-- Each of the four groups has a bit of its own. -/
theorem meets8_bit8 {group other : Nat} (inside : group < 4) (otherInside : other < 4) :
    meets8 (bit8 group) (bit8 other) = decide (group = other) := by
  -- There are sixteen pairs.
  have all : ∀ group : Fin 4, ∀ other : Fin 4,
      meets8 (bit8 group) (bit8 other) = decide (group.val = other.val) := by decide
  exact all ⟨group, inside⟩ ⟨other, otherInside⟩

/-- Marking a group changes the mask at that group only. -/
theorem meets8_mark {mask : UInt8} {group other : Nat} (inside : group < 4)
    (otherInside : other < 4) :
    meets8 (mask ||| bit8 group) (bit8 other)
      = (meets8 mask (bit8 other) || decide (group = other)) := by
  rw [Bool.eq_iff_iff, meets8_or_iff, meets8_bit8 inside otherInside, Bool.or_eq_true]

theorem Text.readNumber_le {base largest number : Nat} {cs : List Char}
    (read : readNumber base largest cs = some number) : number ≤ largest := by
  have digits {cs : List Char} (read : readDigits base largest cs = some number) :
      number ≤ largest := by
    simp only [readDigits, Option.ite_none_right_eq_some, Bool.and_eq_true, decide_eq_true_eq,
      Option.some.injEq] at read
    omega
  simp only [readNumber] at read
  split at read <;> exact digits read

/-- Overlays are numbered 1 and 2. -/
def Behavior.Numbered (behavior : Behavior) : Prop :=
  ∀ overlay code, behavior.kind = .overlay overlay code → overlay = 1 ∨ overlay = 2

theorem Behavior.default_numbered : Behavior.default.Numbered := by
  simp [Numbered, default]

namespace KeyDraft

/-- What one assignment can do to a key. -/
inductive Assigned (key : KeyDraft) : KeyDraft → Prop
  | stays : Assigned key key
  | symsMarked (group : Nat) : group < 4 →
      Assigned key { key with symsDefined := key.symsDefined ||| bit8 group }
  | syms (group : Nat) (syms : List Keysym) : group < 4 → (key.groupAt group).syms = none →
      Assigned key { key.setGroup group ((key.groupAt group).putSyms syms) with
        symsDefined := key.symsDefined ||| bit8 group }
  | actionsMarked (group : Nat) : group < 4 →
      Assigned key { key with actionsDefined := key.actionsDefined ||| bit8 group }
  | actions (group : Nat) (actions : List Action) : group < 4 →
      (key.groupAt group).actions = none →
      Assigned key { key.setGroup group ((key.groupAt group).putActions actions) with
        actionsDefined := key.actionsDefined ||| bit8 group }
  | groupType (group : Nat) (name : String) : group < 4 →
      Assigned key { key.setGroup group { key.groupAt group with typeName := some name } with
        typesDefined := key.typesDefined ||| bit8 group }
  | allowNone (groups : UInt32) : Assigned key { key with allowNone := groups }
  | defaultType (name : String) :
      Assigned key ({ key with defaultType := some name }.define KeyField.defaultType)
  | virtualMods (mods : UInt16) :
      Assigned key ({ key with virtualMods := mods }.define KeyField.virtualMods)
  | autoRepeat (choice : Option Bool) :
      Assigned key ({ key with autoRepeat := choice }.define KeyField.autoRepeat)
  | groupRange (range : GroupRange) :
      Assigned key ({ key with groupRange := range }.define KeyField.groupRange)
  | behavior (behavior : Behavior) (overlayKey : Option KeyName) :
      (key.behavior.Numbered → behavior.Numbered) →
      Assigned key ({ key with behavior, overlayKey }.define KeyField.behavior)
  | plain : Assigned key { key with behavior := .default }

/-- Setting a field does to a key what an assignment can do, right or wrong. -/
abbrev Sets (key : KeyDraft) (setting : Report (KeyDraft × Bool)) : Prop :=
  Gives setting fun made => key.Assigned made.1

/-- What decides how a key behaves: its behavior, the key that an overlay puts in its place, and the
radio groups of which no key need be down. -/
def conduct (key : KeyDraft) : Behavior × Option KeyName × UInt32 :=
  (key.behavior, key.overlayKey, key.allowNone)

/-- Setting a field does to a key what an assignment can do, and leaves how it behaves. -/
abbrev SetsAside (key : KeyDraft) (setting : Report (KeyDraft × Bool)) : Prop :=
  Gives setting fun made => key.Assigned made.1 ∧ made.1.conduct = key.conduct

/-- Setting a field does to a key what an assignment can do, and leaves what is allowed of radio
groups. -/
abbrev SetsBehavior (key : KeyDraft) (setting : Report (KeyDraft × Bool)) : Prop :=
  Gives setting fun made => key.Assigned made.1 ∧ made.1.allowNone = key.allowNone

variable {group : Nat} {value : Expr} {made : KeyDraft}

/-- A group that is changed is found there, and the others are as they were. -/
theorem groupAt_setGroup {key : KeyDraft} (inside : group < 4) (draft : GroupDraft) (other : Nat) :
    (key.setGroup group draft).groupAt other
      = if group = other then draft else key.groupAt other := by
  simp only [groupAt, setGroup, Vector.getElem?_setIfInBounds]
  split
  · simp
  · rfl

/-- Putting a group where it is changes nothing. -/
theorem setGroup_groupAt (key : KeyDraft) (group : Nat) :
    key.setGroup group (key.groupAt group) = key := by
  have same : key.groups.setIfInBounds group (key.groupAt group) = key.groups := by
    ext index inside
    rw [Vector.getElem_setIfInBounds]
    split
    · next here =>
      subst here
      simp [groupAt, inside]
    · rfl
  rw [setGroup, same]

theorem group_lt {group : Int64} (within : ¬(group < 1 || 4 < group) = true) :
    group.toInt.toNat - 1 < 4 := by
  simp only [Bool.or_eq_true, decide_eq_true_eq, Int64.lt_iff_toInt_lt] at within
  have highest : (4 : Int64).toInt = 4 := rfl
  omega

variable {key : KeyDraft}

section Sets

variable {setting : Report (KeyDraft × Bool)}

theorem SetsAside.setsBehavior (aside : key.SetsAside setting) : key.SetsBehavior setting :=
  aside.mono fun _ known => ⟨known.1, congrArg (·.2.2) known.2⟩

theorem SetsBehavior.unless (sets : key.SetsBehavior setting) (allows : Prop) :
    Gives setting fun made => key.Assigned made.1 ∧ (allows → made.1.allowNone = key.allowNone) :=
  sets.mono fun _ known => ⟨known.1, fun _ => known.2⟩

end Sets

variable (message : String) (actions : List String) (modifiers : VirtualModifiers) (field : String)
  (index : Option Expr)

theorem refuse_aside :
    key.SetsAside (key.refuse message actions) :=
  .after fun _ => .pure ⟨.stays, rfl⟩

theorem refuse_sets :
    key.Sets (key.refuse message actions) :=
  (refuse_aside message actions).mono fun _ => And.left

theorem listGroup_lt (key : KeyDraft) (index : Option Expr) (what : String) (defined : UInt8) :
    Gives (key.listGroup index what defined) fun found =>
      ∀ group, found = some group → group < 4 := by
  have refused (message : String) (actions : List String) :
      Gives (do Report.error message actions; return none) fun found : Option Nat =>
        ∀ group, found = some group → group < 4 :=
    .after fun _ => .pure nofun
  simp only [listGroup]
  split
  · split
    · next group found =>
      refine .pure ?_
      rintro _ ⟨⟩
      simpa using List.mem_of_find?_eq_some found
    · exact refused _ _
  · exact refused _ _
  · refine .ite (fun _ => refused _ _) fun inside => .pure ?_
    rintro _ ⟨⟩
    exact group_lt inside

theorem addSyms_aside (value : Option Expr) : key.SetsAside (key.addSyms index value) := by
  refine .bind (listGroup_lt key index "symbols" key.symsDefined) fun found known => ?_
  cases found with
  | none => exact .pure ⟨.stays, rfl⟩
  | some group =>
    have inside := known group rfl
    dsimp only
    split
    · exact .pure ⟨.symsMarked group inside, rfl⟩
    · refine .ite (fun _ => refuse_aside _ _) fun free => ?_
      exact .after fun syms => .pure ⟨.syms group syms inside (by simpa using free), rfl⟩
    · exact refuse_aside _ _

theorem addActions_aside (scope : Scope) (defaults : ActionDefaults) (index value : Option Expr) :
    key.SetsAside (key.addActions scope defaults index value) := by
  refine .bind (listGroup_lt key index "actions" key.actionsDefined) fun found known => ?_
  cases found with
  | none => exact .pure ⟨.stays, rfl⟩
  | some group =>
    have inside := known group rfl
    dsimp only
    split
    · exact .pure ⟨.actionsMarked group inside, rfl⟩
    · refine .ite (fun _ => refuse_aside _ _) fun free => ?_
      refine .ite (fun _ => refuse_aside _ _) fun _ => ?_
      exact .after fun actions =>
        .pure ⟨.actions group actions inside (by simpa using free), rfl⟩
    · exact refuse_aside _ _

/-- Setting whether a radio group may be left. -/
theorem setAllowNone_sets (value : Expr) :
    key.Sets (key.setAllowNone index value) := by
  simp only [setAllowNone]
  split
  · split
    · exact .pure (.allowNone _)
    · exact refuse_sets _ _
  · exact refuse_sets _ _
  · refine .ite (fun _ => refuse_sets _ _) fun _ => ?_
    split
    · exact .pure (.allowNone _)
    · exact refuse_sets _ _

theorem setType_aside (value : Expr) : key.SetsAside (key.setType index value) := by
  simp only [setType]
  split
  · refine .after fun _ => .ite (fun _ => ?_) fun _ => .pure ⟨.stays, rfl⟩
    exact .after fun _ => .pure ⟨.stays, rfl⟩
  · split
    · exact .pure ⟨.defaultType _, rfl⟩
    · exact refuse_aside _ _
    · refine .ite (fun _ => refuse_aside _ _) fun inside => ?_
      exact .pure ⟨.groupType _ _ (group_lt inside), rfl⟩

theorem setVirtualMods_aside (value : Expr) :
    key.SetsAside (key.setVirtualMods modifiers value) := by
  simp only [setVirtualMods]
  split
  · exact .pure ⟨.virtualMods _, rfl⟩
  · exact refuse_aside _ _

theorem readChoice_holds {α : Type} {holds : α → Prop} {yes no : α} {others : List (String × α)}
    (yesHolds : holds yes) (noHolds : holds no) (othersHold : ∀ other ∈ others, holds other.2)
    {chosen : α} (read : readChoice yes no others value = some chosen) :
    holds chosen := by
  cases value with
  | boolean on =>
    simp only [readChoice, Option.some.injEq] at read
    rw [← read]
    split
    · exact yesHolds
    · exact noHolds
  | ident name =>
    simp only [readChoice, Expr.toChoice] at read
    split at read
    · rename_i found located
      simp only [Except.toOption, Option.some.injEq] at read
      simp only [Text.lookupName, Option.map_eq_some_iff] at located
      obtain ⟨entry, located, same⟩ := located
      have member := List.mem_of_find?_eq_some located
      simp only [List.cons_append, List.mem_cons] at member
      rw [← read, ← same]
      rcases member with rfl | rfl | rfl | rfl | rfl | rfl | other
      all_goals first | exact yesHolds | exact noHolds | exact othersHold entry other
    · simp [Except.toOption] at read
  | _ => simp [readChoice, Expr.toChoice, Except.toOption] at read

/-- Setting whether the key locks; even a wrong value marks the behavior as set. -/
theorem setLock_sets (value : Expr) : key.SetsBehavior (key.setLock value) := by
  simp only [setLock]
  have marked (behavior : Behavior) (numbered : key.behavior.Numbered → behavior.Numbered) :
      key.Assigned ({ key with behavior }.define KeyField.behavior) :=
    .behavior behavior key.overlayKey numbered
  split
  · next behavior chosen =>
    have locking : ∀ other ∈ [("permanent", (⟨.lock, true⟩ : Behavior))], other.2.Numbered := by
      simp [Behavior.Numbered]
    refine .pure ⟨marked behavior fun _ => ?_, rfl⟩
    refine readChoice_holds ?_ Behavior.default_numbered locking chosen
    simp [Behavior.Numbered]
  · exact .after fun _ => .pure ⟨marked key.behavior id, rfl⟩

theorem setRadioGroup_sets (permanent : Bool) (value : Expr) :
    key.SetsBehavior (key.setRadioGroup permanent value) := by
  simp only [setRadioGroup]
  split
  · exact (refuse_aside _ _).setsBehavior
  · refine .ite (fun _ => .pure ⟨.plain, rfl⟩) fun _ => ?_
    refine .ite (fun _ => (refuse_aside _ _).setsBehavior) fun _ => ?_
    refine .pure ⟨.behavior _ key.overlayKey fun _ => ?_, rfl⟩
    simp [Behavior.Numbered]

theorem overlayNumber_le {text : String} {number : Nat}
    (read : overlayNumber text = some number) : number = 1 ∨ number = 2 := by
  simp only [overlayNumber] at read
  split at read
  · simp_all
  · obtain ⟨digits, positive⟩ := Option.filter_eq_some_iff.mp read
    have positive : number ≠ 0 := by simpa using positive
    have small := Text.readNumber_le digits
    omega

theorem setOverlay_sets (value : Expr) :
    key.SetsBehavior (key.setOverlay field value) := by
  simp only [setOverlay]
  split
  · exact (refuse_aside _ _).setsBehavior
  · exact (refuse_aside _ _).setsBehavior
  · next number target read _ =>
    refine .pure ⟨.behavior _ _ fun _ overlay code same => ?_, rfl⟩
    have same : number.toUInt8 = overlay := by simp_all
    rcases overlayNumber_le read with rfl | rfl
    · exact .inl same.symm
    · exact .inr same.symm

theorem setRepeat_aside (value : Expr) : key.SetsAside (key.setRepeat value) := by
  simp only [setRepeat]
  split
  · exact .pure ⟨.autoRepeat _, rfl⟩
  · exact refuse_aside _ _

/-- Setting what becomes of other groups. -/
theorem setGroupRange_aside {field : String} {setting : Report (KeyDraft × Bool)}
    (sets : key.setGroupRange field value = some setting) : key.SetsAside setting := by
  have wraps (wraps : Bool) : key.SetsAside (key.setWrap field wraps value) := by
    simp only [setWrap]
    split
    · exact refuse_aside _ _
    · exact .pure ⟨.groupRange _, rfl⟩
  have redirects : key.SetsAside (key.setRedirect value) := by
    simp only [setRedirect]
    split
    · exact refuse_aside _ _
    · exact .ite (fun _ => refuse_aside _ _) fun _ => .pure ⟨.groupRange _, rfl⟩
  simp only [setGroupRange] at sets
  split at sets <;> simp only [Option.some.injEq, reduceCtorEq] at sets <;> rw [← sets]
  · exact wraps true
  · exact wraps true
  · exact wraps false
  · exact wraps false
  · exact redirects
  · exact redirects

/-- Setting a field for other groups, or one that keys do not have. -/
theorem setOther_aside (value : Expr) (message : String) (actions : List String) :
    key.SetsAside ((key.setGroupRange field value).getD (key.refuse message actions)) := by
  cases sets : key.setGroupRange field value with
  | none => exact refuse_aside _ _
  | some setting => exact setGroupRange_aside sets

theorem setScalar_sets (value : Expr) :
    Gives (key.setScalar modifiers field index value) fun made =>
      key.Assigned made.1 ∧ (Text.foldCase field ≠ "allownone" → made.1.allowNone = key.allowNone) := by
  simp only [setScalar]
  split
  · exact (setType_aside index value).setsBehavior.unless _
  · exact (setVirtualMods_aside modifiers value).setsBehavior.unless _
  · exact (setVirtualMods_aside modifiers value).setsBehavior.unless _
  · exact (setVirtualMods_aside modifiers value).setsBehavior.unless _
  · exact (setLock_sets value).unless _
  · exact (setLock_sets value).unless _
  · exact (setLock_sets value).unless _
  · exact (setRadioGroup_sets false value).unless _
  · exact (setRadioGroup_sets true value).unless _
  · next here =>
    exact (setAllowNone_sets index value).mono fun _ known => ⟨known, fun away => absurd here away⟩
  · exact (setRepeat_aside value).setsBehavior.unless _
  · exact (setRepeat_aside value).setsBehavior.unless _
  · exact (setRepeat_aside value).setsBehavior.unless _
  · exact .ite (fun _ => (setOverlay_sets _ value).unless _) fun _ =>
      (setOther_aside _ value _ _).setsBehavior.unless _

/-- Setting a field of a key. -/
theorem setField_sets (scope : Scope) (defaults : ActionDefaults) (field : String)
    (index value : Option Expr) : Gives (key.setField scope defaults field index value) fun made =>
      key.Assigned made.1 ∧ (Text.foldCase field ≠ "allownone" → made.1.allowNone = key.allowNone) := by
  simp only [setField]
  split
  · exact (addSyms_aside index value).setsBehavior.unless _
  · exact (addActions_aside scope defaults index value).setsBehavior.unless _
  · exact setScalar_sets scope.modifiers field index _

/-- What is not marked of a group is as groups have it at the start. -/
structure GroupRecorded (lettered acting typed : Bool) (group : GroupDraft) : Prop where
  /-- Without a mark for actions there are none. -/
  silent : acting = false → group.actions = none
  /-- Levels are there because of symbols or of actions. -/
  unlettered : lettered = false → group.actions = none → group.levels = 0 ∧ group.syms = none
  untyped : typed = false → group.typeName = none

/-- What a key does not mark or set is as keys have it at the start. -/
structure Recorded (key : KeyDraft) : Prop where
  groups : ∀ group < 4, GroupRecorded (meets8 key.symsDefined (bit8 group))
    (meets8 key.actionsDefined (bit8 group)) (meets8 key.typesDefined (bit8 group))
    (key.groupAt group)
  defaultType : key.definition.defines KeyField.defaultType = false → key.defaultType = none
  virtualMods : key.definition.defines KeyField.virtualMods = false → key.virtualMods = 0
  autoRepeat : key.definition.defines KeyField.autoRepeat = false → key.autoRepeat = none
  groupRange : key.definition.defines KeyField.groupRange = false → key.groupRange = .wrap
  behavior : key.definition.defines KeyField.behavior = false →
    key.behavior = .default ∧ key.overlayKey = none

theorem groupAt_base (group : Nat) : base.groupAt group = .empty := by
  simp only [groupAt, base, Vector.getElem?_replicate]
  split <;> rfl

/-- What keys start out with sets nothing. -/
theorem base_recorded (name : KeyName) (definition : Definition) :
    Recorded { base with name, definition } := by
  refine ⟨fun group _ => ?_, fun _ => rfl, fun _ => rfl, fun _ => rfl, fun _ => rfl,
    fun _ => ⟨rfl, rfl⟩⟩
  change GroupRecorded _ _ _ (base.groupAt group)
  rw [groupAt_base]
  exact ⟨fun _ => rfl, fun _ _ => ⟨rfl, rfl⟩, fun _ => rfl⟩

theorem unset_of_define {definition : Definition} {field other : UInt32}
    (unset : (definition.define field).defines other = false) :
    definition.defines other = false ∧ meets32 field other = false := by
  rw [Definition.defines_define] at unset
  simpa using unset

/-- With a mark more, less is asked of a key. -/
theorem Recorded.define (recorded : key.Recorded) (field : UInt32) : (key.define field).Recorded where
  groups := recorded.groups
  defaultType unset := recorded.defaultType (unset_of_define unset).1
  virtualMods unset := recorded.virtualMods (unset_of_define unset).1
  autoRepeat unset := recorded.autoRepeat (unset_of_define unset).1
  groupRange unset := recorded.groupRange (unset_of_define unset).1
  behavior unset := recorded.behavior (unset_of_define unset).1

/-- All groups satisfy a test of a group and of what it is marked for: symbols, actions, a type. -/
def EachGroup (holds : Bool → Bool → Bool → GroupDraft → Prop) (key : KeyDraft) : Prop :=
  ∀ group < 4, holds (meets8 key.symsDefined (bit8 group)) (meets8 key.actionsDefined (bit8 group))
    (meets8 key.typesDefined (bit8 group)) (key.groupAt group)

variable {holds : Bool → Bool → Bool → GroupDraft → Prop}

theorem EachGroup.change (each : key.EachGroup holds) {draft : GroupDraft} (inside : group < 4)
    (here : holds (meets8 made.symsDefined (bit8 group)) (meets8 made.actionsDefined (bit8 group))
      (meets8 made.typesDefined (bit8 group)) draft)
    (grouped : made.groups = (key.setGroup group draft).groups)
    (elsewhere : ∀ other < 4, group ≠ other →
      meets8 made.symsDefined (bit8 other) = meets8 key.symsDefined (bit8 other)
        ∧ meets8 made.actionsDefined (bit8 other) = meets8 key.actionsDefined (bit8 other)
        ∧ meets8 made.typesDefined (bit8 other) = meets8 key.typesDefined (bit8 other)) :
    made.EachGroup holds := by
  intro other within
  have found : made.groupAt other = if group = other then draft else key.groupAt other := by
    rw [← groupAt_setGroup inside, groupAt, groupAt, grouped]
  rw [found]
  split
  · next same =>
    subst same
    exact here
  · next apart =>
    obtain ⟨syms, actions, types⟩ := elsewhere other within apart
    rw [syms, actions, types]
    exact each other within

/-- A test of groups that passes still does after a list or a type was added. -/
structure KeptByLists (holds : Bool → Bool → Bool → GroupDraft → Prop) : Prop where
  symsMarked {lettered acting typed : Bool} {group : GroupDraft} :
    holds lettered acting typed group → holds true acting typed group
  syms {lettered acting typed : Bool} {group : GroupDraft} (list : List Keysym) :
    holds lettered acting typed group → holds true acting typed (group.putSyms list)
  actionsMarked {lettered acting typed : Bool} {group : GroupDraft} :
    holds lettered acting typed group → holds lettered true typed group
  actions {lettered acting typed : Bool} {group : GroupDraft} (list : List Action) :
    holds lettered acting typed group → holds lettered true typed (group.putActions list)
  types {lettered acting typed : Bool} {group : GroupDraft} (name : String) :
    holds lettered acting typed group → holds lettered acting true { group with typeName := some name }

/-- An assignment leaves all groups passing such a test. -/
theorem Assigned.eachGroup (assigned : key.Assigned made) (kept : KeptByLists holds)
    (each : key.EachGroup holds) : made.EachGroup holds := by
  -- A mark for one group is none for another.
  have elsewhere {mask : UInt8} {group other : Nat} (inside : group < 4) (within : other < 4)
      (apart : group ≠ other) :
      meets8 (mask ||| bit8 group) (bit8 other) = meets8 mask (bit8 other) := by
    simp [meets8_mark inside within, apart]
  have marked {mask : UInt8} {group : Nat} (inside : group < 4) :
      meets8 (mask ||| bit8 group) (bit8 group) = true := by
    simp [meets8_mark inside inside]
  cases assigned with
  | symsMarked group inside =>
    refine each.change inside ?_ (by rw [setGroup_groupAt])
      fun other within apart => ⟨elsewhere inside within apart, rfl, rfl⟩
    rw [marked inside]
    exact kept.symsMarked (each group inside)
  | syms group list inside _ =>
    refine each.change inside ?_ rfl
      fun other within apart => ⟨elsewhere inside within apart, rfl, rfl⟩
    rw [marked inside]
    exact kept.syms list (each group inside)
  | actionsMarked group inside =>
    refine each.change inside ?_ (by rw [setGroup_groupAt])
      fun other within apart => ⟨rfl, elsewhere inside within apart, rfl⟩
    rw [marked inside]
    exact kept.actionsMarked (each group inside)
  | actions group list inside _ =>
    refine each.change inside ?_ rfl
      fun other within apart => ⟨rfl, elsewhere inside within apart, rfl⟩
    rw [marked inside]
    exact kept.actions list (each group inside)
  | groupType group name inside =>
    refine each.change inside ?_ rfl
      fun other within apart => ⟨rfl, rfl, elsewhere inside within apart⟩
    rw [marked inside]
    exact kept.types name (each group inside)
  | _ => exact each

theorem groupRecorded_kept : KeptByLists GroupRecorded where
  symsMarked recorded := ⟨recorded.silent, nofun, recorded.untyped⟩
  syms list recorded := by
    refine ⟨fun unmarked => ?_, nofun, recorded.untyped⟩
    -- Symbols do not make actions where there are none.
    simp [GroupDraft.putSyms, GroupDraft.cut, GroupDraft.grow, GroupDraft.growList,
      recorded.silent unmarked]
  actionsMarked recorded := ⟨nofun, recorded.unlettered, recorded.untyped⟩
  actions {_ _ _ group} list recorded := by
    refine ⟨nofun, fun _ silent => ?_, recorded.untyped⟩
    -- A list of actions is there afterwards, even an empty one.
    cases present : group.actions <;>
      simp [GroupDraft.putActions, GroupDraft.grow, GroupDraft.growList, present] at silent
  types name recorded := ⟨recorded.silent, recorded.unlettered, nofun⟩

/-- An assignment leaves what is not set as it was. -/
theorem Assigned.recorded (assigned : key.Assigned made) (recorded : key.Recorded) :
    made.Recorded := by
  have groups := assigned.eachGroup groupRecorded_kept recorded.groups
  cases assigned with
  | stays => exact recorded
  | allowNone _ => exact { recorded with }
  | symsMarked _ _ => exact { recorded with groups }
  | syms _ _ _ _ => exact { recorded with groups }
  | actionsMarked _ _ => exact { recorded with groups }
  | actions _ _ _ _ => exact { recorded with groups }
  | groupType _ _ _ => exact { recorded with groups }
  | defaultType name =>
    exact { recorded.define KeyField.defaultType with
      defaultType := fun unset => absurd (unset_of_define unset).2 (by decide) }
  | virtualMods mods =>
    exact { recorded.define KeyField.virtualMods with
      virtualMods := fun unset => absurd (unset_of_define unset).2 (by decide) }
  | autoRepeat choice =>
    exact { recorded.define KeyField.autoRepeat with
      autoRepeat := fun unset => absurd (unset_of_define unset).2 (by decide) }
  | groupRange range =>
    exact { recorded.define KeyField.groupRange with
      groupRange := fun unset => absurd (unset_of_define unset).2 (by decide) }
  | behavior behavior overlayKey _ =>
    exact { recorded.define KeyField.behavior with
      behavior := fun unset => absurd (unset_of_define unset).2 (by decide) }
  | plain => exact { recorded with behavior := fun unset => ⟨rfl, (recorded.behavior unset).2⟩ }

/-- Moving the first group of a key leaves its name, its definition and how it behaves. -/
theorem moveGroup_same (key : KeyDraft) (group : Nat) (map : String) :
    Gives (key.moveGroup group map) fun made => made.1.name = key.name ∧
      made.1.definition = key.definition ∧ made.1.conduct = key.conduct := by
  refine .ite (fun _ => .pure ⟨rfl, rfl, rfl⟩) fun _ => ?_
  refine .ite (fun _ => .after fun _ => .pure ⟨rfl, rfl, rfl⟩) fun _ => ?_
  exact .after fun _ => .noted ⟨rfl, rfl, rfl⟩

/-- What changes a key apart from its groups may be done before or after the key is prepared. -/
theorem prepare_hom (change : KeyDraft → KeyDraft)
    (defined : ∀ key, (change key).definedGroups = key.definedGroups)
    (grouped : ∀ key, (change key).groups = key.groups)
    (fills : ∀ key group, (change key).fillGroup group = change (key.fillGroup group))
    (collapses : ∀ key, (change key).collapse = change key.collapse) (key : KeyDraft) :
    (change key).prepare = change key.prepare := by
  have sameLast : (change key).lastGroup = key.lastGroup := by
    simp only [lastGroup, defined]
  simp only [prepare, sameLast]
  split
  · rfl
  · rfl
  · rename_i last _ _
    -- Gaps are filled group by group, with what the key itself has.
    have filled : ((List.range' 1 last).filter fun group =>
          !meets8 (change key).definedGroups (bit8 group)).foldl fillGroup (change key) =
        change (((List.range' 1 last).filter fun group =>
          !meets8 key.definedGroups (bit8 group)).foldl fillGroup key) := by
      rw [defined]
      exact List.foldl_hom change fills
    rw [filled, apply_ite change, collapses]
    simp only [groupAt, grouped]
    rfl

theorem prepare_conduct (key : KeyDraft) : key.prepare.conduct = key.conduct := by
  -- With a conduct that always is its own, the key is the same key.
  have same := prepare_hom (fun made => { made with
    behavior := key.behavior, overlayKey := key.overlayKey, allowNone := key.allowNone })
    (fun _ => rfl) (fun _ => rfl) (fun _ _ => rfl) (fun _ => rfl) key
  have conducts := congrArg conduct same
  exact conducts

theorem Assigned.same (assigned : key.Assigned made) :
    made.name = key.name ∧ made.definition.merge = key.definition.merge := by
  cases assigned <;> exact ⟨rfl, rfl⟩

end KeyDraft

end Xkb
