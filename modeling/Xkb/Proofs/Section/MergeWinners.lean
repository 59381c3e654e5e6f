import Xkb.Proofs.Section.KeyRecords

/-! Two records of a key made one: which side each symbol, action, type and field comes from. -/

namespace Xkb

/-- The new value where there is one and it either clobbers or is the only one, else the old. -/
def winner {α : Type} [DecidableEq α] (absent : α) (clobbers : Bool) (old new : α) : α :=
  if new ≠ absent ∧ (clobbers = true ∨ old = absent) then new else old

section Winner

variable {α : Type} [DecidableEq α] {absent old new : α} {clobbers : Bool}

theorem winner_of_no_new : winner absent clobbers old absent = old := by
  simp [winner]

theorem winner_of_no_old : winner absent clobbers absent new = new := by
  by_cases none : new = absent
  · simp [winner, none]
  · simp [winner, none]

theorem winner_of_both (hasNew : new ≠ absent) (hasOld : old ≠ absent) :
    winner absent clobbers old new = if clobbers = true then new else old := by
  simp [winner, hasNew, hasOld]

end Winner

theorem length_fitTo {α : Type} (width : Nat) (filler : α) (list : List α) :
    (fitTo width filler list).length = width := by
  rw [fitTo, List.length_append, List.length_take, List.length_replicate]
  omega

theorem getD_of_levels_le {α : Type} {list : Option (List α)} {levels level : Nat} (absent : α)
    (fits : ∀ entries ∈ list, entries.length = levels) (behind : levels ≤ level) :
    (list.bind (·[level]?)).getD absent = absent := by
  -- Without a list, or behind its end, there is nothing to be read.
  cases list with
  | none => rfl
  | some entries =>
    have length := fits entries rfl
    simp [List.getElem?_eq_none (show entries.length ≤ level by omega)]

namespace GroupDraft

/-- The lists that are there have an entry for each level. -/
structure Fits (group : GroupDraft) : Prop where
  syms : ∀ list ∈ group.syms, list.length = group.levels
  actions : ∀ list ∈ group.actions, list.length = group.levels

instance (group : GroupDraft) : Decidable group.Fits :=
  decidable_of_iff (group.syms.all (·.length == group.levels) = true
      ∧ group.actions.all (·.length == group.levels) = true)
    ⟨fun both => ⟨by simpa [Option.all_eq_true] using both.1, by simpa [Option.all_eq_true] using both.2⟩,
      fun fits => ⟨by simpa [Option.all_eq_true] using fits.syms,
        by simpa [Option.all_eq_true] using fits.actions⟩⟩

/-- The action at a level, which is none where there is no list. -/
def actionOn (group : GroupDraft) (level : Nat) : Action :=
  (group.actionAt level).getD .none

/-- A group that is made of two: without new levels the lists stay, and otherwise each level has the
symbol and the action that win. The type wins for itself. -/
structure Merged (clobbers : Bool) (old new made : GroupDraft) : Prop where
  keeps : new.levels = 0 →
    made.levels = old.levels ∧ made.syms = old.syms ∧ made.actions = old.actions
  width : new.levels ≠ 0 → made.levels =
    if old.levels < new.levels ∨ clobbers = true ∧ new.typeName ≠ none then new.levels
    else old.levels
  syms : new.levels ≠ 0 → ∀ level < made.levels,
    made.symAt level = winner .noSymbol clobbers (old.symAt level) (new.symAt level)
  actions : new.levels ≠ 0 → ∀ level < made.levels,
    made.actionOn level = winner .none clobbers (old.actionOn level) (new.actionOn level)
  typeName : made.typeName = winner none clobbers old.typeName new.typeName
  fits : made.Fits

variable {old new : GroupDraft}

/-- The levels of two groups made one: at each level the symbol and the action that win. -/
def joinLevels (clobbers : Bool) (old new : GroupDraft) : GroupDraft :=
  let width := if old.levels < new.levels ∨ clobbers = true ∧ new.typeName ≠ none then new.levels
    else old.levels
  { old with
    levels := width
    syms := some ((List.range width).map fun level =>
      winner .noSymbol clobbers (old.symAt level) (new.symAt level))
    actions := if (old.actions.isSome || new.actions.isSome) = true then
        some ((List.range width).map fun level =>
          winner .none clobbers (old.actionOn level) (new.actionOn level))
      else none }

/-- The group that two make: the lists of the only one that has levels, or those of both made one,
with the type that wins. -/
def join (clobbers : Bool) (old new : GroupDraft) : GroupDraft :=
  { if new.levels = 0 then old else if old.levels = 0 then new else old.joinLevels clobbers new with
    typeName := winner none clobbers old.typeName new.typeName }

theorem joinLevels_merged (clobbers : Bool) (wide : new.levels ≠ 0) :
    Merged clobbers old new { old.joinLevels clobbers new with
      typeName := winner none clobbers old.typeName new.typeName } := by
  -- The lists are as long as the group is wide, with the winners in them.
  refine ⟨fun flat => absurd flat wide, fun _ => rfl, fun _ level within => ?_,
    fun _ level within => ?_, rfl, ⟨?_, ?_⟩⟩
  · have inside : level < (old.joinLevels clobbers new).levels := within
    simp only [joinLevels] at inside
    simp [symAt, joinLevels, inside]
  · have inside : level < (old.joinLevels clobbers new).levels := within
    simp only [joinLevels] at inside
    -- A list of actions is made only if one of the sides has one.
    cases acting : old.actions.isSome || new.actions.isSome with
    | true => simp [actionOn, actionAt, joinLevels, acting, inside]
    | false =>
      simp only [Bool.or_eq_false_iff, Option.isSome_eq_false_iff, Option.isNone_iff_eq_none]
        at acting
      simp [actionOn, actionAt, joinLevels, acting, winner]
  · intro list present
    cases present
    simp [joinLevels]
  · intro list present
    simp only [joinLevels] at present
    split at present
    · cases present
      simp [joinLevels]
    · cases present

theorem join_merged (clobbers : Bool) (oldFits : old.Fits) (newFits : new.Fits) :
    Merged clobbers old new (old.join clobbers new) := by
  by_cases flat : new.levels = 0
  · -- A new group without levels brings at most a type.
    simp only [join, if_pos flat]
    exact ⟨fun _ => ⟨rfl, rfl, rfl⟩, fun wide => absurd flat wide, fun wide => absurd flat wide,
      fun wide => absurd flat wide, rfl, ⟨oldFits.syms, oldFits.actions⟩⟩
  by_cases oldFlat : old.levels = 0
  · simp only [join, if_neg flat, if_pos oldFlat]
    -- The group without levels has nothing that could win against the new lists.
    refine ⟨fun none => absurd none flat, fun _ => ?_, fun _ level _ => ?_, fun _ level _ => ?_,
      rfl, ⟨newFits.syms, newFits.actions⟩⟩
    · rw [if_pos (.inl (by omega))]
    · have none : old.symAt level = .noSymbol := getD_of_levels_le _ oldFits.syms (by omega)
      rw [none, winner_of_no_old]
      rfl
    · have none : old.actionOn level = .none := getD_of_levels_le _ oldFits.actions (by omega)
      rw [none, winner_of_no_old]
      rfl
  · simp only [join, if_neg flat, if_neg oldFlat]
    exact joinLevels_merged clobbers flat

theorem join_empty (clobbers : Bool) (old : GroupDraft) : old.join clobbers .empty = old := by
  simp only [join, empty, if_true, winner_of_no_new]

theorem empty_join (clobbers : Bool)
    (bare : new.levels = 0 → new = { empty with typeName := new.typeName }) :
    empty.join clobbers new = new := by
  by_cases flat : new.levels = 0
  · rw [bare flat]
    simp only [join, empty, if_true, winner_of_no_old]
  · simp only [join, if_neg flat, empty, if_true, winner_of_no_old]

namespace Merged

variable {old new made : GroupDraft}

theorem stays_of_augment (merged : Merged false old new made) {α : Type} [DecidableEq α] {absent : α}
    (view : GroupDraft → α) {level : Nat} (keeps : new.levels = 0 → view made = view old)
    (wins : new.levels ≠ 0 → level < made.levels →
      view made = winner absent false (view old) (view new))
    (behind : old.levels ≤ level → view old = absent) (real : view old ≠ absent) :
    view made = view old := by
  by_cases flat : new.levels = 0
  · exact keeps flat
  · -- The level is one of the old levels, and all of these are still there.
    have within : level < old.levels := Nat.lt_of_not_le fun beyond => real (behind beyond)
    have width := merged.width flat
    simp only [Bool.false_eq_true, false_and, or_false] at width
    rw [wins flat (by split at width <;> omega)]
    simp [winner, real]

end Merged

end GroupDraft

namespace KeyMerge

variable (merge : KeyMerge)

theorem mergeSym_winner (level : Nat) (old new : Keysym) :
    Gives (merge.mergeSym level old new) (· = winner .noSymbol merge.clobber old new) := by
  simp only [mergeSym]
  refine .ite (fun same => .pure ?_) fun differs => ?_
  · -- No new symbol, or the same one again.
    simp only [Bool.or_eq_true, beq_iff_eq] at same
    rcases same with rfl | rfl
    · exact winner_of_no_new.symm
    · simp [winner]
  · simp only [Bool.or_eq_true, beq_iff_eq, not_or] at differs
    refine .ite (fun none => .pure ?_) fun some => ?_
    · rw [beq_iff_eq.mp none, winner_of_no_old]
    · -- Two different symbols clash, and whether that is reported makes no difference.
      rw [winner_of_both differs.1 (by simpa using some)]
      cases merge.clobber with
      | false => exact .noted rfl
      | true => exact .noted rfl

theorem mergeAction_winner (level : Nat) (old new : Option Action) :
    Gives (merge.mergeAction level old new)
      (· = winner .none merge.clobber (old.getD .none) (new.getD .none)) := by
  simp only [mergeAction, Action.isNone]
  refine .ite (fun onlyOld => .pure ?_) fun notOld => ?_
  · simp only [Bool.and_eq_true, beq_iff_eq] at onlyOld
    rw [onlyOld.2, winner_of_no_new]
  · refine .ite (fun onlyNew => .pure ?_) fun notNew => ?_
    · simp only [Bool.and_eq_true, beq_iff_eq] at onlyNew
      rw [onlyNew.2, winner_of_no_old]
    · -- Both sides have an action, or neither has a list.
      have value : winner .none merge.clobber (old.getD .none) (new.getD .none)
          = if merge.clobber = true then new.getD .none else old.getD .none := by
        cases old with
        | none =>
          cases new with
          | none => simp [winner]
          | some new => simp at notNew
        | some old =>
          cases new with
          | none => simp at notOld
          | some new => exact winner_of_both (by simpa using notOld) (by simpa using notNew)
      rw [value]
      cases merge.clobber with
      | false => exact .noted rfl
      | true => exact .noted rfl

/-- The symbol and the action of a level are those that win, where without lists of actions there is
none. -/
theorem mergeLevel_winner (old new : GroupDraft) (level : Nat) :
    Gives (merge.mergeLevel (old.actions.isSome || new.actions.isSome) old new level)
      (· = (winner .noSymbol merge.clobber (old.symAt level) (new.symAt level),
        winner .none merge.clobber (old.actionOn level) (new.actionOn level))) := by
  simp only [mergeLevel]
  refine .bind (merge.mergeSym_winner level _ _) fun sym same => ?_
  subst same
  refine .ite (fun _ => ?_) fun silent => ?_
  · refine .bind (merge.mergeAction_winner level _ _) fun action same => .pure ?_
    rw [same]
    rfl
  · -- Neither side has a list of actions.
    simp only [Bool.or_eq_true, not_or, Bool.not_eq_true, Option.isSome_eq_false_iff,
      Option.isNone_iff_eq_none] at silent
    refine .pure ?_
    simp [GroupDraft.actionOn, GroupDraft.actionAt, silent, winner]

theorem mergeType_winner (old new : Option String) :
    Gives (merge.mergeType old new) (· = winner none merge.clobber old new) := by
  cases new with
  | none =>
    rw [winner_of_no_new]
    cases old <;> exact .pure rfl
  | some new =>
    cases old with
    | none =>
      rw [winner_of_no_old]
      exact .pure rfl
    | some old =>
      -- Two names of types count as two values even if they are the same name.
      rw [winner_of_both (Option.some_ne_none new) (Option.some_ne_none old)]
      simp only [mergeType]
      cases merge.clobber with
      | false => exact .noted rfl
      | true => exact .noted rfl

/-- Merging two groups comes to what they make. -/
theorem mergeGroup_joins (old new : GroupDraft) :
    Gives (merge.mergeGroup old new) (· = old.join merge.clobber new) := by
  have lists : Gives (merge.mergeLevels old new) (· = old.joinLevels merge.clobber new) := by
    refine .bind (.mapM_eq (merge.mergeLevel_winner old new) _) fun merged same => ?_
    subst same
    refine .pure ?_
    simp only [GroupDraft.joinLevels, mergedWidth, Bool.or_eq_true, decide_eq_true_eq,
      Bool.and_eq_true, Option.isSome_iff_ne_none, List.map_map]
    rfl
  -- Whichever lists the group gets, its type is merged last.
  have typed (lists : GroupDraft) : Gives (merge.mergeType old.typeName new.typeName >>= fun typeName =>
      pure { lists with typeName })
      (· = { lists with typeName := winner none merge.clobber old.typeName new.typeName }) :=
    .bind (merge.mergeType_winner _ _) fun typeName same => .pure (same ▸ rfl)
  simp only [mergeGroup, GroupDraft.join, beq_iff_eq]
  by_cases flat : new.levels = 0
  · simp only [if_pos flat]
    exact typed old
  · by_cases oldFlat : old.levels = 0
    · simp only [if_neg flat, if_pos oldFlat]
      exact typed _
    · simp only [if_neg flat, if_neg oldFlat]
      refine .bind lists fun made same => ?_
      subst same
      exact typed _

end KeyMerge

namespace KeyDraft

variable {old new : KeyDraft}

/-- The lists of all groups fit. -/
def Fits (key : KeyDraft) : Prop :=
  ∀ group < 4, (key.groupAt group).Fits

instance (key : KeyDraft) : Decidable key.Fits :=
  inferInstanceAs (Decidable (∀ group < 4, (key.groupAt group).Fits))

/-- A group is merged in its place, and marked if it comes with levels. -/
theorem mergeGroupOf_joins (report : Bool) (made new : KeyDraft) (group : Nat) :
    Gives (new.mergeGroupOf report made group) fun result => result.1 =
      { made.setGroup group
          ((made.groupAt group).join new.definition.merge.clobbers (new.groupAt group)) with
        symsDefined := if (new.groupAt group).levels = 0 then made.symsDefined
          else made.symsDefined ||| bit8 group
        actionsDefined := if (new.groupAt group).levels = 0 ∨ (made.groupAt group).levels = 0
          then made.actionsDefined else made.actionsDefined ||| bit8 group } := by
  simp only [mergeGroupOf]
  refine .bind (KeyMerge.mergeGroup_joins _ _ _) fun draft same => .pure ?_
  subst same
  -- Which marks are made depends on whether the two groups have levels.
  by_cases flat : (new.groupAt group).levels = 0
  · simp only [flat, beq_self_eq_true, if_true, true_or]
    rfl
  · by_cases oldFlat : (made.groupAt group).levels = 0
    · simp only [flat, oldFlat, beq_iff_eq, if_false, if_true, false_or]
      rfl
    · simp only [flat, oldFlat, beq_iff_eq, if_false, or_self]
      rfl

/-- A key while the groups of another are made one with its own, so many of them so far. -/
structure Joining (old new : KeyDraft) (done : Nat) (made : KeyDraft) : Prop where
  groups : ∀ group, made.groupAt group =
    if group < done then (old.groupAt group).join new.definition.merge.clobbers (new.groupAt group)
    else old.groupAt group
  /-- Groups that come with levels are marked for symbols. -/
  syms : ∀ group < 4, meets8 made.symsDefined (bit8 group)
    = (meets8 old.symsDefined (bit8 group)
      || (decide (group < done) && decide ((new.groupAt group).levels ≠ 0)))
  /-- Groups that have levels on both sides are marked for actions. -/
  actions : ∀ group < 4, meets8 made.actionsDefined (bit8 group)
    = (meets8 old.actionsDefined (bit8 group)
      || (decide (group < done)
        && decide ((new.groupAt group).levels ≠ 0 ∧ (old.groupAt group).levels ≠ 0)))
  /-- Nothing but groups and their marks changes. -/
  rest : made = { old with
    groups := made.groups, symsDefined := made.symsDefined, actionsDefined := made.actionsDefined }

variable {made grouped : KeyDraft} {done : Nat}

theorem Joining.name (joining : Joining old new done made) :
    made.name = old.name := by
  rw [joining.rest]

theorem Joining.next (joining : Joining old new done made) (inside : done < 4) (report : Bool) :
    Gives (new.mergeGroupOf report made done) fun result => Joining old new (done + 1) result.1 := by
  -- The group that is next is still the old one.
  have before : made.groupAt done = old.groupAt done := by
    rw [joining.groups done, if_neg (Nat.lt_irrefl done)]
  -- A mark of another group is met as before.
  have marked {mask mask' : UInt8} {unmarked : Prop} [Decidable unmarked] {wide : Nat → Bool}
      (here : wide done = !decide unmarked)
      (same : ∀ group < 4, meets8 mask (bit8 group) =
        (meets8 mask' (bit8 group) || (decide (group < done) && wide group))) :
      ∀ group < 4, meets8 (if unmarked then mask else mask ||| bit8 done) (bit8 group) =
        (meets8 mask' (bit8 group) || (decide (group < done + 1) && wide group)) := by
    intro group within
    by_cases other : done = group
    · subst other
      by_cases flat : unmarked
      · simp [flat, same done inside, here]
      · simp [flat, meets8_mark inside inside, here]
    · have earlier : group < done + 1 ↔ group < done := by omega
      split <;> simp [meets8_mark inside within, same group within, other, earlier]
  refine (mergeGroupOf_joins report made new done).mono fun result same => ?_
  rw [same, before]
  refine ⟨fun group => ?_, marked (by simp) joining.syms, marked (by simp)
    joining.actions, ?_⟩
  · refine (groupAt_setGroup inside _ group).trans ?_
    by_cases other : done = group
    · simp [other]
    · have earlier : group < done + 1 ↔ group < done := by omega
      simp [other, earlier, joining.groups group]
  · rw [joining.rest]
    rfl

theorem merge_replaces (replaces : new.definition.merge = .replace) :
    Gives (old.merge new) (· = new) := by
  unfold merge
  exact .ite (fun _ => .pure rfl) fun keeps => absurd replaces (by simpa using keeps)

/-- Two records are made one group by group and field by field. -/
theorem merge_joining (keeps : new.definition.merge ≠ .replace) :
    Gives (old.merge new) fun made =>
      ∃ grouped, Joining old new 4 grouped ∧ made = grouped.mergeFields new := by
  unfold merge
  refine .ite (fun replaces => absurd (by simpa using replaces) keeps) fun _ => ?_
  refine .after fun level => ?_
  -- The four groups are merged in turn, and what the fold carries is the key so far.
  refine .bind (?_ : Gives _ fun made : KeyDraft × Bool => Joining old new 4 made.1) ?_
  · have start : Joining old new 0 old :=
      ⟨fun _ => by simp, fun _ _ => by simp, fun _ _ => by simp, rfl⟩
    refine .foldlM_range (fun done (made : KeyDraft × Bool) => Joining old new done made.1)
      start fun done within made joining => ?_
    exact .bind (joining.next within _) fun result known => .pure known
  · intro made joining
    exact .noted ⟨made.1, joining, rfl⟩

theorem Joining.merged (joining : Joining old new 4 grouped) (oldFits : old.Fits)
    (newFits : new.Fits) : ∀ group < 4, GroupDraft.Merged
      new.definition.merge.clobbers (old.groupAt group) (new.groupAt group) (grouped.groupAt group) := by
  intro group inside
  rw [joining.groups group, if_pos inside]
  exact GroupDraft.join_merged _ (oldFits group inside) (newFits group inside)

/-- The one of two records that a field comes from: the new one if it sets the field, unless it
augments and the old one sets it too. -/
def source (old new : KeyDraft) (field : UInt32) : KeyDraft :=
  if new.definition.defines field = true ∧
      (new.definition.merge ≠ .augment ∨ old.definition.defines field = false) then new
  else old

/-- The fields of a key that is made of two, other than its groups. -/
structure FieldsMerged (old new made : KeyDraft) : Prop where
  behavior : made.behavior = (source old new KeyField.behavior).behavior
  overlayKey : made.overlayKey = (source old new KeyField.behavior).overlayKey
  virtualMods : made.virtualMods = (source old new KeyField.virtualMods).virtualMods
  autoRepeat : made.autoRepeat = (source old new KeyField.autoRepeat).autoRepeat
  defaultType : made.defaultType = (source old new KeyField.defaultType).defaultType
  groupRange : made.groupRange = (source old new KeyField.groupRange).groupRange
  name : made.name = old.name
  allowNone : made.allowNone = old.allowNone

/-- What an augmented key keeps: its symbols, actions and types and the fields that it sets. -/
structure Augmented (old made : KeyDraft) : Prop where
  syms : ∀ group < 4, ∀ level, (old.groupAt group).symAt level ≠ .noSymbol →
    (made.groupAt group).symAt level = (old.groupAt group).symAt level
  actions : ∀ group < 4, ∀ level, (old.groupAt group).actionOn level ≠ .none →
    (made.groupAt group).actionOn level = (old.groupAt group).actionOn level
  types : ∀ group < 4, (old.groupAt group).typeName ≠ none →
    (made.groupAt group).typeName = (old.groupAt group).typeName
  behavior : old.definition.defines KeyField.behavior = true →
    made.behavior = old.behavior ∧ made.overlayKey = old.overlayKey
  virtualMods : old.definition.defines KeyField.virtualMods = true →
    made.virtualMods = old.virtualMods
  autoRepeat : old.definition.defines KeyField.autoRepeat = true → made.autoRepeat = old.autoRepeat
  defaultType : old.definition.defines KeyField.defaultType = true →
    made.defaultType = old.defaultType
  groupRange : old.definition.defines KeyField.groupRange = true → made.groupRange = old.groupRange

theorem Joining.fieldsMerged (joining : Joining old new 4 grouped) :
    FieldsMerged old new (grouped.mergeFields new) := by
  obtain ⟨groups, symsDefined, actionsDefined, rfl⟩ : ∃ groups symsDefined actionsDefined,
      grouped = { old with groups, symsDefined, actionsDefined } := ⟨_, _, _, joining.rest⟩
  -- A field is taken from the record that the definitions choose.
  have chosen {α : Type} (value : KeyDraft → α) (field : UInt32) :
      (if old.definition.takes new.definition field = true then value new else value old)
        = value (source old new field) := by
    rw [source, apply_ite value]
    simp [Definition.takes, MergeMode.clobbers]
  refine ⟨?_, ?_, chosen virtualMods _, chosen autoRepeat _, chosen defaultType _,
    chosen groupRange _, rfl, rfl⟩
  · rw [← chosen behavior]
    simp only [mergeFields]
    split <;> rfl
  · rw [← chosen overlayKey]
    simp only [mergeFields]
    split <;> rfl

theorem Augmented.of_merged (augments : new.definition.merge = .augment) (oldFits : old.Fits)
    (groups : ∀ group < 4, GroupDraft.Merged new.definition.merge.clobbers (old.groupAt group)
      (new.groupAt group) (made.groupAt group)) (fields : FieldsMerged old new made) :
    Augmented old made := by
  -- Where both set a field, a record that augments is not the one that it comes from.
  have kept {field : UInt32} (set : old.definition.defines field = true) :
      source old new field = old := by
    rw [source, if_neg]
    simp [augments, set]
  have merged (group : Nat) (inside : group < 4) :
      GroupDraft.Merged false (old.groupAt group) (new.groupAt group) (made.groupAt group) := by
    have known := groups group inside
    rwa [augments] at known
  refine ⟨fun group inside level real => ?_, fun group inside level real => ?_,
    fun group inside real => ?_, fun set => ?_, fun set => ?_, fun set => ?_, fun set => ?_,
    fun set => ?_⟩
  · have known := merged group inside
    refine known.stays_of_augment (·.symAt level) (fun flat => ?_) (known.syms · level)
      (getD_of_levels_le _ (oldFits group inside).syms) real
    simp only [GroupDraft.symAt, (known.keeps flat).2.1]
  · have known := merged group inside
    refine known.stays_of_augment (·.actionOn level) (fun flat => ?_)
      (known.actions · level) (getD_of_levels_le _ (oldFits group inside).actions) real
    simp only [GroupDraft.actionOn, GroupDraft.actionAt, (known.keeps flat).2.2]
  · rw [(merged group inside).typeName]
    simp [winner, real]
  · rw [fields.behavior, fields.overlayKey, kept set]
    exact ⟨rfl, rfl⟩
  · rw [fields.virtualMods, kept set]
  · rw [fields.autoRepeat, kept set]
  · rw [fields.defaultType, kept set]
  · rw [fields.groupRange, kept set]

/-- Of two records of a key whose lists fit, made one without replacing the old one, each group has
at each level the symbol and the action that win and the type that wins, and each field is that of
the record that it comes from. A record that augments changes nothing that is there. -/
theorem merge_winners (oldFits : old.Fits) (newFits : new.Fits)
    (keeps : new.definition.merge ≠ .replace) (log : Diagnostics) :
    let made := (old.merge new log).1
    (∀ group < 4, GroupDraft.Merged new.definition.merge.clobbers (old.groupAt group)
      (new.groupAt group) (made.groupAt group)) ∧
    FieldsMerged old new made ∧ (new.definition.merge = .augment → Augmented old made) := by
  obtain ⟨grouped, joining, same⟩ := merge_joining keeps log
  intro made
  have made_eq : made = grouped.mergeFields new := same
  rw [made_eq]
  have groups : ∀ group < 4, GroupDraft.Merged new.definition.merge.clobbers (old.groupAt group)
      (new.groupAt group) ((grouped.mergeFields new).groupAt group) :=
    joining.merged oldFits newFits
  have fields := joining.fieldsMerged
  exact ⟨groups, fields, fun augments => .of_merged augments oldFits groups fields⟩

/-- A record with a symbol on the first of two levels. -/
def oneSymbol : KeyDraft :=
  { base with groups := #v[⟨2, some [97, .noSymbol], none, none⟩, .empty, .empty, .empty] }

/-- A record that augments, with a type, three symbols and an action, and with a third group. -/
def threeSymbols : KeyDraft :=
  { base with
    definition := .start .main .augment
    groups := #v[⟨3, some [65, 66, 67], some [.none, .terminate, .none], some "X"⟩, .empty,
      ⟨1, some [68], none, none⟩, .empty] }

/-- The first symbol stays, and what the old record has no place for is added. -/
theorem merge_winners_augmenting :
    let made := (oneSymbol.merge threeSymbols (.atLevel 10)).1
    oneSymbol.Fits ∧ threeSymbols.Fits ∧ threeSymbols.definition.merge ≠ .replace ∧
    (∀ group < 4, GroupDraft.Merged false (oneSymbol.groupAt group) (threeSymbols.groupAt group)
      (made.groupAt group)) ∧
    FieldsMerged oneSymbol threeSymbols made ∧ Augmented oneSymbol made ∧
    made.groupAt 0 = ⟨3, some [97, 66, 67], some [.none, .terminate, .none], some "X"⟩ ∧
    made.groupAt 2 = ⟨1, some [68], none, none⟩ := by
  have oldFits : oneSymbol.Fits := by decide
  have newFits : threeSymbols.Fits := by decide
  have keeps : threeSymbols.definition.merge ≠ .replace := by decide
  obtain ⟨groups, fields, augmented⟩ := merge_winners oldFits newFits keeps (.atLevel 10)
  exact ⟨oldFits, newFits, keeps, groups, fields, augmented rfl, by decide +kernel, by decide +kernel⟩

end KeyDraft

end Xkb
