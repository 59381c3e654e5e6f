import Xkb.Proofs.Section.KeyLook
import Xkb.Proofs.Section.MergeWinners

/-! Two records of a key that have nothing in common: made one, they look the same whichever of the
two comes first. -/

namespace Xkb

/-- Of two values of which one side at most is set, the one that is set counts, whichever comes
first. -/
theorem choose_comm {α : Type} {setLeft setRight : Bool} {left right unset : α}
    (apart : (setLeft && setRight) = false) (leftUnset : setLeft = false → left = unset)
    (rightUnset : setRight = false → right = unset) :
    (if setRight = true then right else left) = if setLeft = true then left else right := by
  cases setLeft with
  | false =>
    cases setRight with
    | false => simp [leftUnset, rightUnset]
    | true => simp
  | true =>
    cases setRight with
    | false => simp
    | true => simp at apart

namespace KeyDraft

/-- Two keys that mark no group and set no field in common. -/
structure Apart (left right : KeyDraft) : Prop where
  groups : ∀ group < 4,
    (meets8 left.definedGroups (bit8 group) && meets8 right.definedGroups (bit8 group)) = false
  fields : ∀ field ∈ KeyField.all,
    (left.definition.defines field && right.definition.defines field) = false

instance (left right : KeyDraft) : Decidable (left.Apart right) :=
  decidable_of_iff
    ((∀ group < 4,
      (meets8 left.definedGroups (bit8 group) && meets8 right.definedGroups (bit8 group)) = false)
      ∧ KeyField.all.all fun field =>
        !(left.definition.defines field && right.definition.defines field))
    ⟨fun both => ⟨both.1, by simpa only [List.all_eq_true, Bool.not_eq_true'] using both.2⟩,
      fun apart =>
        ⟨apart.groups, by simpa only [List.all_eq_true, Bool.not_eq_true'] using apart.fields⟩⟩

theorem Apart.symm {left right : KeyDraft} (apart : Apart left right) : Apart right left :=
  ⟨fun group inside => by rw [Bool.and_comm, apart.groups group inside],
    fun field member => by rw [Bool.and_comm, apart.fields field member]⟩

/-- Every group that is marked for a list has levels. -/
def Leveled (key : KeyDraft) : Prop :=
  ∀ group < 4, (meets8 key.symsDefined (bit8 group) || meets8 key.actionsDefined (bit8 group)) = true →
    (key.groupAt group).levels ≠ 0

instance (key : KeyDraft) : Decidable key.Leveled :=
  inferInstanceAs (Decidable (∀ group < 4,
    (meets8 key.symsDefined (bit8 group) || meets8 key.actionsDefined (bit8 group)) = true →
      (key.groupAt group).levels ≠ 0))

variable {key : KeyDraft}

theorem groups_eq_of_groupAt {left right : KeyDraft}
    (same : ∀ group < 4, left.groupAt group = right.groupAt group) : left.groups = right.groups := by
  ext index inside
  simpa [groupAt, inside] using same index inside

variable {group : Nat}

theorem Recorded.empty_of_unmarked (recorded : key.Recorded) (inside : group < 4)
    (unmarked : meets8 key.definedGroups (bit8 group) = false) : key.groupAt group = .empty := by
  simp only [definedGroups, meets8_or, Bool.or_eq_false_iff] at unmarked
  obtain ⟨⟨syms, actions⟩, types⟩ := unmarked
  have here := recorded.groups group inside
  have silent := here.silent actions
  have unlettered := here.unlettered syms silent
  have untyped := here.untyped types
  cases found : key.groupAt group
  simp_all [GroupDraft.empty]

theorem Recorded.bare_of_no_levels (recorded : key.Recorded) (leveled : key.Leveled)
    (inside : group < 4) (flat : (key.groupAt group).levels = 0) :
    meets8 key.symsDefined (bit8 group) = false ∧ meets8 key.actionsDefined (bit8 group) = false
      ∧ key.groupAt group = { GroupDraft.empty with typeName := (key.groupAt group).typeName } := by
  have unmarked : ¬(meets8 key.symsDefined (bit8 group)
      || meets8 key.actionsDefined (bit8 group)) = true := fun marked => leveled group inside marked flat
  rw [Bool.not_eq_true, Bool.or_eq_false_iff] at unmarked
  have here := recorded.groups group inside
  have silent := here.silent unmarked.2
  have unlettered := here.unlettered unmarked.1 silent
  refine ⟨unmarked.1, unmarked.2, ?_⟩
  cases found : key.groupAt group
  simp_all [GroupDraft.empty]

theorem Recorded.defined_iff_levels (recorded : key.Recorded) (leveled : key.Leveled)
    (inside : group < 4) :
    meets8 key.definedGroups (bit8 group)
      = (decide ((key.groupAt group).levels ≠ 0) || meets8 key.typesDefined (bit8 group)) := by
  by_cases flat : (key.groupAt group).levels = 0
  · obtain ⟨syms, actions, _⟩ := recorded.bare_of_no_levels leveled inside flat
    simp [definedGroups, meets8_or, syms, actions, flat]
  · have marked : meets8 key.definedGroups (bit8 group) = true := by
      cases unmarked : meets8 key.definedGroups (bit8 group) with
      | true => rfl
      | false => exact absurd (by rw [recorded.empty_of_unmarked inside unmarked]; rfl) flat
    simp [marked, flat]

theorem Recorded.lettered_iff_levels (recorded : key.Recorded) (leveled : key.Leveled)
    (inside : group < 4) (silent : (key.groupAt group).actions = none) :
    meets8 key.symsDefined (bit8 group) = decide ((key.groupAt group).levels ≠ 0) := by
  by_cases flat : (key.groupAt group).levels = 0
  · obtain ⟨syms, _, _⟩ := recorded.bare_of_no_levels leveled inside flat
    simp [syms, flat]
  · cases syms : meets8 key.symsDefined (bit8 group) with
    | true => simp [flat]
    | false => exact absurd ((recorded.groups group inside).unlettered syms silent).1 flat

/-- A key after the groups of another one that is apart were added to it. -/
structure Merging (old new made : KeyDraft) : Prop where
  groups : ∀ group < 4, made.groupAt group =
    if meets8 new.definedGroups (bit8 group) = true then new.groupAt group else old.groupAt group
  /-- Groups that come with levels are marked for symbols, whatever they were marked for. -/
  syms : ∀ group < 4, meets8 made.symsDefined (bit8 group) =
    (meets8 old.symsDefined (bit8 group) || decide ((new.groupAt group).levels ≠ 0))
  actions : ∀ group < 4,
    meets8 made.actionsDefined (bit8 group) = meets8 old.actionsDefined (bit8 group)
  /-- Nothing else changes. -/
  rest : made = { old with
    groups := made.groups, symsDefined := made.symsDefined, actionsDefined := made.actionsDefined }

theorem Joining.merging {old new made : KeyDraft} (joining : Joining old new 4 made)
    (oldRecorded : old.Recorded) (newRecorded : new.Recorded) (leveled : new.Leveled)
    (apart : Apart old new) : Merging old new made := by
  -- A group that the new key marks is empty in the old one.
  have gap {group : Nat} (inside : group < 4) (marked : meets8 new.definedGroups (bit8 group) = true) :
      old.groupAt group = .empty :=
    oldRecorded.empty_of_unmarked inside (by simpa [marked] using apart.groups group inside)
  refine ⟨fun group inside => ?_, fun group inside => ?_, fun group inside => ?_, joining.rest⟩
  · rw [joining.groups group, if_pos inside]
    split
    · next marked =>
      rw [gap inside marked]
      exact GroupDraft.empty_join _ fun flat =>
        (newRecorded.bare_of_no_levels leveled inside flat).2.2
    · next unmarked =>
      rw [newRecorded.empty_of_unmarked inside (by simpa using unmarked)]
      exact GroupDraft.join_empty _ _
  · simp [joining.syms group inside, inside]
  · rw [joining.actions group inside]
    cases marked : meets8 new.definedGroups (bit8 group) with
    | true => simp [gap inside marked, GroupDraft.empty]
    | false => simp [newRecorded.empty_of_unmarked inside marked, GroupDraft.empty]

/-- Two records that are apart are made one group by group and field by field. -/
theorem merge_merging {old new : KeyDraft} (oldRecorded : old.Recorded) (newRecorded : new.Recorded)
    (leveled : new.Leveled) (apart : Apart old new) (keeps : new.definition.merge ≠ .replace) :
    Gives (old.merge new) fun made =>
      ∃ grouped, Merging old new grouped ∧ made = grouped.mergeFields new := by
  refine (merge_joining keeps).mono ?_
  rintro _ ⟨grouped, joining, rfl⟩
  exact ⟨grouped, joining.merging oldRecorded newRecorded leveled apart, rfl⟩

theorem Apart.takes {old new : KeyDraft} (apart : Apart old new) {field : UInt32}
    (member : field ∈ KeyField.all) :
    old.definition.takes new.definition field = new.definition.defines field := by
  have clear := apart.fields field member
  cases sets : new.definition.defines field with
  | false => simp [Definition.takes, sets]
  | true =>
    rw [sets, Bool.and_true] at clear
    simp [Definition.takes, sets, clear]

namespace Merging

variable {left right forth back : KeyDraft}

theorem defined (merging : Merging left right forth) (recorded : right.Recorded)
    (leveled : right.Leveled) {group : Nat} (inside : group < 4) :
    meets8 (forth.mergeFields right).definedGroups (bit8 group)
      = (meets8 left.definedGroups (bit8 group) || meets8 right.definedGroups (bit8 group)) := by
  have typed : forth.typesDefined = left.typesDefined := by rw [merging.rest]
  rw [recorded.defined_iff_levels leveled inside]
  simp only [mergeFields, definedGroups, meets8_or, merging.syms group inside,
    merging.actions group inside, typed]
  -- Both sides are the same marks in another order.
  simp only [Bool.or_assoc, Bool.or_left_comm]

/-- Two records that are apart look the same when they are made one, whichever comes first. -/
theorem sameLook (merging : Merging left right forth) (reverse : Merging right left back)
    (leftRecorded : left.Recorded) (rightRecorded : right.Recorded) (leftLeveled : left.Leveled)
    (rightLeveled : right.Leveled) (apart : Apart left right) (named : left.name = right.name) :
    SameLook (forth.mergeFields right) (back.mergeFields left) := by
  -- A field has the value of the one record that sets it, or that of the start.
  have choose {α : Type} (value : KeyDraft → α) {field : UInt32} {unset : α}
      (member : field ∈ KeyField.all)
      (leftUnset : left.definition.defines field = false → value left = unset)
      (rightUnset : right.definition.defines field = false → value right = unset) :
      (if left.definition.takes right.definition field = true then value right else value left)
        = if right.definition.takes left.definition field = true then value left
          else value right := by
    rw [apart.takes member, apart.symm.takes member]
    exact choose_comm (apart.fields field member) leftUnset rightUnset
  have defined (group : Nat) (inside : group < 4) :
      meets8 (forth.mergeFields right).definedGroups (bit8 group)
        = meets8 (back.mergeFields left).definedGroups (bit8 group) := by
    rw [merging.defined rightRecorded rightLeveled inside,
      reverse.defined leftRecorded leftLeveled inside, Bool.or_comm]
  have groups : forth.groups = back.groups := by
    refine groups_eq_of_groupAt fun group inside => ?_
    rw [merging.groups group inside, reverse.groups group inside]
    exact choose_comm (apart.groups group inside) (leftRecorded.empty_of_unmarked inside) (rightRecorded.empty_of_unmarked inside)
  obtain ⟨_, _, _, rfl⟩ : ∃ groups symsDefined actionsDefined,
      forth = { left with groups, symsDefined, actionsDefined } := ⟨_, _, _, merging.rest⟩
  obtain ⟨_, _, _, rfl⟩ : ∃ groups symsDefined actionsDefined,
      back = { right with groups, symsDefined, actionsDefined } := ⟨_, _, _, reverse.rest⟩
  refine ⟨named, groups, defined, ?_, ?_, ?_, ?_, ?_, ?_, ?_⟩
  · exact choose KeyDraft.defaultType (by decide) leftRecorded.defaultType rightRecorded.defaultType
  · exact choose KeyDraft.virtualMods (by decide) leftRecorded.virtualMods rightRecorded.virtualMods
  · exact choose KeyDraft.autoRepeat (by decide) leftRecorded.autoRepeat rightRecorded.autoRepeat
  · exact choose KeyDraft.groupRange (by decide) leftRecorded.groupRange rightRecorded.groupRange
  · simp only [mergeFields, apply_ite KeyDraft.behavior]
    exact choose KeyDraft.behavior (by decide) (fun unset => (leftRecorded.behavior unset).1)
      fun unset => (rightRecorded.behavior unset).1
  · simp only [mergeFields, apply_ite KeyDraft.overlayKey]
    exact choose KeyDraft.overlayKey (by decide) (fun unset => (leftRecorded.behavior unset).2)
      fun unset => (rightRecorded.behavior unset).2
  · -- The fields that are set afterwards are those of both definitions.
    intro field member
    have separate : Definition.Separate KeyField.all := by decide
    have both := Definition.defines_adopt separate left.definition right.definition member
    have otherBoth := Definition.defines_adopt separate right.definition left.definition member
    rw [Bool.or_comm] at otherBoth
    exact both.trans otherBoth.symm

/-- Without actions in the first group, two records that are apart pass on the same parts of it,
whichever comes first. -/
theorem sameFill (merging : Merging left right forth) (reverse : Merging right left back)
    (leftRecorded : left.Recorded) (rightRecorded : right.Recorded) (leftLeveled : left.Leveled)
    (rightLeveled : right.Leveled) (leftSilent : (left.groupAt 0).actions = none)
    (rightSilent : (right.groupAt 0).actions = none)
    (look : SameLook (forth.mergeFields right) (back.mergeFields left)) :
    SameFill (forth.mergeFields right) (back.mergeFields left) := by
  have first : 0 < 4 := by decide
  have typed : forth.typesDefined = left.typesDefined := by rw [merging.rest]
  have otherTyped : back.typesDefined = right.typesDefined := by rw [reverse.rest]
  have silent : ((back.mergeFields left).groupAt 0).actions = none := by
    change (back.groupAt 0).actions = none
    rw [reverse.groups 0 first]
    split
    · exact leftSilent
    · exact rightSilent
  refine ⟨?_, ?_, ?_⟩
  · simp only [mergeFields, meets8_or, typed, otherTyped, Bool.or_comm]
  · simp [look.groupAt, silent]
  · rw [look.groupAt 0]
    have marks : meets8 (forth.mergeFields right).symsDefined (bit8 0)
        = meets8 (back.mergeFields left).symsDefined (bit8 0) := by
      change meets8 forth.symsDefined (bit8 0) = meets8 back.symsDefined (bit8 0)
      -- On either side the marks tell which of the records has levels there.
      rw [merging.syms 0 first, reverse.syms 0 first,
        leftRecorded.lettered_iff_levels leftLeveled first leftSilent,
        rightRecorded.lettered_iff_levels rightLeveled first rightSilent]
      simp [Bool.or_comm]
    rw [marks]

end Merging

/-- Two records that are apart look the same when they are made one and prepared, whichever comes
first: either no group is left out before the last one, or the first group, from which such groups
are filled in, has no actions. -/
theorem Merging.prepare_sameLook {left right forth back : KeyDraft}
    (merging : Merging left right forth) (reverse : Merging right left back)
    (leftRecorded : left.Recorded) (rightRecorded : right.Recorded) (leftLeveled : left.Leveled)
    (rightLeveled : right.Leveled) (apart : Apart left right) (named : left.name = right.name)
    (filled : ¬HasGap (left.definedGroups ||| right.definedGroups)
      ∨ (left.groupAt 0).actions = none ∧ (right.groupAt 0).actions = none) :
    SameLook (forth.mergeFields right).prepare (back.mergeFields left).prepare := by
  have look := merging.sameLook reverse leftRecorded rightRecorded leftLeveled rightLeveled apart named
  refine look.prepare ?_
  rcases filled with closed | ⟨leftSilent, rightSilent⟩
  · refine .inr fun gap => closed (gap.congr fun group inside => ?_)
    rw [merging.defined rightRecorded rightLeveled inside, meets8_or]
  · exact .inl (merging.sameFill reverse leftRecorded rightRecorded leftLeveled rightLeveled
      leftSilent rightSilent look)

end KeyDraft

end Xkb
