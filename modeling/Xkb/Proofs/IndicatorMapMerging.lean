import Xkb.Proofs.MergePolicy
import Xkb.Proofs.Section.CompatSettled

/-! Two maps for one indicator made one: field by field as the merge policy says, except that a map
which lights the indicator at the same times leaves its number and its flags out. -/

namespace Xkb.IndicatorDraft

/-- The fields of an indicator map that definitions set. -/
inductive Part where
  | index
  | mods
  | groups
  | controls
  | explicit
  | automatic
  | drivesKeyboard
deriving DecidableEq

namespace Part

/-- What a field can be: modifiers and groups go with the states that they are looked at in. -/
def Value : Part → Type
  | index => Nat
  | mods => ModMask × UInt8
  | groups => UInt8 × UInt8
  | controls => UInt32
  | explicit | automatic | drivesKeyboard => Bool

/-- The bit that marks a field as set. -/
def field : Part → UInt32
  | index => IndicatorField.index
  | mods => IndicatorField.mods
  | groups => IndicatorField.groups
  | controls => IndicatorField.controls
  | explicit => IndicatorField.explicit
  | automatic => IndicatorField.automatic
  | drivesKeyboard => IndicatorField.drivesKeyboard

/-- What a field is. -/
def value : (part : Part) → IndicatorDraft → part.Value
  | index, draft => draft.index
  | mods, draft => (draft.map.mods, draft.map.whichMods)
  | groups, draft => (draft.map.groups, draft.map.whichGroups)
  | controls, draft => draft.map.controls
  | explicit, draft => meets8 draft.map.flags IndicatorMap.noExplicit
  | automatic, draft => meets8 draft.map.flags IndicatorMap.noAutomatic
  | drivesKeyboard, draft => meets8 draft.map.flags IndicatorMap.drivesKeyboard

/-- Whether a field says when the indicator is lit. -/
def lights : Part → Bool
  | mods | groups | controls => true
  | index | explicit | automatic | drivesKeyboard => false

theorem field_mem (part : Part) : part.field ∈ IndicatorField.all := by
  cases part <;> decide

end Part

/-- A field as a map has it. -/
def setting (draft : IndicatorDraft) (part : Part) : Setting part.Value :=
  ⟨part.value draft, draft.definition.defines part.field⟩

/-- A field as a further map leaves it by the merge policy. -/
def settle (old new : IndicatorDraft) (part : Part) : Setting part.Value :=
  (old.setting part).merge new.definition.merge (new.setting part)

/-- What the merge policy says of two maps for one indicator: a map that replaces takes the place of
the other as a whole, and otherwise each field is left to the policy. -/
def FollowsPolicy (old new made : IndicatorDraft) : Prop :=
  if new.definition.merge = .replace then made = new
  else ∀ part, made.setting part = old.settle new part

/-- The old map, with the fields that either one sets marked as set. -/
def marked (old new : IndicatorDraft) : IndicatorDraft :=
  old.define new.definition.fields

/-- Whether the policy takes something from a map that lights the indicator at the same times: all of
it if it replaces, and otherwise another value for a field that it sets and may set. -/
def Overlooks (old new : IndicatorDraft) : Prop :=
  old.sameContent new = true ∧
    if new.definition.merge = .replace then old.marked new ≠ new
    else ∃ part : Part, part.value new ≠ part.value old ∧
      (new.setting part).isSet = true ∧
        (new.definition.merge ≠ .augment ∨ (old.setting part).isSet = false)

/-- The flags that definitions set, each with the field that it is. -/
def flagFields : List (UInt32 × UInt8) :=
  [(IndicatorField.explicit, IndicatorMap.noExplicit),
    (IndicatorField.automatic, IndicatorMap.noAutomatic),
    (IndicatorField.drivesKeyboard, IndicatorMap.drivesKeyboard)]

theorem meets8_mergeFlags (old new : IndicatorDraft) {field : UInt32} {flag : UInt8}
    (member : (field, flag) ∈ flagFields) :
    meets8 (mergeFlags old new) flag
      = if old.definition.takes new.definition field then meets8 new.map.flags flag
        else meets8 old.map.flags flag := by
  have chosen (fromNew : Bool) (left right : UInt8) : meets8 (if fromNew then left else right) flag
      = if fromNew then meets8 left flag else meets8 right flag := by
    cases fromNew <;> rfl
  have nothing (mask : UInt8) : meets8 mask 0 = false := by simp [meets8]
  -- The byte has four parts that share no bit, so that only the flag's own part can answer.
  have apart : IndicatorMap.noExplicit &&& IndicatorMap.noAutomatic = 0 ∧
      IndicatorMap.noExplicit &&& IndicatorMap.drivesKeyboard = 0 ∧
      IndicatorMap.noAutomatic &&& IndicatorMap.drivesKeyboard = 0 := by decide
  have others : (flagFields.all fun entry => ~~~(IndicatorMap.noExplicit
      ||| IndicatorMap.noAutomatic ||| IndicatorMap.drivesKeyboard) &&& entry.2 == 0) = true := by
    decide
  have rest := eq_of_beq (List.all_eq_true.mp others _ member)
  simp only [mergeFlags, meets8_or, meets8_and, chosen, rest]
  simp only [flagFields, List.mem_cons, List.not_mem_nil, or_false] at member
  rcases member with ⟨rfl, rfl⟩ | ⟨rfl, rfl⟩ | ⟨rfl, rfl⟩
  · simp [apart, UInt8.and_comm _ IndicatorMap.noExplicit, nothing]
  · simp [apart, UInt8.and_comm IndicatorMap.drivesKeyboard, nothing]
  · simp [apart, nothing]

theorem mergeFields_setting {old new : IndicatorDraft} (keeps : new.definition.merge ≠ .replace)
    (part : Part) : (old.mergeFields new).setting part = old.settle new part := by
  have separate : Definition.Separate IndicatorField.all := by decide
  -- The value comes from the map that the policy chooses, and a pair comes from one of them whole.
  have chosen : part.value (old.mergeFields new)
      = if old.definition.takes new.definition part.field then part.value new
        else part.value old := by
    cases part with
    | index | controls => rfl
    | mods => exact apply_ite (fun map : IndicatorMap => (map.mods, map.whichMods)) _ _ _
    | groups => exact apply_ite (fun map : IndicatorMap => (map.groups, map.whichGroups)) _ _ _
    | explicit => exact meets8_mergeFlags old new (by decide)
    | automatic => exact meets8_mergeFlags old new (by decide)
    | drivesKeyboard => exact meets8_mergeFlags old new (by decide)
  exact Definition.adopt_setting separate keeps part.field_mem chosen

/-- What the marked map has: the values of the old one, and the fields that either one sets. -/
theorem marked_setting (old new : IndicatorDraft) (part : Part) :
    (old.marked new).setting part
      = ⟨part.value old, old.definition.defines part.field || new.definition.defines part.field⟩ := by
  have fields : (old.marked new).definition.defines part.field
      = (old.definition.defines part.field || new.definition.defines part.field) :=
    Definition.defines_define old.definition new.definition.fields part.field
  rw [setting, fields]
  cases part <;> rfl

theorem value_of_sameContent {old new : IndicatorDraft} (same : old.sameContent new = true)
    {part : Part} (lights : part.lights = true) : part.value old = part.value new := by
  simp only [sameContent, Bool.and_eq_true, beq_iff_eq] at same
  obtain ⟨⟨⟨⟨mods, groups⟩, controls⟩, whichMods⟩, whichGroups⟩ := same
  cases part with
  | mods => exact Prod.ext mods whichMods
  | groups => exact Prod.ext groups whichGroups
  | controls => exact controls
  | index | explicit | automatic | drivesKeyboard => exact absurd lights (by decide)

/-- What becomes of two maps for one indicator, whatever is reported: where they light it at the same
times only the marks are taken over, and otherwise they are merged. -/
theorem merge_cases (old new : IndicatorDraft) :
    Gives (old.merge new) fun made =>
      made = if old.sameContent new then old.marked new
        else if new.definition.merge = .replace then new else old.mergeFields new := by
  -- The cases are those of the code, and reports come before the map that is left.
  simp only [merge]
  refine .after fun level => .ite (fun same => ?_) fun differ => ?_
  · rw [if_pos same]
    exact .pure rfl
  · rw [if_neg differ]
    refine .ite (fun replaces => ?_) fun keeps => ?_
    · have mode : new.definition.merge = .replace := by simpa using replaces
      rw [if_pos mode]
      exact .noted rfl
    · have mode : new.definition.merge ≠ .replace := by simpa using keeps
      rw [if_neg mode]
      exact .noted rfl

/-- Where two maps light an indicator at the same times, marking the old one is what the policy says
if nothing is overlooked. -/
theorem followsPolicy_marked {old new : IndicatorDraft} (same : old.sameContent new = true) :
    FollowsPolicy old new (old.marked new) ↔ ¬Overlooks old new := by
  rw [FollowsPolicy, Overlooks, not_and, imp_iff_right same]
  split
  · exact Decidable.not_not.symm
  · rename_i keeps
    rw [not_exists]
    refine forall_congr' fun part => ?_
    -- The marks are those of the policy in any case, so the values decide.
    rw [marked_setting, settle, setting, setting, Definition.merge_setting keeps, Setting.mk.injEq,
      and_iff_left rfl, ← Definition.takes_iff]
    by_cases takes : old.definition.takes new.definition part.field = true
    · rw [if_pos takes, and_iff_left takes]
      exact eq_comm.trans Classical.not_not.symm
    · rw [if_neg takes]
      exact iff_of_true rfl fun both => takes both.2

theorem FollowsPolicy.value {old new made : IndicatorDraft} (follows : FollowsPolicy old new made)
    (part : Part) : part.value made = (old.settle new part).value := by
  -- By the policy a map that replaces leaves all of its fields, set or not.
  rw [FollowsPolicy] at follows
  by_cases replaces : new.definition.merge = .replace
  · rw [if_pos replaces] at follows
    rw [follows, settle, replaces]
    rfl
  · rw [if_neg replaces] at follows
    exact congrArg Setting.value (follows part)

/-- Of two maps for one indicator the fields that say when it is lit are left to the merge policy in
any case, and the others unless one is overlooked; then the old map is marked and no more. -/
theorem merge_policy (old new : IndicatorDraft) :
    Gives (old.merge new) fun made =>
      (∀ part : Part, part.lights = true → part.value made = (old.settle new part).value) ∧
        (FollowsPolicy old new made ↔ ¬Overlooks old new) ∧
        (Overlooks old new → made = old.marked new) := by
  refine (merge_cases old new).mono fun made known => ?_
  by_cases same : old.sameContent new = true
  · rw [if_pos same] at known
    subst known
    refine ⟨fun part lights => ?_, followsPolicy_marked same, fun _ => rfl⟩
    -- Both maps have this value, so it does not matter which of them the policy chooses.
    have equal := value_of_sameContent same lights
    have kept : part.value (old.marked new) = part.value old :=
      congrArg Setting.value (marked_setting old new part)
    rw [kept, settle, Setting.merge]
    split
    · exact equal
    · rfl
  · -- Nothing can be overlooked, and both ways to merge are those of the policy.
    rw [if_neg same] at known
    have follows : FollowsPolicy old new made := by
      rw [FollowsPolicy]
      split
      · rename_i replaces
        rwa [if_pos replaces] at known
      · rename_i keeps
        rw [if_neg keeps] at known
        subst known
        exact mergeFields_setting keeps
    exact ⟨fun part _ => follows.value part,
      iff_of_true follows fun overlooked => same overlooked.1,
      fun overlooked => absurd overlooked.1 same⟩

/-- A map that is added where its indicator has one already is merged with the first one of that
name, and all others stay. When the indicator is lit is left to the merge policy in any case. The map
as a whole is left to it exactly if nothing is overlooked, that is, unless the new map lights the
indicator at the same times and the policy takes something else from it; then the old map stays, with
the fields of the new one marked as set. -/
theorem add_follows_policy_iff {list : List IndicatorDraft} {new : IndicatorDraft}
    (held : new.name ∈ list.map (·.name)) (diagnostics : Diagnostics) :
    ∃ before old after made, list = before ++ old :: after ∧
      (∀ other ∈ before, other.name ≠ new.name) ∧ old.name = new.name ∧
      (new.add list diagnostics).1 = before ++ made :: after ∧ made.name = new.name ∧
      (∀ part : Part, part.lights = true → part.value made = (old.settle new part).value) ∧
      (FollowsPolicy old new made ↔ ¬Overlooks old new) ∧
      (Overlooks old new → made = old.marked new) := by
  -- The search for the name stops at the first map that has it, and changes no other.
  obtain ⟨before, old, after, split, others, same⟩ := exists_first_of_mem_map held
  have added : (new.add list diagnostics).1
      = before ++ (old.merge new diagnostics).1 :: after := by
    rw [split, new.adds.known others same]
    rfl
  have name : (old.merge new diagnostics).1.name = new.name :=
    (merge_name same diagnostics).trans same
  exact ⟨before, old, after, _, split, others, same, added, name, merge_policy old new diagnostics⟩

/-- A map that is lit while Caps Lock is on. -/
def capsLock : IndicatorDraft :=
  { base with name := "Caps Lock", map := { IndicatorMap.empty with mods := ⟨0x02, 0⟩ } }.define
    IndicatorField.mods

/-- A map that augments: it has other modifiers, and gives a number. -/
def numbering : IndicatorDraft :=
  { capsLock with
    definition := ⟨IndicatorField.mods ||| IndicatorField.index, .main, .augment⟩
    index := 5
    map := { IndicatorMap.empty with mods := ⟨0x01, 0⟩ } }

/-- Behind another map, Caps Lock gets a number and keeps its modifiers. -/
theorem add_follows_policy_iff_numbering :
    numbering.name ∈ [base, capsLock].map (·.name) ∧
      ∃ made, (numbering.add [base, capsLock] (.atLevel 10)).1 = [base, made] ∧
        FollowsPolicy capsLock numbering made := by
  have held : numbering.name ∈ [base, capsLock].map (·.name) := by decide
  refine ⟨held, ?_⟩
  obtain ⟨before, old, after, made, split, others, same, added, -, -, policy, -⟩ :=
    add_follows_policy_iff held (.atLevel 10)
  -- The first map has no name, so the second one is the one that is merged with.
  obtain ⟨rfl, rfl, rfl⟩ : before = [base] ∧ old = capsLock ∧ after = [] := by
    match before, split with
    | [], split =>
      rw [← (List.cons.inj split).1] at same
      exact absurd same (by decide)
    | [_], split => simpa [eq_comm] using split
    | _ :: _ :: _, split => simp at split
  refine ⟨made, added, policy.mpr fun overlooked => ?_⟩
  exact absurd overlooked.1 (by decide)

/-- A further definition that only adds the number of the indicator is lost: the map stays without
one, against the policy, though its number is marked as set. -/
theorem add_loses_number :
    let numbered := { capsLock with index := 5 }.define IndicatorField.index
    (numbered.add [capsLock] (.atLevel 0)).1 = [capsLock.define IndicatorField.index] ∧
      ¬FollowsPolicy capsLock numbered (capsLock.define IndicatorField.index) := by
  intro numbered
  refine ⟨by decide, fun follows => ?_⟩
  -- By the policy the number is the new one, since a definition that overrides sets it.
  have number := follows.value .index
  rw [settle, Setting.merge_of_clobbers (by decide) (by decide)] at number
  exact absurd (show 0 = 5 from number) (by decide)

end Xkb.IndicatorDraft
