import Xkb.Proofs.MergePolicy
import Xkb.Proofs.ModifierRuns
import Xkb.Proofs.Section.CompatSettled
import Xkb.Proofs.Section.Cycles
import Xkb.Proofs.Tables

/-! The modifiers for each group over a whole compatibility section: they are what the definitions
for the group leave by the merge policy, once those in front that give no modifiers are left out. -/

namespace Xkb

/-- A definition of the modifiers for a group, from 0. -/
structure GroupDefinition where
  group : Nat
  merge : MergeMode
  mods : ModMask
deriving DecidableEq

namespace GroupDefinition

/-- The definition that a statement makes in a section that is read in a mode, given the virtual
modifiers. -/
def ofStatement (mode : MergeMode) (modifiers : VirtualModifiers) :
    Statement → Option GroupDefinition
  | .groupMask merge group value =>
    if group < 1 || 4 < group then none
    else (modifiers.maskOf value).toOption.map fun mods =>
      ⟨group.toInt.toNat - 1, merge.or mode, mods⟩
  | _ => none

/-- The virtual modifiers after a statement. -/
def modifiersAfter (mode : MergeMode) (modifiers : VirtualModifiers) : Statement → VirtualModifiers
  | .virtualModifier merge name value =>
    (modifiers.perform (.declare name value (merge.or mode)) (.atLevel 0)).1
  | _ => modifiers

/-- The definitions that statements make, one after the other. -/
def ofStatements (mode : MergeMode) : VirtualModifiers → List Statement → List GroupDefinition
  | _, [] => []
  | modifiers, statement :: rest =>
    (ofStatement mode modifiers statement).toList
      ++ ofStatements mode (modifiersAfter mode modifiers statement) rest

theorem modifiersAfter_of_defines {mode : MergeMode} {modifiers : VirtualModifiers}
    {statement : Statement} (defines : (ofStatement mode modifiers statement).isSome) :
    modifiersAfter mode modifiers statement = modifiers := by
  cases statement with
  | virtualModifier merge name value => cases defines
  | _ => rfl

/-- The modifiers for a group after a further definition, by the merge policy. -/
def follow (held : Setting ModMask) (new : GroupDefinition) : Setting ModMask :=
  held.merge new.merge ⟨new.mods, true⟩

/-- The modifiers for a group after a further definition in a section, where one that gives the
modifiers that are there is passed over. -/
def take (held : Setting ModMask) (new : GroupDefinition) : Setting ModMask :=
  if held.value = new.mods then held else follow held new

/-- Whether a definition without modifiers is missed that the policy counts: it is the first one for a
group with known modifiers, all definitions from the first one on that gives modifiers augment, and
there are modifiers that it should have cleared or kept out. -/
def Overlooked (known : ModMask) (definitions : List GroupDefinition) : Prop :=
  (∃ first ∈ definitions.head?, first.mods = .empty) ∧
    (∀ later ∈ definitions.dropWhile (·.mods = .empty), later.merge = .augment) ∧
    (known ≠ .empty ∨ definitions.dropWhile (·.mods = .empty) ≠ [])

variable (known : ModMask) (definitions : List GroupDefinition)

theorem follow_unset (new : GroupDefinition) :
    follow ⟨known, false⟩ new = ⟨new.mods, true⟩ :=
  Setting.merge_of_unset new.merge rfl rfl

variable {new : GroupDefinition} {held : Setting ModMask}

theorem follow_augment (augments : new.merge = .augment) (mods : ModMask) :
    follow ⟨mods, true⟩ new = ⟨mods, true⟩ := by
  rw [follow, augments, Setting.merge_augment_of_set rfl]

theorem follow_clobbers (clobbers : new.merge ≠ .augment) (held : Setting ModMask) :
    follow held new = ⟨new.mods, true⟩ :=
  Setting.merge_of_clobbers clobbers rfl

theorem follow_set (held : Setting ModMask) (set : held.isSet = true) (new : GroupDefinition) :
    follow held new = if new.merge = .augment then held else ⟨new.mods, true⟩ := by
  obtain ⟨mods, _⟩ := held
  subst set
  split
  · rename_i augments
    exact follow_augment augments mods
  · rename_i clobbers
    exact follow_clobbers clobbers _

theorem foldl_follow_isSet (set : held.isSet = true) :
    (definitions.foldl follow held).isSet = true := by
  induction definitions generalizing held with
  | nil => exact set
  | cons new rest ih => exact ih (Setting.merge_isSet set rfl)

/-- In a group that is defined, passing over a definition that changes nothing is what the policy
says. -/
theorem foldl_take_of_set (set : held.isSet = true) :
    definitions.foldl take held = definitions.foldl follow held := by
  induction definitions generalizing held with
  | nil => rfl
  | cons new rest ih =>
    have same : take held new = follow held new := by
      rw [take]
      split
      · rename_i equal
        -- Old and new modifiers are the same, so it does not matter which ones are left.
        have whole : held = ⟨new.mods, true⟩ := by rw [← equal, ← set]
        rw [follow_set held set, ← whole, ite_self]
      · rfl
    rw [List.foldl_cons, same]
    exact ih (Setting.merge_isSet set rfl)

/-- In a group that is not defined, the definitions count from the first one on that gives
modifiers. -/
theorem foldl_take_of_unset :
    definitions.foldl take ⟨.empty, false⟩
      = (definitions.dropWhile (·.mods = .empty)).foldl follow ⟨.empty, false⟩ := by
  induction definitions with
  | nil => rfl
  | cons new rest ih =>
    by_cases nothing : new.mods = .empty
    · -- The group has no modifiers yet, so the definition is passed over and leaves no trace.
      rw [List.foldl_cons, take, if_pos nothing.symm, ih,
        List.dropWhile_cons_of_pos (by simpa using nothing)]
    · -- The definition is taken, and from here on the group is defined.
      rw [List.foldl_cons, take, if_neg fun same => nothing same.symm,
        List.dropWhile_cons_of_neg (by simpa using nothing), List.foldl_cons]
      exact foldl_take_of_set rest (by rw [follow_unset])

theorem written_eq (known : ModMask) (definitions : List GroupDefinition) :
    let left := definitions.foldl take ⟨.empty, false⟩
    (if left.isSet || !left.value.isEmpty then left.value else known)
      = ((definitions.dropWhile (·.mods = .empty)).foldl follow ⟨known, false⟩).value := by
  intro left
  simp only [left, foldl_take_of_unset]
  cases definitions.dropWhile (·.mods = .empty) with
  | nil => rfl
  | cons first rest =>
    -- The first definition is taken whatever was there before.
    simp only [List.foldl_cons, follow_unset]
    rw [foldl_follow_isSet rest rfl, Bool.true_or, if_pos rfl]

/-- Of different modifiers that a group starts with, the definitions leave the same exactly if one of
them does not augment. -/
theorem foldl_follow_value_eq_iff {left right : ModMask} (differ : left ≠ right) :
    (definitions.foldl follow ⟨left, true⟩).value = (definitions.foldl follow ⟨right, true⟩).value ↔
      ¬∀ new ∈ definitions, new.merge = .augment := by
  -- The two groups stay apart up to the first definition that does not augment.
  induction definitions with
  | nil => exact iff_of_false differ fun some => some fun _ member => nomatch member
  | cons new rest ih =>
    rw [List.foldl_cons, List.foldl_cons, List.forall_mem_cons]
    by_cases augments : new.merge = .augment
    · rw [follow_augment augments, follow_augment augments, and_iff_right augments]
      exact ih
    · rw [follow_clobbers augments, follow_clobbers augments]
      exact iff_of_true rfl fun both => augments both.1

theorem foldl_follow_empty :
    definitions.foldl follow ⟨.empty, true⟩
      = (definitions.dropWhile (·.mods = .empty)).foldl follow ⟨.empty, true⟩ := by
  induction definitions with
  | nil => rfl
  | cons new rest ih =>
    by_cases nothing : new.mods = .empty
    · have same : follow ⟨.empty, true⟩ new = ⟨.empty, true⟩ := by
        rw [follow_set _ rfl, nothing, ite_self]
      rw [List.foldl_cons, same, ih, List.dropWhile_cons_of_pos (by simpa using nothing)]
    · rw [List.dropWhile_cons_of_neg (by simpa using nothing)]

/-- Definitions that begin with one that gives modifiers leave the same in a group that is not defined
and in one that is defined without any, unless all of them augment and there is something to tell the
two by. -/
theorem follow_unset_eq_empty_iff {definitions : List GroupDefinition}
    (given : ∀ first ∈ definitions.head?, first.mods ≠ .empty) :
    (definitions.foldl follow ⟨known, false⟩).value = (definitions.foldl follow ⟨.empty, true⟩).value ↔
      ¬((∀ new ∈ definitions, new.merge = .augment) ∧ (known ≠ .empty ∨ definitions ≠ [])) := by
  cases definitions with
  | nil => simp
  | cons first rest =>
    have some : first.mods ≠ .empty := given first rfl
    rw [List.foldl_cons, List.foldl_cons, follow_unset, List.forall_mem_cons]
    by_cases augments : first.merge = .augment
    · -- The one group takes the modifiers and the other stays without, so the rest decides.
      rw [follow_augment augments, foldl_follow_value_eq_iff rest some]
      simp [augments]
    · -- Both groups take the modifiers, and are the same from here on.
      rw [follow_clobbers augments]
      exact iff_of_true rfl fun overlooked => augments overlooked.1.1

/-- Leaving out the definitions in front that give no modifiers is what the policy says, unless one
is overlooked. -/
theorem dropWhile_follows_iff :
    ((definitions.dropWhile (·.mods = .empty)).foldl follow ⟨known, false⟩).value
        = (definitions.foldl follow ⟨known, false⟩).value ↔ ¬Overlooked known definitions := by
  cases definitions with
  | nil => exact iff_of_true rfl fun overlooked => nomatch overlooked.1
  | cons first rest =>
    rw [Overlooked]
    by_cases nothing : first.mods = .empty
    · -- By the policy the group is defined without modifiers, and the next ones of that kind are no
      -- news.
      have counted : ∀ next ∈ (rest.dropWhile (·.mods = .empty)).head?, next.mods ≠ .empty := by
        intro next member
        have stops := List.head?_dropWhile_not (fun new : GroupDefinition => new.mods = .empty) rest
        simpa [Option.mem_def.mp member] using stops
      rw [List.dropWhile_cons_of_pos (by simpa using nothing), List.foldl_cons, follow_unset,
        nothing, foldl_follow_empty rest, follow_unset_eq_empty_iff known counted]
      simp only [List.head?_cons, Option.mem_def, Option.some.injEq, exists_eq_left', nothing,
        true_and]
    · -- The first definition gives modifiers, so nothing is left out.
      rw [List.dropWhile_cons_of_neg (by simpa using nothing)]
      refine iff_of_true rfl fun overlooked => ?_
      obtain ⟨_, same, empty⟩ := overlooked.1
      cases same
      exact nothing empty

end GroupDefinition

namespace CompatContents

open GroupDefinition

variable {contents : CompatContents}

/-- The modifiers for a group as a section has them. -/
def groupSetting (contents : CompatContents) (group : Fin 4) : Setting ModMask :=
  ⟨contents.groupMasks[group].mods, contents.groupMasks[group].defined⟩

/-- The modifiers for a group after the definitions for it among some. -/
def takeAll (held : Setting ModMask) (definitions : List GroupDefinition) (group : Fin 4) :
    Setting ModMask :=
  (definitions.filter (·.group = (group : Nat))).foldl take held

variable (held : Setting ModMask)

theorem takeAll_singleton (new : GroupDefinition) (group : Fin 4) :
    takeAll held [new] group = if new.group = group then take held new else held := by
  by_cases same : new.group = group
  · simp [takeAll, same]
  · simp [takeAll, same]

theorem takeAll_append (first second : List GroupDefinition) (group : Fin 4) :
    takeAll held (first ++ second) group = takeAll (takeAll held first group) second group := by
  simp only [takeAll, List.filter_append, List.foldl_append]

theorem mergeGroupMask_setting (group : Nat) (origin : Origin) (old : GroupMask)
    (new : GroupDefinition) :
    Gives (mergeGroupMask group old ⟨origin, new.merge, true, new.mods⟩) fun made =>
      (⟨made.mods, made.defined⟩ : Setting ModMask) = take ⟨old.mods, old.defined⟩ new := by
  simp only [mergeGroupMask]
  refine .ite (fun same => .pure ?_) fun other => .after fun level => ?_
  · rw [take, if_pos (by simpa using same)]
  · -- What is reported does not matter, and the mask is chosen as the policy chooses it.
    have chosen : ∀ made, made = (if true && (new.merge.clobbers || !old.defined)
        then ⟨origin, new.merge, true, new.mods⟩ else old : GroupMask) →
          (⟨made.mods, made.defined⟩ : Setting ModMask) = take ⟨old.mods, old.defined⟩ new := by
      rintro made rfl
      have differ : (⟨old.mods, old.defined⟩ : Setting ModMask).value ≠ new.mods := by
        simpa using other
      rw [take, if_neg differ]
      cases held : old.defined with
      | false => simp [follow_unset]
      | true =>
        rw [follow_set _ rfl]
        by_cases augments : new.merge = .augment
        · simp [augments, held, MergeMode.clobbers]
        · simp [augments, MergeMode.clobbers, bne_iff_ne.mpr augments]
    exact .noted (chosen _ rfl)

theorem addGroupMask_setting (origin : Origin) (new : GroupDefinition) :
    Gives (contents.addGroupMask new.group ⟨origin, new.merge, true, new.mods⟩) fun made =>
      ∀ group, made.groupSetting group = takeAll (contents.groupSetting group) [new] group := by
  simp only [addGroupMask, takeAll_singleton]
  split
  · -- The section has four groups, and the definition is for none of them.
    rename_i outside
    have beyond : 4 ≤ new.group := Vector.getElem?_eq_none_iff.mp outside
    refine .pure fun group => ?_
    rw [if_neg (by omega)]
  · rename_i old held
    obtain ⟨within, here⟩ := Vector.getElem?_eq_some_iff.mp held
    refine .bind (mergeGroupMask_setting new.group origin old new) fun made settled => ?_
    refine .pure fun group => ?_
    simp only [groupSetting, Fin.getElem_fin]
    by_cases same : new.group = group
    · simp only [← same, Vector.getElem_setIfInBounds_self, if_pos, here, settled]
    · simp only [Vector.getElem_setIfInBounds_ne _ same, if_neg same]

theorem handle_keepsGroupMasks (scope : Scope) (header : Header) (mode : MergeMode)
    {statement : Statement} (other : ∀ merge group value, statement ≠ .groupMask merge group value) :
    Gives (handle scope header mode statement contents) fun made =>
      made.1.groupMasks = contents.groupMasks := by
  -- Each kind of statement has a list of its own, and defaults are no part of any list.
  cases statement with
  | interpretation merge keysym predicate body =>
    refine .after fun read => ?_
    split
    · exact .after fun _ => .pure rfl
    · split
      · exact .after fun _ => .pure rfl
      · refine .bind (handleBody_sameLists scope contents _ body) fun made same => ?_
        refine .ite (fun _ => .pure same.2.2) fun _ => ?_
        have added (draft : InterpretationDraft) : Gives (made.1.1.addInterpretation draft)
            fun next => next.groupMasks = contents.groupMasks :=
          .after fun _ => .pure same.2.2
        exact .bind (added _) fun _ known => .pure known
  | groupMask merge group value => exact absurd rfl (other merge group value)
  | indicatorMap merge name body =>
    refine .after fun read => ?_
    split
    · have added (draft : IndicatorDraft) : Gives (contents.addIndicator draft)
          fun next => next.groupMasks = contents.groupMasks :=
        .after fun _ => .pure rfl
      exact .bind (added _) fun _ known => .pure known
    · exact .pure rfl
  | assignment assigned =>
    exact (handleAssignment_sameLists scope contents assigned).mono fun made same => same.2.2
  | _ => exact .after fun _ => .pure rfl

/-- A statement that is right does to the modifiers for groups what its definition does, if it makes
one, and a statement that makes one is right. -/
theorem handle_groupSetting (contents : CompatContents) (modifiers : VirtualModifiers)
    (keycodes : KeycodeTable) (header : Header) (mode : MergeMode) (statement : Statement) :
    Gives (handle ⟨modifiers, keycodes⟩ header mode statement contents) fun made =>
      ((ofStatement mode modifiers statement).isSome → made.2 = true) ∧
        (made.2 = true → ∀ group, made.1.groupSetting group
          = takeAll (contents.groupSetting group) (ofStatement mode modifiers statement).toList
            group) := by
  -- Only statements of one kind make definitions.
  by_cases defines : ∃ merge group value, statement = .groupMask merge group value
  · obtain ⟨merge, group, value, rfl⟩ := defines
    simp only [ofStatement]
    -- A statement that is refused makes no definition.
    refine .ite (fun outside => ?_) fun within => ?_
    · refine .after fun _ => .pure ?_
      rw [if_pos outside]
      exact ⟨fun some => absurd some Bool.false_ne_true, fun right => absurd right Bool.false_ne_true⟩
    · rw [if_neg within]
      cases modifiers.maskOf value with
      | error cause =>
        exact .after fun _ => .pure
          ⟨fun some => absurd some Bool.false_ne_true, fun right => absurd right Bool.false_ne_true⟩
      | ok mods =>
        refine .bind (addGroupMask_setting header.origin
          ⟨group.toInt.toNat - 1, merge.or mode, mods⟩) fun made settled => ?_
        exact .pure ⟨fun _ => rfl, fun _ => settled⟩
  · have other : ∀ merge group value, statement ≠ .groupMask merge group value :=
      fun merge group value same => defines ⟨merge, group, value, same⟩
    have none : ofStatement mode modifiers statement = none := by
      cases statement with
      | groupMask merge group value => exact absurd rfl (other merge group value)
      | _ => rfl
    refine (handle_keepsGroupMasks _ header mode other).mono fun made kept => ?_
    rw [none]
    refine ⟨fun some => absurd some Bool.false_ne_true, fun _ group => ?_⟩
    rw [groupSetting, kept]
    rfl

section Reading

variable (keycodes : KeycodeTable) (read : SectionReader Id CompatContents) (mode : MergeMode)

/-- A statement of the section's own that is read: the header stays, the virtual modifiers go on, and
what a right statement defines is taken. -/
theorem readStatement_groupSetting {statement : Statement}
    (own : ∀ included, statement ≠ .inclusion included) (draft : Draft CompatContents)
    (workspace : Workspace) :
    let ((made, right), after) := readStatement keycodes read mode draft statement workspace
    made.header = draft.header ∧
      after.modifiers = modifiersAfter mode workspace.modifiers statement ∧
      ((ofStatement mode workspace.modifiers statement).isSome → right = true) ∧
      (right = true → ∀ group, made.contents.groupSetting group
        = takeAll (draft.contents.groupSetting group)
          (ofStatement mode workspace.modifiers statement).toList group) := by
  have handled := handle_groupSetting draft.contents workspace.modifiers keycodes draft.header mode
    statement workspace.diagnostics
  cases statement with
  | inclusion included => exact absurd rfl (own included)
  | virtualModifier merge name value =>
    -- The modifiers after a declaration do not depend on what was reported before it.
    have told : (workspace.modifiers.declare name value (merge.or mode) workspace.diagnostics).1
        = (workspace.modifiers.declare name value (merge.or mode) (.atLevel 0)).1 :=
      ((Lenient.atLevels fun _ _ => True).declare _ name value _ _ _ trivial).1
    have declared := VirtualModifiers.declareModifier_eq name value (merge.or mode) workspace
    refine ⟨rfl, ?_, nofun, fun _ _ => rfl⟩
    calc (readStatement keycodes read mode draft (.virtualModifier merge name value) workspace).2.modifiers
        = workspace.modifiers.after
            (workspace.modifiers.declare name value (merge.or mode) workspace.diagnostics).1 :=
          congrArg (·.2.modifiers) declared
      _ = workspace.modifiers.after
            (workspace.modifiers.declare name value (merge.or mode) (.atLevel 0)).1 :=
          congrArg workspace.modifiers.after told
  | _ => exact ⟨rfl, rfl, handled⟩

/-- Statements of the section's own that are read to the end without an error, one after the other:
what they define is taken in their order. No error comes up if all of them define modifiers for
groups. -/
theorem readStatements_groupSetting (name : String) {statements : List Statement}
    (own : ∀ included, .inclusion included ∉ statements) (draft : Draft CompatContents)
    (workspace : Workspace) :
    let made := (readStatements keycodes read mode name statements draft workspace).1
    (draft.isClean = true →
      (∀ statement ∈ statements, (ofStatement mode workspace.modifiers statement).isSome) →
        made.isClean = true) ∧
      (made.isClean = true → draft.isClean = true ∧ ∀ group, made.contents.groupSetting group
        = takeAll (draft.contents.groupSetting group)
          (ofStatements mode workspace.modifiers statements) group) := by
  -- Draft and workspace change from statement to statement, and with them what the names refer to.
  induction statements generalizing draft workspace with
  | nil => exact ⟨fun clean _ => clean, fun clean => ⟨clean, fun _ => rfl⟩⟩
  | cons statement rest ih =>
    have ownRest : ∀ included, .inclusion included ∉ rest := fun included member =>
      own included (List.mem_cons_of_mem _ member)
    have step := readStatement_groupSetting keycodes read mode
      (fun included same => own included (same ▸ List.mem_cons_self)) draft workspace
    -- An error before the rest is still there after it.
    have onward (next : Draft CompatContents) (after : Workspace)
        (clean : (readOn keycodes read mode name rest next after).1.isClean = true) :
        next.isClean = true := by
      by_cases many : next.header.errors > errorLimit
      · rw [readOn, if_pos many] at clean
        exact clean
      · rw [readOn, if_neg many] at clean
        exact ((ih ownRest next after).2 clean).1
    have opened : readStatements keycodes read mode name (statement :: rest) draft workspace
        = (let ((made, right), after) := readStatement keycodes read mode draft statement workspace
          readOn keycodes read mode name rest (if right then made else made.addErrors 1) after) := rfl
    rw [opened]
    generalize readStatement keycodes read mode draft statement workspace = outcome at step ⊢
    obtain ⟨⟨made, right⟩, after⟩ := outcome
    obtain ⟨header, modifiers, defines, takes⟩ := step
    have sameErrors : made.isClean = draft.isClean := by rw [Draft.isClean, header, Draft.isClean]
    dsimp only
    constructor
    · -- Definitions for groups leave the virtual modifiers, so the rest is right as it was before.
      intro clean all
      have here := all statement List.mem_cons_self
      rw [if_pos (defines here), readOn_clean _ _ _ (sameErrors.trans clean)]
      refine (ih ownRest made after).1 (sameErrors.trans clean) fun later member => ?_
      rw [modifiers, modifiersAfter_of_defines here]
      exact all later (List.mem_cons_of_mem _ member)
    · intro clean
      cases right with
      | false =>
        -- A wrong statement counts as an error.
        have counted := onward _ after clean
        rw [if_neg Bool.false_ne_true] at counted
        simp [Draft.isClean, Draft.addErrors] at counted
      | true =>
        rw [if_pos rfl] at clean ⊢
        have still := onward made after clean
        rw [readOn_clean _ _ _ still] at clean ⊢
        obtain ⟨-, settled⟩ := (ih ownRest made after).2 clean
        refine ⟨sameErrors.symm.trans still, fun group => ?_⟩
        rw [settled group, takes rfl group, modifiers, ofStatements, takeAll_append]

end Reading

theorem apply_groupMasks (contents : CompatContents) (name : Option String) (keymap : Keymap) :
    Gives (contents.apply name keymap) fun made => ∀ group : Fin 4,
      made.1.compat.groupMasks[group]
        = if (contents.groupSetting group).isSet || !(contents.groupSetting group).value.isEmpty
          then (contents.groupSetting group).value else keymap.compat.groupMasks[group] := by
  -- The masks are in the keymap before the first map is bound.
  refine (IndicatorDraft.bindAllNamed_sameButIndicators _ _).mono fun made same group => ?_
  rw [same]
  simp only [applyGroupMasks, Fin.getElem_fin, Vector.getElem_zipWith]
  rfl

end CompatContents

namespace Assembly

open CompatContents GroupDefinition

/-- A section is read from contents in which no group is defined, and its definitions are taken in
their order. -/
theorem reading_groupSetting {part : Section} (own : ∀ included, .inclusion included ∉ part.statements)
    (mode : MergeMode) (assembly : Assembly) :
    let modifiers := assembly.keymap.modifiers
    let draft := (reading CompatContents assembly mode part).1
    ((∀ statement ∈ part.statements, (ofStatement (mode.or .augment) modifiers statement).isSome) →
      draft.isClean = true) ∧
    (draft.isClean = true → ∀ group, draft.contents.groupSetting group
      = takeAll ⟨.empty, false⟩ (ofStatements (mode.or .augment) modifiers part.statements) group) := by
  have read := readStatements_groupSetting assembly.keymap.keycodes
    (readSection assembly.keymap.keycodes (Library.termCount part + assembly.library.reach) .override)
    (mode.or .augment) part.name own (Draft.empty.begin part.name .main) assembly.workspace
  have initial (group : Fin 4) : CompatContents.empty.groupSetting group = ⟨.empty, false⟩ := by
    simp [groupSetting, CompatContents.empty]
  refine ⟨read.1 rfl, fun clean group => ?_⟩
  rw [← initial group]
  exact (read.2 clean).2 group

/-- The modifiers for each group in a keymap after a compatibility section that includes none, in any
mode. The section is compiled if all of its statements are right definitions for groups. If it is
compiled, with whatever other statements, a group has what the definitions for it leave one after the
other by the merge policy, where those in front that give no modifiers are left out: a definition that
augments is taken only where none came before, any other always, and without any the group keeps what
it had. This is what the policy says of all the definitions for the group exactly if none without
modifiers is overlooked. -/
theorem compilePart_groupMasks {part : Section} (isCompat : part.kind = .compatibility)
    (own : ∀ included, .inclusion included ∉ part.statements) (mode : MergeMode)
    (assembly : Assembly) :
    let modifiers := assembly.keymap.modifiers
    let compiled := compilePart mode part assembly
    ((∀ statement ∈ part.statements, (ofStatement (mode.or .augment) modifiers statement).isSome) →
      compiled.1.isSome) ∧
    (compiled.1.isSome → ∀ group : Fin 4,
      let known := assembly.keymap.compat.groupMasks[group]
      let made := compiled.2.keymap.compat.groupMasks[group]
      let definitions := (ofStatements (mode.or .augment) modifiers part.statements).filter
        (·.group = (group : Nat))
      made = ((definitions.dropWhile (·.mods = .empty)).foldl follow ⟨known, false⟩).value ∧
        (made = (definitions.foldl follow ⟨known, false⟩).value ↔ ¬Overlooked known definitions)) := by
  intro modifiers compiled
  have compiles : compiled = applyPart mode part CompatContents.apply assembly := by
    simp only [compiled, compilePart, isCompat]
  obtain ⟨succeeds, settles⟩ := reading_groupSetting own mode assembly
  -- A section with errors is not compiled, and any other is applied to the keymap.
  cases clean : (reading CompatContents assembly mode part).1.isClean with
  | false =>
    have fails : compiled.1 = none := by rw [compiles, applyPart_of_errors _ clean]
    constructor
    · intro all
      rw [succeeds all] at clean
      cases clean
    · intro some
      rw [fails] at some
      cases some
  | true =>
    have applied := compiles.trans (applyPart_of_clean _ clean)
    constructor
    · intro all
      rw [applied]
      rfl
    · intro _ group known made definitions
      let left := definitions.foldl take ⟨.empty, false⟩
      have put : made = if left.isSet || !left.value.isEmpty then left.value else known := by
        simp only [made, applied]
        have told := apply_groupMasks (reading CompatContents assembly mode part).1.contents
          (reading CompatContents assembly mode part).1.header.name
          (assembly.afterReading (reading CompatContents assembly mode part).2).keymap
          (reading CompatContents assembly mode part).2.diagnostics group
        rwa [settles clean group] at told
      have written := put.trans (written_eq known definitions)
      refine ⟨written, ?_⟩
      rw [written]
      exact dropWhile_follows_iff known definitions

/-- A compatibility section. -/
def compatSection (statements : List Statement) : Section :=
  ⟨.compatibility, "", 0, statements, []⟩

/-- A definition of the modifiers for the second group, by a name. -/
def secondGroup (merge : MergeMode) (name : String) : Statement :=
  .groupMask merge 2 (.ident name)

/-- A group that is first defined without modifiers gets those of a definition that overrides, and one
that augments comes too late. -/
theorem compilePart_groupMasks_numLock :
    let part := compatSection [secondGroup .override "none",
      .virtualModifier .unspecified "NumLock" none, secondGroup .override "NumLock",
      secondGroup .augment "Lock"]
    let compiled := compilePart .override part (.start 0 .empty)
    part.kind = .compatibility ∧ (∀ included, .inclusion included ∉ part.statements) ∧
      compiled.1.isSome ∧ compiled.2.keymap.compat.groupMasks[(1 : Fin 4)] = ⟨0, 1⟩ := by
  intro part compiled
  have own : ∀ included, .inclusion included ∉ part.statements := by
    intro included member
    simp [part, compatSection, secondGroup] at member
  have succeeds : compiled.1.isSome := by decide +kernel
  obtain ⟨told, -⟩ :=
    (compilePart_groupMasks rfl own .override (.start 0 .empty)).2 succeeds 1
  have folded : ((((ofStatements .override .empty part.statements).filter (·.group = 1)).dropWhile
      (·.mods = .empty)).foldl follow ⟨.empty, false⟩).value = ⟨0, 1⟩ := by
    decide +kernel
  exact ⟨rfl, own, succeeds, told.trans folded⟩

/-- A group that is defined without modifiers, and then by a definition that augments, gets the
modifiers of the second one, which the policy leaves out. -/
theorem compilePart_groupMasks_overlooks_none :
    let part := compatSection [secondGroup .override "none", secondGroup .augment "Mod1"]
    let compiled := compilePart .override part (.start 0 .empty)
    let definitions := ofStatements .override .empty part.statements
    compiled.1.isSome ∧ compiled.2.keymap.compat.groupMasks[(1 : Fin 4)] = ⟨0x08, 0⟩ ∧
      definitions.map (·.group) = [1, 1] ∧
      (definitions.foldl follow ⟨.empty, false⟩).value = .empty := by
  decide +kernel

end Assembly

end Xkb
