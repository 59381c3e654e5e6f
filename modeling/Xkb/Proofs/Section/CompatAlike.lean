import Xkb.Proofs.Accounts
import Xkb.Proofs.Section.Agreement
import Xkb.Section.Interpretations

/-! Compatibility sections make the same interpretations, group masks and indicator maps at every
warning level and wherever their definitions are from. -/

namespace Xkb

variable {levels : Nat → Nat → Prop} {moved : Origin → Origin}

namespace IndicatorDraft

/-- The map from elsewhere. -/
def move (moved : Origin → Origin) (draft : IndicatorDraft) : IndicatorDraft :=
  { draft with definition := draft.definition.move moved }

/-- Two settings make the same map, from here and from elsewhere, and agree on whether they are
right. -/
abbrev SetAlike (levels : Nat → Nat → Prop) (moved : Origin → Origin)
    (left right : Report (IndicatorDraft × Bool)) : Prop :=
  AnswersAlike levels left right (fun made other => other = (made.1.move moved, made.2))
    (·.2 = false)

variable (modifiers : VirtualModifiers) (draft : IndicatorDraft) (field : String)

theorem setValue_alike {α : Type} (wanted : String) (read : Except ValueError α)
    {change otherChange : α → IndicatorDraft}
    (same : ∀ value, otherChange value = (change value).move moved) :
    SetAlike levels moved (draft.setValue field wanted read change)
      ((draft.move moved).setValue field wanted read otherChange) := by
  simp only [setValue]
  split
  · exact .pure (by rw [same]) (by simp)
  · exact .refuse rfl

theorem setIndex_alike (value : Expr) :
    SetAlike levels moved (draft.setIndex field value) ((draft.move moved).setIndex field value) := by
  simp only [setIndex]
  split
  · exact .refuse rfl
  · exact .ite (fun _ => .pure rfl (by simp)) fun _ => .refuse rfl

theorem setPlainField_alike (value : Expr) :
    SetAlike levels moved (draft.setPlainField modifiers field value)
      ((draft.move moved).setPlainField modifiers field value) := by
  simp only [setPlainField]
  -- The number is checked against a range; every other known field is set to a value that was read.
  split
  case h_16 => exact setIndex_alike draft field value
  case h_17 => exact .refuse rfl
  all_goals exact setValue_alike draft field _ _ fun _ => rfl

theorem setField_alike (index : Option Expr) (value : Expr) :
    SetAlike levels moved (draft.setField modifiers field index value)
      ((draft.move moved).setField modifiers field index value) := by
  simp only [setField]
  refine .ite (fun _ => .refuse rfl) fun _ => ?_
  exact setPlainField_alike modifiers draft field value

theorem handleAssignment_alike (assigned : Assignment) :
    SetAlike levels moved (draft.handleAssignment modifiers assigned)
      ((draft.move moved).handleAssignment modifiers assigned) := by
  simp only [handleAssignment]
  split
  · exact .refuse rfl
  · exact .refuse rfl
  · exact .refuse rfl
  · exact setField_alike modifiers draft _ _ _

theorem ofBody_alike (base : IndicatorDraft) (name : String) (body : List Assignment) :
    AnswersAlike levels (ofBody modifiers base name body)
      (ofBody modifiers (base.move moved) name body)
      (fun made other => other = made.map (IndicatorDraft.move moved)) (· = none) := by
  refine .bindTold (?_ : SetAlike levels moved _ _) fun made => ?_
  · refine .foldTold (by simp) rfl fun assigned _ made => ?_
    exact .bindTold (handleAssignment_alike modifiers made.1 assigned) fun next =>
      .pure rfl (by grind)
  · -- A map with a wrong assignment is given up, here and elsewhere.
    obtain ⟨draft, right⟩ := made
    refine .pure ?_ (by simp)
    cases right <;> rfl

theorem mergeFields_move (old new : IndicatorDraft) :
    (old.move moved).mergeFields (new.move moved) = (old.mergeFields new).move moved := by
  simp only [mergeFields]
  rfl

theorem merge_alike (old new : IndicatorDraft) :
    AnswersAlike levels (old.merge new) ((old.move moved).merge (new.move moved))
      (fun made other => other = made.move moved) fun _ => False := by
  -- The level decides on the warning only.
  refine .level fun level otherLevel _ => ?_
  dsimp only
  refine .ite (fun _ => .pure rfl (by simp)) fun _ => ?_
  refine .ite (fun _ => .warnIf (.pure rfl (by simp))) fun _ => ?_
  exact .warnIf (.pure (mergeFields_move old new) (by simp))

theorem add_alike (new : IndicatorDraft) (drafts : List IndicatorDraft) :
    AnswersAlike levels (new.add drafts)
      ((new.move moved).add (drafts.map (IndicatorDraft.move moved)))
      (fun made other => other = made.map (IndicatorDraft.move moved)) fun _ => False := by
  induction drafts with
  | nil => exact .pure rfl (by simp)
  | cons old rest ih =>
    simp only [List.map_cons, add]
    refine .ite (fun _ => ?_) fun _ => ?_
    · refine .bindTold (merge_alike old new) fun made => ?_
      exact .pure rfl (by simp)
    · refine .bindTold ih fun made => ?_
      exact .pure rfl (by simp)

end IndicatorDraft

namespace InterpretationDraft

/-- The interpretation from elsewhere. -/
def move (moved : Origin → Origin) (draft : InterpretationDraft) : InterpretationDraft :=
  { draft with definition := draft.definition.move moved }

/-- Two settings make the same interpretation, from here and from elsewhere, and agree on whether
they are right. -/
abbrev SetAlike (levels : Nat → Nat → Prop) (moved : Origin → Origin)
    (left right : Report (InterpretationDraft × Bool)) : Prop :=
  AnswersAlike levels left right (fun made other => other = (made.1.move moved, made.2))
    (·.2 = false)

theorem merge_alike (old new : InterpretationDraft) :
    AnswersAlike levels (old.merge new) ((old.move moved).merge (new.move moved))
      (fun made other => other = made.move moved) fun _ => False := by
  refine .level fun level otherLevel _ => ?_
  dsimp only
  refine .ite (fun _ => .warnIf (.pure rfl (by simp))) fun _ => ?_
  exact .warnIf (.pure rfl (by simp))

theorem add_alike (new : InterpretationDraft) (drafts : List InterpretationDraft) :
    AnswersAlike levels (new.add drafts)
      ((new.move moved).add (drafts.map (InterpretationDraft.move moved)))
      (fun made other => other = made.map (InterpretationDraft.move moved)) fun _ => False := by
  induction drafts with
  | nil => exact .pure rfl (by simp)
  | cons old rest ih =>
    simp only [List.map_cons, add]
    refine .ite (fun _ => ?_) fun _ => ?_
    · refine .bindTold (merge_alike old new) fun made => ?_
      exact .pure rfl (by simp)
    · refine .bindTold ih fun made => ?_
      exact .pure rfl (by simp)

theorem setValue_alike {α : Type} (draft : InterpretationDraft) (field wanted : String)
    (read : Except ValueError α) {change otherChange : α → InterpretationDraft}
    (same : ∀ value, otherChange value = (change value).move moved) :
    SetAlike levels moved (draft.setValue field wanted read change)
      ((draft.move moved).setValue field wanted read otherChange) := by
  simp only [setValue]
  split
  · exact .pure (by rw [same]) (by simp)
  · exact .refuse rfl

theorem setPlainField_alike (scope : Scope) (actions : ActionDefaults)
    (draft : InterpretationDraft) (field : String) (value : Expr) :
    Option.Rel (SetAlike levels moved) (draft.setPlainField scope actions field value)
      ((draft.move moved).setPlainField scope actions field value) := by
  simp only [setPlainField]
  split
  case h_1 =>
    refine .some ?_
    split
    · exact .pure rfl (by simp)
    · exact .refuse rfl
  case h_8 => exact .none
  all_goals exact .some (setValue_alike draft field _ _ fun _ => rfl)

theorem setField_alike (scope : Scope) (actions : ActionDefaults) (draft : InterpretationDraft)
    (field : String) (index : Option Expr) (value : Expr) :
    SetAlike levels moved (draft.setField scope actions field index value)
      ((draft.move moved).setField scope actions field index value) := by
  have plain : Option.Rel (SetAlike levels moved) (draft.setPlainField scope actions field value)
      ((draft.move moved).setPlainField scope actions field value) :=
    setPlainField_alike scope actions draft field value
  simp only [setField]
  generalize draft.setPlainField scope actions field value = setting at plain
  generalize (draft.move moved).setPlainField scope actions field value = other at plain
  cases plain with
  | none => exact .refuse rfl
  | some alike => exact .ite (fun _ => .refuse rfl) fun _ => alike

end InterpretationDraft

/-- The modifiers of a group from elsewhere. -/
def GroupMask.move (moved : Origin → Origin) (mask : GroupMask) : GroupMask :=
  { mask with origin := moved mask.origin }

namespace CompatContents

/-- The contents from elsewhere. -/
def move (moved : Origin → Origin) (contents : CompatContents) : CompatContents :=
  { contents with
    interpretations := contents.interpretations.map (InterpretationDraft.move moved)
    base := contents.base.move moved
    indicatorBase := contents.indicatorBase.move moved
    groupMasks := contents.groupMasks.map (GroupMask.move moved)
    indicators := contents.indicators.map (IndicatorDraft.move moved) }

/-- Two changes make the same contents, from here and from elsewhere. -/
abbrev MadeAlike (levels : Nat → Nat → Prop) (moved : Origin → Origin)
    (left right : Report CompatContents) : Prop :=
  AnswersAlike levels left right (fun made other => other = made.move moved) fun _ => False

/-- Two changes make the same contents, from here and from elsewhere, and agree on whether they are
right. -/
abbrev HandledAlike (levels : Nat → Nat → Prop) (moved : Origin → Origin)
    (left right : Report (CompatContents × Bool)) : Prop :=
  AnswersAlike levels left right (fun made other => other = (made.1.move moved, made.2))
    (·.2 = false)

variable (contents : CompatContents) (scope : Scope)

theorem addInterpretation_alike (new : InterpretationDraft) :
    MadeAlike levels moved (contents.addInterpretation new)
      ((contents.move moved).addInterpretation (new.move moved)) := by
  refine .bindTold (InterpretationDraft.add_alike new contents.interpretations) fun made => ?_
  exact .pure rfl (by simp)

theorem addIndicator_alike (new : IndicatorDraft) :
    MadeAlike levels moved (contents.addIndicator new)
      ((contents.move moved).addIndicator (new.move moved)) := by
  refine .bindTold (IndicatorDraft.add_alike new contents.indicators) fun made => ?_
  exact .pure rfl (by simp)

theorem mergeGroupMask_alike (group : Nat) (old new : GroupMask) :
    AnswersAlike levels (mergeGroupMask group old new)
      (mergeGroupMask group (old.move moved) (new.move moved))
      (fun made other => other = made.move moved) fun _ => False := by
  simp only [mergeGroupMask]
  refine .ite (fun _ => .pure rfl (by simp)) fun _ => ?_
  refine .level fun _ _ _ => .warnIf (.pure ?_ (by simp))
  rw [apply_ite (GroupMask.move moved)]
  rfl

theorem addGroupMask_alike (group : Nat) (new : GroupMask) :
    MadeAlike levels moved (contents.addGroupMask group new)
      ((contents.move moved).addGroupMask group (new.move moved)) := by
  have sameMask : (contents.move moved).groupMasks[group]? =
      contents.groupMasks[group]?.map (GroupMask.move moved) := by
    -- Setting one mask and moving all of them can be done in either order.
    simp [move]
  simp only [addGroupMask, sameMask]
  cases contents.groupMasks[group]? with
  | none => exact .pure rfl (by simp)
  | some old =>
    refine .bindTold (mergeGroupMask_alike group old new) fun merged => ?_
    refine .pure ?_ (by simp)
    simp [move]

theorem handleAssignment_alike (contents : CompatContents) (assigned : Assignment) :
    HandledAlike levels moved (contents.handleAssignment scope assigned)
      ((contents.move moved).handleAssignment scope assigned) := by
  simp only [handleAssignment]
  split
  · exact .refuse rfl
  · exact .refuse rfl
  · exact .refuse rfl
  · refine .ite (fun _ => ?_) fun _ => ?_
    · refine .bindTold (InterpretationDraft.setField_alike scope contents.actions contents.base
        _ _ _) fun made => ?_
      exact .pure rfl (by simp)
    refine .ite (fun _ => ?_) fun _ => ?_
    · refine .bindTold (IndicatorDraft.setField_alike scope.modifiers contents.indicatorBase
        _ _ _) fun made => ?_
      exact .pure rfl (by simp)
    have sameActions : (contents.move moved).actions = contents.actions := rfl
    rw [sameActions]
    split
    · exact .pure rfl (by simp)
    · exact .refuse rfl

theorem readPredicate_alike (predicate : Option Expr) :
    AnswersAlike levels (readPredicate predicate) (readPredicate predicate) Eq fun _ => False := by
  simp only [readPredicate]
  split
  · exact .pure rfl (by simp)
  · split
    · exact .refuse rfl
    · exact .pure rfl (by simp)
  · split
    · exact .ite (fun _ => .pure rfl (by simp)) fun _ => .pure rfl (by simp)
    · exact .pure rfl (by simp)

/-- The contents and an interpretation from elsewhere. -/
def moveWith (moved : Origin → Origin) (made : (CompatContents × InterpretationDraft) × Bool) :
    (CompatContents × InterpretationDraft) × Bool :=
  ((made.1.1.move moved, made.1.2.move moved), made.2)

theorem handleBodyAssignment_alike (contents : CompatContents) (draft : InterpretationDraft)
    (assigned : Assignment) :
    AnswersAlike levels (contents.handleBodyAssignment scope draft assigned)
      ((contents.move moved).handleBodyAssignment scope (draft.move moved) assigned)
      (fun made other => other = moveWith moved made) (·.2 = false) := by
  simp only [handleBodyAssignment]
  split
  · exact .refuse rfl
  · refine .bindTold (handleAssignment_alike scope contents assigned) fun made => ?_
    exact .pure rfl (by simp)
  · split
    · exact .refuse rfl
    · refine .bindTold (InterpretationDraft.setField_alike scope contents.actions draft _ _ _)
        fun made => ?_
      exact .pure rfl (by simp)

theorem handleBody_alike (scope : Scope) (contents : CompatContents) (draft : InterpretationDraft)
    (body : List Assignment) :
    AnswersAlike levels (contents.handleBody scope draft body)
      ((contents.move moved).handleBody scope (draft.move moved) body)
      (fun made other => other = moveWith moved made) (·.2 = false) := by
  refine .foldTold (by simp) rfl fun assigned _ made => ?_
  exact .bindTold (handleBodyAssignment_alike scope made.1.1 made.1.2 assigned) fun next =>
    .pure rfl (by grind)

theorem handleInterpretation_alike (contents : CompatContents) (header : Header) (mode : MergeMode)
    (keysym : String) (predicate : Option Expr) (body : List Assignment) :
    HandledAlike levels moved
      (contents.handleInterpretation scope header mode keysym predicate body)
      ((contents.move moved).handleInterpretation scope (header.move moved) mode keysym predicate
        body) := by
  refine .bindSame (readPredicate_alike predicate) fun read => ?_
  cases read with
  | none => exact .refuse rfl
  | some read =>
    dsimp only
    split
    · exact .refuse rfl
    · refine .bind (handleBody_alike scope contents _ body) ?_
      rintro ⟨⟨contents, draft⟩, right⟩ _ rfl
      refine .ite (fun wrong => .pure rfl (by simpa using wrong)) fun _ => ?_
      refine .bindTold (addInterpretation_alike contents draft) fun made => ?_
      exact .pure rfl (by simp)

variable (modifiers : VirtualModifiers)

theorem handleGroupMask_alike (contents : CompatContents) (header : Header) (mode : MergeMode)
    (group : Int64) (value : Expr) :
    HandledAlike levels moved (contents.handleGroupMask modifiers header mode group value)
      ((contents.move moved).handleGroupMask modifiers (header.move moved) mode group value) := by
  simp only [handleGroupMask]
  refine .ite (fun _ => .refuse rfl) fun _ => ?_
  split
  · exact .refuse rfl
  · refine .bindTold (addGroupMask_alike contents _ _) fun made => ?_
    exact .pure rfl (by simp)

theorem handleIndicatorMap_alike (contents : CompatContents) (header : Header) (mode : MergeMode)
    (name : String) (body : List Assignment) :
    HandledAlike levels moved (contents.handleIndicatorMap modifiers header mode name body)
      ((contents.move moved).handleIndicatorMap modifiers (header.move moved) mode name body) := by
  refine .bindTold (IndicatorDraft.ofBody_alike modifiers _ name body) fun read => ?_
  cases read with
  | none => exact .pure rfl (by simp)
  | some draft =>
    refine .bindTold (addIndicator_alike contents draft) fun made => ?_
    exact .pure rfl (by simp)

theorem handle_alike (header : Header) (mode : MergeMode) (statement : Statement)
    (contents : CompatContents) :
    HandledAlike levels moved (contents.handle scope header mode statement)
      ((contents.move moved).handle scope (header.move moved) mode statement) := by
  simp only [handle]
  split
  · exact handleInterpretation_alike scope contents header _ _ _ _
  · exact handleGroupMask_alike scope.modifiers contents header _ _ _
  · exact handleIndicatorMap_alike scope.modifiers contents header _ _ _
  · exact handleAssignment_alike scope contents _
  · exact .refuse rfl

theorem absorb_alike (mode : MergeMode) (new old : CompatContents) :
    MadeAlike levels moved (absorb mode new old) (absorb mode (new.move moved) (old.move moved)) := by
  refine .afterTold (?_ : MadeAlike levels moved _ _) fun contents => ?_
  · -- The mode of the include does not depend on where a definition is from.
    refine .foldQuiet_map rfl fun draft _ contents => ?_
    simp only [InterpretationDraft.move, Definition.inMode_move]
    exact addInterpretation_alike contents _
  refine .afterTold (?_ : MadeAlike levels moved _ _) fun contents => ?_
  · have sameMasks : (new.move moved).groupMasks.toList.zipIdx =
        new.groupMasks.toList.zipIdx.map fun mask => (mask.1.move moved, mask.2) := by
      rw [move, Vector.toList_map, List.zipIdx_map]
      rfl
    rw [sameMasks]
    refine .foldQuiet_map rfl fun mask _ contents => ?_
    exact addGroupMask_alike contents mask.2 _
  refine .foldQuiet_map rfl fun draft _ contents => ?_
  simp only [IndicatorDraft.move, Definition.inMode_move]
  exact addIndicator_alike contents _

/-- What a compatibility section holds is the same at every level and wherever it is from. -/
theorem uniform (keycodes : KeycodeTable) (initial : moved .initial = .initial)
    (included : ∀ file position, moved (.included file position) = .included file position) :
    Uniform CompatContents keycodes (AtLevels levels) moved
      fun left right => right = left.move moved := by
  have sameEmpty : (empty : CompatContents) = empty.move moved := by
    simp [empty, move, InterpretationDraft.base, InterpretationDraft.move, IndicatorDraft.base,
      IndicatorDraft.move, Definition.move, Definition.start, GroupMask.move, initial]
  refine ⟨initial, included, sameEmpty, fun _ _ _ _ => sameEmpty, fun _ _ _ _ => .none, ?_, ?_⟩
  · intro statement modifiers header mode left other same
    subst same
    refine .mono (handle_alike _ header mode statement left).alike ?_
    intro made other same
    subst same
    exact ⟨rfl, rfl⟩
  · intro modifiers mode header new otherNew old otherOld sameNew sameOld
    subst sameNew sameOld
    refine .bindTold (absorb_alike mode new old).alike fun made => ?_
    exact .pure ⟨rfl, rfl⟩

end CompatContents

namespace IndicatorDraft

/-- The map with another definition. -/
def relabel (change : Definition → Definition) (draft : IndicatorDraft) : IndicatorDraft :=
  { draft with definition := change draft.definition }

variable (drafts : List IndicatorDraft) (keymap : Keymap)

theorem map_relabel_id : drafts.map (relabel id) = drafts :=
  List.map_id _

/-- The keymap with another name and other group masks in its compatibility table. -/
def recast (name : Option String) (masks : Vector ModMask 4) (keymap : Keymap) : Keymap :=
  { keymap with compat := { keymap.compat with name, groupMasks := masks } }

variable {change : Definition → Definition} {name : Option String} {masks : Vector ModMask 4}

/-- Maps are bound to the same indicators: only names of indicators and of maps count for that. -/
theorem bindAllNamed_alike :
    AnswersAlike levels (bindAllNamed drafts keymap)
      (bindAllNamed (drafts.map (relabel change)) (recast name masks keymap))
      (fun made other => other = (recast name masks made.1, made.2.map (relabel change)) ∧
        made.1.compat.name = keymap.compat.name ∧
        made.1.compat.groupMasks = keymap.compat.groupMasks) fun _ => False := by
  simp only [bindAllNamed, List.foldlM_map]
  refine .foldlM id ⟨rfl, rfl, rfl⟩ ?_
  intro draft _ made other known
  obtain ⟨told, sameName, sameMasks⟩ := known
  subst told
  have bound : AnswersAlike levels (bindNamed made.1 draft)
      (bindNamed (recast name masks made.1) (draft.relabel change))
      (fun bound other => other = (recast name masks bound.1, bound.2.map (relabel change)) ∧
        bound.1.compat.name = keymap.compat.name ∧
        bound.1.compat.groupMasks = keymap.compat.groupMasks) fun _ => False := by
    -- Neither the name nor the masks are looked at for binding.
    have sameNames : (recast name masks made.1).keycodes = made.1.keycodes := rfl
    simp only [bindNamed, sameNames, relabel]
    refine .ite (fun _ => .pure ⟨rfl, sameName, sameMasks⟩ id) fun _ => ?_
    split
    · exact .refuse ⟨rfl, sameName, sameMasks⟩
    · exact .pure ⟨rfl, sameName, sameMasks⟩ id
  refine .bind bound ?_
  intro next otherNext known
  obtain ⟨told, nextName, nextMasks⟩ := known
  subst told
  refine .pure ⟨?_, nextName, nextMasks⟩ (by simp)
  cases next.2 <;> simp

/-- Maps that are left over are bound to the same indicators at every level. -/
theorem bindAllFree_alike :
    AnswersAlike levels (bindAllFree drafts keymap) (bindAllFree drafts keymap) Eq
      fun _ => False := by
  refine .foldlM id rfl ?_
  intro draft _ made other same
  subst same
  simp only [bindFree]
  split
  · exact .pure rfl (by simp)
  · exact .warn (.pure rfl id)

end IndicatorDraft

namespace CompatContents

/-- Interpretations and maps on their way into a keymap. -/
theorem apply_alike {change : Definition → Definition} {left right : CompatContents}
    (sameInterpretations : right.interpretations.map (·.interpretation) =
      left.interpretations.map (·.interpretation))
    (sameIndicators : right.indicators = left.indicators.map (IndicatorDraft.relabel change))
    (name other : Option String) (keymap : Keymap) :
    AnswersAlike levels (left.apply name keymap) (right.apply other keymap)
      (fun made otherMade =>
        otherMade = (IndicatorDraft.recast other (right.applyGroupMasks keymap.compat.groupMasks)
          made.1, made.2.map (IndicatorDraft.relabel change)) ∧
        made.1.compat.name = name ∧
        made.1.compat.groupMasks = left.applyGroupMasks keymap.compat.groupMasks)
      fun _ => False := by
  -- Interpretations are put in order by what they are for.
  have sameOrder : InterpretationDraft.ordered right.interpretations =
      InterpretationDraft.ordered left.interpretations := by
    simp only [InterpretationDraft.ordered, sameInterpretations]
  simp only [apply, sameIndicators, sameOrder]
  exact IndicatorDraft.bindAllNamed_alike left.indicators _

end CompatContents

end Xkb
