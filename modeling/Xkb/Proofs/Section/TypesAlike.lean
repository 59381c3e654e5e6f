import Xkb.Proofs.Accounts
import Xkb.Proofs.Definition
import Xkb.Proofs.Section.Agreement
import Xkb.Section.KeyTypes

/-! Types sections make the same types wherever their definitions are from, at one warning level: a
level above 9 makes a second map entry for a set of modifiers count for nothing. -/

namespace Xkb

variable {levels : Nat → Nat → Prop} {moved : Origin → Origin}

namespace TypeDraft

/-- The type from elsewhere. -/
def move (moved : Origin → Origin) (draft : TypeDraft) : TypeDraft :=
  { draft with definition := draft.definition.move moved }

/-- Two computations make the same type, from here and from elsewhere. -/
abbrev MadeAlike (levels : Nat → Nat → Prop) (moved : Origin → Origin)
    (left right : Report TypeDraft) : Prop :=
  AnswersAlike levels left right (fun made other => other = made.move moved) fun _ => False

/-- Two settings make the same type, from here and from elsewhere, and agree on whether they are
right. -/
abbrev SetAlike (levels : Nat → Nat → Prop) (moved : Origin → Origin)
    (left right : Report (TypeDraft × Bool)) : Prop :=
  AnswersAlike levels left right (fun made other => other = (made.1.move moved, made.2))
    (·.2 = false)

variable (modifiers : VirtualModifiers) (draft : TypeDraft) (index : Option Expr) (value : Expr)

theorem refuse_alike (message : String) (actions : List String) {fails : TypeDraft × Bool → Prop} :
    AnswersAlike levels (draft.refuse message actions) ((draft.move moved).refuse message actions)
      (fun made other => other = (made.1.move moved, made.2)) fails :=
  .refuse rfl

theorem addEntry_alike (same : ∀ level other, levels level other → level = other)
    (modifiers : VirtualModifiers) (draft : TypeDraft) (new : MapEntry) (clobber report : Bool) :
    MadeAlike levels moved (draft.addEntry modifiers new clobber report)
      ((draft.move moved).addEntry modifiers new clobber report) := by
  have sameEntries : (draft.move moved).entries = draft.entries := rfl
  simp only [addEntry, sameEntries]
  split
  · exact .pure rfl (by simp)
  · refine .ite (fun _ => .warn (.pure rfl id)) fun _ => ?_
    refine .level fun level other known => ?_
    -- What becomes of the entry depends on the level, which is the same on both sides.
    rw [same level other known]
    refine .ite (fun _ => .warn (.pure rfl id)) fun _ => .pure rfl (by simp)

theorem addPreserve_alike (new : PreserveEntry) (clobber report : Bool) :
    MadeAlike levels moved (draft.addPreserve modifiers new clobber report)
      ((draft.move moved).addPreserve modifiers new clobber report) := by
  have samePreserves : (draft.move moved).preserves = draft.preserves := rfl
  simp only [addPreserve, samePreserves]
  split
  · exact .pure rfl (by simp)
  · -- Here the level decides on warnings only.
    refine .level fun level other known => ?_
    refine .ite (fun _ => .warnIf (.pure rfl (by simp))) fun _ => ?_
    refine .warnIf ?_
    exact .ite (fun _ => .pure rfl (by simp)) fun _ => .pure rfl (by simp)

theorem addLevelName_alike (level : Nat) (name : String) (clobber : Bool) :
    MadeAlike levels moved (draft.addLevelName level name clobber)
      ((draft.move moved).addLevelName level name clobber) := by
  have sameNames : (draft.move moved).levelNames = draft.levelNames := rfl
  simp only [addLevelName, sameNames]
  split
  · exact .pure rfl (by simp)
  · refine .ite (fun _ => ?_) fun _ => ?_
    · exact .level fun _ _ _ => .warnIf (.pure rfl (by simp))
    · refine .level fun _ _ _ => .warnIf (.pure ?_ (by simp))
      rw [apply_ite (move moved)]
      rfl

theorem setModifiers_alike :
    SetAlike levels moved (draft.setModifiers modifiers index value)
      ((draft.move moved).setModifiers modifiers index value) := by
  have sameFields : (draft.move moved).definition.defines maskField =
    draft.definition.defines maskField := rfl
  simp only [setModifiers, sameFields]
  refine .warnIf ?_
  split
  · exact refuse_alike draft _ _
  · exact .ite (fun _ => .warn (.pure rfl id)) fun _ => .pure rfl (by simp)

theorem clip_alike (mods : ModMask) (message : String) :
    AnswersAlike levels (draft.clip modifiers mods message)
      ((draft.move moved).clip modifiers mods message) Eq fun _ => False := by
  have sameMask : (draft.move moved).mask = draft.mask := rfl
  simp only [clip, sameMask]
  refine .ite (fun _ => .pure rfl (by simp)) fun _ => ?_
  exact .level fun _ _ _ => .warnIf (.pure rfl (by simp))

theorem setEntry_alike (same : ∀ level other, levels level other → level = other)
    (modifiers : VirtualModifiers) (draft : TypeDraft) (index : Option Expr) (value : Expr) :
    SetAlike levels moved (draft.setEntry modifiers index value)
      ((draft.move moved).setEntry modifiers index value) := by
  simp only [setEntry]
  split
  · exact refuse_alike draft _ _
  · exact refuse_alike draft _ _
  · refine .bindSame (clip_alike modifiers draft _ _) fun mods => ?_
    split
    · exact refuse_alike draft _ _
    · refine .ite (fun _ => refuse_alike draft _ _) fun _ => ?_
      refine .bindTold (addEntry_alike same modifiers draft _ true true) fun made => ?_
      exact .pure rfl (by simp)

theorem setPreserve_alike :
    SetAlike levels moved (draft.setPreserve modifiers index value)
      ((draft.move moved).setPreserve modifiers index value) := by
  simp only [setPreserve]
  split
  · exact refuse_alike draft _ _
  · exact refuse_alike draft _ _
  · refine .bindSame (clip_alike modifiers draft _ _) fun mods => ?_
    split
    · exact refuse_alike draft _ _
    · rename_i preserve _
      refine .level fun _ _ _ => .warnIf ?_
      refine .bindTold (addPreserve_alike modifiers draft _ true true) fun made => ?_
      exact .pure rfl (by simp)

theorem setName_alike :
    SetAlike levels moved (draft.setName index value) ((draft.move moved).setName index value) := by
  simp only [setName]
  split
  · exact refuse_alike draft _ _
  · exact refuse_alike draft _ _
  · refine .ite (fun _ => refuse_alike draft _ _) fun _ => ?_
    split
    · exact refuse_alike draft _ _
    · refine .bindTold (addLevelName_alike draft _ _ true) fun made => ?_
      exact .pure rfl (by simp)

theorem setField_alike (same : ∀ level other, levels level other → level = other)
    (modifiers : VirtualModifiers) (draft : TypeDraft) (field : String) (index : Option Expr)
    (value : Expr) :
    SetAlike levels moved (draft.setField modifiers field index value)
      ((draft.move moved).setField modifiers field index value) := by
  simp only [setField]
  split
  · exact setModifiers_alike modifiers draft index value
  · exact setEntry_alike same modifiers draft index value
  · exact setPreserve_alike modifiers draft index value
  · exact setName_alike draft index value
  · exact setName_alike draft index value
  · exact refuse_alike draft _ _

end TypeDraft

namespace TypeContents

/-- The contents from elsewhere. -/
def move (moved : Origin → Origin) (contents : TypeContents) : TypeContents :=
  ⟨contents.types.map (TypeDraft.move moved), contents.base.move moved⟩

/-- Two handlers make the same contents, from here and from elsewhere, and agree on whether the
statement is right. -/
abbrev HandledAlike (levels : Nat → Nat → Prop) (moved : Origin → Origin)
    (left right : Report (TypeContents × Bool)) : Prop :=
  AnswersAlike levels left right (fun made other => other = (made.1.move moved, made.2))
    (·.2 = false)

theorem addType_alike (contents : TypeContents) (new : TypeDraft) :
    HandledAlike levels moved (contents.addType new)
      ((contents.move moved).addType (new.move moved)) := by
  have sameNew : (new.move moved).name = new.name := rfl
  have sameLevels : (new.move moved).levels = new.levels := rfl
  simp only [addType, sameNew, sameLevels]
  split
  · exact .refuse rfl
  · -- Types are looked for by name, which moving them does not change.
    have found : (contents.move moved).types.find? (·.name == new.name) =
        (contents.types.find? (·.name == new.name)).map (TypeDraft.move moved) := by
      rw [move, List.find?_map]
      rfl
    rw [found]
    cases contents.types.find? (·.name == new.name) with
    | none => exact .pure (by simp [move, TypeDraft.move]) (by simp)
    | some old =>
      refine .level fun level other known => ?_
      refine .ite (fun _ => ?_) fun _ => .warnIf (.pure rfl (by simp))
      refine .warnIf (.pure ?_ (by simp))
      -- The type is put in the place of the same one on both sides.
      have replaced (made : TypeDraft) :
          changeFirst (·.name == new.name) (fun _ => made.move moved)
              (contents.types.map (TypeDraft.move moved)) =
            (changeFirst (·.name == new.name) (fun _ => made) contents.types).map
              (TypeDraft.move moved) := by
        apply changeFirst_map
        · exact fun _ => rfl
        · exact fun _ => rfl
      have widened := replaced { new with levels := (canonicalLevels new.name).getD new.levels }
      exact congrArg (fun types => (TypeContents.mk types (contents.base.move moved), true)) widened

section Handling

variable (same : ∀ level other, levels level other → level = other) (modifiers : VirtualModifiers)

include same

variable (body : List Assignment) (contents : TypeContents) (header : Header) (mode : MergeMode)
  (draft : TypeDraft) (assigned : Assignment)

theorem handleAssignment_alike :
    HandledAlike levels moved (contents.handleAssignment modifiers assigned)
      ((contents.move moved).handleAssignment modifiers assigned) := by
  simp only [handleAssignment]
  split
  · exact .refuse rfl
  · exact .refuse rfl
  · split
    · exact .refuse rfl
    · exact .refuse rfl
    · refine .ite (fun _ => ?_) fun _ => .refuse rfl
      refine .bindTold (TypeDraft.setField_alike same modifiers contents.base _ _ _)
        fun made => ?_
      exact .pure rfl (by simp)

/-- The contents and a type from elsewhere. -/
def moveWith (moved : Origin → Origin) (made : (TypeContents × TypeDraft) × Bool) :
    (TypeContents × TypeDraft) × Bool :=
  ((made.1.1.move moved, made.1.2.move moved), made.2)

theorem handleBodyAssignment_alike :
    AnswersAlike levels (contents.handleBodyAssignment modifiers draft assigned)
      ((contents.move moved).handleBodyAssignment modifiers (draft.move moved) assigned)
      (fun made other => other = moveWith moved made) (·.2 = false) := by
  simp only [handleBodyAssignment]
  split
  · exact .refuse rfl
  · refine .bindTold (handleAssignment_alike same modifiers contents assigned) fun made => ?_
    exact .pure rfl (by simp)
  · split
    · exact .refuse rfl
    · exact .refuse rfl
    · refine .bindTold (TypeDraft.setField_alike same modifiers draft _ _ _) fun made => ?_
      exact .pure rfl (by simp)

theorem handleBody_alike :
    AnswersAlike levels (handleBody modifiers body contents draft)
      (handleBody modifiers body (contents.move moved) (draft.move moved))
      (fun made other => other = moveWith moved made) (·.2 = false) := by
  induction body generalizing contents draft with
  | nil => exact .pure rfl (by simp)
  | cons assigned rest ih =>
    simp only [handleBody]
    refine .bindTold (handleBodyAssignment_alike same modifiers contents draft assigned)
      fun read => ?_
    obtain ⟨⟨contents, draft⟩, right⟩ := read
    -- Both sides stop at the first assignment that is wrong.
    exact .ite (fun wrong => .pure rfl (by simpa using wrong)) fun _ => (ih contents draft).restrict

theorem complete_alike (base draft : TypeDraft) :
    TypeDraft.MadeAlike levels moved (complete modifiers base draft)
      (complete modifiers (base.move moved) (draft.move moved)) := by
  -- Entries, preserved modifiers and level names are added in turn, each to what the last one left.
  refine .bindTold (?_ : TypeDraft.MadeAlike levels moved _ _) fun draft => ?_
  · refine .foldTold (by simp) rfl fun entry _ draft => ?_
    exact (TypeDraft.addEntry_alike same modifiers draft entry false false).restrict
  refine .bindTold (?_ : TypeDraft.MadeAlike levels moved _ _) fun draft => ?_
  · refine .foldTold (by simp) rfl fun entry _ draft => ?_
    exact (TypeDraft.addPreserve_alike modifiers draft entry false false).restrict
  refine .foldTold (by simp) rfl fun named _ draft => ?_
  obtain ⟨name, level⟩ := named
  cases name with
  | none => exact .pure rfl (by simp)
  | some name =>
    refine .ite (fun _ => ?_) fun _ => .pure rfl (by simp)
    exact (TypeDraft.addLevelName_alike draft level name false).less (by simp)

theorem handleType_alike (name : String) (body : List Assignment) :
    HandledAlike levels moved (contents.handleType modifiers header mode name body)
      ((contents.move moved).handleType modifiers (header.move moved) mode name body) := by
  refine .bindTold (handleBody_alike same modifiers body contents _) fun read => ?_
  obtain ⟨⟨contents, draft⟩, right⟩ := read
  -- A type with a wrong assignment is not added, but the defaults that it set stay.
  refine .ite (fun wrong => .pure rfl (by simpa using wrong)) fun _ => ?_
  refine .bindTold (complete_alike same modifiers contents.base draft) fun made => ?_
  exact (addType_alike contents made).less fun _ known => known.1.1

theorem handle_alike (statement : Statement) (contents : TypeContents) :
    HandledAlike levels moved (contents.handle modifiers header mode statement)
      ((contents.move moved).handle modifiers (header.move moved) mode statement) := by
  simp only [handle]
  split
  · exact handleType_alike same modifiers contents header _ _ _
  · exact handleAssignment_alike same modifiers contents _
  · exact .refuse rfl

end Handling

theorem absorb_alike (mode : MergeMode) (new old : TypeContents) :
    AnswersAlike levels (absorb mode new old) (absorb mode (new.move moved) (old.move moved))
      (fun made other => other = (made.1.move moved, made.2)) (·.2 ≠ 0) := by
  simp only [absorb, move, List.foldlM_map]
  refine .foldTold (by simp) rfl fun draft _ made => ?_
  obtain ⟨contents, errors⟩ := made
  simp only [TypeDraft.move, Definition.inMode_move]
  refine .bindTold (addType_alike contents _) fun made => .pure rfl ?_
  -- The count goes up only where a type is refused.
  rintro ⟨⟨more, fine⟩, right⟩
  simp only [Bool.not_eq_false] at right
  simp only [right, if_true] at more
  exact fine more

/-- What a types section holds is the same wherever it is from. -/
theorem uniform (same : ∀ level other, levels level other → level = other)
    (keycodes : KeycodeTable) (initial : moved .initial = .initial)
    (included : ∀ file position, moved (.included file position) = .included file position) :
    Uniform TypeContents keycodes (AtLevels levels) moved
      fun left right => right = left.move moved where
  initial := initial
  included := included
  empty := by
    simp [SectionContents.empty, empty, move, TypeDraft.start, TypeDraft.move, Definition.move,
      Definition.start, initial]
  forTerm := by
    intro term left _ known
    cases known
    rfl
  builtin _ _ _ _ := .none
  handle := by
    intro statement modifiers header mode left _ known
    cases known
    refine .mono (handle_alike same modifiers header mode statement left).alike ?_
    intro made _ known
    cases known
    exact ⟨rfl, rfl⟩
  absorb := by
    intro modifiers mode header new _ old _ sameNew sameOld
    cases sameNew
    cases sameOld
    refine .mono (absorb_alike mode new old).alike ?_
    intro made _ known
    cases known
    exact ⟨rfl, rfl⟩

end TypeContents

end Xkb
