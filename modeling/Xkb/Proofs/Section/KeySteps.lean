import Xkb.Proofs.Section.KeyRecords

/-! The steps that the contents of symbols sections are made by. What every step keeps, statements
and includes keep. -/

namespace Xkb

namespace KeyDraft

/-- The ways to set a field of a key, or of what keys start out with. -/
inductive Setting (key : KeyDraft) : Report (KeyDraft × Bool) → Prop where
  | field (scope : Scope) (defaults : ActionDefaults) (field : String) (index value : Option Expr) :
      Setting key (key.setField scope defaults field index value)
  | allowNone (index : Option Expr) (value : Expr) : Setting key (key.setAllowNone index value)
  | groupRange {field : String} {value : Expr} {setting : Report (KeyDraft × Bool)}
      (sets : key.setGroupRange field value = some setting) : Setting key setting

/-- Whichever way a field is set, that is what an assignment can do. -/
theorem Setting.sets {key : KeyDraft} {setting : Report (KeyDraft × Bool)}
    (set : key.Setting setting) : key.Sets setting := by
  cases set with
  | field scope defaults field index value =>
    exact (setField_sets scope defaults field index value).mono fun _ => And.left
  | allowNone index value => exact setAllowNone_sets index value
  | groupRange sets => exact (setGroupRange_aside sets).mono fun _ => And.left

end KeyDraft

namespace SymbolContents

variable {contents : SymbolContents} {holds : SymbolContents → Prop} {keyed : KeyDraft → Prop}

/-- What assignments keep of the contents of a section, and of the key in whose body they stand. -/
structure KeptBySettings (holds : SymbolContents → Prop) (keyed : KeyDraft → Prop) : Prop where
  base : ∀ {contents setting}, holds contents → contents.base.Setting setting →
    Gives setting fun made => holds { contents with base := made.1 }
  others : ∀ {contents} groupNames actions, holds contents → holds { contents with groupNames, actions }
  key : ∀ {key setting}, keyed key → key.Setting setting → Gives setting fun made => keyed made.1

/-- Naming a group touches nothing but the names. -/
theorem setGroupName_eq (contents : SymbolContents) (index : Option Expr) (value : Expr) :
    Gives (contents.setGroupName index value) fun made =>
      made.1 = { contents with groupNames := made.1.groupNames } := by
  have refused (message action : String) :
      Gives (do Report.error message [action]; return (contents, false) : Report _)
        fun made => made.1 = { contents with groupNames := made.1.groupNames } :=
    .after fun _ => .pure rfl
  simp only [setGroupName]
  split
  · exact .after fun _ => .noted rfl
  · exact refused _ _
  · refine .ite (fun _ => refused _ _) fun _ => ?_
    split
    · exact refused _ _
    · exact .ite (fun _ => refused _ _) fun _ => .pure rfl

section Settings

variable (kept : KeptBySettings holds keyed)
include kept

theorem handleAssignment_kept (scope : Scope) (holding : holds contents) (assigned : Assignment) :
    Gives (contents.handleAssignment scope assigned) fun made => holds made.1 := by
  have refused (message : String) (actions : List String) :
      Gives (do Report.error message actions; return (contents, false) : Report _)
        fun made => holds made.1 :=
    .after fun _ => .pure holding
  have based {setting : Report (KeyDraft × Bool)} (sets : contents.base.Setting setting) :
      Gives (contents.setBase setting) fun made => holds made.1 :=
    .bind (kept.base holding sets) fun _ known => .pure known
  have field (field : String) (index : Option Expr) (value : Expr) :
      Gives (contents.handleField field index value) fun made => holds made.1 := by
    simp only [handleField]
    refine .ite (fun _ => (setGroupName_eq contents index value).mono fun made same => ?_)
      fun _ => .ite (fun _ => based (.allowNone index value)) fun _ => ?_
    · rw [same]
      exact kept.others _ contents.actions holding
    · split
      · next sets => exact based (.groupRange sets)
      · exact refused _ _
  simp only [handleAssignment]
  split
  · exact refused _ _
  · exact refused _ _
  · exact field _ _ _
  · refine .ite (fun _ => based (.field ..)) fun _ => ?_
    split
    · exact .pure (kept.others contents.groupNames _ holding)
    · exact refused _ _

theorem handleBody_kept (scope : Scope) (holding : holds contents) {key : KeyDraft}
    (begins : keyed key) (body : List Assignment) :
    Gives (contents.handleBody scope key body) fun made => holds made.1.1 ∧ keyed made.1.2 := by
  refine .foldlM ⟨holding, begins⟩ ?_
  rintro ⟨⟨contents, key⟩, right⟩ assigned - ⟨holding, known⟩
  refine .bind (?_ : Gives _ fun next : (SymbolContents × KeyDraft) × Bool =>
    holds next.1.1 ∧ keyed next.1.2) fun next both => .pure both
  have set (field : String) (index : Option Expr) :=
    kept.key known (.field scope contents.actions field index assigned.value)
  -- An assignment in a body is for the key, for the section, or wrong.
  simp only [handleBodyAssignment]
  split
  · exact .bind (set _ _) fun made keyed => .pure ⟨holding, keyed⟩
  · refine .bind (handleAssignment_kept kept scope holding assigned) fun made holding => ?_
    exact .pure ⟨holding, known⟩
  · split
    · exact .bind (set _ _) fun made keyed => .pure ⟨holding, keyed⟩
    · exact .after fun _ => .pure ⟨holding, known⟩

end Settings

/-- Contents with the same keys and the same modifier map. -/
def SameLists (old new : SymbolContents) : Prop :=
  new.keys = old.keys ∧ new.modifierMap = old.modifierMap

/-- Assignments touch none of the lists, and leave the name of a key and the mode of its
definition. -/
theorem keptBySettings_same (contents : SymbolContents) (key : KeyDraft) :
    KeptBySettings contents.SameLists fun made =>
      made.name = key.name ∧ made.definition.merge = key.definition.merge where
  base same _ _ := same
  others _ _ same := same
  key known sets := sets.sets.mono fun _ assigned =>
    ⟨assigned.same.1.trans known.1, assigned.same.2.trans known.2⟩

theorem handleBody_same (scope : Scope) (contents : SymbolContents) (key : KeyDraft)
    (body : List Assignment) :
    Gives (contents.handleBody scope key body) fun made => contents.SameLists made.1.1 ∧
      made.1.2.name = key.name ∧ made.1.2.definition.merge = key.definition.merge :=
  handleBody_kept (keptBySettings_same contents key) scope ⟨rfl, rfl⟩ ⟨rfl, rfl⟩ body

/-- An entry of the modifier map touches nothing else. -/
theorem addModifier_eq (contents : SymbolContents) (new : ModifierEntry) :
    Gives (contents.addModifier new) fun made =>
      made = { contents with modifierMap := made.modifierMap } := by
  simp only [addModifier]
  split
  · exact .pure rfl
  · exact .ite (fun _ => .pure rfl) fun _ => .after fun _ => .pure rfl

/-- What all steps keep that contents are made by, where keys are given certain names. -/
structure KeptBySteps (keycodes : KeycodeTable) (allowed : KeyName → Prop)
    (holds : SymbolContents → Prop) (keyed : KeyDraft → Prop) : Prop
    extends KeptBySettings holds keyed where
  /-- A key starts out as the section has it, under the label of its statement. -/
  starts : ∀ {contents name} merge origin, holds contents → allowed name → keyed { contents.base with
    definition := { contents.base.definition with merge, origin }, name }
  moves : ∀ {key} group map, keyed key → Gives (key.moveGroup group map) fun made => keyed made.1
  addKey : ∀ {contents key}, holds contents → keyed key → Gives (contents.addKey keycodes key) holds
  addModifier : ∀ {contents} entry, holds contents → Gives (contents.addModifier entry) holds

section Steps

variable {keycodes : KeycodeTable} {allowed : KeyName → Prop}
  (kept : KeptBySteps keycodes allowed holds keyed)
include kept

theorem handle_kept (modifiers : VirtualModifiers) (header : Header) (mode : MergeMode)
    {statement : Statement} (named : ∀ merge name body, statement = .keySymbols merge name body →
      allowed name) (holding : holds contents) :
    Gives (handle ⟨modifiers, keycodes⟩ header mode statement contents) fun made => holds made.1 := by
  cases statement with
  | keySymbols merge name body =>
    have starts := kept.starts (merge.or mode) header.origin holding (named merge name body rfl)
    refine .bind (handleBody_kept kept.toKeptBySettings _ holding starts body) ?_
    rintro ⟨⟨contents, key⟩, right⟩ ⟨holding, known⟩
    refine .ite (fun _ => .pure holding) fun _ => ?_
    -- What the body made of the key is moved to the group of the section before it is added.
    refine .bind (kept.moves _ _ known) fun moved known => ?_
    refine .ite (fun _ => .pure holding) fun _ => ?_
    exact .bind (kept.addKey holding known) fun made known => .pure known
  | assignment assigned => exact handleAssignment_kept kept.toKeptBySettings _ holding assigned
  | modifierMap merge modifier keys =>
    simp only [handle, handleModifierMap]
    split
    · exact .after fun _ => .pure holding
    · refine .bind (.foldlM holding fun made key _ known => ?_) fun made known =>
        .pure known
      split
      · exact kept.addModifier _ known
      · exact .after fun _ => .pure known
  | _ => exact .after fun _ => .pure holding

theorem absorb_kept (mode : MergeMode) {new old : SymbolContents}
    (brought : ∀ key ∈ new.keys, keyed { key with definition := key.definition.inMode mode })
    (holding : holds old) : Gives (absorb keycodes mode new old) holds := by
  refine .bind (?_ : Gives _ holds) fun made known => ?_
  · refine .foldlM (kept.others _ old.actions holding) fun made key member known => ?_
    exact kept.addKey known (brought key member)
  -- The modifier map comes after the keys.
  · exact .foldlM known fun made entry _ known => kept.addModifier _ known

end Steps

theorem keptBySteps_keys (keycodes : KeycodeTable) (keys : List KeyDraft) :
    KeptBySteps keycodes (fun _ => False) (·.keys = keys) fun _ => False where
  base same _ _ := same
  others _ _ same := same
  key none _ := none.elim
  starts _ _ _ none := none
  moves _ _ none := none.elim
  addKey _ none := none.elim
  addModifier entry same := (addModifier_eq _ entry).mono fun made told => by
    rw [told]
    exact same

/-- A statement that defines no key leaves the keys. -/
theorem handle_keys (scope : Scope) (contents : SymbolContents) (header : Header) (mode : MergeMode)
    {statement : Statement} (plain : ∀ merge name body, statement ≠ .keySymbols merge name body) :
    Gives (contents.handle scope header mode statement) fun made => made.1.keys = contents.keys :=
  handle_kept (keptBySteps_keys scope.keycodes contents.keys) scope.modifiers header mode plain rfl

end SymbolContents

end Xkb
