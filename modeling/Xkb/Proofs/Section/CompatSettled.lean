import Xkb.Proofs.Section.CompatAlike
import Xkb.Proofs.Section.Settled

/-! The interpretations and indicator maps of a compatibility section are different from each other,
so adding them to a section without contents gives them back; a group mask that was emptied again is
not given back. -/

namespace Xkb

namespace InterpretationDraft

/-- The interpretation with another definition. -/
def relabel (change : Definition → Definition) (draft : InterpretationDraft) : InterpretationDraft :=
  { draft with definition := change draft.definition }

/-- What an interpretation is for: a keysym and modifiers. -/
def key (draft : InterpretationDraft) : Keysym × Predicate × UInt8 :=
  (draft.interpretation.sym, draft.interpretation.predicate, draft.interpretation.mods)

theorem sameKey_iff {left right : InterpretationDraft} :
    left.sameKey right = true ↔ left.key = right.key := by
  simp [sameKey, key, and_assoc]

/-- Merging keeps what an interpretation is for. -/
theorem merge_key {old new : InterpretationDraft} (same : old.key = new.key) :
    Gives (old.merge new) fun made => made.key = old.key := by
  simp only [merge]
  -- Either interpretation may stay, and they are for the same.
  refine .after fun level => .ite (fun _ => ?_) fun _ => ?_
  · exact .noted same.symm
  · exact .noted rfl

theorem adds (new : InterpretationDraft) : Adds key new (·.merge new) new.add where
  nil := rfl
  cons old rest := by
    simp only [add, sameKey_iff]
  merge _ same := merge_key same

end InterpretationDraft

namespace IndicatorDraft

/-- Merging keeps the name of a map. -/
theorem merge_name {old new : IndicatorDraft} (same : old.name = new.name) :
    Gives (old.merge new) fun made => made.name = old.name := by
  simp only [merge]
  refine .after fun level => .ite (fun _ => .pure rfl) fun _ => ?_
  refine .ite (fun _ => ?_) fun _ => ?_
  · exact .noted same.symm
  · exact .noted rfl

theorem adds (new : IndicatorDraft) : Adds IndicatorDraft.name new (·.merge new) new.add where
  nil := rfl
  cons old rest := by
    simp only [add, beq_iff_eq]
  merge _ same := merge_name same

end IndicatorDraft

namespace GroupMask

/-- The mask of a group that nothing was said of. -/
def initial : GroupMask :=
  ⟨.initial, .unspecified, false, .empty⟩

/-- What becomes of a mask that is added in a mode where nothing was said of its group: an empty one
counts for nothing. -/
def readded (mode : MergeMode) (mask : GroupMask) : GroupMask :=
  if mask.mods = .empty then initial
  else { mask with merge := if mode == .unspecified then mask.merge else mode }

end GroupMask

namespace CompatContents

/-- Contents that were added piece by piece: no two interpretations are for the same, no two maps
have one name, and only a mask that was defined has modifiers. -/
structure Settled (contents : CompatContents) : Prop where
  interpretations : (contents.interpretations.map InterpretationDraft.key).Nodup
  indicators : (contents.indicators.map IndicatorDraft.name).Nodup
  masks : ∀ mask ∈ contents.groupMasks.toList, mask.defined = false → mask.mods = .empty

variable {contents : CompatContents}

theorem addInterpretation_settled (settled : contents.Settled) (new : InterpretationDraft) :
    Gives (contents.addInterpretation new) Settled :=
  .bind (new.adds.nodup settled.interpretations) fun _ known =>
    .pure ⟨known, settled.indicators, settled.masks⟩

theorem addIndicator_settled (settled : contents.Settled) (new : IndicatorDraft) :
    Gives (contents.addIndicator new) Settled :=
  .bind (new.adds.nodup settled.indicators) fun _ known =>
    .pure ⟨settled.interpretations, known, settled.masks⟩

theorem addGroupMask_settled (settled : contents.Settled) (group : Nat) {new : GroupMask}
    (known : new.defined = false → new.mods = .empty) :
    Gives (contents.addGroupMask group new) Settled := by
  simp only [addGroupMask]
  split
  · exact .pure settled
  · rename_i old held
    have merged : Gives (mergeGroupMask group old new) fun made =>
        made.defined = false → made.mods = .empty := by
      have oldKnown : old.defined = false → old.mods = .empty :=
        settled.masks old (Vector.mem_toList_iff.mpr (Vector.mem_of_getElem? held))
      -- The mask is the old one or the new one.
      have either (condition : Bool) : (if condition then new else old).defined = false →
          (if condition then new else old).mods = .empty := by
        cases condition
        · exact oldKnown
        · exact known
      simp only [mergeGroupMask]
      refine .ite (fun _ => .pure oldKnown) fun _ => .after fun level => ?_
      exact .noted (either _)
    refine .bind merged fun made madeKnown => .pure ?_
    refine ⟨settled.interpretations, settled.indicators, fun mask member => ?_⟩
    -- A mask of the list is one that was there or the one that was made.
    rw [Vector.toList_setIfInBounds] at member
    rcases List.mem_or_eq_of_mem_set member with old | rfl
    · exact settled.masks mask old
    · exact madeKnown

/-- Contents with the same lists. -/
def SameLists (old new : CompatContents) : Prop :=
  new.interpretations = old.interpretations ∧ new.indicators = old.indicators ∧
    new.groupMasks = old.groupMasks

theorem Settled.sameLists (settled : contents.Settled) {other : CompatContents}
    (same : contents.SameLists other) : other.Settled :=
  ⟨same.1 ▸ settled.interpretations, same.2.1 ▸ settled.indicators, same.2.2 ▸ settled.masks⟩

variable (group : Nat) (mode : MergeMode) (scope : Scope) (start : CompatContents)

/-- An assignment to what things start out with touches none of the lists. -/
theorem handleAssignment_sameLists (contents : CompatContents) (assigned : Assignment) :
    Gives (contents.handleAssignment scope assigned) fun made => contents.SameLists made.1 := by
  have refused (message : String) (actions : List String) :
      Gives (do Report.error message actions; return (contents, false) : Report _)
        fun made => contents.SameLists made.1 :=
    .after fun _ => .pure ⟨rfl, rfl, rfl⟩
  simp only [handleAssignment]
  split
  · exact refused _ _
  · exact refused _ _
  · exact refused _ _
  · refine .ite (fun _ => .after fun _ => .pure ⟨rfl, rfl, rfl⟩) fun _ => ?_
    refine .ite (fun _ => .after fun _ => .pure ⟨rfl, rfl, rfl⟩) fun _ => ?_
    split
    · exact .pure ⟨rfl, rfl, rfl⟩
    · exact refused _ _

/-- The body of an interpretation touches none of the lists. -/
theorem handleBody_sameLists (contents : CompatContents) (draft : InterpretationDraft)
    (body : List Assignment) :
    Gives (contents.handleBody scope draft body) fun made => contents.SameLists made.1.1 := by
  refine .foldlM ⟨rfl, rfl, rfl⟩ fun made assigned _ known => ?_
  have step : Gives (made.1.1.handleBodyAssignment scope made.1.2 assigned)
      fun next => made.1.1.SameLists next.1.1 := by
    simp only [handleBodyAssignment]
    split
    · exact .after fun _ => .pure ⟨rfl, rfl, rfl⟩
    · refine .bind (handleAssignment_sameLists scope made.1.1 assigned) fun next same => ?_
      exact .pure same
    · split
      · exact .after fun _ => .pure ⟨rfl, rfl, rfl⟩
      · exact .after fun _ => .pure ⟨rfl, rfl, rfl⟩
  refine .bind step fun next same => .pure ?_
  exact ⟨same.1.trans known.1, same.2.1.trans known.2.1, same.2.2.trans known.2.2⟩

theorem handle_settled (header : Header) (mode : MergeMode) (statement : Statement)
    (settled : contents.Settled) :
    Gives (handle scope header mode statement contents) fun made => made.1.Settled := by
  cases statement with
  | interpretation merge keysym predicate body =>
    refine .after fun read => ?_
    split
    · exact .after fun _ => .pure settled
    · split
      · exact .after fun _ => .pure settled
      · -- Defaults may change on the way, but the lists only when the interpretation is added.
        refine .bind (handleBody_sameLists scope contents _ body) fun made same => ?_
        have madeSettled := settled.sameLists same
        refine .ite (fun _ => .pure madeSettled) fun _ => ?_
        exact .bind (addInterpretation_settled madeSettled _) fun _ known => .pure known
  | groupMask merge group value =>
    simp only [handle, handleGroupMask]
    refine .ite (fun _ => .after fun _ => .pure settled) fun _ => ?_
    split
    · exact .after fun _ => .pure settled
    · -- A mask that is stated is a defined one.
      refine .bind (addGroupMask_settled settled _ fun undefined => ?_) fun _ known =>
        .pure known
      cases undefined
  | indicatorMap merge name body =>
    refine .after fun read => ?_
    split
    · exact .bind (addIndicator_settled settled _) fun _ known => .pure known
    · exact .pure settled
  | assignment assigned =>
    exact (handleAssignment_sameLists scope contents assigned).mono fun made same =>
      settled.sameLists same
  | _ => exact .after fun _ => .pure settled

theorem absorb_settled {new old : CompatContents} (newSettled : new.Settled) (settled : old.Settled) :
    Gives (absorb mode new old) Settled := by
  refine .bind (?_ : Gives _ Settled) fun made known => ?_
  · exact .foldlM settled fun made draft _ known => addInterpretation_settled known _
  refine .bind (?_ : Gives _ Settled) fun made known => ?_
  · refine .foldlM known fun made entry member known => ?_
    have held : entry.1 ∈ new.groupMasks.toList := List.fst_mem_of_mem_zipIdx member
    exact addGroupMask_settled known entry.2 (newSettled.masks entry.1 held)
  · exact .foldlM known fun made draft _ known => addIndicator_settled known _

/-- Whatever is read, interpretations and indicator maps are different from each other. -/
theorem keeps_settled (keycodes : KeycodeTable) : Keeps CompatContents keycodes Settled where
  empty := ⟨List.nodup_nil, List.nodup_nil, by simp [SectionContents.empty, empty]⟩
  forTerm _ _ _ := ⟨List.nodup_nil, List.nodup_nil, by simp [SectionContents.forTerm, empty]⟩
  builtin _ _ _ _ built := nomatch built
  handle _ header mode statement _ settled := handle_settled _ header mode statement settled
  absorb _ mode _ _ _ newSettled settled :=
    .bind (absorb_settled mode newSettled settled) fun _ known => .pure known

variable {mask : GroupMask}

theorem mergeGroupMask_initial (known : mask.defined = false → mask.mods = .empty) :
    Gives (mergeGroupMask group .initial
      { mask with merge := if mode == .unspecified then mask.merge else mode })
      fun made => made = mask.readded mode := by
  simp only [mergeGroupMask, GroupMask.readded]
  by_cases empty : mask.mods = .empty
  · -- The new mask is like the initial one, and this is where it is dropped.
    rw [if_pos empty]
    exact Gives.ite (fun _ => Gives.pure rfl) fun other => by simp [GroupMask.initial, empty] at other
  · -- Only a defined mask has modifiers, so this one takes the place of the initial one.
    have defined : mask.defined = true := by
      cases isDefined : mask.defined with
      | true => rfl
      | false => exact absurd (known isDefined) empty
    rw [if_neg empty]
    refine .ite (fun same => ?_) fun _ => .after fun level => ?_
    · exact absurd (eq_of_beq same).symm empty
    · exact Gives.noted (by simp [defined, GroupMask.initial])

theorem addGroupMask_initial {group : Nat} (held : contents.groupMasks[group]? = some .initial)
    (mode : MergeMode) (known : mask.defined = false → mask.mods = .empty) :
    Gives (contents.addGroupMask group
      { mask with merge := if mode == .unspecified then mask.merge else mode })
      fun made => made = { contents with
        groupMasks := contents.groupMasks.setIfInBounds group (mask.readded mode) } := by
  simp only [addGroupMask, held]
  refine .bind (mergeGroupMask_initial group mode known) fun made same => .pure ?_
  rw [same]

/-- Masks that are added one after another, from some group on, where nothing was said of these
groups. -/
theorem addGroupMasks_from {list : List GroupMask}
    (known : ∀ mask ∈ list, mask.defined = false → mask.mods = .empty) (group : Nat)
    (contents : CompatContents)
    (untouched : ∀ later, group ≤ later → later < group + list.length →
      contents.groupMasks[later]? = some .initial) :
    Gives ((list.zipIdx group).foldlM
      (fun contents (entry : GroupMask × Nat) => contents.addGroupMask entry.2
        { entry.1 with merge := if mode == .unspecified then entry.1.merge else mode }) contents)
      fun made => made = { contents with
        groupMasks := (list.zipIdx group).foldl
          (fun masks entry => masks.setIfInBounds entry.2 (entry.1.readded mode))
          contents.groupMasks } := by
  -- Every mask goes to the group that comes next, so the groups behind it stay untouched.
  induction list generalizing group contents with
  | nil => exact .pure rfl
  | cons mask rest ih =>
    have within : group < group + (mask :: rest).length := by
      rw [List.length_cons]
      omega
    rw [List.zipIdx_cons, List.foldlM_cons, List.foldl_cons]
    refine .bind (addGroupMask_initial (untouched group (Nat.le_refl group) within) mode
      (known mask List.mem_cons_self)) ?_
    intro made same
    subst same
    refine ih (fun mask member => known mask (List.mem_cons_of_mem _ member)) (group + 1) _ ?_
    intro later behind bound
    rw [Vector.getElem?_setIfInBounds, if_neg (by omega)]
    refine untouched later (by omega) ?_
    rw [List.length_cons]
    omega

theorem addGroupMasks_initial (untouched : start.groupMasks = empty.groupMasks) (mode : MergeMode)
    (masks : Vector GroupMask 4)
    (known : ∀ mask ∈ masks.toList, mask.defined = false → mask.mods = .empty) :
    Gives (masks.toList.zipIdx.foldlM
      (fun contents (entry : GroupMask × Nat) => contents.addGroupMask entry.2
        { entry.1 with merge := if mode == .unspecified then entry.1.merge else mode }) start)
      fun made => made = { start with groupMasks := masks.map (GroupMask.readded mode) } := by
  have free : ∀ later, 0 ≤ later → later < 0 + masks.toList.length →
      start.groupMasks[later]? = some .initial := by
    intro later _ bound
    have within : later < 4 := by simpa using bound
    simp [untouched, empty, GroupMask.initial, within]
  refine (addGroupMasks_from mode known 0 start free).mono ?_
  intro made same
  rw [same]
  -- All four groups are set, so nothing is left of the masks at the start.
  have allSet : masks.toList.zipIdx.foldl
      (fun masks entry => masks.setIfInBounds entry.2 (entry.1.readded mode)) start.groupMasks =
      masks.map (GroupMask.readded mode) := by
    obtain ⟨⟨list⟩, size⟩ := masks
    rcases list with _ | ⟨first, _ | ⟨second, _ | ⟨third, _ | ⟨fourth, _ | ⟨fifth, more⟩⟩⟩⟩⟩
    case cons.cons.cons.cons.nil =>
      rw [untouched, ← Vector.toList_inj]
      simp [empty]
    all_goals simp at size
  rw [allSet]

theorem addInterpretations_none (untouched : start.interpretations = []) (mode : MergeMode)
    {list : List InterpretationDraft} (distinct : (list.map InterpretationDraft.key).Nodup) :
    list.foldlM (fun made draft =>
      made.addInterpretation { draft with definition := draft.definition.inMode mode }) start =
      pure { start with
        interpretations := list.map (InterpretationDraft.relabel (Definition.inMode mode)) } := by
  have begins : start = { start with interpretations := [] } := by
    rw [← untouched]
  -- Another mode does not change what an interpretation is for.
  exact (congrArg (fun begun => list.foldlM _ begun) begins).trans (Adds.foldlM_none
    InterpretationDraft.adds (fun done => { start with interpretations := done })
    (InterpretationDraft.relabel (Definition.inMode mode)) (fun _ _ => rfl) (fun _ => rfl) distinct)

theorem addIndicators_none (untouched : start.indicators = []) (mode : MergeMode)
    {list : List IndicatorDraft} (distinct : (list.map IndicatorDraft.name).Nodup) :
    list.foldlM (fun made draft =>
      made.addIndicator { draft with definition := draft.definition.inMode mode }) start =
      pure { start with
        indicators := list.map (IndicatorDraft.relabel (Definition.inMode mode)) } := by
  have begins : start = { start with indicators := [] } := by
    rw [← untouched]
  exact (congrArg (fun begun => list.foldlM _ begun) begins).trans (Adds.foldlM_none
    IndicatorDraft.adds (fun done => { start with indicators := done })
    (IndicatorDraft.relabel (Definition.inMode mode)) (fun _ _ => rfl) (fun _ => rfl) distinct)

/-- What becomes of a section that is added to one without contents in a mode. -/
def readded (mode : MergeMode) (contents : CompatContents) : CompatContents :=
  { empty with
    interpretations :=
      contents.interpretations.map (InterpretationDraft.relabel (Definition.inMode mode))
    groupMasks := contents.groupMasks.map (GroupMask.readded mode)
    indicators := contents.indicators.map (IndicatorDraft.relabel (Definition.inMode mode)) }

/-- What is settled and is added to a section without contents is the same, in the mode of the
include, but for the masks that are empty. -/
theorem absorb_empty (settled : contents.Settled) (mode : MergeMode) :
    Gives (absorb mode contents empty) fun made => made = contents.readded mode := by
  rw [absorb, addInterpretations_none empty rfl mode settled.interpretations, pure_bind]
  refine .bind (addGroupMasks_initial _ ?_ mode contents.groupMasks settled.masks) ?_
  · rfl
  intro made same
  rw [same, addIndicators_none _ rfl mode settled.indicators]
  exact .pure rfl

end CompatContents

end Xkb
