import Xkb.Proofs.Accounts
import Xkb.Proofs.Section.Agreement
import Xkb.Section.KeySymbols

/-! Symbols sections make the same keys at every warning level and wherever their definitions are
from: the level and the origins decide what is reported and nothing else. What the body of a key
sets does not depend on the name of the key either. They account for every statement that is wrong,
but for two forms that they pass over without a word at the lowest level: a type that is no text,
and a group name without an index. -/

namespace Xkb

variable {levels : Nat → Nat → Prop} {moved : Origin → Origin} {named : KeyName → KeyName}
  {mute : Bool}

/-- What may be passed over without a word at the lowest level is heard of at the levels. -/
def Heard (levels : Nat → Nat → Prop) (mute : Bool) : Prop :=
  mute = false ∨ ∀ level other, levels level other → 0 < level

/-- Whether a field of a key is given a type that is no text. -/
def misnamesType (field : String) (value : Expr) : Bool :=
  Text.foldCase field == "type" && !value.toText.isOk

namespace KeyDraft

/-- The key from elsewhere. -/
def move (moved : Origin → Origin) (key : KeyDraft) : KeyDraft :=
  { key with definition := key.definition.move moved }

/-- The key from elsewhere, under another name. -/
def recast (moved : Origin → Origin) (named : KeyName → KeyName) (key : KeyDraft) : KeyDraft :=
  { key.move moved with name := named key.name }

/-- Two settings make the same key, from here and from elsewhere under another name, and agree on
whether they are right; a wrong one is reported unless it may be mute. -/
abbrev SetAlike (levels : Nat → Nat → Prop) (moved : Origin → Origin) (named : KeyName → KeyName)
    (mute : Bool) (left right : Report (KeyDraft × Bool)) : Prop :=
  AnswersAlike levels left right (fun made other => other = (made.1.recast moved named, made.2))
    fun made => made.2 = false ∧ Heard levels mute

variable (key : KeyDraft) (index : Option Expr)

theorem refuse_alike {message other : String} {actions others : List String}
    {fails : KeyDraft × Bool → Prop} :
    AnswersAlike levels (key.refuse message actions) ((key.recast moved named).refuse other others)
      (fun made other => other = (made.1.recast moved named, made.2)) fails :=
  .refuse rfl

theorem listGroup_alike (what : String) (defined : UInt8) :
    AnswersAlike levels (key.listGroup index what defined)
      ((key.recast moved named).listGroup index what defined) Eq (· = none) := by
  simp only [listGroup]
  rcases index.map (Expr.toInteger Lookup.groups) with _ | _ | group
  · dsimp only
    split
    · exact .pure rfl (by simp)
    · exact .refuse rfl
  · exact .refuse rfl
  · exact .ite (fun _ => .refuse rfl) fun _ => .pure rfl (by simp)

theorem readSym_alike (name : String) : AnswersAlike levels (readSym name) (readSym name) Eq fun _ => False := by
  simp only [readSym]
  split
  · exact .pure rfl (by simp)
  · exact .level fun _ _ _ => .warnIf (.pure rfl (by simp))

theorem addSyms_alike (index value : Option Expr) :
    SetAlike levels moved named mute (key.addSyms index value) ((key.recast moved named).addSyms index value) := by
  refine .bindSame (listGroup_alike key index "symbols" key.symsDefined) fun group => ?_
  cases group with
  | none => exact .pure rfl (by simp)
  | some group =>
    dsimp only
    split
    · exact .pure rfl (by simp)
    · refine .ite (fun _ => refuse_alike key) fun _ => ?_
      refine .bindSame (.mapM fun name _ => readSym_alike name) fun syms => ?_
      exact .pure rfl (by simp)
    · exact refuse_alike key

variable (modifiers : VirtualModifiers) (scope : Scope) (defaults : ActionDefaults) (field : String)
  (value : Expr)

theorem readAction_alike (key : KeyDraft) (group : Nat) (call : Expr) (level : Nat) :
    AnswersAlike levels (readAction scope defaults key group call level)
      (readAction scope defaults (key.recast moved named) group call level) Eq fun _ => False := by
  simp only [readAction]
  split
  · exact .pure rfl (by simp)
  · exact .refuse rfl

theorem addActions_alike (key : KeyDraft) (index value : Option Expr) :
    SetAlike levels moved named mute (key.addActions scope defaults index value)
      ((key.recast moved named).addActions scope defaults index value) := by
  refine .bindSame (listGroup_alike key index "actions" key.actionsDefined) fun group => ?_
  cases group with
  | none => exact .pure rfl (by simp)
  | some group =>
    dsimp only
    split
    · exact .pure rfl (by simp)
    · refine .ite (fun _ => refuse_alike key) fun _ => ?_
      refine .ite (fun _ => refuse_alike key) fun _ => ?_
      refine .bindSame (.mapM fun (call : Expr × Nat) _ =>
        readAction_alike scope defaults key group call.1 call.2) fun actions => ?_
      exact .pure rfl (by simp)
    · exact refuse_alike key

theorem setAllowNone_alike :
    SetAlike levels moved named mute (key.setAllowNone index value)
      ((key.recast moved named).setAllowNone index value) := by
  simp only [setAllowNone]
  rcases index.map (Expr.toInteger Lookup.radioGroups) with _ | _ | group
  · dsimp only
    split
    · exact .pure rfl (by simp)
    · exact refuse_alike key
  · exact refuse_alike key
  · refine .ite (fun _ => refuse_alike key) fun _ => ?_
    split
    · exact .pure rfl (by simp)
    · exact refuse_alike key

theorem setType_alike :
    SetAlike levels moved named (!value.toText.isOk) (key.setType index value)
      ((key.recast moved named).setType index value) := by
  simp only [setType]
  cases text : value.toText with
  | error _ =>
    refine .level fun level other known => .warnIf (.pure rfl ?_)
    rintro ⟨⟨-, heard⟩, quiet⟩
    exact quiet (heard.resolve_left nofun level other known)
  | ok name =>
    rcases index.map (Expr.toInteger Lookup.groups) with _ | _ | group
    · exact .pure rfl (by simp)
    · exact refuse_alike key
    · exact .ite (fun _ => refuse_alike key) fun _ => .pure rfl (by simp)

theorem setVirtualMods_alike (key : KeyDraft) (value : Expr) :
    SetAlike levels moved named mute (key.setVirtualMods modifiers value)
      ((key.recast moved named).setVirtualMods modifiers value) := by
  simp only [setVirtualMods]
  split
  · exact .pure rfl (by simp)
  · exact refuse_alike key

theorem setLock_alike :
    SetAlike levels moved named mute (key.setLock value) ((key.recast moved named).setLock value) := by
  simp only [setLock]
  split
  · exact .pure rfl (by simp)
  · exact refuse_alike (key.define KeyField.behavior)

theorem setRadioGroup_alike (permanent : Bool) (value : Expr) :
    SetAlike levels moved named mute (key.setRadioGroup permanent value)
      ((key.recast moved named).setRadioGroup permanent value) := by
  simp only [setRadioGroup]
  split
  · exact refuse_alike key
  · refine .ite (fun _ => .pure rfl (by simp)) fun _ => ?_
    exact .ite (fun _ => refuse_alike key) fun _ => .pure rfl (by simp)

theorem setOverlay_alike :
    SetAlike levels moved named mute (key.setOverlay field value)
      ((key.recast moved named).setOverlay field value) := by
  simp only [setOverlay]
  split
  · exact refuse_alike key
  · exact refuse_alike key
  · exact .pure rfl (by simp)

theorem setRepeat_alike :
    SetAlike levels moved named mute (key.setRepeat value) ((key.recast moved named).setRepeat value) := by
  simp only [setRepeat]
  split
  · exact .pure rfl (by simp)
  · exact refuse_alike key

theorem setGroupRange_alike :
    Option.Rel (SetAlike levels moved named mute) (key.setGroupRange field value)
      ((key.recast moved named).setGroupRange field value) := by
  have wrap (wraps : Bool) : SetAlike levels moved named mute (key.setWrap field wraps value)
      ((key.recast moved named).setWrap field wraps value) := by
    simp only [setWrap]
    split
    · exact refuse_alike key
    · exact .pure rfl (by simp)
  have redirect : SetAlike levels moved named mute (key.setRedirect value)
      ((key.recast moved named).setRedirect value) := by
    simp only [setRedirect]
    split
    · exact refuse_alike key
    · exact .ite (fun _ => refuse_alike key) fun _ => .pure rfl (by simp)
  simp only [setGroupRange]
  split
  · exact .some (wrap true)
  · exact .some (wrap true)
  · exact .some (wrap false)
  · exact .some (wrap false)
  · exact .some redirect
  · exact .some redirect
  · exact .none

theorem setScalar_alike (key : KeyDraft) (field : String) (index : Option Expr) (value : Expr) :
    SetAlike levels moved named (misnamesType field value)
      (key.setScalar modifiers field index value) ((key.recast moved named).setScalar modifiers field index value) := by
  simp only [setScalar]
  split
  · rename_i known
    have misnamed : misnamesType field value = !value.toText.isOk := by
      simp [misnamesType, known]
    rw [misnamed]
    exact setType_alike key index value
  · exact setVirtualMods_alike modifiers key value
  · exact setVirtualMods_alike modifiers key value
  · exact setVirtualMods_alike modifiers key value
  · exact setLock_alike key value
  · exact setLock_alike key value
  · exact setLock_alike key value
  · exact setRadioGroup_alike key false value
  · exact setRadioGroup_alike key true value
  · exact setAllowNone_alike key index value
  · exact setRepeat_alike key value
  · exact setRepeat_alike key value
  · exact setRepeat_alike key value
  · refine .ite (fun _ => setOverlay_alike key _ value) fun _ => ?_
    have ranged : Option.Rel (SetAlike levels moved named (misnamesType field value))
        (key.setGroupRange (Text.foldCase field) value) ((key.recast moved named).setGroupRange (Text.foldCase field) value) :=
      setGroupRange_alike key _ value
    generalize key.setGroupRange (Text.foldCase field) value = setting at ranged
    generalize (key.recast moved named).setGroupRange (Text.foldCase field) value = other at ranged
    cases ranged with
    | some alike => exact alike
    | none => exact refuse_alike key

/-- Setting a field. -/
theorem setField_alike (key : KeyDraft) (field : String) (index value : Option Expr) :
    SetAlike levels moved named (misnamesType field (value.getD (.boolean true)))
      (key.setField scope defaults field index value)
      ((key.recast moved named).setField scope defaults field index value) := by
  simp only [setField]
  split
  · exact addSyms_alike key index value
  · exact addActions_alike scope defaults key index value
  · exact setScalar_alike scope.modifiers key field index _

/-- Moving the first group. -/
theorem moveGroup_alike (key : KeyDraft) (group : Nat) (map : String) :
    SetAlike levels moved named mute (key.moveGroup group map) ((key.recast moved named).moveGroup group map) := by
  simp only [moveGroup]
  refine .ite (fun _ => .pure rfl (by simp)) fun _ => ?_
  refine .ite (fun _ => refuse_alike key) fun _ => ?_
  exact .level fun _ _ _ => .warnIf (.pure rfl (by simp))

end KeyDraft

namespace KeyMerge

variable {merge other : KeyMerge}

section Clobbering

variable (same : merge.clobber = other.clobber)

include same

theorem mergeSym_alike (level : Nat) (old new : Keysym) :
    AnswersAlike levels (merge.mergeSym level old new) (other.mergeSym level old new) Eq fun _ => False := by
  simp only [mergeSym, same]
  refine .ite (fun _ => .pure rfl (by simp)) fun _ => ?_
  refine .ite (fun _ => .pure rfl (by simp)) fun _ => ?_
  exact .warnIf (.pure rfl (by simp))

theorem mergeAction_alike (level : Nat) (old new : Option Action) :
    AnswersAlike levels (merge.mergeAction level old new) (other.mergeAction level old new)
      Eq fun _ => False := by
  simp only [mergeAction, same]
  refine .ite (fun _ => .pure rfl (by simp)) fun _ => ?_
  refine .ite (fun _ => .pure rfl (by simp)) fun _ => ?_
  exact .warnIf (.pure rfl (by simp))

theorem mergeLevel_alike (acting : Bool) (old new : GroupDraft) (level : Nat) :
    AnswersAlike levels (merge.mergeLevel acting old new level)
      (other.mergeLevel acting old new level) Eq fun _ => False := by
  refine .bindSame (mergeSym_alike same level _ _) fun sym => ?_
  refine .ite (fun _ => ?_) fun _ => .pure rfl (by simp)
  refine .bindSame (mergeAction_alike same level _ _) fun action => ?_
  exact .pure rfl (by simp)

theorem mergeLevels_alike (old new : GroupDraft) :
    AnswersAlike levels (merge.mergeLevels old new) (other.mergeLevels old new) Eq fun _ => False := by
  have sameWidth : merge.mergedWidth old new = other.mergedWidth old new := by
    simp only [mergedWidth, same]
  simp only [mergeLevels, sameWidth]
  refine .bindSame (.mapM fun level _ => mergeLevel_alike same _ old new level)
    fun merged => ?_
  exact .pure rfl (by simp)

theorem mergeType_alike (old new : Option String) :
    AnswersAlike levels (merge.mergeType old new) (other.mergeType old new) Eq fun _ => False := by
  simp only [mergeType, same]
  split
  · exact .pure rfl (by simp)
  · exact .pure rfl (by simp)
  · exact .warnIf (.pure rfl (by simp))

theorem mergeGroup_alike (old new : GroupDraft) :
    AnswersAlike levels (merge.mergeGroup old new) (other.mergeGroup old new) Eq fun _ => False := by
  have typed (merged : GroupDraft) : AnswersAlike levels
      (do return { merged with typeName := ← merge.mergeType old.typeName new.typeName })
      (do return { merged with typeName := ← other.mergeType old.typeName new.typeName }) Eq fun _ => False := by
    refine .bindSame (mergeType_alike same _ _) fun typeName => ?_
    exact .pure rfl (by simp)
  refine .ite (fun _ => typed old) fun _ => ?_
  refine .ite (fun _ => typed _) fun _ => ?_
  refine .bindSame (mergeLevels_alike same old new) fun merged => ?_
  exact (typed merged).restrict

end Clobbering

end KeyMerge

namespace KeyDraft

theorem mergeGroupOf_alike (new old : KeyDraft) (report otherReport : Bool) (group : Nat) :
    AnswersAlike levels (new.mergeGroupOf report old group)
      ((new.recast moved named).mergeGroupOf otherReport (old.recast moved named) group)
      (fun made other => other.1 = made.1.recast moved named) fun _ => False := by
  refine .bindSame (KeyMerge.mergeGroup_alike (by rfl) _ _) fun merged => ?_
  refine .pure ?_ (by simp)
  -- Which groups are marked depends on the groups alone.
  simp only [apply_ite (recast moved named)]
  rfl

theorem mergeFields_recast (old new : KeyDraft) :
    (old.recast moved named).mergeFields (new.recast moved named) = (old.mergeFields new).recast moved named := by
  simp only [mergeFields, apply_ite KeyDraft.behavior, apply_ite KeyDraft.overlayKey]
  rfl

theorem merge_alike (old new : KeyDraft) :
    AnswersAlike levels (old.merge new)
      ((old.recast moved named).merge (new.recast moved named))
      (fun made other => other = made.recast moved named) fun _ => False := by
  simp only [merge]
  refine .ite (fun _ => .pure rfl (by simp)) fun _ => ?_
  refine .level fun level otherLevel _ => ?_
  -- The groups come out the same one by one, whatever clashes are found on the way.
  refine .bind (?_ : AnswersAlike _ _ _ (fun made other => other.1 = made.1.recast moved named)
    fun _ => False) ?_
  · refine .foldlM id rfl fun group _ key other same => ?_
    rw [same]
    refine .bind (mergeGroupOf_alike new key.1 _ _ group) fun made other same => ?_
    exact .pure same (by simp)
  · rintro ⟨made, clash⟩ ⟨_, otherClash⟩ rfl
    exact .warnIf (.pure (mergeFields_recast made new) (by simp))

end KeyDraft

/-- Whether an assignment outside of a key is passed over without a word at the lowest level: a
group name without an index, or a type that is no text for keys to start out with. -/
def Assignment.isMute (assigned : Assignment) : Bool :=
  match assigned.target.map Expr.toTarget with
  | some (.ok ⟨none, field, index⟩) =>
    (Text.foldCase field == "name" || Text.foldCase field == "groupname") && index.isNone
  | some (.ok ⟨some element, field, _⟩) =>
    Text.sameName element "key" && misnamesType field (assigned.value.getD (.boolean true))
  | _ => false

/-- Whether an assignment in the body of a key is passed over without a word at the lowest
level. -/
def Assignment.isMuteInside (assigned : Assignment) : Bool :=
  match assigned.target with
  | none => false
  | some (.fieldRef ..) => assigned.isMute
  | some target =>
    match target.toTarget with
    | .ok target => misnamesType target.field (assigned.value.getD (.boolean true))
    | .error _ => false

/-- Whether a statement of a symbols section is passed over without a word at the lowest level. -/
def Statement.isMute : Statement → Bool
  | .assignment assigned => assigned.isMute
  | .keySymbols _ _ body => body.any Assignment.isMuteInside
  | _ => false

namespace SymbolContents

/-- The contents from elsewhere. -/
def move (moved : Origin → Origin) (contents : SymbolContents) : SymbolContents :=
  { contents with
    keys := contents.keys.map (KeyDraft.move moved)
    base := contents.base.move moved }

variable (contents : SymbolContents) (scope : Scope) (keycodes : KeycodeTable)

theorem move_id : contents.move id = contents := by
  have sameKeys : contents.keys.map (KeyDraft.move id) = contents.keys := List.map_id _
  simp only [move, sameKeys]
  rfl

/-- The contents from elsewhere, with the keys under other names. -/
def recast (moved : Origin → Origin) (named : KeyName → KeyName) (contents : SymbolContents) :
    SymbolContents :=
  { contents.move moved with keys := contents.keys.map (KeyDraft.recast moved named) }

/-- Two changes make the same contents, from here and from elsewhere under other names. -/
abbrev MadeAlike (levels : Nat → Nat → Prop) (moved : Origin → Origin) (named : KeyName → KeyName)
    (left right : Report SymbolContents) : Prop :=
  AnswersAlike levels left right (fun made other => other = made.recast moved named)
    fun _ => False

/-- Two changes make the same contents, from here and from elsewhere under other names, and agree on
whether they are right; a wrong one is reported unless it may be mute. -/
abbrev HandledAlike (levels : Nat → Nat → Prop) (moved : Origin → Origin)
    (named : KeyName → KeyName) (mute : Bool) (left right : Report (SymbolContents × Bool)) : Prop :=
  AnswersAlike levels left right (fun made other => other = (made.1.recast moved named, made.2))
    fun made => made.2 = false ∧ Heard levels mute

/-- Merging the first key of a name, where the other names tell the keys apart as their own do. -/
theorem mergeNamed_alike {name otherName : KeyName} (new : KeyDraft) {keys : List KeyDraft}
    (same : ∀ old ∈ keys, (named old.name == otherName) = (old.name == name)) :
    AnswersAlike levels (mergeNamed name new keys)
      (mergeNamed otherName (new.recast moved named) (keys.map (KeyDraft.recast moved named)))
      (fun made other => other = made.map (KeyDraft.recast moved named)) fun _ => False := by
  induction keys with
  | nil => exact .pure rfl (by simp)
  | cons old rest ih =>
    have sameHere : ((old.recast moved named).name == otherName) = (old.name == name) :=
      same old (by simp)
    simp only [List.map_cons, mergeNamed, sameHere]
    refine .ite (fun _ => ?_) fun _ => ?_
    · refine .bindTold (KeyDraft.merge_alike old new) fun made => ?_
      exact .pure rfl (by simp)
    · refine .bindTold (ih fun old member => same old (by simp [member])) fun made => ?_
      exact .pure rfl (by simp)

theorem addKey_alike (contents : SymbolContents) (new : KeyDraft) :
    MadeAlike levels moved id (contents.addKey keycodes new)
      ((contents.recast moved id).addKey keycodes (new.recast moved id)) := by
  have sameKnown (name : KeyName) :
      ((contents.recast moved id).keys.any fun key => key.name == name) =
        contents.keys.any fun key => key.name == name := by
    simp [recast, KeyDraft.recast, Function.comp_def]
  have sameName : (new.recast moved id).name = new.name := rfl
  simp only [addKey, sameKnown, sameName]
  split
  · refine .bindTold (mergeNamed_alike new fun _ _ => rfl) fun keys => ?_
    exact .pure rfl (by simp)
  · refine .pure ?_ id
    simp [recast, move]

/-- Adding an entry of the modifier map. -/
theorem addModifier_alike (new : ModifierEntry) :
    MadeAlike levels moved named (contents.addModifier new) ((contents.recast moved named).addModifier new) := by
  have sameMap : (contents.recast moved named).modifierMap = contents.modifierMap := rfl
  simp only [addModifier, sameMap]
  split
  · exact .pure rfl (by simp)
  · refine .ite (fun _ => .pure rfl (by simp)) fun _ => ?_
    exact .refuse rfl

theorem setGroupName_alike (index : Option Expr) (value : Expr) :
    HandledAlike levels moved named index.isNone (contents.setGroupName index value)
      ((contents.recast moved named).setGroupName index value) := by
  simp only [setGroupName]
  rcases known : index.map (Expr.toInteger Lookup.groups) with _ | _ | group
  · refine .level fun level other together => .warnIf (.pure rfl ?_)
    have missing : index = none := Option.map_eq_none_iff.mp known
    rintro ⟨⟨-, heard⟩, quiet⟩
    exact quiet (heard.resolve_left (by simp [missing]) level other together)
  · exact .refuse rfl
  · refine .ite (fun _ => .refuse rfl) fun _ => ?_
    cases value.toText with
    | error _ => exact .refuse rfl
    | ok name => exact .ite (fun _ => .refuse rfl) fun _ => .pure rfl (by simp)

theorem setBase_alike {left right : Report (KeyDraft × Bool)}
    (alike : KeyDraft.SetAlike levels moved id mute left right) :
    HandledAlike levels moved named mute (contents.setBase left)
      ((contents.recast moved named).setBase right) := by
  refine .bindTold alike fun made => ?_
  exact .pure rfl (by simp)

theorem handleField_alike (field : String) (index : Option Expr) (value : Expr) :
    HandledAlike levels moved named
      ((Text.foldCase field == "name" || Text.foldCase field == "groupname") && index.isNone)
      (contents.handleField field index value)
      ((contents.recast moved named).handleField field index value) := by
  simp only [handleField]
  refine .ite (fun naming => ?_) fun _ => ?_
  · rw [naming, Bool.true_and]
    exact setGroupName_alike contents index value
  refine .ite (fun _ => setBase_alike contents
    (KeyDraft.setAllowNone_alike contents.base index value)) fun _ => ?_
  generalize (_ && _) = mute
  have ranged : Option.Rel (KeyDraft.SetAlike levels moved id mute)
      (contents.base.setGroupRange (Text.foldCase field) value)
      ((contents.recast moved named).base.setGroupRange (Text.foldCase field) value) :=
    KeyDraft.setGroupRange_alike contents.base _ value
  generalize contents.base.setGroupRange _ value = setting at ranged
  generalize (contents.recast moved named).base.setGroupRange _ value = other at ranged
  cases ranged with
  | some alike => exact setBase_alike contents alike
  | none => exact .refuse rfl

/-- An assignment outside of a key. -/
theorem handleAssignment_alike (contents : SymbolContents) (assigned : Assignment) :
    HandledAlike levels moved named assigned.isMute (contents.handleAssignment scope assigned)
      ((contents.recast moved named).handleAssignment scope assigned) := by
  simp only [handleAssignment, Assignment.isMute]
  rcases assigned.target.map Expr.toTarget with _ | _ | ⟨_ | element, field, index⟩
  · exact .refuse rfl
  · exact .refuse rfl
  · exact handleField_alike contents _ _ _
  · refine .ite (fun same => ?_) fun _ => ?_
    · have set := @KeyDraft.setField_alike levels moved id scope contents.actions contents.base field
        index (some (assigned.value.getD (.boolean true)))
      simp only [same]
      exact setBase_alike contents set
    have sameActions : (contents.recast moved named).actions = contents.actions := rfl
    rw [sameActions]
    split
    · exact .pure rfl (by simp)
    · exact .refuse rfl

/-- The contents and a key from elsewhere, under other names. -/
def moveWith (moved : Origin → Origin) (named : KeyName → KeyName)
    (made : (SymbolContents × KeyDraft) × Bool) : (SymbolContents × KeyDraft) × Bool :=
  ((made.1.1.recast moved named, made.1.2.recast moved named), made.2)

theorem handleBodyAssignment_alike (contents : SymbolContents) (key : KeyDraft)
    (assigned : Assignment) :
    AnswersAlike levels (contents.handleBodyAssignment scope key assigned)
      ((contents.recast moved named).handleBodyAssignment scope (key.recast moved named) assigned)
      (fun made other => other = moveWith moved named made)
      fun made => made.2 = false ∧ Heard levels assigned.isMuteInside := by
  have set (field : String) (index : Option Expr) : AnswersAlike levels
      (do
        let made ← key.setField scope contents.actions field index assigned.value
        return ((contents, made.1), made.2))
      (do
        let made ← (key.recast moved named).setField scope contents.actions field index assigned.value
        return ((contents.recast moved named, made.1), made.2))
      (fun made other => other = moveWith moved named made) fun made =>
        made.2 = false ∧ Heard levels (misnamesType field (assigned.value.getD (.boolean true))) := by
    refine .bindTold (KeyDraft.setField_alike scope contents.actions key field index _)
      fun made => ?_
    exact .pure rfl (by simp)
  simp only [handleBodyAssignment]
  split
  · -- Unnamed values are lists.
    have list : (Text.foldCase (unnamedField assigned.value) == "type") = false := by
      unfold unnamedField
      split <;> decide
    refine (set _ _).less fun _ known => ⟨known.1, .inl ?_⟩
    simp [misnamesType, list]
  · -- A field of an element is no field of this key, and is handled as outside of the body.
    rename_i target
    simp only [Assignment.isMuteInside, target]
    refine .bindTold (handleAssignment_alike scope contents assigned) fun made => ?_
    exact .pure rfl (by simp)
  · rename_i target other known
    simp only [Assignment.isMuteInside, known]
    cases target.toTarget with
    | ok field => exact set _ _
    | error _ => exact .refuse rfl

/-- The body of a key. -/
theorem handleBody_alike (scope : Scope) (contents : SymbolContents) (key : KeyDraft)
    (body : List Assignment) :
    AnswersAlike levels (contents.handleBody scope key body)
      ((contents.recast moved named).handleBody scope (key.recast moved named) body)
      (fun made other => other = moveWith moved named made)
      fun made => made.2 = false ∧ Heard levels (body.any Assignment.isMuteInside) := by
  refine .foldTold (by simp) rfl fun assigned member made => ?_
  refine .bindTold (handleBodyAssignment_alike scope made.1.1 made.1.2 assigned) fun next =>
    .pure rfl ?_
  -- What is heard of the body is heard of each assignment.
  rintro ⟨⟨⟨wrong, heard⟩, fine⟩, right⟩
  have heardHere : Heard levels assigned.isMuteInside :=
    heard.imp_left fun all => by simpa using List.any_eq_false.mp all assigned member
  simp_all

theorem handleKey_alike (contents : SymbolContents) (header : Header) (mode : MergeMode)
    (name : KeyName) (body : List Assignment) :
    HandledAlike levels moved id (body.any Assignment.isMuteInside)
      (contents.handleKey scope header mode name body)
      ((contents.recast moved id).handleKey scope (header.move moved) mode name body) := by
  refine .bindTold (@handleBody_alike levels moved id scope contents _ body) fun read => ?_
  obtain ⟨⟨contents, key⟩, right⟩ := read
  -- A key with a wrong assignment, or one whose group cannot be moved, is not added.
  refine .ite (fun wrong => .pure rfl (by simp_all)) fun _ => ?_
  refine .bindTold (@KeyDraft.moveGroup_alike levels moved id false key contents.group _)
    fun moved => ?_
  obtain ⟨key, right⟩ := moved
  refine .ite (fun wrong => .pure rfl (by simp_all [Heard])) fun _ => ?_
  refine .bindTold (addKey_alike scope.keycodes contents key) fun made => ?_
  exact .pure rfl (by simp)

variable (header : Header) (mode : MergeMode)

/-- A modifier map. -/
theorem handleModifierMap_alike (modifier : String) (keys : List Expr) :
    HandledAlike levels moved named mute (contents.handleModifierMap mode modifier keys)
      ((contents.recast moved named).handleModifierMap mode modifier keys) := by
  simp only [handleModifierMap]
  split
  · exact .refuse rfl
  · refine .afterTold (?_ : MadeAlike levels moved named _ _) fun made => ?_
    · refine .foldTold id rfl fun key _ contents => ?_
      split
      · exact (addModifier_alike contents _).restrict
      · exact .refuse rfl
    · exact .pure rfl (by simp)

theorem handle_alike (statement : Statement) (contents : SymbolContents) :
    HandledAlike levels moved id statement.isMute (contents.handle scope header mode statement)
      ((contents.recast moved id).handle scope (header.move moved) mode statement) := by
  simp only [handle]
  split
  · exact handleKey_alike scope contents header _ _ _
  · exact handleAssignment_alike scope contents _
  · exact handleModifierMap_alike contents _ _ _
  · exact .refuse rfl

theorem absorb_alike (new old : SymbolContents) :
    MadeAlike levels moved id (absorb keycodes mode new old)
      (absorb keycodes mode (new.recast moved id) (old.recast moved id)) := by
  refine .afterTold (?_ : MadeAlike levels moved id _ _) fun contents => ?_
  · refine .foldQuiet_map rfl fun key _ contents => ?_
    simp only [KeyDraft.recast, KeyDraft.move, Definition.inMode_move]
    exact addKey_alike keycodes contents _
  · -- Entries of the modifier map do not tell where they are from.
    refine .foldTold id rfl fun entry _ contents => ?_
    exact (addModifier_alike contents _).restrict

/-- What a symbols section holds is the same at every level and wherever it is from. -/
theorem uniform (initial : moved .initial = .initial)
    (included : ∀ file position, moved (.included file position) = .included file position) :
    Uniform SymbolContents keycodes (AtLevels levels) moved
      fun left right => right = left.move moved where
  initial := initial
  included := included
  empty := by
    simp [SectionContents.empty, empty, move, KeyDraft.base, KeyDraft.move, Definition.move,
      Definition.start, initial]
  forTerm := by
    intro term left other same
    subst same
    simp [SectionContents.forTerm, empty, move, KeyDraft.base, KeyDraft.move, Definition.move,
      Definition.start, initial]
  builtin _ _ _ _ := .none
  handle := by
    intro statement modifiers header mode left other same
    subst same
    refine .mono (handle_alike _ header mode statement left).alike ?_
    intro made other same
    subst same
    exact ⟨rfl, rfl⟩
  absorb := by
    intro modifiers mode header new otherNew old otherOld sameNew sameOld
    subst sameNew sameOld
    refine .bindTold (absorb_alike keycodes mode new old).alike fun made => ?_
    exact .pure ⟨rfl, rfl⟩

/-- What a symbols section holds is the same at every level. -/
theorem uniform_same (keycodes : KeycodeTable) :
    Uniform SymbolContents keycodes (AtLevels levels) id Eq := by
  have same : Uniform SymbolContents keycodes (AtLevels levels) id
      fun left right => right = left.move id :=
    uniform keycodes rfl fun _ _ => rfl
  simpa only [move_id, eq_comm] using same

end SymbolContents

end Xkb
