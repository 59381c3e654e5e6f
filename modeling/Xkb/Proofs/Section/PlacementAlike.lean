import Xkb.Proofs.Section.KeyRecords
import Xkb.Proofs.Section.KeysAlike
import Xkb.Proofs.Section.PlacedKeys

/-! Keys are put on their codes alike at every warning level, and of their definitions only the
fields that are set count. -/

namespace Xkb

variable {level : Nat} {levels : Nat → Nat → Prop} {change : Definition → Definition}

namespace KeyDraft

/-- The key with another definition. -/
def relabel (change : Definition → Definition) (key : KeyDraft) : KeyDraft :=
  { key with definition := change key.definition }

theorem putOn_relabel {types : TypeTable} {keycodes : KeycodeTable}
    (sameFields : ∀ definition, (change definition).fields = definition.fields) (codes : List Nat)
    (key : KeyDraft) (keys : Vector Key 256) :
    putOn types keycodes codes (key.relabel change) keys = putOn types keycodes codes key keys := by
  induction codes generalizing key keys with
  | nil => rfl
  | cons code rest ih =>
    -- The definition is asked for the fields it sets, and the groups are put in their places.
    have sameDefines (field : UInt32) :
        (key.relabel change).definition.defines field = key.definition.defines field := by
      simp only [relabel, Definition.defines, sameFields]
    have sameKey : (key.relabel change).onCode types keycodes = key.onCode types keycodes := by
      funext previous
      simp only [onCode, sameDefines]
      rfl
    rw [putOn, sameKey]
    exact ih (key.typed types) _

theorem ofGroup_goes (types : TypeTable) (key : KeyDraft) (code group : Nat) :
    Goes level (PlacedGroup.ofGroup types key code group) := by
  have chosen (draft : GroupDraft) : Goes level (PlacedGroup.chooseType key code draft) := by
    unfold PlacedGroup.chooseType
    split
    · exact .pure id
    · split
      · exact .pure id
      · exact .atLevel (.warnIf (.pure id))
  have found (name : Option String) : Goes level (PlacedGroup.findType types key code name) := by
    unfold PlacedGroup.findType
    split
    · exact .pure id
    · exact .pure id
    · exact .atLevel (.warnIf (.pure id))
  have clipped (draft : GroupDraft) (name : String) (levels : Nat) :
      Goes level (PlacedGroup.clip key draft name levels) := by
    unfold PlacedGroup.clip
    refine .ite (fun _ => .pure id) fun _ => ?_
    exact Answers.atLevel (Answers.warnIf (Accounts.pure id))
  unfold PlacedGroup.ofGroup
  refine .after (chosen _) fun _ => .after (found _) fun _ => ?_
  exact .after (clipped _ _ _) fun _ => .pure id

theorem place_goes (types : TypeTable) (keycodes : KeycodeTable) (keys : Vector Key 256)
    (key : KeyDraft) : Goes level (place types keycodes keys key) := by
  have behavior (key : KeyDraft) : Goes level (key.placeBehavior keycodes) := by
    unfold placeBehavior
    split
    · exact .pure id
    · split
      · exact .pure id
      · exact .atLevel (.warnIf (.pure id))
    · exact .pure id
  have placed (key : KeyDraft) (code : Nat) (previous : Key) :
      Goes level (key.placeAt types keycodes code previous) := by
    unfold placeAt
    refine .after (.mapM fun group _ => ofGroup_goes _ _ _ _) fun _ => ?_
    exact .after (behavior _) fun _ => .pure id
  unfold place
  split
  · exact .atLevel (.warnIf (.pure id))
  · refine .after (.foldQuiet fun made code _ => ?_) fun _ => .pure id
    exact .after (placed _ _ _) fun _ => .pure id

theorem prepare_relabel (key : KeyDraft) :
    (key.relabel change).prepare = key.prepare.relabel change :=
  prepare_hom (relabel change) (fun _ => rfl) (fun _ => rfl) (fun _ _ => rfl) (fun _ => rfl) key

theorem prepare_recast {moved : Origin → Origin} {named : KeyName → KeyName} (key : KeyDraft) :
    (key.recast moved named).prepare = key.prepare.recast moved named :=
  prepare_hom (recast moved named) (fun _ => rfl) (fun _ => rfl) (fun _ _ => rfl) (fun _ => rfl) key

theorem prepare_name (key : KeyDraft) : key.prepare.name = key.name := by
  -- Under a name that always is its own, the key is the same key.
  have same := congrArg KeyDraft.name (@prepare_recast id (fun _ => key.name) key)
  exact same

end KeyDraft

namespace SymbolContents

/-- The contents with other definitions and modes. -/
def relabel (change : Definition → Definition) (mode : MergeMode → MergeMode)
    (contents : SymbolContents) : SymbolContents :=
  { contents with
    keys := contents.keys.map (KeyDraft.relabel change)
    modifierMap := contents.modifierMap.map fun entry => { entry with merge := mode entry.merge } }

/-- The keymap with another name for its symbols. -/
def renamed (name : Option String) (keymap : Keymap) : Keymap :=
  { keymap with symbols := { keymap.symbols with name } }

/-- Applying the section. -/
theorem apply_goes (contents : SymbolContents) (name : Option String) (keymap : Keymap) :
    Goes level (contents.apply name keymap) := by
  have found (keymap : Keymap) (entry : ModifierEntry) : Goes level (findTarget keymap entry) := by
    unfold findTarget
    refine .atLevel ?_
    split
    · exact .warnIf (.pure id)
    · exact .warnIf (.pure id)
  have modified (keymap : Keymap) (entry : ModifierEntry) :
      Goes level (applyModifier keymap entry) := by
    unfold applyModifier
    refine .after (found _ _) fun code => ?_
    split
    · exact .pure id
    · exact .pure id
  have noted (keymap : Keymap) : Goes level (noteEmptyKeys keymap) := by
    unfold noteEmptyKeys
    refine .atLevel (.ite (fun _ => ?_) fun _ => .pure id)
    generalize keymap.keycodes.codes = codes
    induction codes with
    | nil => exact .pure id
    | cons code rest ih =>
      refine .after (?_ : Goes level _) fun _ => ih
      exact Accounts.ite (fun _ => Answers.info _) fun _ => Accounts.pure id
  unfold apply
  refine .ite (fun _ => .pure id) fun _ => ?_
  refine .after (.foldQuiet fun keys key _ => KeyDraft.place_goes _ _ _ _)
    fun keys => ?_
  refine .after (noted _) fun _ => ?_
  exact .foldQuiet fun keymap entry _ => modified _ _

theorem foldl_modified_renamed (name : Option String) (mode : MergeMode → MergeMode)
    (entries : List ModifierEntry) (keymap : Keymap) :
    (entries.map fun entry => { entry with merge := mode entry.merge }).foldl modified
      (renamed name keymap) = renamed name (entries.foldl modified keymap) := by
  rw [List.foldl_map]
  refine List.foldl_hom (renamed name) fun keymap entry => ?_
  have sameTarget : targetCode (renamed name keymap) { entry with merge := mode entry.merge } =
    targetCode keymap entry := rfl
  simp only [modified, sameTarget]
  cases targetCode keymap entry with
  | none => rfl
  | some code => rfl

/-- Symbols on their way into a keymap. -/
theorem apply_alike (sameFields : ∀ definition, (change definition).fields = definition.fields)
    (mode : MergeMode → MergeMode) (contents : SymbolContents) (name other : Option String)
    (keymap : Keymap) :
    Alike (AtLevels levels) (contents.apply name keymap)
      ((contents.relabel change mode).apply other keymap)
      fun made otherMade => otherMade = made ∨
        made.symbols.name = name ∧ otherMade = renamed other made := by
  refine Goes.alike (fun _ => apply_goes _ _ _) (fun _ => apply_goes _ _ _) fun first second => ?_
  rw [apply_gives, apply_gives]
  have sameEmpty : (contents.relabel change mode).keys.isEmpty = contents.keys.isEmpty := by
    simp [relabel]
  simp only [applied, sameEmpty]
  split
  · exact .inl rfl
  -- Preparing comes before placing and does not touch the definitions either.
  have sameKeys : KeyDraft.putAll keymap.types keymap.keycodes
        ((contents.relabel change mode).keys.map KeyDraft.prepare) keymap.symbols.keys =
      KeyDraft.putAll keymap.types keymap.keycodes (contents.keys.map KeyDraft.prepare)
        keymap.symbols.keys := by
    simp only [KeyDraft.putAll, relabel, List.foldl_map, KeyDraft.prepare_relabel,
      KeyDraft.putOn_relabel sameFields]
    rfl
  obtain ⟨keys, made, -⟩ := foldl_modified contents.modifierMap (Remarked.refl _ _)
  refine .inr ⟨congrArg (·.symbols.name) made, ?_⟩
  rw [sameKeys, ← foldl_modified_renamed other mode]
  rfl

end SymbolContents

end Xkb
