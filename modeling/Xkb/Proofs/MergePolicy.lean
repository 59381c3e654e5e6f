import Xkb.Definition
import Xkb.Proofs.Bits

/-! The merge policy field by field: what a further definition leaves of a field, and which fields
are set after it. -/

namespace Xkb

/-- A field as definitions leave it: its value, and whether one of them sets it. -/
structure Setting (α : Type) where
  value : α
  isSet : Bool
deriving DecidableEq

namespace Setting

variable {α : Type}

/-- What a further definition leaves of a field. A definition that replaces leaves its own field, set
or not. Any other leaves its own where it sets the field, unless it augments and the field is set. -/
def merge (mode : MergeMode) (old new : Setting α) : Setting α :=
  if mode = .replace ∨ new.isSet = true ∧ (mode ≠ .augment ∨ old.isSet = false) then new else old

theorem merge_replace (old new : Setting α) : merge .replace old new = new :=
  if_pos (.inl rfl)

theorem merge_of_unset (mode : MergeMode) {old new : Setting α} (unset : old.isSet = false)
    (sets : new.isSet = true) : merge mode old new = new :=
  if_pos (.inr ⟨sets, .inr unset⟩)

theorem merge_augment_of_set {old new : Setting α} (set : old.isSet = true) :
    merge .augment old new = old := by
  refine if_neg ?_
  simp [set]

variable {mode : MergeMode}

theorem merge_of_clobbers (clobbers : mode ≠ .augment) {old new : Setting α}
    (sets : new.isSet = true) : merge mode old new = new :=
  if_pos (.inr ⟨sets, .inl clobbers⟩)

theorem merge_isSet {old new : Setting α} (set : old.isSet = true) (sets : new.isSet = true) :
    (merge mode old new).isSet = true := by
  unfold merge
  split
  · exact sets
  · exact set

end Setting

namespace Definition

/-- A field that is set is one that was set before or the one that is added. -/
theorem defines_define (definition : Definition) (field other : UInt32) :
    (definition.define field).defines other
      = (definition.defines other || meets32 field other) := by
  rw [Bool.eq_iff_iff]
  simp only [defines, define, meets32, UInt32.and_comm _ other, and_or_distrib32, bne_iff_ne, ne_eq,
    UInt32.or_eq_zero_iff, Bool.or_eq_true, Decidable.not_and_iff_not_or_not]

theorem defines_foldl (definition : Definition) (fields : List UInt32) (field : UInt32) :
    defines { definition with fields := fields.foldl (· ||| ·) definition.fields } field
      = (definition.defines field || fields.any (meets32 · field)) := by
  induction fields generalizing definition with
  | nil => simp
  | cons head tail ih =>
    have later := ih (definition.define head)
    rw [defines_define, Bool.or_assoc] at later
    exact later

/-- Fields of which no two have a bit in common. -/
def Separate (fields : List UInt32) : Prop :=
  ∀ left ∈ fields, ∀ right ∈ fields, meets32 left right = decide (left = right)

instance (fields : List UInt32) : Decidable (Separate fields) :=
  decidable_of_iff
    ((fields.all fun left => fields.all fun right =>
      meets32 left right == decide (left = right)) = true)
    (by simp only [Separate, List.all_eq_true, beq_iff_eq])

variable {fields : List UInt32} {field : UInt32}

/-- After values were taken over, the fields that either definition sets are set. -/
theorem defines_adopt (separate : Separate fields) (old new : Definition) (member : field ∈ fields) :
    (old.adopt new fields).defines field = (old.defines field || new.defines field) := by
  rw [adopt, defines_foldl]
  -- Only the field itself has a bit in common with the field.
  have taken : ((fields.filter (old.takes new)).any (meets32 · field)) = old.takes new field := by
    rw [Bool.eq_iff_iff, List.any_eq_true]
    constructor
    · intro ⟨other, known, meets⟩
      obtain ⟨otherMember, takes⟩ := List.mem_filter.mp known
      rw [separate other otherMember field member, decide_eq_true_eq] at meets
      exact meets ▸ takes
    · intro takes
      refine ⟨field, List.mem_filter.mpr ⟨member, takes⟩, ?_⟩
      simp [separate field member field member]
  rw [taken, takes]
  -- A field that is not taken over is one that the new definition leaves alone or the old one sets.
  cases old.defines field with
  | false => simp
  | true => simp

/-- A field is taken over exactly from a definition that sets it, unless that one augments and the
field is set. -/
theorem takes_iff (old new : Definition) (field : UInt32) :
    old.takes new field = true ↔
      new.defines field = true ∧ (new.merge ≠ .augment ∨ old.defines field = false) := by
  simp only [takes, MergeMode.clobbers, Bool.and_eq_true, Bool.or_eq_true, bne_iff_ne,
    Bool.not_eq_true']

/-- What the policy leaves of a field whose value is taken over or not, as the definitions say. -/
theorem merge_setting {α : Type} {old new : Definition} (keeps : new.merge ≠ .replace)
    (field : UInt32) (oldValue newValue : α) :
    Setting.merge new.merge ⟨oldValue, old.defines field⟩ ⟨newValue, new.defines field⟩
      = ⟨if old.takes new field then newValue else oldValue,
        old.defines field || new.defines field⟩ := by
  have chosen := takes_iff old new field
  by_cases takes : old.takes new field = true
  · have sets := (chosen.mp takes).1
    rw [Setting.merge, if_pos (.inr (chosen.mp takes)), if_pos takes, sets, Bool.or_true]
  · rw [Setting.merge, if_neg fun taken => takes (chosen.mpr (taken.resolve_left keeps)),
      if_neg takes]
    -- What is not taken over is not set by the new definition, or set by both.
    cases held : old.defines field with
    | true => rfl
    | false =>
      have unset : new.defines field = false := by
        rw [← Bool.not_eq_true]
        exact fun sets => takes (chosen.mpr ⟨sets, .inr held⟩)
      rw [unset]
      rfl

/-- A field whose value is taken over or not, among fields that are, is left to the policy. -/
theorem adopt_setting {α : Type} (separate : Separate fields) {old new : Definition}
    (keeps : new.merge ≠ .replace) (member : field ∈ fields) {oldValue newValue made : α}
    (chosen : made = if old.takes new field then newValue else oldValue) :
    (⟨made, (old.adopt new fields).defines field⟩ : Setting α)
      = Setting.merge new.merge ⟨oldValue, old.defines field⟩ ⟨newValue, new.defines field⟩ := by
  rw [merge_setting keeps, defines_adopt separate old new member, chosen]

end Definition

end Xkb
