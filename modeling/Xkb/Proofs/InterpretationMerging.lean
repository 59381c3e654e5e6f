import Mathlib.Data.List.Induction
import Xkb.Proofs.InterpretationOrder
import Xkb.Proofs.MergePolicy

/-! Interpretations over a whole run of definitions: the list has one for each keysym and modifiers,
and each of its fields is as the definitions for these leave it, one after the other. -/

namespace Xkb.InterpretationDraft

/-- The fields of an interpretation that definitions set. -/
inductive Part where
  | virtualModifier
  | action
  | autoRepeat
  | locking
  | levelOneOnly
deriving DecidableEq

namespace Part

/-- What a field can be. -/
def Value : Part → Type
  | virtualModifier => Option Nat
  | action => Action
  | autoRepeat | locking | levelOneOnly => Bool

/-- The bit that marks a field as set. -/
def field : Part → UInt32
  | virtualModifier => InterpretationField.virtualModifier
  | action => InterpretationField.action
  | autoRepeat => InterpretationField.autoRepeat
  | locking => InterpretationField.locking
  | levelOneOnly => InterpretationField.levelOneOnly

/-- What a field is. -/
def value : (part : Part) → Interpretation → part.Value
  | virtualModifier, interpretation => interpretation.virtualModifier
  | action, interpretation => interpretation.action
  | autoRepeat, interpretation => interpretation.autoRepeat
  | locking, interpretation => interpretation.locking
  | levelOneOnly, interpretation => interpretation.levelOneOnly

theorem field_mem (part : Part) : part.field ∈ InterpretationField.all := by
  cases part <;> decide

end Part

/-- A field as a definition has it. -/
def setting (draft : InterpretationDraft) (part : Part) : Setting part.Value :=
  ⟨part.value draft.interpretation, draft.definition.defines part.field⟩

/-- A field as some definitions leave it that come one after the other behind a first one. -/
def settle (part : Part) (first : InterpretationDraft) (rest : List InterpretationDraft) :
    Setting part.Value :=
  rest.foldl (fun held new => held.merge new.definition.merge (new.setting part))
    (first.setting part)

theorem mergeFields_setting {old new : InterpretationDraft}
    (keeps : new.definition.merge ≠ .replace) (part : Part) :
    (old.mergeFields new).setting part
      = (old.setting part).merge new.definition.merge (new.setting part) := by
  have separate : Definition.Separate InterpretationField.all := by decide
  -- The value comes from the definition that the policy chooses.
  have chosen : part.value (old.mergeFields new).interpretation
      = if old.definition.takes new.definition part.field then part.value new.interpretation
        else part.value old.interpretation := by
    cases part <;> rfl
  exact Definition.adopt_setting separate keeps part.field_mem chosen

/-- Of two interpretations for the same, each field is left to the merge policy, whatever is
reported. -/
theorem merge_setting (old new : InterpretationDraft) :
    Gives (old.merge new) fun made => ∀ part,
      made.setting part = (old.setting part).merge new.definition.merge (new.setting part) := by
  simp only [merge]
  refine .after fun level => .ite (fun replaces => ?_) fun keeps => ?_
  · -- The new interpretation takes the place of the old one.
    have mode : new.definition.merge = .replace := by simpa using replaces
    have whole : ∀ part, new.setting part
        = (old.setting part).merge new.definition.merge (new.setting part) := by
      intro part
      rw [mode, Setting.merge_replace]
    exact .noted whole
  · have mode : new.definition.merge ≠ .replace := by simpa using keeps
    exact .noted fun part => mergeFields_setting mode part

/-- An interpretation is what the definitions for its keysym and modifiers leave, in their order. -/
def LeftBy (drafts : List InterpretationDraft) (entry : InterpretationDraft) : Prop :=
  ∃ first rest, drafts.filter (·.key = entry.key) = first :: rest ∧
    ∀ part, entry.setting part = settle part first rest

namespace LeftBy

variable {drafts : List InterpretationDraft} {entry new : InterpretationDraft}

theorem of_fresh (fresh : new.key ∉ drafts.map key) : LeftBy (drafts ++ [new]) new := by
  -- None of the definitions before it is for the same.
  have none : drafts.filter (·.key = new.key) = [] := by
    rw [List.filter_eq_nil_iff]
    intro other member same
    exact fresh (List.mem_map.mpr ⟨other, member, of_decide_eq_true same⟩)
  refine ⟨new, [], ?_, fun part => rfl⟩
  rw [List.filter_append, none]
  simp

theorem concat_of_other (known : LeftBy drafts entry) (other : new.key ≠ entry.key) :
    LeftBy (drafts ++ [new]) entry := by
  obtain ⟨first, rest, filtered, settled⟩ := known
  refine ⟨first, rest, ?_, settled⟩
  rw [List.filter_append, filtered]
  simp [other]

theorem concat_of_same {made : InterpretationDraft} (known : LeftBy drafts entry)
    (same : entry.key = new.key) (kept : made.key = entry.key)
    (merged : ∀ part,
      made.setting part = (entry.setting part).merge new.definition.merge (new.setting part)) :
    LeftBy (drafts ++ [new]) made := by
  obtain ⟨first, rest, filtered, settled⟩ := known
  refine ⟨first, rest ++ [new], ?_, fun part => ?_⟩
  · rw [kept, List.filter_append, filtered]
    simp [same]
  · rw [merged part, settled part, settle, settle, List.foldl_append]
    rfl

end LeftBy

theorem add_leftBy {drafts held : List InterpretationDraft} (new : InterpretationDraft)
    (distinct : (held.map key).Nodup) (keys : held.map key = (drafts.map key).eraseDups)
    (left : ∀ entry ∈ held, LeftBy drafts entry) :
    Gives (new.add held) fun made => ∀ entry ∈ made, LeftBy (drafts ++ [new]) entry := by
  by_cases present : new.key ∈ held.map key
  · -- The one interpretation for the same is merged with, and all others are for something else.
    obtain ⟨before, old, after, split, -, same⟩ := exists_first_of_mem_map present
    subst split
    rw [List.map_append, List.map_cons, List.nodup_append, List.nodup_cons] at distinct
    obtain ⟨-, ⟨notAfter, -⟩, notBefore⟩ := distinct
    have apartBefore : ∀ item ∈ before, item.key ≠ new.key := fun item member =>
      same ▸ notBefore _ (List.mem_map_of_mem member) _ List.mem_cons_self
    have apartAfter : ∀ item ∈ after, item.key ≠ new.key := by
      intro item member sameToo
      exact notAfter (same.trans sameToo.symm ▸ List.mem_map_of_mem member)
    have merged : Gives (old.merge new) fun made => made.key = old.key ∧ ∀ part,
        made.setting part = (old.setting part).merge new.definition.merge (new.setting part) :=
      fun log => ⟨merge_key same log, merge_setting old new log⟩
    rw [new.adds.known apartBefore same]
    refine .bind merged fun made ⟨kept, settled⟩ => .pure fun entry member => ?_
    rcases List.mem_append.mp member with early | late
    · exact (left entry (by simp [early])).concat_of_other (apartBefore entry early).symm
    · rcases List.mem_cons.mp late with here | behind
      · subst here
        exact (left old (by simp)).concat_of_same same kept settled
      · exact (left entry (by simp [behind])).concat_of_other (apartAfter entry behind).symm
  · -- Nothing was said of the keysym and modifiers before, so the definition is appended.
    have absent : ∀ old ∈ held, old.key ≠ new.key := fun old member same =>
      present (same ▸ List.mem_map_of_mem member)
    rw [new.adds.fresh absent]
    refine .pure fun entry member => ?_
    rcases List.mem_append.mp member with known | last
    · exact (left entry known).concat_of_other (absent entry known).symm
    · rw [List.mem_singleton.mp last]
      rw [keys] at present
      exact .of_fresh fun member => present (List.mem_eraseDups.mpr member)

/-- Whatever interpretations are added to a list without any: the list has one for each keysym and
modifiers, in the order in which these came up. In each of them a field has the value, and is set or
not, as the definitions for its keysym and modifiers leave the field one after the other: the first
definition and every one that replaces leave all their fields, and any other leaves those that it
sets, unless it augments and the field is set already. -/
theorem addAll_settles (drafts : List InterpretationDraft) (diagnostics : Diagnostics) :
    let reached := (addAll drafts diagnostics).1
    reached.map key = (drafts.map key).eraseDups ∧
      ∀ entry ∈ reached, ∃ first rest, drafts.filter (·.key = entry.key) = first :: rest ∧
        ∀ part, entry.setting part = settle part first rest := by
  intro reached
  refine ⟨addAll_keys drafts diagnostics, ?_⟩
  -- The last definition is split off, so that the list before it is one of the same kind.
  have run : ∀ done, ∀ entry ∈ (addAll done diagnostics).1, LeftBy done entry := by
    intro done
    induction done using List.reverseRecOn with
    | nil => exact fun _ member => absurd member List.not_mem_nil
    | append_singleton done new ih =>
      have next : addAll (done ++ [new]) diagnostics
          = new.add (addAll done diagnostics).1 (addAll done diagnostics).2 := by
        simp only [addAll, List.foldlM_append, List.foldlM_cons, List.foldlM_nil, bind_pure]
        rfl
      rw [next]
      exact add_leftBy new (addAll_nodup done diagnostics) (addAll_keys done diagnostics) ih _
  exact run drafts

end Xkb.InterpretationDraft
