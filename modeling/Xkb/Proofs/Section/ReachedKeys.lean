import Xkb.Proofs.Section.KeySteps
import Xkb.Proofs.Section.Reading

/-! The keys that symbols sections come to, step by step. What every step keeps holds of all of
them. -/

namespace Xkb

namespace KeyDraft

/-- The keys that assignments, labels, moves and merges come to from what keys start out with. -/
inductive Reached : KeyDraft → Prop where
  | base : Reached base
  | field {key : KeyDraft} (earlier : Reached key) (scope : Scope) (defaults : ActionDefaults)
      (field : String) (index value : Option Expr) (log : Diagnostics) :
      Reached (key.setField scope defaults field index value log).1.1
  | allowNone {key : KeyDraft} (earlier : Reached key) (index : Option Expr) (value : Expr)
      (log : Diagnostics) : Reached (key.setAllowNone index value log).1.1
  | groupRange {key : KeyDraft} (earlier : Reached key) {field : String} {value : Expr}
      {setting : Report (KeyDraft × Bool)} (sets : key.setGroupRange field value = some setting)
      (log : Diagnostics) : Reached (setting log).1.1
  | labelled {key : KeyDraft} (earlier : Reached key) (merge : MergeMode) (origin : Origin)
      (name : KeyName) :
      Reached { key with definition := { key.definition with merge, origin }, name }
  | moved {key : KeyDraft} (earlier : Reached key) (group : Nat) (map : String)
      (log : Diagnostics) : Reached (key.moveGroup group map log).1.1
  | merged {old new : KeyDraft} (earlier : Reached old) (later : Reached new) (log : Diagnostics) :
      Reached (old.merge new log).1

variable {key : KeyDraft}

/-- What keys start out with and every step keeps holds of all keys that are reached. -/
theorem Reached.holds {holds : KeyDraft → Prop} (base : holds KeyDraft.base)
    (assigned : ∀ {key made : KeyDraft}, key.Assigned made → holds key → holds made)
    (labelled : ∀ {key : KeyDraft} merge origin name, holds key →
      holds { key with definition := { key.definition with merge, origin }, name })
    (moved : ∀ {key : KeyDraft} group map, holds key →
      Gives (key.moveGroup group map) fun made => holds made.1)
    (merged : ∀ {old new : KeyDraft}, old.Reached → new.Reached → holds old → holds new →
      Gives (old.merge new) holds) (reached : key.Reached) : holds key := by
  -- All kinds of assignments are one step, since all do what an assignment can do.
  induction reached with
  | base => exact base
  | field _ scope defaults field index value log ih =>
    exact assigned (setField_sets scope defaults field index value log).1 ih
  | allowNone _ index value log ih => exact assigned (setAllowNone_sets index value log) ih
  | groupRange _ sets log ih => exact assigned (setGroupRange_aside sets log).1 ih
  | labelled _ merge origin name ih => exact labelled merge origin name ih
  | moved _ group map log ih => exact moved group map ih log
  | merged earlier later log ih laterIh => exact merged earlier later ih laterIh log

theorem Reached.set (reached : key.Reached) {setting : Report (KeyDraft × Bool)}
    (sets : key.Setting setting) : Gives setting fun made => made.1.Reached := by
  intro log
  cases sets with
  | field scope defaults field index value => exact reached.field scope defaults field index value log
  | allowNone index value => exact reached.allowNone index value log
  | groupRange sets => exact reached.groupRange sets log

theorem Reached.inMode (reached : key.Reached) (mode : MergeMode) :
    Reached { key with definition := key.definition.inMode mode } := by
  -- An include without a mode leaves the label as it is.
  unfold Definition.inMode
  split
  · exact reached
  · exact reached.labelled mode key.definition.origin key.name

end KeyDraft

namespace SymbolContents

/-- Contents of a symbols section whose keys are reached step by step. -/
structure Reached (contents : SymbolContents) : Prop where
  keys : ∀ key ∈ contents.keys, key.Reached
  base : contents.base.Reached

variable {contents : SymbolContents} {new : KeyDraft}

theorem mergeNamed_reached (name : KeyName) (newReached : new.Reached) {keys : List KeyDraft}
    (reached : ∀ key ∈ keys, key.Reached) :
    Gives (mergeNamed name new keys) fun made => ∀ key ∈ made, key.Reached := by
  induction keys with
  | nil => exact .pure reached
  | cons old rest ih =>
    have oldReached := reached old (by simp)
    have restReached : ∀ key ∈ rest, key.Reached := fun key member => reached key (by simp [member])
    have merges : Gives (old.merge new) KeyDraft.Reached := fun log =>
      oldReached.merged newReached log
    -- The first key of the name is merged, and the keys behind it stay.
    refine .ite (fun _ => ?_) fun _ => ?_
    · refine .bind merges fun merged known => ?_
      exact .pure (List.forall_mem_cons.mpr ⟨known, restReached⟩)
    · refine .bind (ih restReached) fun made known => ?_
      exact .pure (List.forall_mem_cons.mpr ⟨oldReached, known⟩)

theorem addKey_reached (keycodes : KeycodeTable) (reached : contents.Reached)
    (newReached : new.Reached) :
    Gives (contents.addKey keycodes new) Reached := by
  -- A key of the name may be there, under this name or one that it is an alias of.
  simp only [addKey]
  split
  · refine .bind (mergeNamed_reached _ newReached reached.keys) fun keys known => ?_
    exact .pure ⟨known, reached.base⟩
  · refine .pure ⟨fun key member => ?_, reached.base⟩
    rcases List.mem_append.mp member with old | last
    · exact reached.keys key old
    · rw [List.mem_singleton.mp last]
      exact newReached

theorem keptBySteps_reached (keycodes : KeycodeTable) :
    KeptBySteps keycodes (fun _ => True) Reached KeyDraft.Reached where
  base reached sets := (reached.base.set sets).mono fun _ known => ⟨reached.keys, known⟩
  others _ _ reached := ⟨reached.keys, reached.base⟩
  key reached sets := reached.set sets
  starts merge origin reached _ := reached.base.labelled merge origin _
  moves group map reached := fun log => reached.moved group map log
  addKey reached newReached := addKey_reached keycodes reached newReached
  addModifier entry reached := (addModifier_eq _ entry).mono fun made same => by
    rw [same]
    exact ⟨reached.keys, reached.base⟩

/-- Whatever is read, the keys are reached step by step. -/
theorem maintains_reached (supplied : Statement → Prop) :
    Maintains SymbolContents supplied Reached where
  empty := ⟨by simp [SectionContents.empty, empty], .base⟩
  forTerm _ _ _ := ⟨by simp [SectionContents.forTerm, empty], .base⟩
  builtin _ _ _ _ built := nomatch built
  handle scope header mode _ _ _ reached :=
    handle_kept (keptBySteps_reached scope.keycodes) scope.modifiers header mode
      (fun _ _ _ _ => trivial) reached
  absorb scope mode _ _ _ newReached oldReached :=
    .bind (absorb_kept (keptBySteps_reached scope.keycodes) mode
      (fun key member => (newReached.keys key member).inMode mode) oldReached)
      fun _ known => .pure known

end SymbolContents

end Xkb
