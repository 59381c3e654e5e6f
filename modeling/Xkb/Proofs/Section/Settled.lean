import Xkb.Proofs.Section.Agreement
import Xkb.Proofs.Section.KeyTypes

/-! What a section holds has been added piece by piece, so adding it once more, to a section without
contents, gives it back. -/

namespace Xkb

/-- Items that are added one after another, each apart from those before it, are all appended. -/
theorem foldlM_appends {σ α β : Type} {apart : α → α → Prop} (view : List α → β)
    {step : β → α → StateM σ β} {list : List α} (pairwise : list.Pairwise apart)
    (appends : ∀ done, ∀ item ∈ list, (∀ old ∈ done, apart old item) →
      step (view done) item = pure (view (done ++ [item]))) :
    list.foldlM step (view []) = pure (view list) := by
  -- The items that are done stay in front of those that are left.
  have onward (done rest : List α) (subset : rest ⊆ list) (known : (done ++ rest).Pairwise apart) :
      rest.foldlM step (view done) = pure (view (done ++ rest)) := by
    induction rest generalizing done with
    | nil => rw [List.append_nil]; rfl
    | cons item rest ih =>
      have before : ∀ old ∈ done, apart old item := fun old member =>
        (List.pairwise_append.mp known).2.2 old member item List.mem_cons_self
      obtain ⟨member, others⟩ := List.cons_subset.mp subset
      rw [List.foldlM_cons, appends done item member before]
      have onward := ih (done ++ [item]) others (by simpa using known)
      rwa [List.append_assoc] at onward
  exact onward [] list (List.Subset.refl list) pairwise

/-- A way to add an item to a list: it is merged with the first one of its key, else it is
appended. -/
structure Adds {α β : Type} [DecidableEq β] (key : α → β) (new : α) (merge : α → Report α)
    (add : List α → Report (List α)) : Prop where
  nil : add [] = pure [new]
  cons : ∀ old rest, add (old :: rest) =
    if key old = key new then do return (← merge old) :: rest else do return old :: (← add rest)
  merge : ∀ old, key old = key new → Gives (merge old) fun made => key made = key old

namespace Adds

variable {α β : Type} [DecidableEq β] {key : α → β} {new : α} {merge : α → Report α}
  {add : List α → Report (List α)} {list : List α}

/-- An item of a new key is appended. -/
theorem fresh (adds : Adds key new merge add) (fresh : ∀ old ∈ list, key old ≠ key new) :
    add list = pure (list ++ [new]) := by
  induction list with
  | nil => exact adds.nil
  | cons old rest ih =>
    rw [adds.cons, if_neg (fresh old (by simp)), ih fun old member => fresh old (by simp [member])]
    rfl

/-- An item of a known key is merged with the first one of that key, and the others stay. -/
theorem known (adds : Adds key new merge add) {before after : List α} {old : α}
    (others : ∀ item ∈ before, key item ≠ key new) (same : key old = key new) :
    add (before ++ old :: after) = do return before ++ (← merge old) :: after := by
  induction before with
  | nil =>
    rw [List.nil_append, adds.cons, if_pos same]
    rfl
  | cons item rest ih =>
    rw [List.cons_append, adds.cons, if_neg (others item (by simp)),
      ih fun other member => others other (by simp [member])]
    rfl

/-- The keys are the same afterwards, or there is one more. -/
theorem keys (adds : Adds key new merge add) (list : List α) :
    Gives (add list) fun made => made.map key =
      if key new ∈ list.map key then list.map key else list.map key ++ [key new] := by
  induction list with
  | nil =>
    rw [adds.nil]
    exact .pure rfl
  | cons old rest ih =>
    rw [adds.cons]
    refine .ite (fun same => ?_) fun other => ?_
    · refine .bind (adds.merge old same) fun made known => .pure ?_
      rw [if_pos (by simp [same]), List.map_cons, List.map_cons, known]
    · refine .bind ih fun made known => .pure ?_
      have sameMember : key new ∈ (old :: rest).map key ↔ key new ∈ rest.map key := by
        rw [List.map_cons, List.mem_cons, or_iff_right fun same => other same.symm]
      by_cases held : key new ∈ rest.map key
      · rw [if_pos (sameMember.mpr held), List.map_cons, known, if_pos held, List.map_cons]
      · rw [if_neg fun member => held (sameMember.mp member), List.map_cons, known, if_neg held,
          List.map_cons, List.cons_append]

/-- Different keys stay different. -/
theorem nodup (adds : Adds key new merge add) (distinct : (list.map key).Nodup) :
    Gives (add list) fun made => (made.map key).Nodup := by
  refine (adds.keys list).mono fun made known => ?_
  rw [known]
  split
  · exact distinct
  · rename_i absent
    rw [← List.map_singleton, ← List.map_append]
    exact nodup_map_concat distinct absent

/-- Items of different keys that are added one after another where there is none are all appended,
also where each of them is changed before. -/
theorem foldlM_none {γ : Type} {merge : α → α → Report α} {add : α → List α → Report (List α)}
    (adds : ∀ new, Adds key new (merge new) (add new)) (view : List α → γ) {step : γ → α → Report γ}
    (change : α → α)
    (steps : ∀ done item, step (view done) item = do return view (← add (change item) done))
    (sameKey : ∀ item, key (change item) = key item) (distinct : (list.map key).Nodup) :
    list.foldlM step (view []) = pure (view (list.map change)) := by
  refine foldlM_appends (fun done => view (done.map change)) (List.pairwise_map.mp distinct) ?_
  intro done item _ fresh
  have apart : ∀ old ∈ done.map change, key old ≠ key (change item) := by
    simpa [sameKey] using fresh
  rw [steps, (adds (change item)).fresh apart, List.map_append]
  rfl

end Adds

/-- What reading keeps of contents, given the keys: every way to come to other contents keeps it. -/
structure Keeps (γ : Type) [SectionContents γ] (keycodes : KeycodeTable) (holds : γ → Prop) :
    Prop where
  empty : holds SectionContents.empty
  forTerm : ∀ term parent, holds parent → holds (SectionContents.forTerm term parent)
  builtin : ∀ term contents made, holds contents →
    SectionContents.builtin term contents = some made → holds made
  handle : ∀ modifiers header mode statement contents, holds contents →
    Gives (SectionContents.handle ⟨modifiers, keycodes⟩ header mode statement contents)
      fun made => holds made.1
  absorb : ∀ modifiers mode header new old, holds new → holds old →
    Gives (SectionContents.absorb ⟨modifiers, keycodes⟩ mode header new old)
      fun made => holds made.1

section Sections

variable {γ : Type} [SectionContents γ] {keycodes : KeycodeTable} {holds : γ → Prop}

/-- What is kept whatever the statements and the keys. -/
theorem Maintains.keeps (maintains : Maintains γ (fun _ => True) holds) :
    Keeps γ keycodes holds where
  empty := maintains.empty
  forTerm := maintains.forTerm
  builtin := maintains.builtin
  handle _ header mode statement contents := maintains.handle _ header mode statement contents trivial
  absorb _ mode header := maintains.absorb _ mode header

/-- Contents that belong together and stay so, with what is kept of the second ones. -/
theorem Uniform.keeping {reports : Diagnostics → Diagnostics → Prop} {moved : Origin → Origin}
    {contents : γ → γ → Prop} (uniform : Uniform γ keycodes reports moved contents)
    (keeps : Keeps γ keycodes holds) :
    Uniform γ keycodes reports moved fun left right => contents left right ∧ holds right where
  initial := uniform.initial
  included := uniform.included
  empty := ⟨uniform.empty, keeps.empty⟩
  forTerm term left right known :=
    ⟨uniform.forTerm term left right known.1, keeps.forTerm term right known.2⟩
  builtin := by
    intro term left right known
    have built := uniform.builtin term left right known.1
    have kept := keeps.builtin term right
    generalize SectionContents.builtin term left = found at built ⊢
    generalize SectionContents.builtin term right = otherFound at built kept ⊢
    cases built with
    | none => exact .none
    | some same => exact .some ⟨same, kept _ known.2 rfl⟩
  handle := by
    intro statement modifiers header mode left right known
    have handled := (uniform.handle statement modifiers header mode left right known.1).otherGives
      (keeps.handle modifiers (header.move moved) mode statement right known.2)
    exact .mono handled fun made other same => ⟨⟨same.1.1, same.2⟩, same.1.2⟩
  absorb := by
    intro modifiers mode header new otherNew old otherOld knownNew knownOld
    have absorbed := (uniform.absorb modifiers mode header new otherNew old otherOld knownNew.1
      knownOld.1).otherGives
        (keeps.absorb modifiers mode (header.move moved) otherNew otherOld knownNew.2 knownOld.2)
    exact .mono absorbed fun made other same => ⟨⟨same.1.1, same.2⟩, same.1.2⟩

end Sections

namespace TypeDraft

/-- The type with another definition. -/
def relabel (change : Definition → Definition) (draft : TypeDraft) : TypeDraft :=
  { draft with definition := change draft.definition }

end TypeDraft

namespace TypeContents

variable {contents : TypeContents}

theorem addType_fresh {new : TypeDraft}
    (canonical : ∀ levels, canonicalLevels new.name = some levels → new.levels = levels)
    (fresh : ∀ old ∈ contents.types, old.name ≠ new.name) :
    contents.addType new = pure ({ contents with types := contents.types ++ [new] }, true) := by
  have allowed : (canonicalLevels new.name).filter (· < new.levels) = none := by
    cases levels : canonicalLevels new.name with
    | none => rfl
    | some count => simp [canonical count levels]
  have widened : (canonicalLevels new.name).getD new.levels = new.levels := by
    cases levels : canonicalLevels new.name with
    | none => rfl
    | some count => exact (canonical count levels).symm
  have absent : contents.types.find? (·.name == new.name) = none := by
    simpa using fresh
  simp only [addType, allowed, widened, absent]

/-- What becomes of a section that is added to one without contents in a mode. -/
def readded (mode : MergeMode) (contents : TypeContents) : TypeContents :=
  { empty with types := contents.types.map (TypeDraft.relabel (Definition.inMode mode)) }

/-- The types of a section that are added to one without types are the same ones, in the mode of
the include. -/
theorem absorb_empty {supplied : Statement → Prop} (sound : contents.Sound supplied)
    (mode : MergeMode) :
    absorb mode contents empty = pure (contents.readded mode, 0) := by
  have distinct : contents.types.Pairwise fun old new => old.name ≠ new.name :=
    List.pairwise_map.mp sound.distinct
  refine foldlM_appends (fun done => (readded mode { contents with types := done }, 0)) distinct ?_
  intro done draft member fresh
  -- Another mode changes neither the name nor the levels.
  have added : addType (readded mode { contents with types := done })
      (draft.relabel (Definition.inMode mode)) =
        pure (readded mode { contents with types := done ++ [draft] }, true) := by
    rw [readded, readded, List.map_append]
    refine addType_fresh (sound.canonical draft member) ?_
    simpa [TypeDraft.relabel] using fresh
  simp only [TypeDraft.relabel] at added
  simp only [added]
  rfl

end TypeContents

end Xkb
