import Xkb.Proofs.Section.KeysSettled

/-! The keys of a symbols section have different names, and these are names that its statements give
them. -/

namespace Xkb

namespace SymbolContents

/-- The keys have different names, and none but certain ones. -/
structure NamedBy (allowed : KeyName → Prop) (contents : SymbolContents) : Prop where
  each : ∀ name ∈ contents.keys.map KeyDraft.name, allowed name
  distinct : (contents.keys.map KeyDraft.name).Nodup

variable {allowed : KeyName → Prop} {contents : SymbolContents}

theorem addKey_namedBy (keycodes : KeycodeTable) (named : contents.NamedBy allowed)
    {new : KeyDraft} (newNamed : allowed new.name) :
    Gives (contents.addKey keycodes new) (NamedBy allowed) := by
  refine (addKey_names keycodes contents new).mono fun made known => ?_
  obtain ⟨added, -⟩ := known
  obtain ⟨each, distinct⟩ := named
  suffices kept : (∀ name ∈ made.keys.map KeyDraft.name, allowed name) ∧
      (made.keys.map KeyDraft.name).Nodup from ⟨kept.1, kept.2⟩
  generalize made.keys.map KeyDraft.name = names at added ⊢
  cases added with
  | merged _ => exact ⟨each, distinct⟩
  | replaced _ _ fresh _ =>
    refine ⟨fun name member => ?_, pairwise_changeFirst distinct fun old member => ?_⟩
    · rcases mem_changeFirst member with old | ⟨_, _, _, rfl⟩
      · exact each name old
      · exact newNamed
    · have differs : old ≠ new.name := fun same => fresh (same ▸ member)
      exact ⟨differs, differs.symm⟩
  | appended fresh =>
    refine ⟨fun name member => ?_, ?_⟩
    · rcases List.mem_append.mp member with old | last
      · exact each name old
      · rw [List.mem_singleton.mp last]
        exact newNamed
    · refine List.pairwise_append.mpr ⟨distinct, List.pairwise_singleton _ _, ?_⟩
      intro old member last same
      cases List.mem_singleton.mp same
      exact (fresh old member).1

theorem keptBySteps_namedBy (keycodes : KeycodeTable) (allowed : KeyName → Prop) :
    KeptBySteps keycodes allowed (NamedBy allowed) fun key => allowed key.name where
  base named _ _ := ⟨named.each, named.distinct⟩
  others _ _ named := ⟨named.each, named.distinct⟩
  key named sets := sets.sets.mono fun _ assigned => assigned.same.1 ▸ named
  starts _ _ _ named := named
  moves group map named := (KeyDraft.moveGroup_same _ group map).mono fun _ same => same.1 ▸ named
  addKey named newNamed := addKey_namedBy keycodes named newNamed
  addModifier entry named := (addModifier_eq _ entry).mono fun made same => by
    rw [same]
    exact ⟨named.each, named.distinct⟩

/-- Adding what another section holds brings the names of its keys at most. -/
theorem absorb_namedBy (keycodes : KeycodeTable) (mode : MergeMode) {new old : SymbolContents}
    (newNamed : new.NamedBy allowed) (oldNamed : old.NamedBy allowed) :
    Gives (absorb keycodes mode new old) (NamedBy allowed) :=
  absorb_kept (keptBySteps_namedBy keycodes allowed) mode
    (fun key member => newNamed.each key.name (List.mem_map_of_mem member)) oldNamed

/-- Whatever is read, the keys have different names that statements give. -/
theorem maintains_namedBy {supplied : Statement → Prop}
    (given : ∀ merge name body, supplied (.keySymbols merge name body) → allowed name) :
    Maintains SymbolContents supplied (NamedBy allowed) where
  empty := ⟨fun _ member => absurd member List.not_mem_nil, List.nodup_nil⟩
  forTerm _ _ _ := ⟨fun _ member => absurd member List.not_mem_nil, List.nodup_nil⟩
  builtin _ _ _ _ built := nomatch built
  handle scope header mode _ _ known named :=
    handle_kept (keptBySteps_namedBy scope.keycodes allowed) scope.modifiers header mode
      (fun merge name body same => given merge name body (same ▸ known)) named
  absorb scope mode _ _ _ newNamed oldNamed :=
    .bind (absorb_namedBy scope.keycodes mode newNamed oldNamed) fun _ known =>
      .pure known

end SymbolContents

end Xkb
