import Xkb.Proofs.AssemblyAlike
import Xkb.Proofs.Section.CompatAlike
import Xkb.Proofs.Section.PlacementAlike
import Xkb.Proofs.Tables

/-! The warning level does not change what symbols and compatibility sections are compiled to. -/

namespace Xkb

variable {levels : Nat → Nat → Prop}

theorem CompatContents.move_id (contents : CompatContents) : contents.move id = contents := by
  have sameInterpretations : contents.interpretations.map (InterpretationDraft.move id) =
    contents.interpretations := List.map_id _
  have sameIndicators : contents.indicators.map (IndicatorDraft.move id) = contents.indicators :=
    List.map_id _
  have sameMasks : contents.groupMasks.map (GroupMask.move id) = contents.groupMasks :=
    Vector.map_id _
  simp only [move, sameInterpretations, sameIndicators, sameMasks]
  rfl

namespace Assembly

theorem readAlike_levels {γ : Type} [SectionContents γ]
    (uniform : ∀ keycodes, Uniform γ keycodes (AtLevels levels) id Eq) (mode : MergeMode)
    (part : Section) : ReadAlike γ (AtLevels levels) Eq mode part := by
  rintro ⟨keymap, diagnostics, library⟩ ⟨_, otherDiagnostics, _⟩ ⟨rfl, levels, rfl⟩
  have same : Draft.Matched id Eq (Draft.empty : Draft γ) Draft.empty := ⟨rfl, rfl⟩
  -- The library is the same, so both readings are given the same depth.
  have read := readSection_alike (Lenient.atLevels _) (Admits.anything γ) (uniform keymap.keycodes)
    (Library.termCount part + library.reach + 1) mode part .main same
  obtain ⟨sameDraft, sameWorkspace⟩ := read ⟨keymap.modifiers, diagnostics, library⟩
    ⟨keymap.modifiers, otherDiagnostics, library⟩ ⟨rfl, True.intro, levels, rfl⟩
  exact ⟨sameDraft.eq, sameWorkspace⟩

/-- Symbols are added alike at every level. -/
theorem addSymbols_alike (contents : SymbolContents) (name : Option String) (keymap : Keymap) :
    Alike (AtLevels levels) (addSymbols contents name keymap) (addSymbols contents name keymap)
      Eq := by
  -- Changing nothing is a case of what is known of changed definitions.
  have sameContents : contents.relabel id id = contents := by
    have sameKeys : contents.keys.map (KeyDraft.relabel id) = contents.keys := List.map_id _
    have sameMap : contents.modifierMap.map (fun entry => { entry with merge := id entry.merge }) =
      contents.modifierMap := List.map_id _
    simp only [SymbolContents.relabel, sameKeys, sameMap]
  have applied : Alike (AtLevels levels) (contents.apply name keymap)
      ((contents.relabel id id).apply name keymap) _ :=
    SymbolContents.apply_alike (fun _ => rfl) id contents name name keymap
  rw [sameContents] at applied
  refine .bind applied ?_
  rintro made _ (rfl | ⟨rfl, rfl⟩)
  · exact .pure rfl
  · exact .pure rfl

theorem compatApply_alike (contents : CompatContents) (name : Option String) (keymap : Keymap) :
    Alike (AtLevels levels) (contents.apply name keymap) (contents.apply name keymap) Eq := by
  refine .mono (CompatContents.apply_alike rfl (IndicatorDraft.map_relabel_id _).symm name name
    keymap).alike ?_
  rintro made _ ⟨rfl, rfl, sameMasks⟩
  rw [← sameMasks, IndicatorDraft.map_relabel_id]
  rfl

theorem symbols_alike (mode : MergeMode) (part : Section) :
    Alike (Matched (AtLevels levels) Eq) (applyPart mode part addSymbols)
      (applyPart mode part addSymbols) Eq :=
  applyPart_alike (readAlike_levels SymbolContents.uniform_same mode part) addSymbols_alike

theorem compatibility_alike (mode : MergeMode) (part : Section) :
    Alike (Matched (AtLevels levels) Eq) (applyPart mode part CompatContents.apply)
      (applyPart mode part CompatContents.apply) Eq := by
  refine applyPart_alike (readAlike_levels (fun keycodes => ?_) mode part) compatApply_alike
  have uniform : Uniform CompatContents keycodes (AtLevels levels) id
      fun left right => right = left.move id :=
    CompatContents.uniform keycodes rfl fun _ _ => rfl
  simpa only [CompatContents.move_id, eq_comm] using uniform

/-- Symbols and compatibility sections come to the same result, keymap and library at any two
warning levels and after any reports, and so does binding the indicator maps that are left over. -/
theorem compilePart_at_any_level (mode : MergeMode) (part : Section)
    (kind : part.kind = .symbols ∨ part.kind = .compatibility) (keymap : Keymap)
    (library : Library) (diagnostics other : Diagnostics) :
    let first := compilePart mode part ⟨keymap, diagnostics, library⟩
    let second := compilePart mode part ⟨keymap, other, library⟩
    first.1 = second.1 ∧ first.2.keymap = second.2.keymap ∧ first.2.library = second.2.library ∧
      ∀ unbound, (bindLeftover unbound first.2).2.keymap = (bindLeftover unbound second.2).2.keymap ∧
        (bindLeftover unbound first.2).2.library = (bindLeftover unbound second.2).2.library := by
  -- Any two levels belong together.
  have compiled : Alike (Matched (AtLevels fun _ _ => True) Eq) (compilePart mode part)
      (compilePart mode part) Eq := by
    rcases kind with kind | kind
    · simp only [compilePart, kind]
      exact symbols_alike mode part
    · simp only [compilePart, kind]
      exact compatibility_alike mode part
  obtain ⟨same, ends⟩ := compiled ⟨keymap, diagnostics, library⟩ ⟨keymap, other, library⟩
    ⟨rfl, True.intro, rfl⟩
  refine ⟨same, ends.keymap, ends.libraries, fun unbound => ?_⟩
  -- The maps are bound to the same keymap, after whatever was reported.
  obtain ⟨-, bound⟩ := bindLeftover_alike (fun _ _ => (IndicatorDraft.bindAllFree_alike _ _).alike) unbound _ _ ends
  exact ⟨bound.keymap, bound.libraries⟩

/-- A section that defines one group mask twice is reported on at a high level only, and comes to
the same all the same. -/
theorem compilePart_at_any_level_redefined :
    let part : Section := ⟨.compatibility, "masks", 0,
      [.groupMask .unspecified 1 (.ident "Shift"), .groupMask .unspecified 1 (.ident "Lock"),
        .indicatorMap .unspecified "Caps Lock" []], []⟩
    let quiet := compilePart .override part ⟨.empty, .atLevel 0, .empty⟩
    let loud := compilePart .override part ⟨.empty, .atLevel 10, .empty⟩
    (part.kind = .symbols ∨ part.kind = .compatibility) ∧
      quiet.2.diagnostics.records.length = 0 ∧ loud.2.diagnostics.records.length = 2 ∧
      quiet.1 = loud.1 ∧ quiet.2.keymap = loud.2.keymap ∧ quiet.2.library = loud.2.library ∧
      ∀ unbound, (bindLeftover unbound quiet.2).2.keymap = (bindLeftover unbound loud.2).2.keymap ∧
        (bindLeftover unbound quiet.2).2.library = (bindLeftover unbound loud.2).2.library := by
  refine ⟨.inr rfl, by decide, by decide, ?_⟩
  exact compilePart_at_any_level .override _ (.inr rfl) .empty .empty (.atLevel 0) (.atLevel 10)

end Assembly

end Xkb
