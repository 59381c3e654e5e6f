import Xkb.Proofs.Assembly
import Xkb.Proofs.ModifierCalls
import Xkb.Proofs.Section.Agreement
import Xkb.Proofs.Section.PlacedKeys

/-! Which tables of a keymap a section writes. -/

namespace Xkb

namespace VirtualModifiers

theorem declare_keepsNames (modifiers : VirtualModifiers) (name : String) (value : Option Expr)
    (merge : MergeMode) :
    Gives (modifiers.declare name value merge) fun outcome =>
      ∀ made, outcome = .ok made → KeepsNames modifiers made.1 := by
  refine (answer_answered modifiers (.declare name value merge)).mono fun outcome answered => ?_
  rintro made rfl
  exact answered.keeps

end VirtualModifiers

namespace IndicatorDraft

/-- Two keymaps that differ at most in the indicators and their names. -/
def SameButIndicators (before after : Keymap) : Prop :=
  after = { before with
    keycodes := { before.keycodes with indicatorNames := after.keycodes.indicatorNames }
    compat := { before.compat with indicators := after.compat.indicators } }

/-- Binding the maps of a section changes nothing but the indicators and their names. -/
theorem bindAllNamed_sameButIndicators (drafts : List IndicatorDraft) (keymap : Keymap) :
    Gives (bindAllNamed drafts keymap) fun made => SameButIndicators keymap made.1 := by
  refine .foldlM rfl fun made draft _ before => ?_
  -- A map changes the indicator of its name, and may take a free one.
  have bound : Gives (bindNamed made.1 draft) fun bound => SameButIndicators keymap bound.1 := by
    simp only [bindNamed]
    refine .ite (fun _ => .pure before) fun _ => ?_
    split
    · exact .after fun _ => .pure before
    · refine .pure ?_
      simp only [SameButIndicators, bindAt]
      rw [before]
  exact .bind bound fun _ known => .pure known

end IndicatorDraft

namespace Assembly

variable {γ : Type} [SectionContents γ]

theorem reading_modifiers (allowed : VirtualModifiers → Prop) (admits : Admits γ allowed)
    (assembly : Assembly) (mode : MergeMode) (part : Section)
    (starts : allowed assembly.keymap.modifiers) :
    allowed (reading γ assembly mode part).2.modifiers := by
  have same : Draft.Matched id Eq (Draft.empty : Draft γ) Draft.empty := ⟨rfl, rfl⟩
  -- The reading goes like itself, and that keeps the modifiers of the kind.
  have read := readSection_alike Lenient.refl admits (Uniform.refl γ assembly.keymap.keycodes)
    (Library.termCount part + assembly.library.reach + 1) mode part .main same
  exact (read assembly.workspace assembly.workspace ⟨rfl, starts, rfl, rfl⟩).2.allowed

theorem reading_modifiers_eq (declaresNone : SectionContents.declaresModifiers γ = false)
    (assembly : Assembly) (mode : MergeMode) (part : Section) :
    (reading γ assembly mode part).2.modifiers = assembly.keymap.modifiers :=
  reading_modifiers (· = assembly.keymap.modifiers)
    (fun declares => by simp [declaresNone] at declares) assembly mode part rfl

theorem reading_keepsNames (assembly : Assembly) (mode : MergeMode) (part : Section) :
    assembly.keymap.modifiers.KeepsNames (reading γ assembly mode part).2.modifiers := by
  refine reading_modifiers _ (fun _ modifiers name value merge kept => ?_) assembly mode part
    (.refl _)
  exact .mono (modifiers.declare_keepsNames name value merge)
    fun outcome declared made same => kept.trans (declared made same)

end Assembly

/-- Which tables of a keymap a section of a kind writes, besides the virtual modifiers. -/
def SectionKind.Writes (kind : SectionKind) (before after : Keymap) : Prop :=
  match kind with
  | .keycodes => after = { before with keycodes := after.keycodes }
  | .types => after = { before with types := after.types }
  | .compatibility =>
    after = { before with
      compat := after.compat
      keycodes := { before.keycodes with indicatorNames := after.keycodes.indicatorNames } }
  | .symbols => after = { before with symbols := after.symbols }
  | _ => after = before

namespace SectionKind.Writes

theorem refl (kind : SectionKind) (keymap : Keymap) : kind.Writes keymap keymap := by
  cases kind <;> rfl

variable {kind : SectionKind}

theorem modifiers_eq {before after : Keymap} (written : kind.Writes before after) :
    after.modifiers = before.modifiers := by
  -- Every kind says what the keymap is, with the modifiers of the one before.
  cases kind <;> exact (congrArg Keymap.modifiers written :)

theorem withModifiers {before after : Keymap} (written : kind.Writes before after) :
    kind.Writes { before with modifiers := after.modifiers } after := by
  rw [written.modifiers_eq]
  exact written

end SectionKind.Writes

namespace Assembly

variable {γ : Type} [SectionContents γ]

theorem declared_of_reading (assembly : Assembly) (mode : MergeMode) (part : Section)
    {modifiers : VirtualModifiers}
    (read : modifiers = (reading γ assembly mode part).2.modifiers) :
    (SectionContents.declaresModifiers γ = false →
        { assembly.keymap with modifiers } = assembly.keymap) ∧
      assembly.keymap.modifiers.KeepsNames modifiers := by
  subst read
  refine ⟨fun declaresNone => ?_, reading_keepsNames assembly mode part⟩
  rw [reading_modifiers_eq declaresNone]

/-- A section leaves the keymap as reading left it, and writes the tables of its kind if it has no
errors. -/
theorem applyPart_writes {apply : Applying γ} {kind : SectionKind}
    (applies : ∀ contents name keymap,
      Gives (apply contents name keymap) fun made => kind.Writes keymap made.1)
    (mode : MergeMode) (part : Section) (assembly : Assembly) :
    let (outcome, after) := applyPart mode part apply assembly
    let declared := { assembly.keymap with modifiers := after.keymap.modifiers }
    (outcome = none → after.keymap = declared) ∧ kind.Writes declared after.keymap ∧
      (SectionContents.declaresModifiers γ = false → declared = assembly.keymap) ∧
      assembly.keymap.modifiers.KeepsNames after.keymap.modifiers := by
  cases clean : (reading γ assembly mode part).1.isClean with
  | false =>
    rw [applyPart_of_errors apply clean]
    exact ⟨fun _ => rfl, .refl kind _, declared_of_reading assembly mode part rfl⟩
  | true =>
    rw [applyPart_of_clean apply clean]
    -- What is written is told from the keymap with the modifiers that reading left.
    have written := applies (reading γ assembly mode part).1.contents
      (reading γ assembly mode part).1.header.name
      (assembly.afterReading (reading γ assembly mode part).2).keymap
      (reading γ assembly mode part).2.diagnostics
    exact ⟨nofun, written.withModifiers,
      declared_of_reading assembly mode part written.modifiers_eq⟩

theorem addKeycodes_writes (contents : KeycodeContents) (name : Option String) (keymap : Keymap) :
    Gives (addKeycodes contents name keymap) fun made =>
      SectionKind.Writes .keycodes keymap made.1 :=
  .after fun _ => .pure rfl

theorem addTypes_writes (contents : TypeContents) (name : Option String) (keymap : Keymap) :
    Gives (addTypes contents name keymap) fun made => SectionKind.Writes .types keymap made.1 :=
  .pure rfl

/-- Interpretations are written to their own table, and indicators may get names. -/
theorem compatApply_writes (contents : CompatContents) (name : Option String) (keymap : Keymap) :
    Gives (contents.apply name keymap) fun made =>
      SectionKind.Writes .compatibility keymap made.1 := by
  refine .mono (IndicatorDraft.bindAllNamed_sameButIndicators _ _) fun made same => ?_
  simp only [SectionKind.Writes]
  rw [same]

/-- Symbols are written to their own table. -/
theorem addSymbols_writes (contents : SymbolContents) (name : Option String) (keymap : Keymap) :
    Gives (addSymbols contents name keymap) fun made =>
      SectionKind.Writes .symbols keymap made.1 := by
  refine .bind (contents.apply_remarked name keymap) fun made known => .pure ?_
  simp only [SectionKind.Writes]
  rcases known with ⟨-, rfl⟩ | ⟨keys, groupNames, rfl, -⟩
  · rfl
  · rfl

/-- A section writes the tables of its kind and no others, one that has errors writes none of them,
and the virtual modifiers keep their names. -/
theorem compilePart_writes_own_tables (mode : MergeMode) (part : Section) (assembly : Assembly) :
    let (outcome, after) := compilePart mode part assembly
    let declared := { assembly.keymap with modifiers := after.keymap.modifiers }
    (outcome = none → after.keymap = declared) ∧
      part.kind.Writes declared after.keymap ∧
      (part.kind = .keycodes → declared = assembly.keymap) ∧
      assembly.keymap.modifiers.KeepsNames after.keymap.modifiers := by
  simp only [compilePart]
  cases part.kind with
  | keycodes =>
    obtain ⟨failed, written, same, kept⟩ := applyPart_writes addKeycodes_writes mode part assembly
    exact ⟨failed, written, fun _ => same rfl, kept⟩
  | types =>
    obtain ⟨failed, written, -, kept⟩ := applyPart_writes addTypes_writes mode part assembly
    exact ⟨failed, written, by simp, kept⟩
  | compatibility =>
    obtain ⟨failed, written, -, kept⟩ := applyPart_writes compatApply_writes mode part assembly
    exact ⟨failed, written, by simp, kept⟩
  | symbols =>
    obtain ⟨failed, written, -, kept⟩ := applyPart_writes addSymbols_writes mode part assembly
    exact ⟨failed, written, by simp, kept⟩
  -- A section of any other kind is not compiled at all.
  | _ => exact ⟨fun _ => rfl, .refl _ _, by simp, .refl _⟩

end Assembly

end Xkb
