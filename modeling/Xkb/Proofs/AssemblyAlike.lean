import Xkb.Proofs.Assembly
import Xkb.Proofs.Section.Agreement

/-! Two keymaps in the making stay the same where the sections that they are made of are read
alike. -/

namespace Xkb

namespace Assembly

/-- Two assemblies of the same keymap, whose reports and libraries belong together. -/
structure Matched (reports : Diagnostics → Diagnostics → Prop)
    (libraries : Library → Library → Prop) (left right : Assembly) : Prop where
  keymap : left.keymap = right.keymap
  reports : reports left.diagnostics right.diagnostics
  libraries : libraries left.library right.library

variable {reports : Diagnostics → Diagnostics → Prop} {libraries : Library → Library → Prop}

/-- Two readings come to the same draft, and leave the same modifiers. -/
def ReadAlike (γ : Type) [SectionContents γ] (reports : Diagnostics → Diagnostics → Prop)
    (libraries : Library → Library → Prop) (mode : MergeMode) (part : Section) : Prop :=
  ∀ left right, Matched reports libraries left right →
    (reading γ left mode part).1 = (reading γ right mode part).1 ∧
      Workspace.Matched reports (fun _ => True) libraries (reading γ left mode part).2
        (reading γ right mode part).2

/-- Reporting leaves the rest of the assemblies alone. -/
theorem report_alike {α : Type} {left right : Report α} (known : Alike reports left right Eq) :
    Alike (Matched reports libraries) (report left) (report right) Eq := by
  intro first second begins
  obtain ⟨same, ends⟩ := known _ _ begins.reports
  exact ⟨same, begins.keymap, ends, begins.libraries⟩

/-- A section that is read alike is compiled alike if what it holds is applied alike. -/
theorem applyPart_alike {γ : Type} [SectionContents γ] {mode : MergeMode} {part : Section}
    (read : ReadAlike γ reports libraries mode part) {apply : Applying γ}
    (applies : ∀ contents name keymap,
      Alike reports (apply contents name keymap) (apply contents name keymap) Eq) :
    Alike (Matched reports libraries) (applyPart mode part apply) (applyPart mode part apply)
      Eq := by
  intro left right begins
  obtain ⟨sameDraft, sameWorkspace⟩ := read left right begins
  have sameKeymap : (left.afterReading (reading γ left mode part).2).keymap =
      (right.afterReading (reading γ right mode part).2).keymap := by
    simp only [afterReading, begins.keymap, sameWorkspace.modifiers]
  cases clean : (reading γ left mode part).1.isClean with
  | false =>
    -- Errors leave what reading made of the modifiers, and that is the same.
    rw [applyPart_of_errors apply clean, applyPart_of_errors apply (sameDraft ▸ clean)]
    exact ⟨rfl, sameKeymap, sameWorkspace.reports, sameWorkspace.libraries⟩
  | true =>
    rw [applyPart_of_clean apply clean, applyPart_of_clean apply (sameDraft ▸ clean)]
    -- Both sides apply the same contents to the same keymap.
    dsimp only
    rw [← sameDraft, ← sameKeymap]
    obtain ⟨same, ends⟩ := applies (reading γ left mode part).1.contents
      (reading γ left mode part).1.header.name
      (left.afterReading (reading γ left mode part).2).keymap _ _ sameWorkspace.reports
    have sameUnbound := congrArg (fun made : Keymap × List IndicatorDraft => some made.2) same
    exact ⟨sameUnbound, congrArg Prod.fst same, ends, sameWorkspace.libraries⟩

/-- Indicator maps that are left over are bound alike. -/
theorem bindLeftover_alike
    (binds : ∀ unbound keymap, Alike reports (IndicatorDraft.bindAllFree unbound keymap)
      (IndicatorDraft.bindAllFree unbound keymap) Eq)
    (unbound : List IndicatorDraft) :
    Alike (Matched reports libraries) (bindLeftover unbound) (bindLeftover unbound) Eq := by
  intro left right begins
  obtain ⟨same, ends⟩ := binds unbound left.keymap _ _ begins.reports
  have sameKeymap := begins.keymap
  obtain ⟨keymap, diagnostics, library⟩ := left
  obtain ⟨_, otherDiagnostics, otherLibrary⟩ := right
  cases sameKeymap
  exact ⟨rfl, same, ends, begins.libraries⟩

end Assembly

end Xkb
