import Xkb.Assembly
import Xkb.Proofs.Section.Reading

/-! What compiling a section comes down to: reading it, and applying what it holds if it is free of
errors. -/

namespace Xkb

namespace Assembly

/-- How what was read of a section is added to a keymap. -/
abbrev Applying (γ : Type) : Type :=
  γ → Option String → Keymap → Report (Keymap × List IndicatorDraft)

variable {γ : Type} [SectionContents γ] {assembly : Assembly} {mode : MergeMode} {part : Section}

/-- What a section is read with. -/
def workspace (assembly : Assembly) : Workspace :=
  ⟨assembly.keymap.modifiers, assembly.diagnostics, assembly.library⟩

/-- The assembly after a section was read. -/
def afterReading (assembly : Assembly) (workspace : Workspace) : Assembly :=
  ⟨{ assembly.keymap with modifiers := workspace.modifiers }, workspace.diagnostics,
    workspace.library⟩

/-- The draft that a section is read to, and the workspace after that. -/
def reading (γ : Type) [SectionContents γ] (assembly : Assembly) (mode : MergeMode)
    (part : Section) : Draft γ × Workspace :=
  let read : Reading (Draft γ) := readMain assembly.keymap.keycodes mode part
  read assembly.workspace

/-- Reading a section changes nothing but the modifiers, the diagnostics and the library. -/
theorem readPart_eq (assembly : Assembly) (mode : MergeMode) (part : Section) :
    readPart mode part assembly =
      ((reading γ assembly mode part).1,
        assembly.afterReading (reading γ assembly mode part).2) :=
  rfl

/-- The statements that a section leads to: its own and those of the sections that its library
holds for a kind. -/
def Supplies (assembly : Assembly) (kind : SectionKind) (part : Section)
    (statement : Statement) : Prop :=
  statement ∈ part.statements ∨ ∃ file sections included,
    assembly.library.Holds kind file sections ∧ included ∈ sections ∧
      statement ∈ included.statements

variable {holds : γ → Prop}

/-- The draft of a section keeps what the statements keep that the section leads to in certain
texts, and the library still offers these texts afterwards. -/
theorem reading_keeps {texts : Library} (extended : texts.Extends assembly.library)
    {supplied : Statement → Prop} (maintains : Maintains γ supplied holds)
    (known : ∀ statement, texts.Contributes (SectionContents.kind γ) part statement →
      supplied statement) (mode : MergeMode) :
    holds (reading γ assembly mode part).1.contents ∧
      texts.Extends (reading γ assembly mode part).2.library := by
  have read := readSection_keeps maintains texts assembly.keymap.keycodes
    (Library.termCount part + assembly.library.reach + 1) mode known .main
    Draft.empty maintains.empty assembly.library.stack
  have start : AtStack texts assembly.library.stack assembly.workspace := ⟨extended, rfl⟩
  obtain ⟨made, ends⟩ := read _ _ start.both
  exact ⟨made.contents.2, ends.libraries.2.1⟩

/-- The draft of a section keeps what its statements and those of the library keep. -/
theorem reading_holds
    (maintains : Maintains γ (assembly.Supplies (SectionContents.kind γ) part) holds)
    (mode : MergeMode) :
    holds (reading γ assembly mode part).1.contents := by
  refine (reading_keeps (Library.Extends.refl _) maintains (fun statement leads => ?_) mode).1
  exact leads.elim (fun _ own => .inl own) fun file sections included held member statement known =>
    .inr ⟨file, sections, included, held, member, known⟩

/-- A section with errors is read and not applied. -/
theorem applyPart_of_errors (apply : Applying γ)
    (errors : (reading γ assembly mode part).1.isClean = false) :
    applyPart mode part apply assembly =
      (none, assembly.afterReading (reading γ assembly mode part).2) := by
  simp only [applyPart, bind, StateT.bind, readPart_eq, errors]
  rfl

/-- A section without errors is read and then applied. -/
theorem applyPart_of_clean (apply : Applying γ)
    (clean : (reading γ assembly mode part).1.isClean = true) :
    applyPart mode part apply assembly =
      let (draft, workspace) := reading γ assembly mode part
      let ((keymap, unbound), diagnostics) :=
        apply draft.contents draft.header.name (assembly.afterReading workspace).keymap
          workspace.diagnostics
      (some unbound, ⟨keymap, diagnostics, workspace.library⟩) := by
  simp only [applyPart, bind, StateT.bind, readPart_eq, clean]
  rfl

variable {apply : Applying γ}

/-- Compiling a section ends with what reading leaves if there are errors, and else with what
applying leaves of that, with the library as it is after reading. -/
theorem applyPart_ends {before : Assembly → Prop}
    {ends : Option (List IndicatorDraft) → Assembly → Prop}
    (errors : ∀ assembly, before assembly →
      ends none (assembly.afterReading (reading γ assembly mode part).2))
    (applied : ∀ assembly, before assembly →
      Gives (apply (reading γ assembly mode part).1.contents
        (reading γ assembly mode part).1.header.name
        (assembly.afterReading (reading γ assembly mode part).2).keymap) fun made =>
          ∀ diagnostics, ends (some made.2)
            ⟨made.1, diagnostics, (reading γ assembly mode part).2.library⟩) :
    Leads before (applyPart mode part apply) ends := by
  intro assembly begins
  cases clean : (reading γ assembly mode part).1.isClean with
  | false =>
    rw [applyPart_of_errors apply clean]
    exact errors assembly begins
  | true =>
    rw [applyPart_of_clean apply clean]
    exact applied assembly begins _ _

/-- A section that is compiled has no errors. -/
theorem clean_of_applyPart (succeeds : (applyPart mode part apply assembly).1.isSome) :
    (reading γ assembly mode part).1.isClean = true := by
  refine Bool.not_eq_false _ ▸ fun errors => ?_
  rw [applyPart_of_errors apply errors] at succeeds
  cases succeeds

theorem compilePart_keycodes (kind : part.kind = .keycodes) :
    compilePart mode part = applyPart mode part addKeycodes := by
  simp only [compilePart, kind]

theorem compilePart_types (kind : part.kind = .types) :
    compilePart mode part = applyPart mode part addTypes := by
  simp only [compilePart, kind]

theorem compilePart_compatibility (kind : part.kind = .compatibility) :
    compilePart mode part = applyPart mode part CompatContents.apply := by
  simp only [compilePart, kind]

theorem compilePart_symbols (kind : part.kind = .symbols) :
    compilePart mode part = applyPart mode part addSymbols := by
  simp only [compilePart, kind]

/-- A section that is applied leaves what applying what was read leaves, with the library as it is
after reading. -/
theorem applyPart_leads {before after : Assembly → Prop} (mode : MergeMode) (part : Section)
    (gives : ∀ assembly, before assembly →
      Gives (apply (reading γ assembly mode part).1.contents
        (reading γ assembly mode part).1.header.name
        (assembly.afterReading (reading γ assembly mode part).2).keymap)
        fun made => ∀ diagnostics, after ⟨made.1, diagnostics, (reading γ assembly mode part).2.library⟩) :
    Leads before (applyPart mode part apply) fun outcome assembly =>
      outcome.isSome → after assembly :=
  applyPart_ends (fun _ _ failed => by cases failed) fun assembly begins =>
    (gives assembly begins).mono fun _ reached diagnostics _ => reached diagnostics

/-- A section, if it is compiled, turns keymaps of one kind into keymaps of another. -/
def Turns (before after : Keymap → Prop) (compile : Assembling (Option (List IndicatorDraft))) :
    Prop :=
  Leads (fun assembly => before assembly.keymap) compile fun outcome assembly =>
    outcome.isSome → after assembly.keymap

/-- A section that is applied leaves a keymap as applying what was read leaves it. -/
theorem applyPart_turns {before after : Keymap → Prop} (mode : MergeMode) (part : Section)
    (gives : ∀ assembly, before assembly.keymap →
      Gives (apply (reading γ assembly mode part).1.contents
        (reading γ assembly mode part).1.header.name
        (assembly.afterReading (reading γ assembly mode part).2).keymap) fun made => after made.1) :
    Turns before after (applyPart mode part apply) :=
  applyPart_leads mode part fun assembly begins =>
    (gives assembly begins).mono fun _ reached _ => reached

end Assembly

end Xkb
