import Xkb.Proofs.Compiler
import Xkb.Proofs.Section.CompatAlike
import Xkb.Proofs.Section.KeycodeAnswers
import Xkb.Proofs.Section.PlacementAlike
import Xkb.Proofs.Section.ReadingAnswers
import Xkb.Proofs.Section.TypesAlike
import Xkb.Proofs.Targets

/-! A section that cannot be compiled leaves a warning or an error on record, but for two forms of
statements that symbols pass over without a word at the lowest level. -/

namespace Xkb

section Sections

variable {level : Nat}

theorem KeycodeContents.audible : Audible KeycodeContents level fun _ => True where
  handle _ header mode statement contents _ := contents.handle_answers header mode statement
  absorb _ mode header new old :=
    .after (absorb_goes mode header new old) fun _ => .pure (by simp)

theorem TypeContents.audible : Audible TypeContents level fun _ => True where
  handle scope header mode statement contents _ :=
    (handle_alike (fun _ _ known => known.1.trans known.2.symm) scope.modifiers header mode statement
      contents : HandledAlike _ id _ _).answers
  absorb _ mode _ new old := (@absorb_alike _ id mode new old).answers

theorem CompatContents.audible : Audible CompatContents level fun _ => True where
  handle scope header mode statement contents _ :=
    (handle_alike scope header mode statement contents : HandledAlike _ id _ _).answers
  absorb _ mode _ new old :=
    .after (absorb_alike mode new old : MadeAlike _ id _ _).answers fun _ =>
      .pure (by simp)

theorem SymbolContents.audible :
    Audible SymbolContents level fun statement => 0 < level ∨ statement.isMute = false where
  handle scope header mode statement contents heard := by
    refine (handle_alike scope header mode statement contents :
      HandledAlike _ id _ _ _ _).answers.mono fun _ wrong => ⟨wrong, heard.symm.imp_right ?_⟩
    exact fun loud _ _ known => known.1 ▸ loud
  absorb scope mode _ new old :=
    .after (absorb_alike scope.keycodes mode new old : MadeAlike _ id _ _ _).answers fun _ =>
      .pure (by simp)

end Sections

/-- A section could not be compiled. -/
def SectionFailed {α : Type} (outcome : Except CompileError α) : Prop :=
  ∃ kind name, outcome = .error (.failed kind name)

instance {α : Type} : (outcome : Except CompileError α) → Decidable (SectionFailed outcome)
  | .error (.failed kind name) => .isTrue ⟨kind, name, rfl⟩
  | .ok _ | .error (.unreadable ..) | .error (.unparsable _) | .error (.noSuchMap _)
  | .error .empty | .error (.notComposite _) | .error (.missing ..) => .isFalse nofun

theorem SectionFailed.of_map {α β : Type} {outcome : Except CompileError α} {change : α → β}
    (failed : SectionFailed (outcome.map change)) : SectionFailed outcome := by
  obtain ⟨kind, name, same⟩ := failed
  cases outcome with
  | error error => exact ⟨kind, name, congrArg Except.error (Except.error.inj same)⟩
  | ok value => nomatch same

/-- At a level, nothing of a section is passed over without a word: the level is not the lowest
one, or neither the section, if it holds symbols, nor any that the texts hold has a statement of
that sort. -/
def Section.IsHeard (texts : Library) (level : Nat) (part : Section) : Prop :=
  0 < level ∨ (part.kind = .symbols → ∀ statement,
    (Assembly.start level texts).Supplies .symbols part statement → statement.isMute = false)

namespace Assembly

/-- The assemblies whose library offers certain texts, at a level. -/
def Steady (texts : Library) (level : Nat) (assembly : Assembly) : Prop :=
  texts.Extends assembly.library ∧ assembly.diagnostics.level = level

/-- Assembling at a level accounts for its failures by a warning or an error. -/
abbrev Explained {α : Type} (texts : Library) (level : Nat) (run : Assembling α)
    (fails : α → Prop) : Prop :=
  Accounts (Steady texts level) (·.diagnostics.Complains) run fails

variable {texts : Library} {level : Nat}

theorem report_explained {α : Type} {run : Report α} {fails : α → Prop}
    (answers : Answers level run fails) : Explained texts level (report run) fails := by
  rintro assembly ⟨offered, same⟩
  obtain ⟨stays, told⟩ := answers assembly.diagnostics same
  exact ⟨⟨offered, stays⟩, told⟩

variable {part : Section}

theorem applyPart_explained {γ : Type} [SectionContents γ] {supplied : Statement → Prop}
    (audible : Audible γ level supplied)
    (offered : ∀ file sections part, texts.Holds (SectionContents.kind γ) file sections →
      part ∈ sections → ∀ statement ∈ part.statements, supplied statement) (mode : MergeMode)
    (known : ∀ statement ∈ part.statements, supplied statement) {apply : Applying γ}
    (goes : ∀ contents name keymap, Goes level (apply contents name keymap)) :
    Explained texts level (applyPart mode part apply) (· = none) := by
  intro assembly begins
  obtain ⟨stays, told⟩ := readSection_answers audible offered assembly.keymap.keycodes
    (Library.termCount part + assembly.library.reach + 1) mode known .main Draft.empty rfl
    assembly.workspace begins
  change Workspace.Steady texts level (reading γ assembly mode part).2 at stays
  change _ ∨ (reading γ assembly mode part).1.isClean = false →
    (reading γ assembly mode part).2.diagnostics.Complains at told
  cases clean : (reading γ assembly mode part).1.isClean with
  | false =>
    rw [applyPart_of_errors apply clean]
    exact ⟨stays, fun _ => told (.inr clean)⟩
  | true =>
    -- What is applied has no errors; applying it only adds to the record.
    rw [applyPart_of_clean apply clean]
    obtain ⟨same, kept⟩ := goes _ _ _ (reading γ assembly mode part).2.diagnostics stays.2
    exact ⟨⟨stays.1, same⟩, fun known => kept (.inl (told (.inl (known.resolve_right nofun))))⟩

theorem compilePart_explained (mode : MergeMode) (compiled : part.kind ∈ SectionKind.compiled)
    (heard : part.IsHeard texts level) :
    Explained texts level (compilePart mode part) (· = none) := by
  simp only [SectionKind.compiled, List.mem_cons, List.not_mem_nil, or_false] at compiled
  unfold compilePart
  rcases compiled with kind | kind | kind | kind <;> simp only [kind]
  · refine applyPart_explained KeycodeContents.audible (by simp) mode (by simp) fun _ _ _ => ?_
    exact .after (KeycodeContents.apply_goes _ _ _) fun _ => .pure id
  · exact applyPart_explained TypeContents.audible (by simp) mode (by simp) fun _ _ _ =>
      .pure id
  · exact applyPart_explained CompatContents.audible (by simp) mode (by simp) fun _ _ _ =>
      (CompatContents.apply_alike rfl (IndicatorDraft.map_relabel_id _).symm _ none _).answers
  · -- Of the statements of the symbols and of those they may include none is passed over.
    have spoken (statement : Statement)
        (supplied : (start level texts).Supplies .symbols part statement) :
        0 < level ∨ statement.isMute = false :=
      heard.imp_right fun spoken => spoken kind statement supplied
    refine applyPart_explained SymbolContents.audible ?_ mode ?_ fun _ _ _ => ?_
    · intro file sections included held member statement own
      exact spoken statement (.inr ⟨file, sections, included, held, member, own⟩)
    · exact fun statement own => spoken statement (.inl own)
    · exact .after (SymbolContents.apply_goes _ _ _) fun _ => .pure id

theorem compileKinds_explained {chosen : List Section}
    (heard : ∀ part ∈ chosen, part.IsHeard texts level) {kinds : List SectionKind}
    (compiled : kinds ⊆ SectionKind.compiled) (unbound : List IndicatorDraft) :
    Explained texts level (compileKinds chosen kinds unbound)
      fun outcome => ∃ error, outcome = .error error := by
  induction kinds generalizing unbound with
  | nil => exact .pure nofun
  | cons kind rest ih =>
    obtain ⟨here, later⟩ := List.cons_subset.mp compiled
    unfold compileKinds
    split
    · exact ih later unbound
    · rename_i part found
      have heardPart := heard part (List.mem_of_find?_eq_some found)
      have compiledPart : part.kind ∈ SectionKind.compiled := partOf_kind found ▸ here
      refine .bind (compilePart_explained .override compiledPart heardPart) ?_
      rintro (none | left)
      · exact .pure fun known => known.2 rfl
      · exact (ih later _).mono fun _ known => known.1

theorem chooseParts_goes (composite : SectionKind) (parts : List Section) :
    Goes level (chooseParts composite parts) := by
  refine .foldQuiet fun chosen part _ => ?_
  refine Accounts.ite (fun _ => Answers.refuse) fun _ => ?_
  exact Accounts.ite (fun _ => Answers.refuse) fun _ => Accounts.pure id

theorem noteGeometry_goes (chosen : List Section) : Goes level (noteGeometry chosen) := by
  unfold noteGeometry
  split
  · refine .atLevel ?_
    exact Accounts.ite (fun _ => Answers.info _) fun _ => Accounts.pure id
  · exact .pure id

theorem bindLeftover_explained (unbound : List IndicatorDraft) :
    Explained texts level (bindLeftover unbound) fun _ => False := by
  rintro assembly ⟨offered, same⟩
  obtain ⟨stays, told⟩ :=
    (IndicatorDraft.bindAllFree_alike unbound assembly.keymap).answers assembly.diagnostics same
  exact ⟨⟨offered, stays⟩, told⟩

theorem compileComposite_explained (heard : ∀ own ∈ part.parts, own.IsHeard texts level) :
    Explained texts level (compileComposite part) SectionFailed := by
  unfold compileComposite
  refine .ite (fun _ => .pure nofun) fun _ => ?_
  refine .bindGiven (· ⊆ part.parts)
    (report_explained (chooseParts_goes part.kind part.parts))
    (fun assembly _ => chooseParts_subset part.kind part.parts assembly.diagnostics)
    fun chosen own => ?_
  split
  · -- A part that is missing is an error of its own, and not the failure of a section.
    refine .after (report_explained (.error _ _ fun _ => False)) fun _ => ?_
    exact .pure fun known => nomatch known.1
  · refine .after (report_explained (noteGeometry_goes chosen)) fun _ => ?_
    have heardChosen : ∀ part ∈ chosen, part.IsHeard texts level :=
      fun part member => heard part (own member)
    refine .bind (compileKinds_explained heardChosen (List.Subset.refl _) []) ?_
    rintro (error | unbound)
    · exact .pure fun known => known.2 ⟨error, rfl⟩
    · refine .after (bindLeftover_explained unbound) fun _ => ?_
      exact .pure fun known => nomatch known.1.1

end Assembly

namespace Compiler

/-- A compile that fails for one of its sections leaves a warning or an error on record, unless it
is at the lowest level and its symbols have a statement that is passed over without a word. -/
theorem compileSection_failure_on_record (compiler : Compiler) (part : Section)
    (heard : ∀ own ∈ part.parts, own.IsHeard compiler.library compiler.level)
    (failed : SectionFailed (compiler.compileSection part).1) :
    ∃ record ∈ (compiler.compileSection part).2.diagnostics, record.severity ≠ .info := by
  have start : (Assembly.start compiler.level compiler.library).Steady compiler.library
      compiler.level :=
    ⟨Library.Extends.refl _, rfl⟩
  exact (Assembly.compileComposite_explained heard _ start).2 (.inr failed.of_map)

/-- A keymap of one key, whose symbols have a single statement. -/
def escapeWith (statement : Statement) : Section :=
  ⟨.keymap, "", 0, [],
    [⟨.keycodes, "", 0, [.keycode .unspecified (.ofString "ESC") 9], []⟩,
      ⟨.types, "", 0, [], []⟩, ⟨.compatibility, "", 0, [], []⟩,
      ⟨.symbols, "", 0, [statement], []⟩]⟩

/-- Symbols that give a key a field which keys do not have. -/
def strangeText : String :=
  "xkb_symbols \"m\" \x7b key <ESC> \x7b strange = 1 \x7d; \x7d;"

/-- A compiler at the lowest level that has these symbols at hand. -/
def offersStrange : Compiler :=
  .new 0 (Library.empty.addSource .symbols "f" strangeText)

/-- Symbols that include the strange ones. -/
def includesStrange : Section :=
  escapeWith (.inclusion ⟨.unspecified, "f", [⟨.unspecified, some "f", none, none⟩]⟩)

/-- A failure in symbols that are included is on record even at the lowest level. -/
theorem compileSection_failure_on_record_strange :
    offersStrange.level = 0
      ∧ (∀ own ∈ includesStrange.parts, own.IsHeard offersStrange.library offersStrange.level)
      ∧ SectionFailed (offersStrange.compileSection includesStrange).1
      ∧ ∃ record ∈ (offersStrange.compileSection includesStrange).2.diagnostics,
        record.severity ≠ .info := by
  have failed : SectionFailed (offersStrange.compileSection includesStrange).1 := by decide +kernel
  have ownSpoken : ∀ own ∈ includesStrange.parts, ∀ statement ∈ own.statements,
      statement.isMute = false := by
    decide +kernel
  have spoken : ∀ part ∈ offersStrange.library.allSections, ∀ statement ∈ part.statements,
      statement.isMute = false := by
    decide +kernel
  have heard : ∀ own ∈ includesStrange.parts,
      own.IsHeard offersStrange.library offersStrange.level := by
    refine fun own member => .inr fun _ statement supplied => ?_
    rcases supplied with mine | ⟨file, sections, included, held, within, known⟩
    · exact ownSpoken own member statement mine
    · exact spoken included (held.subset_allSections rfl within) statement known
  have recorded := compileSection_failure_on_record offersStrange includesStrange heard failed
  exact ⟨rfl, heard, failed, recorded⟩

/-- A group name without an index. -/
def namesGroup : Statement :=
  .assignment ⟨.unspecified, some (.ident "name"), some (.text "foo")⟩

/-- At the lowest level a group name without an index lets the symbols fail with nothing on
record. -/
theorem compileSection_fails_silently :
    SectionFailed ((Compiler.new 0 .empty).compileSection (escapeWith namesGroup)).1
      ∧ ((Compiler.new 0 .empty).compileSection (escapeWith namesGroup)).2.diagnostics = [] := by
  decide +kernel

end Compiler

end Xkb
