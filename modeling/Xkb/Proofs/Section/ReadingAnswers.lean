import Xkb.Proofs.Section.Agreement

/-! Reading a section accounts for its errors, wherever they are found: in its own statements or in
those of the sections that it includes. -/

namespace Xkb

theorem Library.find_goes {level : Nat} (library : Library) (kind : SectionKind) (file : String)
    (map : Option String) : Goes level (library.find kind file map) := by
  unfold find
  split
  · exact .pure id
  · refine .after (pick_alike _ kind file map).answers fun _ => ?_
    exact .pure id

/-- The workspaces whose library offers certain texts, at a level. -/
def Workspace.Steady (texts : Library) (level : Nat) (workspace : Workspace) : Prop :=
  texts.Extends workspace.library ∧ workspace.diagnostics.level = level

/-- A reading at a level accounts for its failures by a warning or an error. -/
abbrev Answered {α : Type} (texts : Library) (level : Nat) (run : Reading α) (fails : α → Prop) :
    Prop :=
  Accounts (Workspace.Steady texts level) (·.diagnostics.Complains) run fails

namespace Answered

variable {texts : Library} {level : Nat} {α : Type} {fails : α → Prop}

theorem report {run : Report α} (answers : Answers level run fails) :
    Answered texts level (Reading.report run) fails := by
  rintro workspace ⟨offered, same⟩
  obtain ⟨stays, told⟩ := answers workspace.diagnostics same
  exact ⟨⟨offered, stays⟩, told⟩

theorem scope (keycodes : KeycodeTable) :
    Answered texts level (Reading.scope keycodes) fun _ => False :=
  fun _ begins => ⟨begins, fun known => known.resolve_right id⟩

theorem declareModifier (name : String) (value : Option Expr) (mode : MergeMode) :
    Answered texts level (Reading.declareModifier name value mode) (· = false) := by
  refine .get fun workspace _ => ?_
  refine .bind (report (workspace.modifiers.declare_alike name value mode).answers)
    fun outcome => ?_
  cases outcome with
  | error cause => exact .pure fun known => known.2 ⟨cause, rfl⟩
  | ok made =>
    refine .change (fun _ begins => begins) (fun _ told => told) ?_
    exact .pure fun known => nomatch known.1

theorem find {kind : SectionKind} {file : String} {map : Option String}
    {next : Except IncludeError (Section × Origin) → Reading α}
    (rest : ∀ found, (∀ part origin, found = .ok (part, origin) →
        ∃ sections, texts.Holds kind file sections ∧ part ∈ sections) →
      Answered texts level (next found) fails) :
    Answered texts level (Reading.find kind file map >>= next) fails := by
  have finds : Answered texts level (Reading.find kind file map) fun _ => False := by
    rintro workspace ⟨offered, same⟩
    obtain ⟨stays, told⟩ := workspace.library.find_goes kind file map workspace.diagnostics same
    exact ⟨⟨(offered.find kind file map workspace.diagnostics).1, stays⟩, told⟩
  refine .bindGiven _ finds (fun workspace begins part origin same => ?_) fun found held =>
    (rest found held).mono fun _ known => known.1
  exact ((begins.1.find kind file map workspace.diagnostics).2.2 part origin same).held

end Answered

/-- Sections that account for statements that are wrong, at least for certain statements, and for
errors in adding one section to another. -/
structure Audible (γ : Type) [SectionContents γ] (level : Nat) (supplied : Statement → Prop) :
    Prop where
  handle : ∀ scope header mode statement (contents : γ), supplied statement →
    Answers level (SectionContents.handle scope header mode statement contents) (·.2 = false)
  absorb : ∀ scope mode header (new old : γ),
    Answers level (SectionContents.absorb scope mode header new old) (·.2 ≠ 0)

/-- What became of a section, with an error that was not there before. -/
def Draft.Spoils {γ : Type} (before : Draft γ) (made : Draft γ × Bool) : Prop :=
  before.isClean = true ∧ (made.1.isClean = false ∨ made.2 = false)

theorem Draft.Spoils.wrong {γ : Type} {before : Draft γ} {made : Draft γ × Bool}
    (spoils : before.Spoils made) (same : made.1.header = before.header) : made.2 = false := by
  obtain ⟨clean, dirty | wrong⟩ := spoils
  · have kept : made.1.isClean = before.isClean := congrArg (·.errors == 0) same
    simp [kept, clean] at dirty
  · exact wrong

/-- An include statement halfway without errors. -/
def Inclusion.Clean {γ : Type} (state : Inclusion γ) : Prop :=
  state.own.isClean = true ∧ state.made.isClean = true

section Sections

variable {γ : Type} [SectionContents γ] {texts : Library} {level : Nat}
  {supplied : Statement → Prop} {read : SectionReader Id γ}

theorem Draft.absorb_answers (audible : Audible γ level supplied) (scope : Scope)
    (mode : MergeMode) (new old : Draft γ) :
    Answers level (Draft.absorb scope mode new old) fun made =>
      made.isClean = false ∧ new.isClean = true ∧ old.isClean = true := by
  refine .ite (fun dirty => .pure fun known => ?_) fun _ => ?_
  · -- Errors of the draft that is added are none of adding it.
    simp [known.2.1] at dirty
  · refine .bind (audible.absorb scope mode new.header _ _) fun made => ?_
    refine .pure ?_
    rintro ⟨⟨dirty, -, clean⟩, fine⟩
    simp only [Draft.isClean, beq_iff_eq] at clean
    simp only [Draft.isClean, clean, Nat.zero_add, beq_eq_false_iff_ne] at dirty
    exact fine dirty

/-- Readers that account for the errors in the sections that a library holds. -/
def Heeds (texts : Library) (level : Nat) (read : SectionReader Id γ) : Prop :=
  ∀ file sections part, texts.Holds (SectionContents.kind γ) file sections → part ∈ sections →
    ∀ origin draft, draft.isClean = true →
      Answered texts level (read part origin draft) (·.isClean = false)

theorem readTerm_answers (heeds : Heeds texts level read) (parent : γ) (term : IncludeTerm) :
    Answered texts level (readTerm read parent term) fun outcome =>
      ∃ draft, outcome = .ok draft ∧ draft.isClean = false := by
  refine .find fun found held => ?_
  rcases found with error | ⟨part, origin⟩
  · exact .pure fun ⟨_, same, _⟩ => nomatch same
  -- Whether the term is entered or refused, the section is one that the reader heeds.
  obtain ⟨sections, holds, member⟩ := held part origin rfl
  refine .get fun workspace begins => ?_
  cases entered : workspace.library.enter
      ⟨term.file.getD "", part.name, SectionContents.kind γ⟩ with
  | error error => exact .pure fun ⟨_, same, _⟩ => nomatch same
  | ok library =>
    have inside := (begins.1.enter entered).2.1
    refine .change (fun _ begins => ⟨inside, begins.2⟩) (fun _ told => told) ?_
    refine .bind (heeds _ sections part holds member origin _ rfl) fun draft => ?_
    refine .change (fun _ begins => ⟨begins.1.leave, begins.2⟩) (fun _ told => told) ?_
    refine .pure ?_
    rintro ⟨⟨made, same, dirty⟩, clean⟩
    cases same
    exact clean dirty

theorem addTerm_answers (audible : Audible γ level supplied) (heeds : Heeds texts level read)
    (keycodes : KeycodeTable) (state : Inclusion γ) (term : IncludeTerm) :
    Answered texts level (state.addTerm keycodes read term) fun outcome =>
      state.Clean ∧ ∃ next, outcome = .ok next ∧ ¬next.Clean := by
  unfold Inclusion.addTerm
  refine .ite (fun _ => ?_) fun _ => ?_
  · refine Accounts.after (Answered.scope keycodes) fun scope => ?_
    refine Accounts.bind (Answered.report
      (Draft.absorb_answers audible scope term.merge state.own state.made)) fun made => ?_
    refine .pure ?_
    rintro ⟨⟨clean, next, same, dirty⟩, told⟩
    cases same
    exact told ⟨Bool.eq_false_iff.mpr fun madeClean => dirty ⟨rfl, madeClean⟩, clean⟩
  · split
    · refine .pure ?_
      rintro ⟨clean, next, same, dirty⟩
      cases same
      exact dirty clean
    · refine .bind (readTerm_answers heeds state.own.contents term) fun outcome => ?_
      cases outcome with
      | error error => exact .pure fun ⟨⟨_, _, same, _⟩, _⟩ => nomatch same
      | ok draft =>
        refine Accounts.after (Answered.scope keycodes) fun scope => ?_
        refine Accounts.bind (Answered.report
          (Draft.absorb_answers audible scope term.merge draft state.made)) fun made => ?_
        refine .pure ?_
        rintro ⟨⟨⟨clean, next, same, dirty⟩, read⟩, told⟩
        cases same
        -- What the section itself had of errors was told when it was read.
        have readClean : draft.isClean = true :=
          Bool.of_not_eq_false fun unclean => read ⟨draft, rfl, unclean⟩
        refine told ⟨Bool.eq_false_iff.mpr fun madeClean => dirty ⟨clean.1, madeClean⟩, ?_⟩
        exact ⟨readClean, clean.2⟩

omit [SectionContents γ] in
theorem failInclusion_answers (own : Draft γ) (included : IncludeStatement) (error : IncludeError)
    (fails : Draft γ × Bool → Prop) :
    Answered texts level (failInclusion own included error) fails := by
  refine Accounts.bind (Answered.report (Answers.error _ _ fun _ => True)) fun _ => ?_
  exact .pure fun known => known.2 True.intro

section Statements

variable (audible : Audible γ level supplied) (heeds : Heeds texts level read)
  (keycodes : KeycodeTable)

include audible heeds

theorem finish_answers (included : IncludeStatement) (mode : MergeMode) (terms : List IncludeTerm)
    (state : Inclusion γ) :
    Answered texts level (state.finish keycodes read included mode terms) fun made =>
      state.Clean ∧ (made.1.isClean = false ∨ made.2 = false) := by
  induction terms generalizing state with
  | nil =>
    unfold Inclusion.finish
    refine .ite (fun _ => ?_) fun _ => ?_
    · refine .pure ?_
      rintro ⟨clean, dirty⟩
      simp [clean.2] at dirty
    · refine Accounts.after (Answered.scope keycodes) fun scope => ?_
      refine Accounts.bind (Answered.report
        (Draft.absorb_answers audible scope mode state.made state.own)) fun made => ?_
      refine .pure ?_
      rintro ⟨⟨clean, dirty⟩, told⟩
      exact told ⟨dirty.elim id id, clean.2, clean.1⟩
  | cons term rest ih =>
    refine .bind (addTerm_answers audible heeds keycodes state term) fun outcome => ?_
    cases outcome with
    | error error => exact failInclusion_answers state.own included error _
    | ok next =>
      refine (ih next).mono ?_
      rintro made ⟨⟨clean, dirty⟩, told⟩
      -- The rest starts without errors, or else this term has told of them.
      exact ⟨Classical.not_not.mp fun spoiled => told ⟨clean, next, rfl, spoiled⟩, dirty⟩

theorem followInclude_answers (own : Draft γ) (included : IncludeStatement) :
    Answered texts level (followInclude keycodes read own included) own.Spoils := by
  unfold followInclude
  split
  · refine .pure fun spoils => ?_
    exact absurd spoils.1 (Bool.eq_false_iff.mp (spoils.wrong rfl))
  · refine .ite (fun _ => ?_) fun _ => ?_
    · refine (finish_answers audible heeds keycodes included _ _ _).mono ?_
      exact fun made known => ⟨⟨rfl, known.1⟩, known.2⟩
    · split
      · refine .pure fun spoils => ?_
        exact absurd spoils.1 (Bool.eq_false_iff.mp (spoils.wrong rfl))
      · refine .bind (readTerm_answers heeds own.contents _) fun outcome => ?_
        cases outcome with
        | error error => exact failInclusion_answers own included error _
        | ok draft =>
          refine (finish_answers audible heeds keycodes included _ _ _).mono ?_
          rintro made ⟨⟨clean, dirty⟩, told⟩
          exact ⟨⟨clean, Bool.of_not_eq_false fun unclean => told ⟨draft, rfl, unclean⟩⟩, dirty⟩

theorem readStatement_answers (mode : MergeMode) (draft : Draft γ) {statement : Statement}
    (known : supplied statement) :
    Answered texts level (readStatement keycodes read mode draft statement) draft.Spoils := by
  unfold readStatement
  split
  · exact followInclude_answers audible heeds keycodes draft _
  · refine Accounts.bind (Answered.declareModifier _ _ _) fun right => ?_
    exact .pure fun ⟨spoils, told⟩ => told (spoils.wrong rfl)
  · refine Accounts.after (Answered.scope keycodes) fun scope => ?_
    have handled := audible.handle scope draft.header mode _ draft.contents known
    refine Accounts.bind (Answered.report handled) fun made => ?_
    exact .pure fun ⟨spoils, told⟩ => told (spoils.wrong rfl)

theorem readStatements_answers (mode : MergeMode) (name : String) {statements : List Statement}
    (known : ∀ statement ∈ statements, supplied statement) (draft : Draft γ) :
    Answered texts level (readStatements keycodes read mode name statements draft) fun made =>
      draft.isClean = true ∧ made.isClean = false := by
  induction statements generalizing draft with
  | nil => exact Accounts.pure fun ⟨clean, dirty⟩ => by simp [clean] at dirty
  | cons statement rest ih =>
    refine .bind (readStatement_answers audible heeds keycodes mode draft
      (known statement (by simp))) ?_
    rintro ⟨made, right⟩
    dsimp only
    refine .ite (fun _ => ?_) fun _ => ?_
    · refine Accounts.bind (Answered.report (Answers.error _ _ fun _ => True)) fun _ => ?_
      exact .pure fun known => known.2 True.intro
    · refine (ih (fun statement member => known statement (by simp [member])) _).mono ?_
      rintro final ⟨⟨clean, dirty⟩, told⟩
      -- An error that the statement brought was told of, so none is left to count.
      have madeClean : made.isClean = true :=
        Bool.of_not_eq_false fun unclean => told ⟨clean, .inl unclean⟩
      have fine : right = true := Bool.of_not_eq_false fun wrong => told ⟨clean, .inr wrong⟩
      exact ⟨by simp [fine, madeClean], dirty⟩

end Statements

/-- Reading a section accounts for its errors. -/
theorem readSection_answers (audible : Audible γ level supplied)
    (offered : ∀ file sections part, texts.Holds (SectionContents.kind γ) file sections →
      part ∈ sections → ∀ statement ∈ part.statements, supplied statement)
    (keycodes : KeycodeTable) (limit : Nat) (mode : MergeMode) {part : Section}
    (known : ∀ statement ∈ part.statements, supplied statement) (origin : Origin)
    (draft : Draft γ) (clean : draft.isClean = true) :
    Answered texts level (readSection keycodes limit mode part origin draft)
      (·.isClean = false) := by
  -- The reader of the includes is the one of a lower limit, which heeds what the texts hold.
  induction limit generalizing mode part origin draft with
  | zero => exact Accounts.pure fun dirty => by simp [clean] at dirty
  | succ limit ih =>
    have heeds : Heeds texts level (readSection keycodes limit .override : SectionReader Id γ) :=
      fun file sections included held member origin draft clean =>
        ih .override (offered file sections included held member) origin draft clean
    refine (readStatements_answers audible heeds keycodes _ part.name known _).mono ?_
    exact fun made dirty => ⟨clean, dirty⟩

end Sections

end Xkb
