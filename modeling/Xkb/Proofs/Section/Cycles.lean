import Xkb.Proofs.Section.IncludeStack
import Xkb.Proofs.Targets

/-! A section whose includes lead on without end has errors: at last one of them would be followed
within itself. -/

namespace Xkb

section Dirty

variable {γ : Type} [SectionContents γ] {keycodes : KeycodeTable} {texts : Library}
  {stack : List Frame} {read : SectionReader Id γ}

/-- An include statement halfway that cannot come to a clean section any more. -/
def Inclusion.Dirty (state : Inclusion γ) : Prop :=
  state.made.isClean = false ∨ state.hasOwn = false ∧ state.own.isClean = false

/-- One of the terms cannot be read, or not without errors. -/
def Spoiled (texts : Library) (stack : List Frame) (read : SectionReader Id γ)
    (terms : List IncludeTerm) : Prop :=
  ∃ term ∈ terms, term.isSelf = false ∧ ∀ parent,
    Leads (AtStack texts stack) (readTerm read parent term) fun outcome _ =>
      ∀ draft, outcome = .ok draft → draft.isClean = false

omit [SectionContents γ] in
theorem failInclusion_dirty {before : Workspace → Prop} (own : Draft γ)
    (included : IncludeStatement) (error : IncludeError) :
    Leads before (failInclusion own included error : Reading _)
      fun made _ => made.1.isClean = false :=
  fun _ _ => Draft.addErrors_dirty own (.inr (by decide))

/-- Every include of a section of some contents is of a file. -/
abbrev NeedsFiles (γ : Type) [SectionContents γ] : Prop :=
  ∀ term (contents : γ), SectionContents.builtin term contents = none

section Terms

variable (plain : NeedsFiles γ)

include plain

variable {state : Inclusion γ} {draft : Draft γ}

theorem addTerm_dirty {term : IncludeTerm} (dirty : state.Dirty ∨ Spoiled texts stack read [term]) :
    Leads (AtStack texts stack) (state.addTerm keycodes read term) fun outcome _ =>
      ∀ next, outcome = .ok next → next.Dirty := by
  simp only [Inclusion.addTerm, plain]
  cases self : term.isSelf with
  | true =>
    -- A term that stands for the section itself is not spoiled, so the state is dirty.
    have stateDirty : state.Dirty := by
      rcases dirty with known | ⟨bad, member, notSelf, -⟩
      · exact known
      · simp [List.mem_singleton.mp member, self] at notSelf
    have either : state.own.isClean = false ∨ state.made.isClean = false :=
      stateDirty.elim .inr fun own => .inl own.2
    intro workspace _ next same
    cases same
    exact .inl (Draft.absorb_dirty _ _ either _)
  | false =>
    -- What is read for the term is dirty if the term is spoiled, else the state is.
    refine .bind (?_ : Leads _ _ fun outcome _ => ∀ draft, outcome = .ok draft →
      draft.isClean = false ∨ state.Dirty) fun outcome => ?_
    · intro workspace begins draft read
      rcases dirty with stateDirty | ⟨_, member, _, spoils⟩
      · exact .inr stateDirty
      · cases List.mem_singleton.mp member
        exact .inl (spoils _ workspace begins draft read)
    · cases outcome with
      | error error =>
        refine .pure fun workspace _ next same => ?_
        cases same
      | ok draft =>
        intro workspace known next same
        cases same
        rcases known draft rfl with draftDirty | madeDirty | ownDirty
        · exact .inl (Draft.absorb_dirty _ _ (.inl draftDirty) _)
        · exact .inl (Draft.absorb_dirty _ _ (.inr madeDirty) _)
        · exact .inr ownDirty

variable (within : ∀ term, Within plainly texts stack (fun _ => True) read read term)

include within

theorem finish_dirty (included : IncludeStatement) (mode : MergeMode) {terms : List IncludeTerm}
    (dirty : state.Dirty ∨ Spoiled texts stack read terms) :
    Leads (AtStack texts stack) (state.finish keycodes read included mode terms)
      fun made _ => made.1.isClean = false := by
  induction terms generalizing state with
  | nil =>
    -- Without terms none is spoiled.
    have stateDirty : state.Dirty := dirty.resolve_right fun ⟨_, member, _⟩ => nomatch member
    simp only [Inclusion.finish]
    split
    · -- The section itself was a term, so it is part of what was made.
      rename_i hasOwn
      have madeDirty : state.made.isClean = false :=
        stateDirty.resolve_right fun own => by simp [hasOwn] at own
      exact .pure fun _ _ => madeDirty
    · have either : state.made.isClean = false ∨ state.own.isClean = false :=
        stateDirty.imp_right And.right
      exact fun _ _ => Draft.absorb_dirty _ mode either _
  | cons term rest ih =>
    simp only [Inclusion.finish]
    -- A spoiled term is the first one or one of the others.
    have split : (state.Dirty ∨ Spoiled texts stack read [term]) ∨ Spoiled texts stack read rest := by
      rcases dirty with stateDirty | ⟨bad, member, spoils⟩
      · exact .inl (.inl stateDirty)
      · rcases List.mem_cons.mp member with rfl | later
        · exact .inl (.inr ⟨bad, List.mem_singleton.mpr rfl, spoils⟩)
        · exact .inr ⟨bad, later, spoils⟩
    -- That the stack is the same after a term is known already; only the errors are new.
    have same : Inclusion.Matched id (Same fun _ => True) (Same fun _ => True) state state := by
      obtain ⟨own, made, hasOwn⟩ := state
      cases hasOwn with
      | false => exact .apart (.inl (Draft.matched_same trivial)) (Draft.matched_same trivial)
      | true => exact .joined (Draft.matched_same trivial) (.inl (Draft.matched_same trivial))
    have stays := Both.leads (addTerm_alike (maintains_true.inclusive keycodes)
      (Within.terms (fun _ _ => id) (fun _ => id) fun term _ _ => within term)
      (fun _ _ _ => .same fun _ _ _ _ _ _ _ => .trivial _) (List.mem_singleton_self term) same)
    have step : Leads (AtStack texts stack) (state.addTerm keycodes read term)
        fun outcome workspace =>
          (∀ next, outcome = .ok next → next.Dirty ∨ Spoiled texts stack read rest) ∧
            AtStack texts stack workspace := by
      rcases split with now | later
      · intro workspace begins
        refine ⟨fun next same => .inl ?_, stays workspace begins⟩
        exact addTerm_dirty plain now workspace begins next same
      · exact fun workspace begins => ⟨fun _ _ => .inr later, stays workspace begins⟩
    refine .bind step fun outcome => .given fun known => ?_
    cases outcome with
    | error error => exact failInclusion_dirty state.own included error
    | ok next => exact ih (known next rfl)

theorem followInclude_dirty {own : Draft γ} {included : IncludeStatement}
    (dirty : own.isClean = false ∨ Spoiled texts stack read included.terms) :
    Leads (AtStack texts stack) (followInclude keycodes read own included)
      fun made _ => made.1.isClean = false := by
  obtain ⟨merge, text, terms⟩ := included
  cases terms with
  | nil =>
    have ownDirty : own.isClean = false := dirty.resolve_right fun ⟨_, member, _⟩ => nomatch member
    exact .pure fun _ _ => ownDirty
  | cons first rest =>
    simp only [followInclude, plain]
    -- The other terms are left out where the first one has errors already.
    have onward (state : Inclusion γ) (known : state.Dirty ∨ Spoiled texts stack read rest) :
        state.Dirty ∨ Spoiled texts stack read (if state.made.isClean then rest else []) := by
      cases clean : state.made.isClean with
      | false => exact .inl (.inl clean)
      | true => exact known
    cases self : first.isSelf with
    | true =>
      -- The section itself comes first, and a spoiled term has to be a later one.
      refine finish_dirty plain within _ _ (onward _ ?_)
      rcases dirty with ownDirty | ⟨bad, member, notSelf, spoils⟩
      · exact .inl (.inl ownDirty)
      · rcases List.mem_cons.mp member with rfl | later
        · simp [self] at notSelf
        · exact .inr ⟨bad, later, notSelf, spoils⟩
    | false =>
      have stays : Leads (AtStack texts stack) (readTerm read own.contents first)
          fun _ => AtStack texts stack := Both.leads ((within first).readTerm trivial)
      have step : Leads (AtStack texts stack) (readTerm read own.contents first)
          fun outcome workspace =>
            (∀ draft, outcome = .ok draft → draft.isClean = false ∨ own.isClean = false ∨
              Spoiled texts stack read rest) ∧ AtStack texts stack workspace := by
        intro workspace begins
        refine ⟨fun draft same => ?_, stays workspace begins⟩
        rcases dirty with ownDirty | ⟨bad, member, notSelf, spoils⟩
        · exact .inr (.inl ownDirty)
        · rcases List.mem_cons.mp member with rfl | later
          · exact .inl (spoils _ workspace begins draft same)
          · exact .inr (.inr ⟨bad, later, notSelf, spoils⟩)
      refine .bind step fun outcome => .given fun known => ?_
      cases outcome with
      | error error => exact failInclusion_dirty own _ error
      | ok draft =>
        refine finish_dirty plain within _ _ (onward _ ?_)
        rcases known draft rfl with draftDirty | ownDirty | later
        · exact .inl (.inl draftDirty)
        · exact .inl (.inr ⟨rfl, ownDirty⟩)
        · exact .inr later

/-- A statement leaves a dirty section dirty, and an include statement with a spoiled term makes
one. -/
theorem readStatement_dirty (mode : MergeMode) {statement : Statement}
    (dirty : draft.isClean = false ∨ ∃ included, statement = .inclusion included ∧
      Spoiled texts stack read included.terms) :
    Leads (AtStack texts stack) (readStatement keycodes read mode draft statement)
      fun made _ => made.1.isClean = false := by
  simp only [readStatement]
  split
  · refine followInclude_dirty plain within (dirty.imp_right ?_)
    rintro ⟨included, same, spoiled⟩
    cases same
    exact spoiled
  · -- Other statements count no errors themselves.
    have draftDirty : draft.isClean = false := by
      rcases dirty with known | ⟨included, same, -⟩
      · exact known
      · cases same
    exact fun _ _ => draftDirty
  · rename_i notInclusion _
    have draftDirty : draft.isClean = false := by
      rcases dirty with known | ⟨included, same, -⟩
      · exact known
      · exact absurd same (notInclusion included)
    exact fun _ _ => draftDirty

/-- Statements leave a dirty section dirty, and an include statement with a spoiled term makes
one. -/
theorem readStatements_dirty (mode : MergeMode) (name : String) {statements : List Statement}
    (dirty : draft.isClean = false ∨ ∃ included, .inclusion included ∈ statements ∧
      Spoiled texts stack read included.terms) :
    Leads (AtStack texts stack) (readStatements keycodes read mode name statements draft)
      fun made _ => made.isClean = false := by
  induction statements generalizing draft with
  | nil =>
    have draftDirty : draft.isClean = false :=
      dirty.resolve_right fun ⟨_, member, _⟩ => nomatch member
    exact .pure fun _ _ => draftDirty
  | cons statement rest ih =>
    simp only [readStatements]
    have stays : Leads (AtStack texts stack) (readStatement keycodes read mode draft statement)
        fun _ => AtStack texts stack :=
      Both.leads (readStatement_alike Lenient.refl (Admits.anything γ)
        (maintains_true.inclusive keycodes) (fun _ _ => id) mode
        (.same fun _ _ _ _ _ => .trivial _)
        (fun _ _ => Within.terms (fun _ _ => id) (fun _ => id) fun term _ _ => within term)
        (fun _ _ _ _ _ => .same fun _ _ _ _ _ _ _ => .trivial _) (Draft.matched_same trivial))
    have step : Leads (AtStack texts stack) (readStatement keycodes read mode draft statement)
        fun made workspace => (made.1.isClean = false ∨ ∃ included, .inclusion included ∈ rest ∧
          Spoiled texts stack read included.terms) ∧ AtStack texts stack workspace := by
      intro workspace begins
      refine ⟨?_, stays workspace begins⟩
      have now (known : draft.isClean = false ∨ ∃ included, statement = .inclusion included ∧
            Spoiled texts stack read included.terms) :
          (readStatement keycodes read mode draft statement workspace).1.1.isClean = false :=
        readStatement_dirty plain within mode known workspace begins
      rcases dirty with draftDirty | ⟨included, member, spoiled⟩
      · exact .inl (now (.inl draftDirty))
      · rcases List.mem_cons.mp member with same | later
        · exact .inl (now (.inr ⟨included, same.symm, spoiled⟩))
        · exact .inr ⟨included, later, spoiled⟩
    refine .bind step fun made => .given fun known => ?_
    obtain ⟨made, right⟩ := made
    -- A statement that is wrong counts for one more error.
    have counted : (if right then made else made.addErrors 1).isClean = false ∨
        ∃ included, .inclusion included ∈ rest ∧ Spoiled texts stack read included.terms := by
      refine known.imp_left fun madeDirty => ?_
      split
      · exact madeDirty
      · exact made.addErrors_dirty (.inl madeDirty)
    dsimp only at counted ⊢
    generalize (if right = true then made else made.addErrors 1) = next at counted ⊢
    refine .ite (fun many => ?_) fun _ => ih counted
    -- The reading is given up, which takes more than no errors.
    have nextDirty : next.isClean = false :=
      Draft.isClean_eq_false.mpr (Nat.lt_of_le_of_lt (Nat.zero_le _) many)
    exact fun _ _ => nextDirty

end Terms

/-- What is read after a statement: the other statements, unless there are too many errors. -/
def readOn (keycodes : KeycodeTable) (read : SectionReader Id γ) (mode : MergeMode) (name : String)
    (rest : List Statement) (draft : Draft γ) : Reading (Draft γ) := do
  if draft.header.errors > errorLimit then
    let noun := SectionContents.noun γ
    Report.error "Too many errors" [s!"Abandoning {noun} \"{name}\""]
    return draft
  readStatements keycodes read mode name rest draft

/-- Statements are read one after another, with the errors counted. -/
theorem readStatements_cons (mode : MergeMode) (name : String) (statement : Statement)
    (rest : List Statement) (draft : Draft γ) :
    readStatements keycodes read mode name (statement :: rest) draft = (do
      let (made, right) ← readStatement keycodes read mode draft statement
      readOn keycodes read mode name rest (if right then made else made.addErrors 1)) :=
  rfl

variable {draft : Draft γ}

/-- Without errors there are not too many. -/
theorem readOn_clean (mode : MergeMode) (name : String) (rest : List Statement)
    (clean : draft.isClean = true) :
    readOn keycodes read mode name rest draft = readStatements keycodes read mode name rest draft := by
  have none : draft.header.errors = 0 := by simpa [Draft.isClean] using clean
  have few : ¬draft.header.errors > errorLimit := by
    rw [none, errorLimit]
    omega
  rw [readOn, if_neg few]

/-- What is read after an error is dirty. -/
theorem readOn_dirty (plain : NeedsFiles γ)
    (within : ∀ term, Within plainly texts stack (fun _ => True) read read term) (mode : MergeMode)
    (name : String) (rest : List Statement) (dirty : draft.isClean = false) :
    Leads (AtStack texts stack) (readOn keycodes read mode name rest draft)
      fun made _ => made.isClean = false :=
  .ite (fun _ _ _ => dirty) fun _ => readStatements_dirty plain within mode name (.inl dirty)

end Dirty

section Endless

variable {γ : Type} [SectionContents γ] (plain : NeedsFiles γ)

include plain

variable {part : Section}

/-- A section that is in the midst of endless includes is dirty, if the depth that is left is more
than the includes that are not yet followed. -/
theorem readSection_endless {texts : Library} (unparsed : texts.parsed = []) (frames : List Frame)
    (endless : Section → Prop)
    (leads : ∀ part, endless part → ∃ term ∈ Library.sectionTerms part, term.isSelf = false ∧
      ∃ found origin, texts.target (SectionContents.kind γ) term = .ok (found, origin) ∧
        endless found ∧ Library.frameTo (SectionContents.kind γ) term found ∈ frames)
    (keycodes : KeycodeTable) (limit : Nat) (stack : List Frame) (distinct : stack.Nodup)
    (reachable : stack ⊆ frames) (enough : frames.length < limit + stack.length) (mode : MergeMode)
    (known : endless part) (origin : Origin) (draft : Draft γ) :
    Leads (AtStack texts stack) (readSection keycodes limit mode part origin draft : Reading _)
      fun made _ => made.isClean = false := by
  -- With every include that is entered the limit falls by one and the stack grows by one.
  induction limit generalizing stack mode part origin draft with
  | zero =>
    have few := distinct.length_le_of_subset reachable
    omega
  | succ limit ih =>
    have within (term : IncludeTerm) : Within plainly texts stack (fun _ => True)
        (readSection keycodes limit .override : SectionReader Id γ)
        (readSection keycodes limit .override) term :=
      fun _ _ _ place draft _ => readSection_keeps maintains_true texts keycodes limit .override
        (fun _ _ => trivial) place draft trivial _
    obtain ⟨term, stands, notSelf, found, place, isTarget, further, reached⟩ := leads part known
    obtain ⟨included, statement, member⟩ := Library.mem_sectionTerms.mp stands
    refine readStatements_dirty plain within _ _
      (.inr ⟨included, statement, term, member, notSelf, fun parent => ?_⟩)
    -- The include leads on, so one term of the section cannot be read without errors.
    have finds : Leads (AtStack texts stack)
        (Reading.find (SectionContents.kind γ) (term.file.getD "") term.map : Reading _)
        fun outcome workspace => outcome = .ok (found, place) ∧ AtStack texts stack workspace := by
      intro workspace begins
      obtain ⟨extended, stays, -⟩ := begins.1.find (SectionContents.kind γ) (term.file.getD "")
        term.map workspace.diagnostics
      refine ⟨?_, extended, stays.trans begins.2⟩
      exact (begins.1.find_eq unparsed _ term workspace.diagnostics).trans isTarget
    refine .bind finds fun outcome => .given fun same => ?_
    cases same
    refine .bind (?_ : Leads _ _ fun value workspace =>
      value = workspace ∧ AtStack texts stack workspace) fun workspace => ?_
    · exact fun workspace begins => ⟨rfl, begins⟩
    cases entered : workspace.library.enter
        ⟨term.file.getD "", found.name, SectionContents.kind γ⟩ with
    | error error => exact .pure fun _ _ _ same => nomatch same
    | ok library =>
      intro current begins made same
      obtain ⟨rfl, extended, sameStack⟩ := begins
      obtain ⟨fresh, inside, pushed⟩ := extended.enter entered
      -- An include that is let in was not being followed.
      rw [sameStack] at fresh pushed
      cases same
      -- The section that is come to is in the midst of endless includes too.
      refine ih (Library.frameTo _ term found :: stack) (List.nodup_cons.mpr ⟨fresh, distinct⟩)
        (List.cons_subset.mpr ⟨reached, reachable⟩) ?_ .override further place _ _ ⟨inside, pushed⟩
      rw [List.length_cons]
      omega

/-- A section whose includes lead on without end has errors. -/
theorem Assembly.reading_endless {assembly : Assembly} (unparsed : assembly.library.parsed = [])
    (unused : assembly.library.stack = []) {endless : Section → Prop}
    (leads : ∀ part, endless part → ∃ term ∈ Library.sectionTerms part, term.isSelf = false ∧
      ∃ found origin, assembly.library.target (SectionContents.kind γ) term = .ok (found, origin) ∧
        endless found) (mode : MergeMode) (known : endless part) :
    (reading γ assembly mode part).1.isClean = false := by
  -- The section itself and those of the library are all that can be come to.
  have few := assembly.library.targetFrames_cons_length (SectionContents.kind γ) part
  refine readSection_endless plain unparsed
    (assembly.library.targetFrames (SectionContents.kind γ) (part :: assembly.library.allSections))
    (fun known => endless known ∧ known ∈ part :: assembly.library.allSections) ?_
    assembly.keymap.keycodes (Library.termCount part + assembly.library.reach + 1) []
    List.nodup_nil (List.nil_subset _) ?_ mode ⟨known, List.mem_cons_self⟩ .main Draft.empty
    assembly.workspace ⟨Library.Extends.refl _, unused⟩
  · intro other ⟨endlessOther, visited⟩
    obtain ⟨term, stands, notSelf, found, origin, isTarget, further⟩ := leads other endlessOther
    refine ⟨term, stands, notSelf, found, origin, isTarget, ⟨further, ?_⟩, ?_⟩
    · exact List.mem_cons_of_mem part (Library.target_mem isTarget)
    · exact Library.frameTo_mem visited stands isTarget
  · rw [List.length_nil]
    omega

end Endless

end Xkb
