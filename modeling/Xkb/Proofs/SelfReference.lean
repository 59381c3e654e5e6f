import Xkb.Proofs.Section.SoleInclude
import Xkb.Proofs.Source.Inclusion

/-! An include statement that begins with the including section itself, such as `include "|f"`,
against one that names the section only, such as `augment "f"`: they come to the same unless the
included section would take over what the including one holds. -/

namespace Xkb

open SectionContents (absorb builtin forTerm)

theorem Source.includeTerm_merge {merge : MergeMode} {spec : List Char} {term : IncludeTerm}
    (parsed : includeTerm merge spec = some term) : term.merge = merge := by
  simp only [includeTerm, Option.bind_eq_bind, Option.bind_eq_some_iff] at parsed
  obtain ⟨_, _, _, _, made⟩ := parsed
  cases made
  rfl

section Inclusions

variable {γ : Type} [SectionContents γ]

/-- Two drafts that differ at most in the names of the sections they recorded. -/
def Draft.SameButName (left right : Draft γ) : Prop :=
  { left with header := { left.header with name := right.header.name } } = right

/-- A term leads to a section that can be read, or needs none. -/
def Followed (read : SectionReader Id γ) (own : Draft γ) (term : IncludeTerm)
    (workspace : Workspace) : Prop :=
  (builtin term own.contents).isSome ∨
    (readTerm read own.contents term workspace).1.isOk

/-- Two ways to include a section into a draft that come to the same. If the section cannot be
followed, both count the same errors, and the first one loses what the draft held. -/
structure Interchangeable (followed : Prop) (own : Draft γ)
    (first second : (Draft γ × Bool) × Workspace) : Prop where
  draft : followed → first.1.1.SameButName second.1.1
  reports : followed → first.2.diagnostics = second.2.diagnostics
  failed : ¬followed → first.1.1 = Draft.empty.addErrors failedIncludeErrors ∧
    second.1.1 = own.addErrors failedIncludeErrors
  right : first.1.2 = second.1.2
  modifiers : first.2.modifiers = second.2.modifiers
  library : first.2.library = second.2.library

variable {keycodes : KeycodeTable} {read : SectionReader Id γ} {own : Draft γ}
  {term : IncludeTerm} {included : IncludeStatement} {self : IncludeTerm}

/-- A term behind the including section itself is read without anything and then added to the
draft, which is out of place in the meantime. -/
theorem followInclude_behind_self (isSelf : self.isSelf = true) (named : term.isSelf = false)
    (terms : included.terms = [self, term]) (clean : own.isClean = true)
    (plain : builtin term own.contents = none) :
    followInclude keycodes read own included = (do
      match ← readTerm read SectionContents.empty term with
      | .error error => failInclusion Draft.empty included error
      | .ok draft => absorbInto keycodes term.merge draft own) := by
  have outside : (Draft.empty : Draft γ).contents = SectionContents.empty := rfl
  simp only [followInclude, terms, isSelf, if_true, clean, Inclusion.finish, Inclusion.addTerm,
    named, Bool.false_eq_true, if_false, plain, bind_assoc, outside]
  refine bind_congr fun outcome => ?_
  cases outcome with
  | error error => rfl
  | ok draft => rfl

theorem readTerm_congr {parent other : γ}
    (inherits : forTerm term parent = forTerm term other) :
    readTerm read parent term = readTerm read other term := by
  simp only [readTerm, inherits]

/-- How contents are added does not depend on the name of the section they are from. -/
def AbsorbsUnnamed (γ : Type) [SectionContents γ] : Prop :=
  ∀ scope mode (header : Header) name (new old : γ),
    absorb scope mode { header with name } new old =
      absorb scope mode header new old

theorem absorb_sameButName (unnamed : AbsorbsUnnamed γ) (scope : Scope) (mode : MergeMode)
    (new old : Draft γ) (name : Option String) (diagnostics : Diagnostics) :
    let first := Draft.absorb scope mode new old diagnostics
    let second := Draft.absorb scope mode { new with header := { new.header with name } } old
      diagnostics
    first.1.SameButName second.1 ∧ first.1.isClean = second.1.isClean ∧ first.2 = second.2 := by
  intro first second
  by_cases clean : new.isClean
  · -- The contents are added, and the name is taken over only if there is none.
    have firstEq : first = (do
        let made ← absorb scope mode new.header new.contents old.contents
        return (⟨⟨old.header.name <|> new.header.name, old.header.origin,
          old.header.errors + made.2⟩, made.1⟩ : Draft γ) : Report (Draft γ)) diagnostics := by
      simp only [first, Draft.absorb, clean]
      rfl
    have secondEq : second = (do
        let made ← absorb scope mode new.header new.contents old.contents
        return (⟨⟨old.header.name <|> name, old.header.origin,
          old.header.errors + made.2⟩, made.1⟩ : Draft γ) : Report (Draft γ)) diagnostics := by
      have otherClean : Draft.isClean (⟨{ new.header with name }, new.contents⟩ : Draft γ) = true :=
        clean
      simp only [second, Draft.absorb, otherClean, unnamed scope mode new.header name]
      rfl
    rw [firstEq, secondEq]
    exact ⟨rfl, rfl, rfl⟩
  · -- Of a draft with errors only the errors are added.
    have firstEq : first = (old.addErrors new.header.errors, diagnostics) := by
      simp only [first, Draft.absorb, clean]
      rfl
    have secondEq : second = (old.addErrors new.header.errors, diagnostics) := by
      have dirty : new.isClean = false := by simpa using clean
      have otherDirty : Draft.isClean (⟨{ new.header with name }, new.contents⟩ : Draft γ) = false :=
        dirty
      simp only [second, Draft.absorb, otherDirty]
      rfl
    rw [firstEq, secondEq]
    exact ⟨rfl, rfl, rfl⟩

/-- Including a section behind the including one comes to the same as including it alone, if the
draft passes nothing on that an empty one would not pass on. -/
theorem followInclude_interchangeable (unnamed : AbsorbsUnnamed γ)
    {viaSelf direct : IncludeStatement} (isSelf : self.isSelf = true) (named : term.isSelf = false)
    (selfTerms : viaSelf.terms = [self, term]) (single : direct.terms = [term])
    (mode : direct.merge = term.merge) (clean : own.isClean = true)
    (inherits : forTerm term own.contents =
      forTerm term SectionContents.empty) (workspace : Workspace) :
    Interchangeable (Followed read own term workspace) own
      (followInclude keycodes read own viaSelf workspace)
      (followInclude keycodes read own direct workspace) := by
  cases plain : builtin term own.contents with
  | some contents =>
    -- An include that needs no file changes the draft where it is.
    have viaSelfEq : followInclude keycodes read own viaSelf workspace =
        (({ own with contents }, own.isClean), workspace) := by
      simp only [followInclude, selfTerms, isSelf, if_true, clean, Inclusion.finish,
        Inclusion.addTerm, named, Bool.false_eq_true, if_false, plain]
      exact congrArg (fun clean => (({ own with contents }, clean), workspace)) clean
    have directEq : followInclude keycodes read own direct workspace =
        (({ own with contents }, own.isClean), workspace) := by
      simp only [followInclude, single, named, Bool.false_eq_true, if_false, plain]
      rfl
    have followed : Followed read own term workspace := .inl (by rw [plain]; rfl)
    rw [viaSelfEq, directEq]
    exact ⟨fun _ => rfl, fun _ => rfl, fun failed => absurd followed failed, rfl, rfl, rfl⟩
  | none =>
    rw [followInclude_behind_self isSelf named selfTerms clean plain,
      followInclude_of_term named single plain, ← readTerm_congr inherits, mode, MergeMode.or_self]
    -- Up to here the two went the same way; they part with what was read.
    have onward : ∀ outcome after, readTerm read own.contents term workspace = (outcome, after) →
        Interchangeable (Followed read own term workspace) own
          ((match outcome with
            | .error error => failInclusion Draft.empty viaSelf error
            | .ok draft => absorbInto keycodes term.merge draft own : Reading _) after)
          ((match outcome with
            | .error error => failInclusion own direct error
            | .ok draft => absorbInto keycodes term.merge
              { draft with header := { draft.header with name := some direct.text } } own :
            Reading _) after) := by
      intro outcome after known
      cases outcome with
      | error error =>
        have unfollowed : ¬Followed read own term workspace := by
          simp [Followed, plain, known, Except.isOk, Except.toBool]
        exact ⟨fun followed => absurd followed unfollowed, fun followed => absurd followed unfollowed,
          fun _ => ⟨rfl, rfl⟩, rfl, rfl, rfl⟩
      | ok draft =>
        have followed : Followed read own term workspace := by
          simp [Followed, known, Except.isOk, Except.toBool]
        obtain ⟨sameDraft, sameClean, sameReports⟩ := absorb_sameButName unnamed
          ⟨after.modifiers, keycodes⟩ term.merge draft own (some direct.text) after.diagnostics
        exact ⟨fun _ => sameDraft, fun _ => sameReports, fun failed => absurd followed failed,
          sameClean, rfl, rfl⟩
    exact onward _ _ rfl

/-- Wherever the including section is free of errors and has contents of a sort, two include
statements come to the same. -/
def IncludedAlike (γ : Type) [SectionContents γ] (sort : γ → Prop) (term : IncludeTerm)
    (first second : IncludeStatement) : Prop :=
  ∀ keycodes (read : SectionReader Id γ) (own : Draft γ) workspace,
    own.isClean = true → sort own.contents →
      Interchangeable (Followed read own term workspace) own
        (followInclude keycodes read own first workspace)
        (followInclude keycodes read own second workspace)

end Inclusions

/-- An operator in front of a single term without a group comes to the same as the term in the mode
of the operator: always in keycodes and in compatibility sections, in types as long as no default
was changed, and in symbols as long as keys are put into the first group. -/
theorem include_behind_self {operator : Char} (joins : Source.isTermOperator operator = true)
    {text : String} {direct : IncludeStatement} {term : IncludeTerm}
    (parsed : Source.includeStatement (Source.operatorMode operator) text = some direct)
    (single : direct.terms = [term]) (named : term.isSelf = false) (ungrouped : term.group = none)
    (merge : MergeMode) :
    ∃ viaSelf, Source.includeStatement merge (String.singleton operator ++ text) = some viaSelf ∧
      IncludedAlike KeycodeContents (fun _ => True) term viaSelf direct ∧
      IncludedAlike CompatContents (fun _ => True) term viaSelf direct ∧
      IncludedAlike TypeContents (·.base = TypeContents.empty.base) term viaSelf direct ∧
      IncludedAlike SymbolContents (·.group = 0) term viaSelf direct := by
  obtain ⟨-, termRead, made⟩ := Source.includeStatement_single parsed single
  have mode : direct.merge = term.merge := by
    rw [made, Source.includeTerm_merge termRead]
  refine ⟨_, Source.includeStatement_operator joins parsed single named merge, ?_, ?_, ?_, ?_⟩
  · intro keycodes read own workspace clean _
    exact followInclude_interchangeable (fun _ _ _ _ _ _ => rfl) rfl named rfl single mode clean rfl
      workspace
  · intro keycodes read own workspace clean _
    exact followInclude_interchangeable (fun _ _ _ _ _ _ => rfl) rfl named rfl single mode clean rfl
      workspace
  · -- A types section passes its defaults on.
    intro keycodes read own workspace clean unchanged
    refine followInclude_interchangeable (fun _ _ _ _ _ _ => rfl) rfl named rfl single mode clean ?_
      workspace
    exact congrArg (fun base => { TypeContents.empty with base }) unchanged
  · -- A symbols section passes its group on where the term has none.
    intro keycodes read own workspace clean firstGroup
    refine followInclude_interchangeable (fun _ _ _ _ _ _ => rfl) rfl named rfl single mode clean ?_
      workspace
    have passed (contents : SymbolContents) : forTerm term contents =
        { SymbolContents.empty with group := (term.group.map (·.toNat - 1)).getD contents.group } :=
      rfl
    rw [passed, passed, ungrouped, firstGroup]
    rfl

/-- A library with names for the first two groups. -/
def groupNamesAtHand : Library :=
  Library.empty.addSource .symbols "f"
    "xkb_symbols \"f\" \x7b name[Group1] = \"first\"; name[Group2] = \"second\"; \x7d;"

/-- A symbols section that has a name for the first group. -/
def groupNamed : Draft SymbolContents :=
  ⟨⟨some "s", .main, 0⟩, { SymbolContents.empty with groupNames := #v[some "own", none, none, none] }⟩

/-- A name that the section has stays, and the other one comes in, whether the section is included
behind the including one or alone. -/
theorem include_behind_self_group_names :
    let workspace : Workspace := ⟨.empty, .atLevel 0, groupNamesAtHand⟩
    let read : SectionReader Id SymbolContents := readSection .empty 1 .override
    let term : IncludeTerm := ⟨.augment, some "f", none, none⟩
    let direct : IncludeStatement := ⟨.augment, "f", [term]⟩
    Source.isTermOperator '|' = true ∧
      Source.includeStatement (Source.operatorMode '|') "f" = some direct ∧
      term.isSelf = false ∧ term.group = none ∧ groupNamed.isClean = true ∧
      groupNamed.contents.group = 0 ∧
      (followInclude .empty read groupNamed direct workspace).1.1.contents.groupNames
        = #v[some "own", some "second", none, none] ∧
      ∃ viaSelf, Source.includeStatement .unspecified "|f" = some viaSelf ∧
        Interchangeable (Followed read groupNamed term workspace) groupNamed
          (followInclude .empty read groupNamed viaSelf workspace)
          (followInclude .empty read groupNamed direct workspace) := by
  intro workspace read term direct
  have joins : Source.isTermOperator '|' = true := rfl
  have parsed : Source.includeStatement (Source.operatorMode '|') "f" = some direct := by
    decide +kernel
  refine ⟨joins, parsed, rfl, rfl, rfl, rfl, by decide +kernel, ?_⟩
  obtain ⟨viaSelf, viaParsed, -, -, -, symbols⟩ :=
    include_behind_self joins parsed rfl rfl rfl .unspecified
  exact ⟨viaSelf, viaParsed, symbols .empty read groupNamed workspace rfl rfl⟩

/-- A library with a type that says nothing of its modifiers. -/
def typeAtHand : Library :=
  Library.empty.addSource .types "f" "xkb_types \"f\" \x7b type \"X\" \x7b map[Shift] = Level2; \x7d; \x7d;"

/-- A types section that makes Shift the default and then includes the type. -/
def shiftingTypes (included : IncludeStatement) : Section :=
  ⟨.types, "t", 0,
    [.assignment ⟨.unspecified, some (.fieldRef "type" "modifiers"), some (.ident "Shift")⟩,
      .inclusion included], []⟩

/-- The modifiers of the type that a section with an include statement is compiled to. -/
def shiftedMods (text : String) (merge : MergeMode) : Option (Option ModMask) :=
  (Source.includeStatement merge text).map fun included =>
    ((Assembly.compilePart .override (shiftingTypes included)
      ⟨.empty, .atLevel 0, typeAtHand⟩).2.keymap.types.types.find? (·.name == "X")).map (·.mods)

/-- A default that the including section set counts in a section that is included alone, and is lost
in one that is included behind the including section. -/
theorem include_behind_self_loses_default :
    shiftedMods "f" .override = some (some ⟨1, 0⟩) ∧
      shiftedMods "+f" .unspecified = some (some ⟨0, 0⟩) := by
  decide +kernel

end Xkb
