import Xkb.Proofs.Assembly
import Xkb.Proofs.Section.Cycles
import Xkb.Proofs.Section.KeyAliases

/-! A symbols section is read alike with its keys under aliases and under the names these stand for,
as long as its statements and those it includes do not name one key in different ways. -/

namespace Xkb

/-- A key of a name is defined by one of the statements. -/
def Defined (statements : List Statement) (name : KeyName) : Prop :=
  ∃ statement ∈ statements, ∃ merge, statement.Defines merge name

/-- The section with other names for the keys that its statements define. -/
def Section.rename (named : KeyName → KeyName) (part : Section) : Section :=
  { part with statements := part.statements.map (Statement.rename named) }

theorem Library.termCount_rename (named : KeyName → KeyName) (part : Section) :
    termCount (part.rename named) = termCount part := by
  simp only [termCount, total, Section.rename, List.foldr_map]
  congr 1
  funext statement rest
  cases statement <;> rfl

/-- A key of a name is defined by a section that is included by one of the statements, from include
to include. -/
def Library.Brings (library : Library) (statements : List Statement) (name : KeyName) : Prop :=
  ∃ included term found statement merge, .inclusion included ∈ statements ∧
    term ∈ included.terms ∧ term.isSelf = false ∧
    library.Offers .symbols (term.file.getD "") term.map found ∧
    library.Contributes .symbols found statement ∧ statement.Defines merge name

/-- A key of a name is defined by one of the statements or by what they include. -/
def Library.Names (library : Library) (statements : List Statement) (name : KeyName) : Prop :=
  Defined statements name ∨ library.Brings statements name

theorem Library.Names.cons {library : Library} {statements : List Statement} {name : KeyName}
    (names : library.Names statements name) (statement : Statement) :
    library.Names (statement :: statements) name := by
  rcases names with ⟨known, member, defines⟩ | ⟨included, term, found, known, merge, stands, brings⟩
  · exact .inl ⟨known, List.mem_cons_of_mem _ member, defines⟩
  · exact .inr ⟨included, term, found, known, merge, List.mem_cons_of_mem _ stands, brings⟩

namespace SymbolContents

variable {keycodes : KeycodeTable} {named : KeyName → KeyName} {sole shown : KeyName → Prop}
  {levels : Nat → Nat → Prop} {texts : Library} {stack : List Frame}

/-- The workspaces on both sides, with the same modifiers and the same library. -/
abbrev BothAt (levels : Nat → Nat → Prop) (texts : Library) (stack : List Frame) :
    Workspace → Workspace → Prop :=
  Workspace.Matched (AtLevels levels) (fun _ => True) (texts.SameAt stack)

variable {statements : List Statement} {name : KeyName} {merge : MergeMode}
  {read : SectionReader Id SymbolContents}

/-- Sections that are included are the same on both sides, and bring none but certain names. -/
theorem termsAlike_named (limit : Nat)
    (guest : ∀ name, texts.Brings statements name → Guest named sole name)
    {included : IncludeStatement} (stands : .inclusion included ∈ statements) :
    TermsAlike plainly (BothAt levels texts stack) id (Guests named sole) (Hosts named sole shown)
      (readSection keycodes limit .override) (readSection keycodes limit .override)
      included.terms := by
  intro term member notSelf parent otherParent parents
  -- An included section starts out with the group of the including one and nothing else.
  have starts : (SectionContents.forTerm term parent : SymbolContents) =
      SectionContents.forTerm term otherParent := by
    rcases parents with ⟨told, -⟩ | ⟨same, -⟩
    · rw [told]
      rfl
    · rw [same]
  have bare : (SectionContents.forTerm term parent : SymbolContents).NamedBy (Guest named sole) :=
    ⟨fun _ member => absurd member List.not_mem_nil, List.nodup_nil⟩
  have alike := @readTerm_shared SymbolContents _ (AtLevels levels) id Eq (fun _ => True)
    term (readSection keycodes limit .override) (readSection keycodes limit .override)
    (Lenient.atLevels levels) rfl (fun part position draft other same =>
      readSection_alike (Lenient.atLevels levels) (Admits.anything _) (uniform_same keycodes) limit
        .override part (.included (term.file.getD "") position) same) parent otherParent starts
  have maintains : Maintains SymbolContents
      (fun statement => ∀ merge name, statement.Defines merge name → Guest named sole name)
      (NamedBy (Guest named sole)) :=
    maintains_namedBy fun merge name body known => known merge name ⟨body, rfl⟩
  have within : Within plainly texts stack (NamedBy (Guest named sole))
      (readSection keycodes limit .override : SectionReader Id SymbolContents)
      (readSection keycodes limit .override) term := by
    intro found offered _ origin draft begun
    refine readSection_keeps maintains texts keycodes limit .override
      (fun statement leads merge name defines => guest name ?_) origin draft begun _
    exact ⟨included, _, found, statement, merge, stands, member, notSelf, offered, leads, defines⟩
  intro first second ⟨modifiers, allowed, reports, sameLibrary, atStack⟩
  obtain ⟨outcome, ends⟩ := alike first second ⟨modifiers, allowed, reports, sameLibrary⟩
  have start : AtStack texts stack first := atStack
  obtain ⟨names, stays⟩ := within.readTerm bare _ _ start.both
  refine ⟨?_, ends.modifiers, ends.allowed, ends.reports, ends.libraries, stays.libraries.2⟩
  revert outcome names
  generalize (readTerm (readSection keycodes limit .override : SectionReader Id SymbolContents)
    parent term first).1 = made
  generalize (readTerm (readSection keycodes limit .override : SectionReader Id SymbolContents)
    otherParent term second).1 = other
  intro outcome names
  cases outcome with
  | error error => exact .error error
  | ok same =>
    cases names with
    | ok known => exact .ok ⟨same.header, same.contents, known.contents.2⟩

/-- A name for a key that may be left as it is: the key is one of certain keys, and neither the
statements to come nor what they include name it in another way. -/
def Sole (texts : Library) (named : KeyName → KeyName) (alone : KeyName → Prop)
    (later : List Statement) (name : KeyName) : Prop :=
  alone (named name) ∧ ∀ other, texts.Names later other → named other = named name → other = name

/-- Every statement that names a key by a name which is changed adds to what a statement before it
said of the key under the name it is changed to, or its name may be left as it is. -/
def Settles (texts : Library) (named : KeyName → KeyName) (alone : KeyName → Prop)
    (mode : MergeMode) (statements : List Statement) : Prop :=
  ∀ before statement after merge name, statements = before ++ statement :: after →
    statement.Defines merge name → named name ≠ name →
      merge.or mode ≠ .replace ∧ Defined before (named name) ∨ Sole texts named alone after name

variable {alone : KeyName → Prop} {mode : MergeMode} {before rest : List Statement}
  {statement : Statement} {names : List KeyName}

theorem Sole.later (isSole : Sole texts named alone (statement :: rest) name) :
    Sole texts named alone rest name := by
  exact ⟨isSole.1, fun other names => isSole.2 other (names.cons statement)⟩

theorem Sole.here (defines : statement.Defines merge name)
    (isSole : Sole texts named alone rest name) :
    Sole texts named alone (statement :: rest) name := by
  refine ⟨isSole.1, fun other names => ?_⟩
  obtain ⟨body, rfl⟩ := defines
  rcases names with ⟨known, member, otherMerge, otherDefines⟩ | ⟨included, term, found, known, otherMerge, stands, brings⟩
  · rcases List.mem_cons.mp member with rfl | later
    · obtain ⟨_, given⟩ := otherDefines
      cases given
      exact fun _ => rfl
    · exact isSole.2 other (.inl ⟨known, later, otherMerge, otherDefines⟩)
  · -- The statement itself includes nothing.
    have later : .inclusion included ∈ rest := by simpa using stands
    exact isSole.2 other (.inr ⟨included, term, found, known, otherMerge, later, brings⟩)

theorem Kept.next (resolves : keycodes.Resolves named)
    (kept : Kept named (Sole texts named alone (statement :: rest))
      (fun name => Defined before name ∨
        ∃ merge given, statement.Defines merge given ∧ name = named given) names) :
    Kept named (Sole texts named alone rest) (Defined (before ++ [statement])) names := by
  refine kept.mono (fun _ isSole => isSole.later) ?_
  intro name ⟨known, member, merge, defines⟩ other differs reached
  rcases List.mem_append.mp member with early | last
  · exact .inl ⟨known, early, merge, defines⟩
  · -- A name that another one is changed to is not changed itself.
    have same : named name = name := reached ▸ resolves.again other
    exact .inr ⟨merge, name, List.mem_singleton.mp last ▸ defines, same.symm⟩

/-- A key that is there is named as a statement to come names it, or by what that name is changed
to. -/
theorem Kept.fits (kept : Kept named (Sole texts named alone (statement :: rest)) shown names)
    (defines : statement.Defines merge name) :
    Fits named name names := by
  intro old member reached
  by_cases same : named old = old
  · exact .inr (same.symm.trans reached)
  · obtain ⟨_, only⟩ := kept.sole old member same
    exact .inl (only name (.inl ⟨statement, by simp, merge, defines⟩) reached.symm).symm

theorem Kept.settles
    (kept : Kept named (Sole texts named alone (statement :: rest)) (Defined before) names)
    (settles : Settles texts named alone mode (before ++ statement :: rest))
    (defines : statement.Defines merge name) (differs : named name ≠ name)
    (added : merge.or mode = .replace ∨ named name ∉ names.map named) :
    Sole texts named alone (statement :: rest) name := by
  rcases settles before statement rest merge name rfl defines differs with ⟨keeps, earlier⟩ | isSole
  · -- The key is there under the other name, and the statement adds to it.
    have known := kept.shown (named name) earlier name differs rfl
    rcases added with replaces | absent
    · exact absurd replaces keeps
    · exact absurd known absent
  · exact isSole.here defines

/-- What is read of the including section up to a statement. -/
abbrev HostsAt (texts : Library) (named : KeyName → KeyName) (alone : KeyName → Prop)
    (before later : List Statement) : SymbolContents → SymbolContents → Prop :=
  Hosts named (Sole texts named alone later) (Defined before)

/-- A statement is read alike under the name of its key and under a changed one, unless it has an
error. -/
theorem readStatement_named (resolves : keycodes.Resolves named)
    (settles : Settles texts named alone mode (before ++ statement :: rest))
    (terms : ∀ included, statement = .inclusion included →
      TermsAlike plainly (BothAt levels texts stack) id (Guests named (Sole texts named alone (statement :: rest)))
        (HostsAt texts named alone before (statement :: rest)) read read included.terms)
    {draft other : Draft SymbolContents}
    (same : Draft.Matched id (HostsAt texts named alone before (statement :: rest)) draft other) :
    plainly.alike (BothAt levels texts stack) (readStatement keycodes read mode draft statement)
      (readStatement keycodes read mode other (statement.rename named))
      fun made other => other.2 = made.2 ∧
        (Draft.Matched id (HostsAt texts named alone (before ++ [statement]) rest) made.1 other.1 ∨
          made.1.isClean = false ∧ other.1.isClean = false ∨ made.2 = false) := by
  -- A statement that defines no key leaves the names as they are.
  have plain (none : ∀ merge name, ¬statement.Defines merge name) {left right : SymbolContents}
      (hosts : HostsAt texts named alone before (statement :: rest) left right) :
      HostsAt texts named alone (before ++ [statement]) rest left right := by
    refine ⟨hosts.1, Kept.next resolves (hosts.2.mono (fun _ isSole => isSole) ?_)⟩
    intro name wanted _ _ _
    refine wanted.resolve_right ?_
    intro ⟨merge, given, defines, _⟩
    exact none merge given defines
  have handled : plainly.alike (BothAt levels texts stack)
      (do
        let scope ← Reading.scope keycodes
        let made ← Reading.report (draft.contents.handle scope draft.header mode statement)
        return ({ draft with contents := made.1 }, made.2))
      (do
        let scope ← Reading.scope keycodes
        let made ← Reading.report
          (other.contents.handle scope other.header mode (statement.rename named))
        return ({ other with contents := made.1 }, made.2))
      fun made other => other.2 = made.2 ∧
        (Draft.Matched id (HostsAt texts named alone (before ++ [statement]) rest) made.1 other.1 ∨
          made.1.isClean = false ∧ other.1.isClean = false ∨ made.2 = false) := by
    obtain ⟨told, kept⟩ := same.contents
    refine plainly.next (plainly.scope keycodes) ?_
    rintro _ _ ⟨modifiers, rfl, rfl⟩
    rw [told, same.header]
    refine plainly.next (plainly.report (handle_named resolves modifiers draft.header mode
      kept (fun merge name defines => kept.fits defines) fun merge name defines differs =>
        kept.settles settles defines differs)) ?_
    intro ⟨made, right⟩ _ ⟨told, keeps⟩
    subst told
    refine plainly.pure ⟨rfl, ?_⟩
    cases right with
    | false => exact .inr (.inr rfl)
    | true => exact .inl ⟨rfl, rfl, Kept.next resolves (keeps rfl)⟩
  cases statement with
  | inclusion included =>
    have followed := followInclude_hosted (inclusive_named resolves) (Lenient.atLevels levels)
      (terms included rfl) (fun _ _ _ => visits_named resolves) same
    refine plainly.mono followed (fun _ _ begins => begins) ?_
    intro made other _ _ ⟨⟨hosted, sameRight⟩, ends⟩
    refine ⟨⟨sameRight.symm, ?_⟩, ends⟩
    rcases hosted with known | ⟨known, dirty⟩
    · exact .inl ⟨known.header, plain (fun _ _ ⟨_, same⟩ => nomatch same) known.contents⟩
    · exact .inr (.inl ⟨dirty, known.isClean_eq.trans dirty⟩)
  | virtualModifier merge name value =>
    have declares : SectionContents.declaresModifiers SymbolContents = true := rfl
    refine plainly.next (plainly.declareModifier (Lenient.atLevels levels)
      (Admits.anything SymbolContents) declares name value (merge.or mode)) fun right _ known => ?_
    refine plainly.pure ⟨known.symm, .inl ⟨same.header, ?_⟩⟩
    exact plain (fun _ _ ⟨_, same⟩ => nomatch same) same.contents
  | _ => exact handled

/-- What reading a section with changed names comes to: errors on both sides, or the same contents but
for the names. -/
def ReadNamed (named : KeyName → KeyName) (alone : KeyName → Prop) (levels : Nat → Nat → Prop)
    (texts : Library) (stack : List Frame) (made other : Draft SymbolContents)
    (first second : Workspace) : Prop :=
  (made.isClean = false ∧ other.isClean = false) ∨
    (∃ before, Draft.Matched id (HostsAt texts named alone before []) made other) ∧
      BothAt levels texts stack first second

/-- The statements of a section are read alike under the names of their keys and under changed
ones. -/
theorem readStatements_named (resolves : keycodes.Resolves named)
    (within : ∀ term, Within plainly texts stack (fun _ => True) read read term) (name : String)
    (settles : Settles texts named alone mode (before ++ statements))
    (terms : ∀ included, .inclusion included ∈ statements → ∀ before later,
      TermsAlike plainly (BothAt levels texts stack) id
        (Guests named (Sole texts named alone (.inclusion included :: later)))
        (HostsAt texts named alone before (.inclusion included :: later)) read read included.terms)
    {draft other : Draft SymbolContents}
    (same : Draft.Matched id (HostsAt texts named alone before statements) draft other) :
    Coupled (BothAt levels texts stack)
      (readStatements keycodes read mode name statements draft)
      (readStatements keycodes read mode name (statements.map (Statement.rename named)) other)
      (ReadNamed named alone levels texts stack) := by
  induction statements generalizing before draft other with
  | nil => exact .pure fun first second begins => .inr ⟨⟨before, same⟩, begins⟩
  | cons statement rest ih =>
    rw [List.map_cons, readStatements_cons, readStatements_cons]
    refine plainly.next (readStatement_named resolves settles
      (fun included this => this ▸ terms included (by simp [this]) before rest) same) ?_
    intro ⟨made, right⟩ ⟨otherMade, otherRight⟩ ⟨sameRight, known⟩
    have sameRight : otherRight = right := sameRight
    subst sameRight
    -- Errors stay to the end, whatever comes next.
    have spoilt {left right : Draft SymbolContents} (dirty : left.isClean = false)
        (otherDirty : right.isClean = false) :
        Coupled (BothAt levels texts stack) (readOn keycodes read mode name rest left)
          (readOn keycodes read mode name (rest.map (Statement.rename named)) right)
          (ReadNamed named alone levels texts stack) := by
      have plain (term : IncludeTerm) (contents : SymbolContents) :
          SectionContents.builtin term contents = none := rfl
      refine (Coupled.apart (readOn_dirty plain within mode name rest dirty)
        (readOn_dirty plain within mode name _ otherDirty) fun first second begins => ?_).mono
        fun _ _ _ _ both => .inl both
      obtain ⟨sameLibrary, atStack⟩ := begins.libraries
      refine ⟨atStack, ?_⟩
      show texts.Extends second.library ∧ second.library.stack = stack
      rw [← sameLibrary]
      exact atStack
    show Coupled (BothAt levels texts stack)
      (readOn keycodes read mode name rest (if otherRight then made else made.addErrors 1))
      (readOn keycodes read mode name (rest.map (Statement.rename named))
        (if otherRight then otherMade else otherMade.addErrors 1))
      (ReadNamed named alone levels texts stack)
    cases otherRight with
    | false =>
      have dirty (draft : Draft SymbolContents) : (draft.addErrors 1).isClean = false :=
        draft.addErrors_dirty (.inr Nat.one_pos)
      exact spoilt (dirty made) (dirty otherMade)
    | true =>
      rcases known with matched | ⟨dirty, otherDirty⟩ | wrong
      · cases clean : made.isClean with
        | false => exact spoilt clean (matched.isClean_eq.trans clean)
        | true =>
          simp only [if_true, readOn_clean mode name _ clean,
            readOn_clean mode name _ (matched.isClean_eq.trans clean)]
          exact ih (by simpa using settles)
            (fun included member => terms included (by simp [member])) matched
      · exact spoilt dirty otherDirty
      · cases wrong

end SymbolContents

open SymbolContents in
/-- A symbols section is read alike under the names of its keys and under changed ones, if no section
that it includes names a key by a name that is changed, or a key that is named so for good. -/
theorem Assembly.reading_named {assembly : Assembly} {named : KeyName → KeyName}
    {alone : KeyName → Prop} {mode : MergeMode} {part : Section}
    (resolves : assembly.keymap.keycodes.Resolves named)
    (settles : Settles assembly.library named alone mode part.statements)
    (guest : ∀ name, assembly.library.Brings part.statements name → named name = name) :
    let first := reading SymbolContents assembly mode part
    let second := reading SymbolContents assembly mode (part.rename named)
    ReadNamed named alone Eq assembly.library assembly.library.stack first.1 second.1 first.2
      second.2 := by
  let limit := Library.termCount part + assembly.library.reach
  let keycodes := assembly.keymap.keycodes
  have within (term : IncludeTerm) : Within plainly assembly.library assembly.library.stack
      (fun _ => True) (readSection keycodes limit .override : SectionReader Id SymbolContents)
      (readSection keycodes limit .override) term :=
    fun _ _ _ origin draft _ => readSection_keeps maintains_true assembly.library keycodes limit
      .override (fun _ _ => trivial) origin draft trivial _
  have terms (included : IncludeStatement) (stands : .inclusion included ∈ part.statements)
      (before later : List Statement) :
      TermsAlike plainly (BothAt Eq assembly.library assembly.library.stack) id
        (Guests named (Sole assembly.library named alone (.inclusion included :: later)))
        (HostsAt assembly.library named alone before (.inclusion included :: later))
        (readSection keycodes limit .override) (readSection keycodes limit .override)
        included.terms := by
    refine termsAlike_named limit ?_ (List.mem_singleton_self (Statement.inclusion included))
    intro name ⟨this, term, found, statement, merge, only, brings⟩
    rw [List.mem_singleton] at only
    cases only
    have same : named name = name := guest name ⟨included, term, found, statement, merge, stands, brings⟩
    refine ⟨same, fun other differs isSole reached => ?_⟩
    -- A key that keeps its name is named in no other way by what is included after that.
    have sameName := isSole.2 name
      (.inr ⟨included, term, found, statement, merge, List.mem_cons_self, brings⟩)
      (same.trans reached.symm)
    exact differs (reached.trans sameName)
  -- Both sections begin without keys, under the same header.
  have begun : Draft.Matched id (HostsAt assembly.library named alone [] part.statements)
      ((Draft.empty : Draft SymbolContents).begin part.name .main)
      (Draft.empty.begin part.name .main) := by
    refine ⟨rfl, rfl, (Kept.nil _).mono (fun _ isSole => isSole) ?_⟩
    intro name ⟨_, member, _⟩
    cases member
  have sameLimit : Library.termCount (part.rename named) + assembly.library.reach = limit := by
    rw [Library.termCount_rename]
  have second : reading SymbolContents assembly mode (part.rename named) =
      (readSection keycodes (limit + 1) mode (part.rename named) .main Draft.empty :
        Reading (Draft SymbolContents)) assembly.workspace := by
    rw [← sameLimit]
    rfl
  rw [second]
  exact readStatements_named resolves within part.name settles terms begun assembly.workspace
    assembly.workspace ⟨rfl, trivial, rfl, rfl, Library.Extends.refl _, rfl⟩

end Xkb
