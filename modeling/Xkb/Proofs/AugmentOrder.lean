import Xkb.Proofs.Section.ApartKeys
import Xkb.Proofs.Section.KeySteps
import Xkb.Proofs.Section.KeyTypes
import Xkb.Proofs.WarningLevel

/-! The order of two statements for one key does not matter where their records have nothing in
common. -/

namespace Xkb

/-- A key before its body is read. -/
def KeyDraft.begin (mode : MergeMode) (name : KeyName) : KeyDraft :=
  { KeyDraft.base with
    definition := { KeyDraft.base.definition with merge := mode, origin := .main }, name }

/-- The record that the body of a key makes, and whether the body is right. -/
def KeyDraft.record (scope : Scope) (mode : MergeMode) (name : KeyName) (body : List Assignment) :
    KeyDraft × Bool :=
  let made := (SymbolContents.empty.handleBody scope (KeyDraft.begin mode name) body (.atLevel 0)).1
  (made.1.2, made.2)

namespace SymbolContents

/-- An assignment to a field of its own key makes the same of the key in any section that has the
same defaults for actions, and leaves the section as it was. -/
theorem handleBodyAssignment_own {assigned : Assignment} (own : assigned.isOwn = true) (scope : Scope)
    {contents other : SymbolContents} (same : contents.actions = other.actions) (key : KeyDraft) :
    Alike (AtLevels fun _ _ => True) (contents.handleBodyAssignment scope key assigned)
      (other.handleBodyAssignment scope key assigned)
      fun made made' => made.1.1 = contents ∧ made'.1.1 = other ∧ made.1.2 = made'.1.2
        ∧ made.2 = made'.2 := by
  have set (field : String) (index : Option Expr) : Alike (AtLevels fun _ _ => True)
      (do
        let made ← key.setField scope contents.actions field index assigned.value
        return ((contents, made.1), made.2))
      (do
        let made ← key.setField scope other.actions field index assigned.value
        return ((other, made.1), made.2))
      fun made made' => made.1.1 = contents ∧ made'.1.1 = other ∧ made.1.2 = made'.1.2
        ∧ made.2 = made'.2 := by
    rw [same]
    have alike : KeyDraft.SetAlike (fun _ _ => True) id id _
        (key.setField scope other.actions field index assigned.value)
        (key.setField scope other.actions field index assigned.value) :=
      KeyDraft.setField_alike scope other.actions key field index assigned.value
    refine .bindTold alike.alike fun made => ?_
    exact .pure ⟨rfl, rfl, rfl, rfl⟩
  simp only [handleBodyAssignment]
  split
  · exact set _ _
  · next target => simp [Assignment.isOwn, target] at own
  · split
    · exact set _ _
    · exact AtLevels.error (.pure ⟨rfl, rfl, rfl, rfl⟩)

variable {body : List Assignment}

/-- The body of a key makes the same record in any section that has the same defaults for actions,
and leaves the section as it was. -/
theorem handleBody_own (own : ∀ assigned ∈ body, assigned.isOwn = true) (scope : Scope)
    (contents other : SymbolContents) (same : contents.actions = other.actions) (key : KeyDraft) :
    Alike (AtLevels fun _ _ => True) (contents.handleBody scope key body)
      (other.handleBody scope key body)
      fun made made' => made.1.1 = contents ∧ made'.1.1 = other ∧ made.1.2 = made'.1.2
        ∧ made.2 = made'.2 := by
  refine .foldlM ⟨rfl, rfl, rfl, rfl⟩ ?_
  rintro assigned member ⟨⟨_, key⟩, right⟩ ⟨⟨_, _⟩, _⟩ ⟨rfl, rfl, rfl, rfl⟩
  refine .bind (handleBodyAssignment_own (own assigned member) scope same key) ?_
  rintro ⟨⟨_, key⟩, right⟩ ⟨⟨_, _⟩, _⟩ ⟨rfl, rfl, rfl, rfl⟩
  exact .pure ⟨rfl, rfl, rfl, rfl⟩

theorem keptBySettings_recorded (mode : MergeMode) (name : KeyName) :
    KeptBySettings (fun _ => True) fun key =>
      key.Recorded ∧ key.name = name ∧ key.definition.merge = mode where
  base _ _ := Gives.trivial _
  others _ _ _ := trivial
  key known sets := sets.sets.mono fun _ assigned => ⟨assigned.recorded known.1,
    assigned.same.1.trans known.2.1, assigned.same.2.trans known.2.2⟩

/-- The body of a key makes a record of the same name and mode, in which what is not set is as keys
have it at the start. -/
theorem handleBody_recorded (scope : Scope) (contents : SymbolContents) (mode : MergeMode)
    (name : KeyName) (body : List Assignment) :
    Gives (contents.handleBody scope (.begin mode name) body) fun made =>
      made.1.2.Recorded ∧ made.1.2.name = name ∧ made.1.2.definition.merge = mode :=
  (handleBody_kept (keptBySettings_recorded mode name) scope trivial
    ⟨KeyDraft.base_recorded name _, rfl, rfl⟩ body).mono fun _ => And.right

theorem handleKey_own (own : ∀ assigned ∈ body, assigned.isOwn = true) {scope : Scope}
    {contents : SymbolContents} {header : Header} (main : header.origin = .main)
    (based : contents.base = .base) (defaults : contents.actions = .empty)
    (ungrouped : contents.group = 0) {mode : MergeMode} {name : KeyName}
    {holds : SymbolContents → Prop}
    (adds : Gives (contents.addKey scope.keycodes (KeyDraft.record scope mode name body).1) holds) :
    Gives (contents.handleKey scope header mode name body) fun made =>
      made.2 = (KeyDraft.record scope mode name body).2 ∧ (made.2 = true → holds made.1) := by
  have read : Gives (contents.handleBody scope (.begin mode name) body) fun made =>
      made = ((contents, (KeyDraft.record scope mode name body).1),
        (KeyDraft.record scope mode name body).2) := by
    intro diagnostics
    obtain ⟨⟨same, _, sameKey, sameRight⟩, _⟩ :=
      handleBody_own own scope contents .empty defaults (.begin mode name) diagnostics (.atLevel 0)
        trivial
    exact Prod.ext (Prod.ext same sameKey) sameRight
  unfold handleKey
  rw [based, main]
  refine .bind read ?_
  rintro _ rfl
  dsimp only
  rw [ungrouped]
  refine .ite (fun wrong => .pure ?_) fun right => ?_
  · have bad : (KeyDraft.record scope mode name body).2 = false := by simpa using wrong
    simp [bad]
  · have good : (KeyDraft.record scope mode name body).2 = true := by simpa using right
    -- The keys of a section that is not included stay in their groups.
    have stays : Gives ((KeyDraft.record scope mode name body).1.moveGroup 0 (header.name.getD ""))
        (· = ((KeyDraft.record scope mode name body).1, true)) := Gives.pure rfl
    refine .bind stays ?_
    rintro _ rfl
    exact .bind adds fun made known => .pure ⟨good.symm, fun _ => known⟩

/-- A section with a single key. -/
def ofKey (key : KeyDraft) : SymbolContents :=
  { empty with keys := [key] }

theorem addKey_first (keycodes : KeycodeTable) (key : KeyDraft) :
    Gives (empty.addKey keycodes key) (· = ofKey key) := by
  have unknown (names : List KeyName) :
      (names.find? fun name => empty.keys.any (·.name == name)) = none := by
    simp [empty]
  simp only [addKey, unknown]
  exact .pure rfl

theorem addKey_again (keycodes : KeycodeTable) {old new : KeyDraft} (named : old.name = new.name)
    {holds : KeyDraft → Prop} (merges : Gives (old.merge new) holds) :
    Gives ((ofKey old).addKey keycodes new) fun made => ∃ key, holds key ∧ made = ofKey key := by
  have known : ([some new.name, keycodes.realName new.name].filterMap id |>.find? fun name =>
      (ofKey old).keys.any (·.name == name)) = some new.name := by
    simp [ofKey, named]
  simp only [addKey, known]
  have merged : Gives (mergeNamed new.name new [old]) fun keys => ∃ key, holds key ∧ keys = [key] := by
    simp only [mergeNamed, named, beq_self_eq_true, if_true]
    exact .bind merges fun key known => .pure ⟨key, known, rfl⟩
  refine .bind merged ?_
  rintro _ ⟨key, known, rfl⟩
  exact .pure ⟨key, known, rfl⟩

theorem apply_ofKey {left right : KeyDraft} (look : left.prepare.SameLook right.prepare)
    (name : Option String) (keymap : Keymap) :
    (ofKey left).apply name keymap = (ofKey right).apply name keymap := by
  simp only [apply, ofKey, List.isEmpty_cons, List.map_cons, List.map_nil, List.foldlM_cons,
    List.foldlM_nil, look.place]

end SymbolContents

namespace Assembly

variable {keycodes : KeycodeTable} {read : SectionReader Id SymbolContents}
  {modifiers : VirtualModifiers} {title : String} {name : KeyName}

theorem readStatements_key {mode merge : MergeMode} {body : List Assignment}
    {later : List Statement} {draft : Draft SymbolContents}
    (few : draft.header.errors + 1 ≤ errorLimit) {holds : SymbolContents × Bool → Prop}
    (handles : Gives (draft.contents.handleKey ⟨modifiers, keycodes⟩ draft.header (merge.or mode)
      name body) holds) {after : Draft SymbolContents → Workspace → Prop}
    (rest : ∀ contents right, holds (contents, right) →
      Leads (fun workspace => workspace.modifiers = modifiers)
        (readStatements keycodes read mode title later
          (Draft.addErrors { draft with contents } (if right then 0 else 1))) after) :
    Leads (fun workspace => workspace.modifiers = modifiers)
      (readStatements keycodes read mode title (.keySymbols merge name body :: later) draft)
      after := by
  have handled : Leads (fun workspace => workspace.modifiers = modifiers)
      (readStatement keycodes read mode draft (.keySymbols merge name body)) fun made workspace =>
      (∃ contents, made.1 = { draft with contents } ∧ holds (contents, made.2))
        ∧ workspace.modifiers = modifiers := by
    rintro workspace rfl
    exact ⟨⟨_, rfl, handles workspace.diagnostics⟩, rfl⟩
  refine .bind handled fun made => .given ?_
  rintro ⟨contents, same, known⟩
  obtain ⟨_, right⟩ := made
  dsimp only at same known ⊢
  subst same
  have next := rest contents right known
  -- One error more does not end the section.
  cases right with
  | false =>
    refine .ite (fun many => ?_) fun _ => next
    have counted : draft.header.errors + 1 > errorLimit := many
    omega
  | true =>
    refine .ite (fun many => ?_) fun _ => next
    have counted : draft.header.errors > errorLimit := many
    omega

/-- What a section with two statements for one key is read to: it is free of errors if both bodies
are right, and then holds the one key that their records make. -/
structure ReadPair (modifiers : VirtualModifiers) (title : String) (right : Bool)
    (holds : KeyDraft → Prop) (draft : Draft SymbolContents) (workspace : Workspace) : Prop where
  modifiers : workspace.modifiers = modifiers
  name : draft.header.name = some title
  clean : draft.isClean = right
  contents : right = true → ∃ key, holds key ∧ draft.contents = .ofKey key

theorem readStatements_pair {mode first second : MergeMode} {body other : List Assignment}
    (own : ∀ assigned ∈ body, assigned.isOwn = true)
    (otherOwn : ∀ assigned ∈ other, assigned.isOwn = true) (title : String)
    {left right : KeyDraft × Bool}
    (leftMade : KeyDraft.record ⟨modifiers, keycodes⟩ (first.or mode) name body = left)
    (rightMade : KeyDraft.record ⟨modifiers, keycodes⟩ (second.or mode) name other = right)
    (named : left.1.name = right.1.name) {holds : KeyDraft → Prop}
    (merges : Gives (left.1.merge right.1) holds) :
    Leads (fun workspace => workspace.modifiers = modifiers)
      (readStatements keycodes read mode title
        [.keySymbols first name body, .keySymbols second name other]
        (Draft.empty.begin title .main))
      (ReadPair modifiers title (left.2 && right.2) holds) := by
  subst leftMade rightMade
  have first := SymbolContents.addKey_first keycodes
    (KeyDraft.record ⟨modifiers, keycodes⟩ (first.or mode) name body).1
  have none : 0 + 1 ≤ errorLimit := by decide
  have one : 1 + 1 ≤ errorLimit := by decide
  refine readStatements_key none (SymbolContents.handleKey_own own rfl rfl rfl rfl first) ?_
  rintro contents good ⟨sameRight, sameContents⟩
  cases good with
  | false =>
    -- Whatever the second statement does, the error of the first one stays.
    refine readStatements_key one (.trivial _) fun contents good _ => ?_
    refine .pure fun workspace same => ⟨same, rfl, ?_, ?_⟩
    · rw [← sameRight]
      cases good <;> rfl
    · rw [← sameRight]
      exact nofun
  | true =>
    have only := sameContents rfl
    subst only
    refine readStatements_key none (SymbolContents.handleKey_own otherOwn rfl rfl rfl rfl
      (SymbolContents.addKey_again keycodes named merges)) ?_
    rintro contents good ⟨sameOther, sameContents⟩
    refine .pure fun workspace same => ⟨same, rfl, ?_, fun right => ?_⟩
    · rw [← sameRight, ← sameOther]
      cases good <;> rfl
    · rw [← sameRight, ← sameOther] at right
      exact sameContents right

/-- Two sections that are read to keys which look the same once they are prepared are compiled to
the same keymap, or both fail. -/
theorem applyPart_pair {assembly : Assembly} {mode : MergeMode} {part other : Section}
    {right otherRight : Bool} {holds otherHolds : KeyDraft → Prop}
    (read : ReadPair assembly.keymap.modifiers title right holds
      (reading SymbolContents assembly mode part).1 (reading SymbolContents assembly mode part).2)
    (otherRead : ReadPair assembly.keymap.modifiers title otherRight otherHolds
      (reading SymbolContents assembly mode other).1 (reading SymbolContents assembly mode other).2)
    (same : right = otherRight)
    (look : ∀ key otherKey, holds key → otherHolds otherKey → key.prepare.SameLook otherKey.prepare) :
    (applyPart mode part addSymbols assembly).1 = (applyPart mode other addSymbols assembly).1 ∧
      (applyPart mode part addSymbols assembly).2.keymap
        = (applyPart mode other addSymbols assembly).2.keymap := by
  subst same
  have sameKeymap : (assembly.afterReading (reading SymbolContents assembly mode part).2).keymap
      = (assembly.afterReading (reading SymbolContents assembly mode other).2).keymap := by
    simp only [afterReading, read.modifiers, otherRead.modifiers]
  cases right with
  | false =>
    rw [applyPart_of_errors addSymbols read.clean, applyPart_of_errors addSymbols otherRead.clean]
    exact ⟨rfl, sameKeymap⟩
  | true =>
    rw [applyPart_of_clean addSymbols read.clean, applyPart_of_clean addSymbols otherRead.clean]
    obtain ⟨key, known, contents⟩ := read.contents rfl
    obtain ⟨otherKey, otherKnown, otherContents⟩ := otherRead.contents rfl
    dsimp only
    rw [contents, otherContents, read.name, otherRead.name, sameKeymap]
    have applied := SymbolContents.apply_ofKey (look key otherKey known otherKnown)
    simp only [addSymbols, applied]
    -- What was reported while the sections were read makes no difference.
    have alike : Alike (AtLevels fun _ _ => True)
        (addSymbols (.ofKey otherKey) (some title)
          (assembly.afterReading (reading SymbolContents assembly mode other).2).keymap) _ Eq :=
      addSymbols_alike _ _ _
    have values := (alike (reading SymbolContents assembly mode part).2.diagnostics
      (reading SymbolContents assembly mode other).2.diagnostics trivial).1
    have unbound := congrArg (fun made : Keymap × List IndicatorDraft => some made.2) values
    exact ⟨unbound, congrArg Prod.fst values⟩

/-- A section of two statements for one key, neither of which replaces the other, is compiled to the
same keymap in either order, or fails in both, if each body is for its key alone, the records mark
no group and set no field in common and their lists have levels, and if no group is left out before
the last one or the first group has no actions. -/
theorem compilePart_keys_in_any_order (assembly : Assembly) (mode : MergeMode) (part : Section)
    (symbols : part.kind = .symbols) (name : KeyName) (first second : MergeMode)
    (firstKeeps : first.or mode ≠ .replace) (secondKeeps : second.or mode ≠ .replace)
    (body other : List Assignment) (own : ∀ assigned ∈ body, assigned.isOwn = true)
    (otherOwn : ∀ assigned ∈ other, assigned.isOwn = true) :
    let scope : Scope := ⟨assembly.keymap.modifiers, assembly.keymap.keycodes⟩
    let left := (KeyDraft.record scope (first.or mode) name body).1
    let right := (KeyDraft.record scope (second.or mode) name other).1
    left.Apart right → left.Leveled → right.Leveled →
    (¬KeyDraft.HasGap (left.definedGroups ||| right.definedGroups)
      ∨ (left.groupAt 0).actions = none ∧ (right.groupAt 0).actions = none) →
    let forth := compilePart mode { part with
      statements := [.keySymbols first name body, .keySymbols second name other] } assembly
    let back := compilePart mode { part with
      statements := [.keySymbols second name other, .keySymbols first name body] } assembly
    forth.1 = back.1 ∧ forth.2.keymap = back.2.keymap := by
  intro scope left right apart leftLeveled rightLeveled filled
  obtain ⟨leftRecorded, leftName, leftMode⟩ :=
    SymbolContents.handleBody_recorded scope .empty (first.or mode) name body (.atLevel 0)
  obtain ⟨rightRecorded, rightName, rightMode⟩ :=
    SymbolContents.handleBody_recorded scope .empty (second.or mode) name other (.atLevel 0)
  have named : left.name = right.name := leftName.trans rightName.symm
  have merges := KeyDraft.merge_merging leftRecorded rightRecorded rightLeveled apart
    fun replaces => secondKeeps (rightMode.symm.trans replaces)
  have reverses := KeyDraft.merge_merging rightRecorded leftRecorded leftLeveled apart.symm
    fun replaces => firstKeeps (leftMode.symm.trans replaces)
  simp only [compilePart, symbols]
  refine applyPart_pair (readStatements_pair own otherOwn part.name rfl rfl named merges
    assembly.workspace rfl) (readStatements_pair otherOwn own part.name rfl rfl named.symm reverses
    assembly.workspace rfl) (Bool.and_comm ..) ?_
  rintro _ _ ⟨forth, merging, rfl⟩ ⟨back, reverse, rfl⟩
  exact merging.prepare_sameLook reverse leftRecorded rightRecorded leftLeveled rightLeveled apart
    named filled

/-- A keymap in the making with a single key. -/
def escapeOnly : Assembly :=
  ⟨{ Keymap.empty with
      keycodes := { KeycodeTable.empty with
        low := 9, high := 9
        names := KeycodeTable.empty.names.setIfInBounds 9 (.ofString "ESC") } }, .atLevel 0, .empty⟩

/-- An assignment to a field of a group. -/
def groupField (field group : String) (value : Expr) : Assignment :=
  ⟨.unspecified, some (.arrayRef none field (.ident group)), some value⟩

/-- An action that sets the shift modifier. -/
def shifting : Expr :=
  .calls [.call "SetMods" [.binary .assign (.ident "modifiers") (.ident "Shift")]]

/-- Symbols without statements. -/
def noSymbols : Section :=
  ⟨.symbols, "s", 0, [], []⟩

/-- Symbols that consist of two statements for the key, in this order. -/
def escapeSymbols (body other : List Assignment) : Section :=
  { noSymbols with
    statements := [.keySymbols .augment (.ofString "ESC") body,
      .keySymbols .augment (.ofString "ESC") other] }

/-- The record that a body makes of the key. -/
def escapeRecord (body : List Assignment) : KeyDraft :=
  (KeyDraft.record ⟨escapeOnly.keymap.modifiers, escapeOnly.keymap.keycodes⟩ .augment
    (.ofString "ESC") body).1

/-- The groups of the key after the symbols are compiled. -/
def escapeGroups (body other : List Assignment) : List KeyGroup :=
  let outcome := compilePart .override (escapeSymbols body other) escapeOnly
  ((outcome.2.keymap.key? 9).getD .empty).groups

/-- A type for the first group. -/
def typing : List Assignment :=
  [groupField "type" "Group1" (.text "ONE_LEVEL")]

/-- An action for a group. -/
def shiftingIn (group : String) : List Assignment :=
  [groupField "actions" group shifting]

/-- A type for the first group and an action for the third make a key of three groups in either
order. -/
theorem compilePart_keys_in_any_order_typed :
    let left := escapeRecord typing
    let right := escapeRecord (shiftingIn "Group3")
    let forth := compilePart .override (escapeSymbols typing (shiftingIn "Group3")) escapeOnly
    let back := compilePart .override (escapeSymbols (shiftingIn "Group3") typing) escapeOnly
    left.Apart right ∧ (left.Leveled ∧ right.Leveled)
      ∧ ((left.groupAt 0).actions = none ∧ (right.groupAt 0).actions = none)
      ∧ (escapeGroups typing (shiftingIn "Group3")).length = 3
      ∧ forth.1 = back.1 ∧ forth.2.keymap = back.2.keymap := by
  have apart : (escapeRecord typing).Apart (escapeRecord (shiftingIn "Group3")) := by
    decide +kernel
  have leveled : (escapeRecord typing).Leveled ∧ (escapeRecord (shiftingIn "Group3")).Leveled := by
    decide +kernel
  have silent : ((escapeRecord typing).groupAt 0).actions = none
      ∧ ((escapeRecord (shiftingIn "Group3")).groupAt 0).actions = none := by
    decide +kernel
  have filled : ¬KeyDraft.HasGap ((escapeRecord typing).definedGroups
        ||| (escapeRecord (shiftingIn "Group3")).definedGroups)
      ∨ ((escapeRecord typing).groupAt 0).actions = none
        ∧ ((escapeRecord (shiftingIn "Group3")).groupAt 0).actions = none := .inr silent
  have ordered := compilePart_keys_in_any_order escapeOnly .override noSymbols rfl (.ofString "ESC")
    .augment .augment (by decide) (by decide) typing (shiftingIn "Group3") (by decide) (by decide)
    apart leveled.1 leveled.2 filled
  have three : (escapeGroups typing (shiftingIn "Group3")).length = 3 := by decide +kernel
  exact ⟨apart, leveled, silent, three, by simpa only [escapeSymbols] using ordered⟩

/-- With actions in the first group and a group left out the order matters: the actions are passed
on only where the first group comes first. -/
theorem compilePart_passes_on_actions_of_first :
    let left := escapeRecord (shiftingIn "Group1")
    let right := escapeRecord (shiftingIn "Group3")
    let acts (groups : List KeyGroup) : List (Option (List Bool)) :=
      groups.map fun group => group.actions.map (·.map (! ·.isNone))
    left.Apart right ∧ (left.Leveled ∧ right.Leveled)
      ∧ acts (escapeGroups (shiftingIn "Group1") (shiftingIn "Group3"))
        = [some [true, false], some [true, false], some [true, false]]
      ∧ acts (escapeGroups (shiftingIn "Group3") (shiftingIn "Group1"))
        = [some [true, false], some [false, false], some [true, false]] := by
  decide +kernel

end Assembly

end Xkb
