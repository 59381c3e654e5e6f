import Xkb.Proofs.Aliases
import Xkb.Proofs.Section.AliasedStatements
import Xkb.Proofs.Section.PlacementAlike
import Xkb.Proofs.Section.RepeatedKeys

/-! A symbols section makes the same keys under aliases and under the names they stand for, where it
does not name a key in different ways. Where a statement adds to a key that an earlier one named by an
alias, the keys come out different. -/

namespace Xkb

namespace KeycodeTable

variable {table : KeycodeTable} {name real : KeyName}

/-- The name of the key that a name stands for: the name itself, unless it is an alias. -/
def resolve (table : KeycodeTable) (name : KeyName) : KeyName :=
  (table.realName name).getD name

theorem resolve_of_realName (isAlias : table.realName name = some real) :
    table.resolve name = real := by
  rw [resolve, isAlias, Option.getD_some]

theorem realName_of_resolve (differs : table.resolve name ≠ name) :
    table.realName name = some (table.resolve name) := by
  cases isAlias : table.realName name with
  | none => simp [resolve, isAlias] at differs
  | some real => rw [resolve_of_realName isAlias]

theorem Resolved.resolve_again (resolved : table.Resolved) (name : KeyName) :
    table.resolve (table.resolve name) = table.resolve name := by
  cases isAlias : table.realName name with
  | none => simp [resolve, isAlias]
  | some real =>
    rw [resolve_of_realName isAlias, resolve, resolved.flat.realName_eq_none isAlias,
      Option.getD_none]

theorem codesNamed_eq_nil (absent : table.findNamed name 0 = none) (start : Nat) :
    table.codesNamed name start = [] := by
  refine List.filter_eq_nil_iff.mpr fun code member => ?_
  have differs := List.find?_eq_none.mp absent code member
  simp only [Nat.zero_le, decide_true, Bool.true_and] at differs
  simp [differs]

theorem Resolved.codesFor_alias (resolved : table.Resolved)
    (isAlias : table.realName name = some real) {code : Nat}
    (single : table.codesNamed real 0 = [code]) : table.codesFor real = table.codesFor name := by
  have noKey := (resolved.of_realName isAlias).1
  have found : table.findNamed real 0 = some code := by
    rw [findNamed, ← List.head?_filter]
    exact congrArg List.head? single
  -- There is no code beyond the one that is found, neither of the name nor of the alias.
  have none : table.codesNamed real (code + 1) = [] := by
    refine List.eq_nil_iff_forall_not_mem.mpr fun other member => ?_
    obtain ⟨within, known⟩ := List.mem_filter.mp member
    simp only [Bool.and_eq_true, decide_eq_true_eq] at known
    have listed : other ∈ table.codesNamed real 0 := List.mem_filter.mpr ⟨within, by simp [known.2]⟩
    rw [single, List.mem_singleton] at listed
    omega
  simp only [codesFor, findKey, found, noKey, isAlias, Option.bind_some, none,
    codesNamed_eq_nil noKey]

end KeycodeTable

namespace KeyDraft

variable {types : TypeTable} {keycodes : KeycodeTable} {moved : Origin → Origin}
  {named : KeyName → KeyName}

theorem putOn_recast (codes : List Nat) (key : KeyDraft) (keys : Vector Key 256) :
    putOn types keycodes codes (key.recast moved named) keys = putOn types keycodes codes key keys := by
  induction codes generalizing key keys with
  | nil => rfl
  | cons code rest ih => exact ih (key.typed types) _

theorem putAll_recast {drafts : List KeyDraft}
    (same : ∀ key ∈ drafts, keycodes.codesFor (named key.name) = keycodes.codesFor key.name)
    (keys : Vector Key 256) :
    putAll types keycodes (drafts.map (recast moved named)) keys =
      putAll types keycodes drafts keys := by
  induction drafts generalizing keys with
  | nil => rfl
  | cons key rest ih =>
    have sameCodes : keycodes.codesFor (key.recast moved named).name = keycodes.codesFor key.name :=
      same key (by simp)
    simp only [putAll, List.map_cons, List.foldl_cons] at ih ⊢
    rw [sameCodes, putOn_recast]
    exact ih (fun other member => same other (by simp [member])) _

end KeyDraft

/-- Symbols are added alike under the names of their keys and under changed ones that lead to the same
codes. -/
theorem SymbolContents.apply_named {contents : SymbolContents} {keymap : Keymap}
    {named : KeyName → KeyName}
    (same : ∀ name ∈ contents.keys.map KeyDraft.name,
      keymap.keycodes.codesFor (named name) = keymap.keycodes.codesFor name)
    (label : Option String) :
    Alike (AtLevels fun _ _ => True) (contents.apply label keymap)
      ((contents.recast id named).apply label keymap) Eq := by
  refine Goes.alike (fun _ => apply_goes _ _ _) (fun _ => apply_goes _ _ _) fun first second => ?_
  rw [apply_gives, apply_gives]
  have sameEmpty : (contents.recast id named).keys.isEmpty = contents.keys.isEmpty := by
    simp [recast]
  -- Preparing comes before placing and does not touch the names.
  have prepared : (contents.recast id named).keys.map KeyDraft.prepare =
      (contents.keys.map KeyDraft.prepare).map (KeyDraft.recast id named) := by
    simp [recast, KeyDraft.prepare_recast]
  have sameCodes : ∀ key ∈ contents.keys.map KeyDraft.prepare,
      keymap.keycodes.codesFor (named key.name) = keymap.keycodes.codesFor key.name := by
    intro key member
    obtain ⟨original, known, rfl⟩ := List.mem_map.mp member
    rw [KeyDraft.prepare_name]
    exact same original.name (List.mem_map_of_mem known)
  simp only [applied, sameEmpty, prepared, KeyDraft.putAll_recast sameCodes]
  rfl

namespace Section

variable {library : Library} {keycodes : KeycodeTable} {mode : MergeMode} {part : Section}

/-- The section with the real name of a key in every statement that names the key by an alias. -/
def resolve (keycodes : KeycodeTable) (part : Section) : Section :=
  part.rename keycodes.resolve

/-- Where a statement names a key by an alias, included sections name the key by its real name; and
the statement adds to what an earlier one said of the key under that name, or the key has one code and
is named by the same alias from there on. -/
def NamesOneWay (library : Library) (keycodes : KeycodeTable) (mode : MergeMode) (part : Section) :
    Prop :=
  ∀ before statement after merge name real, part.statements = before ++ statement :: after →
    statement.Defines merge name → keycodes.realName name = some real →
      (∀ other, library.Brings part.statements other → keycodes.resolve other = real →
        other = real) ∧
      (merge.or mode ≠ .replace ∧ Defined before real ∨
        (∃ code, keycodes.codesNamed real 0 = [code]) ∧
          ∀ other, library.Names after other → keycodes.resolve other = real → other = name)

/-- Some statement of the section names the key of a real name by an alias. -/
def usesAlias (keycodes : KeycodeTable) (part : Section) (real : KeyName) : Bool :=
  part.statements.any fun
    | .keySymbols _ name _ => keycodes.realName name == some real
    | _ => false

/-- The change of names that resolves the aliases of keys which the section names by an alias. Other
aliases stay, since included sections may use them. -/
def ownName (keycodes : KeycodeTable) (part : Section) (name : KeyName) : KeyName :=
  if part.usesAlias keycodes (keycodes.resolve name) then keycodes.resolve name else name

theorem usesAlias_iff {real : KeyName} : part.usesAlias keycodes real = true ↔
    ∃ name, Defined part.statements name ∧ keycodes.realName name = some real := by
  simp only [usesAlias, List.any_eq_true]
  constructor
  · rintro ⟨statement, member, used⟩
    cases statement with
    | keySymbols merge name body =>
      exact ⟨name, ⟨_, member, merge, body, rfl⟩, by simpa using used⟩
    | _ => cases used
  · rintro ⟨name, ⟨statement, member, merge, body, rfl⟩, isAlias⟩
    exact ⟨_, member, by simp [isAlias]⟩

theorem rename_ownName (keycodes : KeycodeTable) (part : Section) :
    part.rename (part.ownName keycodes) = part.resolve keycodes := by
  have same : ∀ statement ∈ part.statements,
      statement.rename (part.ownName keycodes) = statement.rename keycodes.resolve := by
    intro statement member
    cases statement with
    | keySymbols merge name body =>
      have sameName : part.ownName keycodes name = keycodes.resolve name := by
        by_cases own : keycodes.resolve name = name
        · simp [ownName, own]
        · exact if_pos (usesAlias_iff.mpr ⟨name, ⟨_, member, merge, body, rfl⟩,
            KeycodeTable.realName_of_resolve own⟩)
      simp only [Statement.rename, sameName]
    | _ => rfl
  simp only [resolve, rename, List.map_congr_left same]

theorem ownName_changed {name : KeyName} (differs : part.ownName keycodes name ≠ name) :
    part.usesAlias keycodes (keycodes.resolve name) = true ∧
      part.ownName keycodes name = keycodes.resolve name ∧ keycodes.resolve name ≠ name := by
  by_cases used : part.usesAlias keycodes (keycodes.resolve name) = true
  · have same : part.ownName keycodes name = keycodes.resolve name := if_pos used
    exact ⟨used, same, same ▸ differs⟩
  · exact absurd (if_neg used) differs

theorem NamesOneWay.guest (oneWay : part.NamesOneWay library keycodes mode) (name : KeyName)
    (brings : library.Brings part.statements name) : part.ownName keycodes name = name := by
  by_cases same : part.ownName keycodes name = name
  · exact same
  · -- Some statement of the section names the key by an alias.
    obtain ⟨used, -, moved⟩ := ownName_changed same
    obtain ⟨given, ⟨statement, member, merge, defines⟩, isAlias⟩ := usesAlias_iff.mp used
    obtain ⟨before, after, split⟩ := List.append_of_mem member
    obtain ⟨real, -⟩ := oneWay before statement after merge given _ split defines isAlias
    exact absurd (real name brings rfl).symm moved

section

variable (resolved : keycodes.Resolved)

include resolved

theorem resolve_ownName (name : KeyName) :
    keycodes.resolve (part.ownName keycodes name) = keycodes.resolve name := by
  rw [ownName]
  split
  · exact resolved.resolve_again name
  · rfl

/-- The change of names takes aliases to what they stand for, and with one alias of a key all of
them. -/
theorem resolves_ownName : keycodes.Resolves (part.ownName keycodes) where
  flat := resolved.flat
  isAlias name differs := by
    obtain ⟨-, same, moved⟩ := ownName_changed differs
    rw [same]
    exact KeycodeTable.realName_of_resolve moved
  even name other differs isAlias := by
    -- The key is named by an alias somewhere, so all its aliases are changed.
    obtain ⟨used, same, -⟩ := ownName_changed differs
    have sameKey : keycodes.resolve other = keycodes.resolve name := by
      rw [KeycodeTable.resolve_of_realName isAlias, same]
    rw [same, ownName, sameKey, if_pos used]

theorem NamesOneWay.settles (oneWay : part.NamesOneWay library keycodes mode) :
    SymbolContents.Settles library (part.ownName keycodes)
      (fun real => ∃ code, keycodes.codesNamed real 0 = [code]) mode part.statements := by
  intro before statement after merge name split defines differs
  obtain ⟨-, same, moved⟩ := ownName_changed differs
  obtain ⟨-, adds | ⟨single, later⟩⟩ := oneWay before statement after merge name _ split defines
    (KeycodeTable.realName_of_resolve moved)
  · exact .inl (same ▸ adds)
  · -- Names that are changed to the same stand for the same key.
    refine .inr ⟨same ▸ single, fun other names reached => later other names ?_⟩
    rw [← resolve_ownName resolved other, reached, same, resolved.resolve_again]

end

end Section

namespace Assembly

/-- Two sections come to the same: both have a result or neither has, they leave the same keys, and
with a result the same keymap. -/
def SameOutcome (first second : Option (List IndicatorDraft) × Assembly) : Prop :=
  first.1 = second.1 ∧ first.2.keymap.symbols = second.2.keymap.symbols ∧
    (first.1.isSome → first.2.keymap = second.2.keymap)

theorem SameOutcome.none {first second : Assembly}
    (same : first.keymap.symbols = second.keymap.symbols) :
    SameOutcome (Option.none, first) (Option.none, second) :=
  ⟨rfl, same, nofun⟩

theorem SameOutcome.some {unbound : List IndicatorDraft} {first second : Assembly}
    (same : first.keymap = second.keymap) :
    SameOutcome (Option.some unbound, first) (Option.some unbound, second) :=
  ⟨rfl, congrArg Keymap.symbols same, fun _ => same⟩

open SymbolContents

variable {assembly : Assembly} {named : KeyName → KeyName} {alone : KeyName → Prop}
  {texts : Library}

/-- What two sections hold that differ in the names of keys is added alike, if names that are changed
lead to the same codes before and after. -/
theorem addSymbols_named {before : List Statement} {left right : Draft SymbolContents}
    (matched : Draft.Matched id (HostsAt texts named alone before []) left right) (keymap : Keymap)
    (sameCodes : ∀ name, named name ≠ name → alone (named name) →
      keymap.keycodes.codesFor (named name) = keymap.keycodes.codesFor name) :
    Alike (AtLevels fun _ _ => True) (addSymbols left.contents left.header.name keymap)
      (addSymbols right.contents right.header.name keymap) Eq := by
  obtain ⟨told, kept⟩ := matched.contents
  have sameHeader : right.header = left.header := matched.header
  rw [told, sameHeader]
  refine .bindSame (apply_named (fun name member => ?_) _) fun made => .pure rfl
  by_cases same : named name = name
  · rw [same]
  · exact sameCodes name same (kept.sole name member same).1

/-- Two sections that are read alike but for the names of their keys come to the same, if names that
are changed lead to the same codes before and after. -/
theorem applyPart_named {mode : MergeMode} {part other : Section} {levels : Nat → Nat → Prop}
    {stack : List Frame}
    (read : let first := reading SymbolContents assembly mode part
      let second := reading SymbolContents assembly mode other
      ReadNamed named alone levels texts stack first.1 second.1 first.2 second.2)
    (sameCodes : ∀ name, named name ≠ name → alone (named name) →
      assembly.keymap.keycodes.codesFor (named name) = assembly.keymap.keycodes.codesFor name) :
    SameOutcome (applyPart mode part addSymbols assembly)
      (applyPart mode other addSymbols assembly) := by
  have bothFail (errors : (reading SymbolContents assembly mode part).1.isClean = false)
      (otherErrors : (reading SymbolContents assembly mode other).1.isClean = false) :
      SameOutcome (applyPart mode part addSymbols assembly)
        (applyPart mode other addSymbols assembly) := by
    rw [applyPart_of_errors addSymbols errors, applyPart_of_errors addSymbols otherErrors]
    -- Reading alone leaves the keys of the assembly.
    have kept (workspace : Workspace) :
        (assembly.afterReading workspace).keymap.symbols = assembly.keymap.symbols := rfl
    exact .none ((kept _).trans (kept _).symm)
  rcases read with ⟨errors, otherErrors⟩ | ⟨⟨before, matched⟩, ends⟩
  · exact bothFail errors otherErrors
  · cases clean : (reading SymbolContents assembly mode part).1.isClean with
    | false => exact bothFail clean (matched.isClean_eq.trans clean)
    | true =>
      rw [applyPart_of_clean addSymbols clean,
        applyPart_of_clean addSymbols (matched.isClean_eq.trans clean)]
      -- Reading left the same modifiers, so both sides add to the same keymap.
      have sameKeymap : (assembly.afterReading (reading SymbolContents assembly mode other).2).keymap =
          (assembly.afterReading (reading SymbolContents assembly mode part).2).keymap := by
        simp only [afterReading, ends.modifiers]
      have added := addSymbols_named matched
        (assembly.afterReading (reading SymbolContents assembly mode part).2).keymap sameCodes
        (reading SymbolContents assembly mode part).2.diagnostics
        (reading SymbolContents assembly mode other).2.diagnostics trivial
      dsimp only
      rw [sameKeymap]
      revert added
      generalize addSymbols _ _ _ (reading SymbolContents assembly mode part).2.diagnostics = made
      generalize addSymbols _ _ _ (reading SymbolContents assembly mode other).2.diagnostics =
        otherMade
      intro ⟨same, _⟩
      obtain ⟨⟨keymap, unbound⟩, _⟩ := made
      obtain ⟨_, _⟩ := otherMade
      cases same
      exact .some rfl

/-- A symbols section makes the same keys under the names that its statements give and under the real
names of its keys, if it does not name a key in different ways. -/
theorem compilePart_alias_transparent {level : Nat} {library : Library}
    (built : Built level library assembly) {part : Section} (kind : part.kind = .symbols)
    (mode : MergeMode)
    (oneWay : part.NamesOneWay assembly.library assembly.keymap.keycodes mode) :
    SameOutcome (compilePart mode part assembly)
      (compilePart mode (part.resolve assembly.keymap.keycodes) assembly) := by
  have resolved := built.resolved
  have resolves := part.resolves_ownName resolved
  have sameKind : (part.resolve assembly.keymap.keycodes).kind = .symbols := kind
  simp only [compilePart, kind, sameKind]
  have read := reading_named resolves (oneWay.settles resolved) oneWay.guest
  rw [Section.rename_ownName] at read
  refine applyPart_named read ?_
  -- A key that keeps its alias has one code, which both names lead to.
  intro name differs oneCode
  obtain ⟨code, single⟩ := oneCode
  exact resolved.codesFor_alias (resolves.isAlias name differs) single

/-- Two keys with an alias each, the second one on two codes. -/
def aliasedCodes : Section :=
  ⟨.keycodes, "", 0,
    [.keycode .unspecified (.ofString "AE01") 10, .keycode .unspecified (.ofString "AE02") 11,
      .keycode .alternate (.ofString "AE02") 12,
      .keyAlias .unspecified (.ofString "A1") (.ofString "AE01"),
      .keyAlias .unspecified (.ofString "A2") (.ofString "AE02")], []⟩

/-- A keymap with these codes and with types. -/
def twoAliases : { assembly // Built 0 .empty assembly } :=
  ⟨_, .compile (.compile .start .override aliasedCodes) .override ⟨.types, "", 0, [], []⟩⟩

/-- A symbols section with one symbol for a group of each of several keys. -/
def singles (keys : List (String × String × String)) : Section :=
  ⟨.symbols, "", 0, keys.map fun (name, group, sym) =>
    .keySymbols .unspecified (.ofString name)
      [⟨.unspecified, some (.arrayRef none "symbols" (.ident group)), some (.keysyms [sym])⟩], []⟩

/-- The first key is named by its alias alone, and the second one by its alias once it is there. -/
def namedOneWay : Section :=
  singles [("A1", "Group1", "a"), ("AE02", "Group1", "b"), ("A2", "Group2", "c")]

/-- The first key is named by its alias first. -/
def aliasFirst : Section :=
  singles [("A1", "Group1", "a"), ("AE01", "Group2", "b")]

/-- The symbols of a key after a section was compiled, group by group. -/
def symsAt (part : Section) (code : Nat) : Option (List (List Keysym)) :=
  ((compilePart .override part twoAliases.1).2.keymap.key? code).map fun key =>
    key.groups.map KeyGroup.syms

theorem twoAliases_syms :
    let keycodes := twoAliases.1.keymap.keycodes
    (keycodes.realName (.ofString "A1") = some (.ofString "AE01") ∧
      keycodes.realName (.ofString "A2") = some (.ofString "AE02") ∧
      keycodes.realName (.ofString "AE02") = none ∧
      keycodes.codesNamed (.ofString "AE01") 0 = [10]) ∧
    [10, 11, 12].map (symsAt namedOneWay) = [some [[97]], some [[98], [99]], some [[98], [99]]] ∧
    symsAt aliasFirst 10 = some [[0], [98]] ∧
    symsAt (aliasFirst.resolve keycodes) 10 = some [[97], [98]] := by
  decide +kernel

theorem namedOneWay_namesOneWay :
    namedOneWay.NamesOneWay twoAliases.1.library twoAliases.1.keymap.keycodes .override := by
  obtain ⟨⟨first, second, real, single⟩, -⟩ := twoAliases_syms
  -- Nothing is included, so the statements name what they define.
  have brought {statements : List Statement} (own : statements ⊆ namedOneWay.statements)
      (name : KeyName) : ¬twoAliases.1.library.Brings statements name := by
    intro ⟨_, _, _, _, _, stands, _⟩
    have member := own stands
    simp [namedOneWay, singles] at member
  intro before statement after merge name other split ⟨body, defines⟩ isAlias
  refine ⟨fun _ brings => absurd brings (brought (fun _ member => member) _), ?_⟩
  match before, split with
  | [], split =>
    -- What comes after the first statement is about the other key.
    simp only [namedOneWay, singles, List.map_cons, List.map_nil, List.nil_append] at split
    cases split
    cases defines
    cases first.symm.trans isAlias
    refine .inr ⟨⟨10, single⟩, fun given names reached => ?_⟩
    rcases names with ⟨_, member, _, _, rfl⟩ | brings
    · simp only [List.mem_cons, List.not_mem_nil, or_false, Statement.keySymbols.injEq] at member
      rcases member with ⟨_, rfl, _⟩ | ⟨_, rfl, _⟩
      · rw [KeycodeTable.resolve, real] at reached
        exact absurd reached (by decide)
      · rw [KeycodeTable.resolve, second] at reached
        exact absurd reached (by decide)
    · exact absurd brings (brought (by simp [namedOneWay, singles]) given)
  | [_], split =>
    simp only [namedOneWay, singles, List.map_cons, List.map_nil, List.cons_append,
      List.nil_append] at split
    cases split
    cases defines
    cases real.symm.trans isAlias
  | [_, _], split =>
    simp only [namedOneWay, singles, List.map_cons, List.map_nil, List.cons_append,
      List.nil_append] at split
    cases split
    cases defines
    cases second.symm.trans isAlias
    exact .inl ⟨by decide, _, List.mem_cons_of_mem _ List.mem_cons_self, _, _, rfl⟩
  | _ :: _ :: _ :: _, split =>
    simp [namedOneWay, singles] at split

/-- Under its alias the first key gets its symbol, and the second one its second group on both
codes, as under the real names. -/
theorem compilePart_alias_transparent_namedOneWay :
    namedOneWay.NamesOneWay twoAliases.1.library twoAliases.1.keymap.keycodes .override ∧
      [10, 11, 12].map (symsAt namedOneWay) = [some [[97]], some [[98], [99]], some [[98], [99]]] ∧
      SameOutcome (compilePart .override namedOneWay twoAliases.1)
        (compilePart .override (namedOneWay.resolve twoAliases.1.keymap.keycodes) twoAliases.1) := by
  refine ⟨namedOneWay_namesOneWay, twoAliases_syms.2.1, ?_⟩
  exact compilePart_alias_transparent twoAliases.2 rfl .override namedOneWay_namesOneWay

/-- A statement under the real name of a key does not add to what was said under an alias. -/
theorem compilePart_alias_overwritten :
    symsAt aliasFirst 10 = some [[0], [98]] ∧
      symsAt (aliasFirst.resolve twoAliases.1.keymap.keycodes) 10 = some [[97], [98]] :=
  twoAliases_syms.2.2

end Assembly

end Xkb
