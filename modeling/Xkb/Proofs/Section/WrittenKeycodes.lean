import Xkb.Keymap.Printer
import Xkb.Proofs.Bits
import Xkb.Proofs.Section.Cycles
import Xkb.Proofs.Section.KeycodeRange
import Xkb.Proofs.Section.NamedCodes
import Xkb.Proofs.Section.RepeatedKeys
import Xkb.Proofs.Source.Tokens

/-! A table of keycodes as statements: a section with the statements that a table is written down
with holds what the table holds, and compiling it reports nothing.

The keys come in the order of their codes. The first code of a name finds the name free; each
further one is an alternate code, which leaves the name where it is. -/

namespace Xkb

/-- What a table of keycodes is to be so that it can be written down and read back. -/
structure KeycodeTable.Writable (table : KeycodeTable) : Prop where
  lowest : lowestKeycode ≤ table.low
  ordered : table.low ≤ table.high
  highest : table.high ≤ highestKeycode
  /-- Only codes of the range have keys. -/
  inside : ∀ code, (table.nameAt code).isEmpty = false → table.inRange code = true
  keysVisible : ∀ code, (table.nameAt code).isEmpty = false →
    Source.IsVisibleName (table.nameAt code)
  aliasesVisible : ∀ known ∈ table.aliases, Source.IsVisibleName known.name
  aliasesDistinct : (table.aliases.map KeyAlias.name).Nodup
  /-- An alias is not the name of a key. -/
  aliasesFree : ∀ known ∈ table.aliases, ∀ code, table.nameAt code ≠ known.name
  /-- An alias stands for the name of a key. -/
  aliasesReal : ∀ known ∈ table.aliases,
    known.real.isEmpty = false ∧ ∃ code, table.nameAt code = known.real
  indicatorsDistinct : ∀ slot other name, table.indicatorName slot = some name →
    table.indicatorName other = some name → slot = other
  /-- Only indicators with a name are physical lights. -/
  physicalNamed : ∀ slot < 32, meets32 table.physical (bit32 slot) = true →
    (table.indicatorName slot).isSome = true

namespace KeycodeTable

/-- The statements for the codes of the keys; a code whose name came before is an alternate one. -/
def codeStatements (table : KeycodeTable) (seen : List KeyName) : List Nat → List Statement
  | [] => []
  | code :: rest =>
    let name := table.nameAt code
    if name.isEmpty then codeStatements table seen rest
    else
      .keycode (if seen.contains name then .alternate else .unspecified) name (Int64.ofNat code)
        :: codeStatements table (name :: seen) rest

/-- The statement for the name of an indicator. -/
def indicatorStatements (table : KeycodeTable) (slot : Nat) : List Statement :=
  match table.indicatorName slot with
  | none => []
  | some name =>
    [.indicatorName .unspecified (Int64.ofNat (slot + 1)) (.text name)
      (!meets32 table.physical (bit32 slot))]

/-- The statement that sets one end of the range. -/
def boundStatement (field : String) (value : Nat) : Statement :=
  .assignment (Source.assign (.ident field) (.integer (Int64.ofNat value)))

/-- The statements that a table is written down with. -/
def statements (table : KeycodeTable) : List Statement :=
  boundStatement "minimum" table.low :: boundStatement "maximum" table.high
    :: (table.codeStatements [] table.codes ++ (List.range 32).flatMap table.indicatorStatements
      ++ table.aliases.map fun known => .keyAlias .unspecified known.name known.real)

end KeycodeTable

namespace KeycodeContents

variable {header : Header} {table : KeycodeTable} {contents before middle after : KeycodeContents}

/-- Statements are handled in turn without an error or a report. -/
inductive Accepts (header : Header) : List Statement → KeycodeContents → KeycodeContents → Prop where
  | nil (contents : KeycodeContents) : Accepts header [] contents contents
  | cons {statement : Statement} {rest : List Statement} {before middle after : KeycodeContents}
      (handled : before.handle header .override statement = pure (middle, true))
      (later : Accepts header rest middle after) : Accepts header (statement :: rest) before after

namespace Accepts

theorem append {first second : List Statement} (left : Accepts header first before middle)
    (right : Accepts header second middle after) : Accepts header (first ++ second) before after := by
  induction left with
  | nil => exact right
  | cons handled _ ih => exact .cons handled (ih right)

variable {keycodes : KeycodeTable} {read : SectionReader Id KeycodeContents}

theorem readStatement_eq {statement : Statement}
    (handled : before.handle header .override statement = pure (after, true)) :
    readStatement keycodes read .override ⟨header, before⟩ statement
      = pure (⟨header, after⟩, true) := by
  -- An include is no statement of the section's own, which would be an error.
  have own : ∀ included, statement ≠ .inclusion included := by
    rintro included rfl
    have wrong := congrArg (fun run => (run (Diagnostics.atLevel 0)).1.2) handled
    exact Bool.false_ne_true wrong
  have read : readStatement keycodes read .override ⟨header, before⟩ statement = (do
      let made ← Reading.report (before.handle header .override statement)
      return (⟨header, made.1⟩, made.2)) := by
    cases statement with
    | inclusion included => exact absurd rfl (own included)
    | _ => rfl
  rw [read, handled]
  rfl

theorem readStatements_eq {statements : List Statement}
    (accepts : Accepts header statements before after) (clean : header.errors = 0) (name : String) :
    readStatements keycodes read .override name statements ⟨header, before⟩
      = pure ⟨header, after⟩ := by
  induction accepts with
  | nil => rfl
  | @cons statement rest before middle after handled _ ih =>
    have tidy : Draft.isClean (⟨header, middle⟩ : Draft KeycodeContents) = true := by
      simp [Draft.isClean, clean]
    rw [readStatements_cons, readStatement_eq handled, pure_bind]
    dsimp only
    rw [if_pos rfl, readOn_clean _ _ _ tidy, ih]

end Accepts

section Bounds

theorem toInt_code {code : Nat} (legal : code ≤ highestKeycode) :
    (Int64.ofNat code).toInt = code := by
  rw [Int64.toInt_ofNat_of_lt]
  unfold highestKeycode at legal
  omega

variable {value : Nat}

theorem handle_minimum (low : lowestKeycode ≤ value) (high : value ≤ highestKeycode)
    (free : contents.maximum = none) (unused : contents.covered = none) :
    contents.handle header .override (KeycodeTable.boundStatement "minimum" value)
      = pure ({ contents with minimum := some value, low := value }, true) := by
  have bound : contents.handle header .override (KeycodeTable.boundStatement "minimum" value)
      = contents.setBound true "minimum" (Int64.ofNat value) := rfl
  have notLow : ¬(value : Int) < lowestKeycode := by omega
  have notHigh : ¬(highestKeycode : Int) < value := by omega
  rw [bound]
  simp only [setBound, toInt_code high, if_neg notLow, if_neg notHigh, Int.toNat_natCast, setMinimum, free,
    unused, Option.filter_none, if_true]

theorem handle_maximum (low : lowestKeycode ≤ value) (high : value ≤ highestKeycode)
    (ordered : ∀ low ∈ contents.minimum, low ≤ value) (unused : contents.covered = none) :
    contents.handle header .override (KeycodeTable.boundStatement "maximum" value)
      = pure ({ contents with maximum := some value, high := value }, true) := by
  have bound : contents.handle header .override (KeycodeTable.boundStatement "maximum" value)
      = contents.setBound false "maximum" (Int64.ofNat value) := rfl
  have notLow : ¬(value : Int) < lowestKeycode := by omega
  have notHigh : ¬(highestKeycode : Int) < value := by omega
  have fits : contents.minimum.filter (value < ·) = none := by
    rw [Option.filter_eq_none_iff]
    intro low member
    simpa using ordered low member
  rw [bound]
  simp only [setBound, toInt_code high, if_neg notLow, if_neg notHigh, Int.toNat_natCast, setMaximum, fits,
    unused, Option.filter_none, Bool.false_eq_true, if_false]

end Bounds

section Keys

/-- The contents after the names of some codes were written. -/
structure Written (table : KeycodeTable) (done : List Nat) (contents : KeycodeContents) : Prop where
  low : contents.low = table.low
  high : contents.high = table.high
  minimum : contents.minimum = some table.low
  maximum : contents.maximum = some table.high
  names : ∀ code, (contents.slotAt code).name
    = if code ∈ done then table.nameAt code else KeyName.empty
  /-- The codes that have a name are among those that the section defines. -/
  covers : ∀ code ∈ done, (table.nameAt code).isEmpty = false →
    ∃ low high, contents.covered = some (low, high) ∧ low ≤ code ∧ code ≤ high
  indicators : contents.indicators = []
  aliases : contents.aliases = []

namespace Written

variable {done : List Nat} {code : Nat}

variable (written : Written table done contents)

include written

theorem accepted (within : table.inRange code = true) : ¬contents.isOutside code = true := by
  simp only [KeycodeTable.inRange, Bool.and_eq_true, decide_eq_true_eq] at within
  simp only [isOutside, written.low, written.high, Bool.or_eq_true, decide_eq_true_eq]
  omega

theorem of_find {name : KeyName} {old : Nat} (some : name.isEmpty = false)
    (found : contents.find name = .some old) : old ∈ done ∧ table.nameAt old = name := by
  have same := List.find?_some found
  rw [beq_iff_eq, written.names old] at same
  by_cases member : old ∈ done
  · rw [if_pos member] at same
    exact ⟨member, same⟩
  · rw [if_neg member] at same
    rw [← same] at some
    exact absurd some (by decide)

theorem unnamed (none : (table.nameAt code).isEmpty = true) :
    Written table (done ++ [code]) contents where
  low := written.low
  high := written.high
  minimum := written.minimum
  maximum := written.maximum
  names other := by
    rw [written.names other]
    by_cases member : other ∈ done
    · rw [if_pos member, if_pos (by simp [member])]
    · rw [if_neg member]
      split
      case isTrue listed =>
        obtain rfl : other = code := by simpa [member] using listed
        exact (KeyName.isEmpty_iff.mp none).symm
      case isFalse => rfl
  covers other member some := by
    rcases List.mem_append.mp member with earlier | last
    · exact written.covers other earlier some
    · obtain rfl : other = code := by simpa using last
      rw [none] at some
      exact absurd some (by decide)
  indicators := written.indicators
  aliases := written.aliases

theorem setSlot (small : code < 256) {kept : KeycodeContents}
    (same : kept = { contents.cover code with slots := kept.slots })
    (names : ∀ other, (kept.slotAt other).name = (contents.slotAt other).name) (origin : Origin)
    (alternate : Bool) :
    Written table (done ++ [code])
      (kept.setSlot code ⟨table.nameAt code, origin, alternate⟩) where
  low := (congrArg KeycodeContents.low same).trans written.low
  high := (congrArg KeycodeContents.high same).trans written.high
  minimum := (congrArg KeycodeContents.minimum same).trans written.minimum
  maximum := (congrArg KeycodeContents.maximum same).trans written.maximum
  names other := by
    rw [slotAt_setSlot]
    by_cases here : other = code
    · simp [here, small]
    · simp [here, names other, written.names other]
  covers other member some := by
    have covered : kept.covered = (contents.cover code).covered :=
      (congrArg KeycodeContents.covered same).trans rfl
    change ∃ low high, kept.covered = _ ∧ _
    rw [covered]
    -- The codes that are defined reach as far as they did, and to this code.
    rcases List.mem_append.mp member with earlier | last
    · obtain ⟨low, high, known, above, below⟩ := written.covers other earlier some
      refine ⟨min low code, max high code, by simp [cover, known], ?_, ?_⟩ <;> omega
    · obtain rfl : other = code := by simpa using last
      cases known : contents.covered with
      | none => exact ⟨other, other, by simp [cover, known], by omega, by omega⟩
      | some ends =>
        refine ⟨min ends.1 other, max ends.2 other, by simp [cover, known], ?_, ?_⟩ <;> omega
  indicators := (congrArg KeycodeContents.indicators same).trans written.indicators
  aliases := (congrArg KeycodeContents.aliases same).trans written.aliases

variable {mode : MergeMode}

/-- The name of a code is placed: beside its other codes, or as the first one of its name. -/
theorem placeKey (small : code < 256) (some : (table.nameAt code).isEmpty = false)
    (fits : mode = .alternate ∨ ∀ earlier ∈ done, table.nameAt earlier ≠ table.nameAt code)
    (origin : Origin) :
    ∃ made, Written table (done ++ [code]) made ∧ ∀ report,
      (contents.cover code).placeKey code (table.nameAt code) mode origin report = pure made := by
  have found : (contents.cover code).find (table.nameAt code) = contents.find (table.nameAt code) :=
    rfl
  cases other : (contents.find (table.nameAt code)).filter (· != code) with
  | none =>
    have kept : contents.cover code = { contents.cover code with slots := contents.slots } := rfl
    refine ⟨_, written.setSlot small kept (fun _ => rfl) origin (mode == .alternate),
      fun report => ?_⟩
    simp only [KeycodeContents.placeKey, found, other]
  | some old =>
    have known := written.of_find some (Option.filter_eq_some_iff.mp other).1
    rcases fits with rfl | first
    · -- The earlier code is marked as one of several and keeps its name.
      have kept : ∀ place, (((contents.cover code).setSlot old
          { (contents.cover code).slotAt old with alternate := true }).slotAt place).name
          = (contents.slotAt place).name := by
        intro place
        rw [slotAt_setSlot]
        split
        case isTrue here => rw [here.1]; rfl
        case isFalse => rfl
      refine ⟨_, written.setSlot small rfl kept origin true, fun report => ?_⟩
      simp only [KeycodeContents.placeKey, found, other]
      rfl
    · exact absurd known.2 (first old known.1)

/-- A code with a key is added: beside the other codes of its name, or as the first one. -/
theorem addKey (legal : code ≤ highestKeycode) (within : table.inRange code = true)
    (fresh : code ∉ done) (some : (table.nameAt code).isEmpty = false)
    (fits : mode = .alternate ∨ ∀ earlier ∈ done, table.nameAt earlier ≠ table.nameAt code)
    (origin : Origin) :
    ∃ made, Written table (done ++ [code]) made ∧
      contents.addKey code (table.nameAt code) mode origin true = pure made := by
  have small : code < 256 := Nat.lt_succ_of_le legal
  have inside := written.accepted within
  have unnamed : ((contents.cover code).slotAt code).name.isEmpty = true := by
    change (contents.slotAt code).name.isEmpty = true
    rw [written.names code, if_neg fresh]
    rfl
  obtain ⟨made, writes, placed⟩ := written.placeKey small some fits origin
  refine ⟨made, writes, ?_⟩
  simp only [KeycodeContents.addKey, if_neg inside, if_pos unnamed, placed]
  rfl

end Written

theorem handle_keycode {code : Nat} (legal : code ≤ highestKeycode)
    (within : ¬contents.isOutside code = true) (name : KeyName) (isFurther : Bool)
    {made : KeycodeContents}
    (added : contents.addKey code name (if isFurther then .alternate else .override) header.origin
      true = pure made) :
    contents.handle header .override
        (.keycode (if isFurther then .alternate else .unspecified) name (Int64.ofNat code))
      = pure (made, true) := by
  have handled : contents.handleKey header .override
      (if isFurther then .alternate else .unspecified) name (Int64.ofNat code) = pure made := by
    rw [← added]
    simp only [handleKey, toInt_code legal, if_neg within]
    cases isFurther <;> rfl
  simp only [handle, handled]
  rfl

theorem accepts_codeStatements (legal : table.high ≤ highestKeycode) {codes done : List Nat}
    {seen : List KeyName} (written : Written table done contents)
    (within : ∀ code ∈ codes, table.inRange code = true) (distinct : (done ++ codes).Nodup)
    (noted : ∀ code ∈ done, (table.nameAt code).isEmpty = false → table.nameAt code ∈ seen) :
    ∃ made, Accepts header (table.codeStatements seen codes) contents made ∧
      Written table (done ++ codes) made := by
  -- The induction is on the codes that are left; the names on those that are done have been seen.
  induction codes generalizing done seen contents with
  | nil => exact ⟨contents, .nil contents, by simpa using written⟩
  | cons code codes ih =>
    have apart : done ++ code :: codes = done ++ [code] ++ codes := by simp
    have later : ∀ other ∈ codes, table.inRange other = true :=
      fun other member => within other (List.mem_cons_of_mem _ member)
    rw [apart] at distinct ⊢
    rw [KeycodeTable.codeStatements]
    cases some : (table.nameAt code).isEmpty with
    | true =>
      rw [if_pos rfl]
      refine ih (written.unnamed some) later distinct fun other member named => ?_
      rcases List.mem_append.mp member with earlier | last
      · exact noted other earlier named
      · obtain rfl : other = code := by simpa using last
        rw [some] at named
        exact absurd named (by decide)
    | false =>
      have inRange := within code List.mem_cons_self
      have legalCode : code ≤ highestKeycode := by
        simp only [KeycodeTable.inRange, Bool.and_eq_true, decide_eq_true_eq] at inRange
        omega
      have fresh : code ∉ done := by
        have front := (List.nodup_append.mp distinct).1
        exact fun member => (List.nodup_append.mp front).2.2 code member code (by simp) rfl
      -- A name that was not seen stands on none of the codes that are done.
      have fits : (if seen.contains (table.nameAt code) then MergeMode.alternate else .override)
          = .alternate ∨ ∀ earlier ∈ done, table.nameAt earlier ≠ table.nameAt code := by
        cases known : seen.contains (table.nameAt code) with
        | true => exact .inl rfl
        | false =>
          refine .inr fun earlier member same => ?_
          have listed := noted earlier member (same ▸ some)
          rw [same] at listed
          rw [List.contains_iff_mem.mpr listed] at known
          exact absurd known (by decide)
      obtain ⟨made, writes, added⟩ := written.addKey legalCode inRange fresh some fits header.origin
      have handled := handle_keycode legalCode (written.accepted inRange) _ _ added
      obtain ⟨last, accepts, all⟩ := @ih made (done ++ [code]) (table.nameAt code :: seen) writes
        later distinct fun other member named => by
          rcases List.mem_append.mp member with earlier | last
          · exact List.mem_cons_of_mem _ (noted other earlier named)
          · obtain rfl : other = code := by simpa using last
            exact List.mem_cons_self
      exact ⟨last, .cons handled accepts, all⟩

end Keys

section Indicators

/-- The entry that a section has for the name of an indicator. -/
def indicatorEntry (header : Header) (table : KeycodeTable) (slot : Nat) : Option IndicatorName :=
  (table.indicatorName slot).map fun name =>
    ⟨.start header.origin .override, slot + 1, name, !meets32 table.physical (bit32 slot)⟩

theorem handle_indicatorName {slot : Nat} (small : slot < 32) (name : String) (isVirtual : Bool)
    (newName : ∀ known ∈ contents.indicators, known.name ≠ name)
    (newIndex : ∀ known ∈ contents.indicators, known.index ≠ slot + 1) :
    contents.handle header .override
        (.indicatorName .unspecified (Int64.ofNat (slot + 1)) (.text name) isVirtual)
      = pure ({ contents with indicators := contents.indicators
          ++ [⟨.start header.origin .override, slot + 1, name, isVirtual⟩] }, true) := by
  have index : ∀ slot < 32, (Int64.ofNat (slot + 1) < 1 || 32 < Int64.ofNat (slot + 1)) = false
      ∧ (Int64.ofNat (slot + 1)).toInt.toNat = slot + 1 := by decide
  obtain ⟨legal, same⟩ := index slot small
  have noName : contents.indicators.find? (·.name == name) = none :=
    List.find?_eq_none.mpr fun known member => by simpa using newName known member
  have noIndex : contents.indicators.find? (·.index == slot + 1) = none :=
    List.find?_eq_none.mpr fun known member => by simpa using newIndex known member
  simp only [handle, handleIndicator, legal, same, Expr.toText, addIndicator, noName, addIndicatorAt,
    noIndex]
  rfl

theorem accepts_indicatorStatements
    (distinct : ∀ slot other name, table.indicatorName slot = some name →
      table.indicatorName other = some name → slot = other) {slots : List Nat}
    (nodup : slots.Nodup) (small : ∀ slot ∈ slots, slot < 32)
    (fresh : ∀ known ∈ contents.indicators, ∀ slot ∈ slots,
      known.index ≠ slot + 1 ∧ table.indicatorName slot ≠ some known.name) :
    Accepts header (slots.flatMap table.indicatorStatements) contents
      { contents with indicators :=
          contents.indicators ++ slots.filterMap (indicatorEntry header table) } := by
  induction slots generalizing contents with
  | nil => simpa using Accepts.nil contents
  | cons slot slots ih =>
    obtain ⟨apart, nodup⟩ := List.nodup_cons.mp nodup
    have smaller : ∀ other ∈ slots, other < 32 := fun other member => small other (by simp [member])
    have fresher : ∀ known ∈ contents.indicators, ∀ other ∈ slots,
        known.index ≠ other + 1 ∧ table.indicatorName other ≠ some known.name :=
      fun known listed other member => fresh known listed other (by simp [member])
    rw [List.flatMap_cons]
    cases named : table.indicatorName slot with
    | none =>
      have rest := ih nodup smaller fresher
      simpa [KeycodeTable.indicatorStatements, indicatorEntry, named] using rest
    | some name =>
      have newName : ∀ known ∈ contents.indicators, known.name ≠ name := fun known listed same =>
        (fresh known listed slot (by simp)).2 (same ▸ named)
      have newIndex : ∀ known ∈ contents.indicators, known.index ≠ slot + 1 := fun known listed =>
        (fresh known listed slot (by simp)).1
      have handled := @handle_indicatorName header contents slot (small slot (by simp)) name
        (!meets32 table.physical (bit32 slot)) newName newIndex
      -- The new entry is for another indicator than those that are left, and has another name.
      have still : ∀ known ∈ contents.indicators
            ++ [⟨.start header.origin .override, slot + 1, name, !meets32 table.physical (bit32 slot)⟩],
          ∀ other ∈ slots,
            known.index ≠ other + 1 ∧ table.indicatorName other ≠ some known.name := by
        intro known listed other member
        rcases List.mem_append.mp listed with earlier | last
        · exact fresher known earlier other member
        · obtain rfl := List.mem_singleton.mp last
          refine ⟨fun same => apart ?_, fun same => apart ?_⟩
          · obtain rfl : slot = other := by simpa using same
            exact member
          · obtain rfl := distinct other slot name same named
            exact member
      have rest := @ih { contents with indicators := _ } nodup smaller still
      simpa [KeycodeTable.indicatorStatements, indicatorEntry, named] using Accepts.cons handled rest

end Indicators

section Aliases

/-- The entry that a section has for an alias. -/
def aliasEntry (header : Header) (known : KeyAlias) : AliasDefinition :=
  ⟨.start header.origin .override, known.name, known.real⟩

theorem accepts_aliasStatements {aliases : List KeyAlias}
    (distinct : (aliases.map KeyAlias.name).Nodup)
    (fresh : ∀ known ∈ contents.aliases, ∀ new ∈ aliases, known.name ≠ new.name) :
    Accepts header (aliases.map fun known => .keyAlias .unspecified known.name known.real) contents
      { contents with aliases := contents.aliases ++ aliases.map (aliasEntry header) } := by
  induction aliases generalizing contents with
  | nil => simpa using Accepts.nil contents
  | cons new aliases ih =>
    obtain ⟨apart, distinct⟩ := List.nodup_cons.mp distinct
    have absent : contents.aliases.find? (·.name == new.name) = none :=
      List.find?_eq_none.mpr fun known listed => by simpa using fresh known listed new (by simp)
    have handled : contents.handle header .override (.keyAlias .unspecified new.name new.real)
        = pure ({ contents with aliases := contents.aliases ++ [aliasEntry header new] }, true) := by
      simp only [handle, addAlias, absent]
      rfl
    have still : ∀ known ∈ contents.aliases ++ [aliasEntry header new], ∀ other ∈ aliases,
        known.name ≠ other.name := by
      intro known listed other member
      rcases List.mem_append.mp listed with earlier | last
      · exact fresh known earlier other (by simp [member])
      · obtain rfl := List.mem_singleton.mp last
        exact fun same => apart (List.mem_map.mpr ⟨other, member, same.symm⟩)
    have rest := @ih { contents with aliases := _ } distinct still
    simpa using Accepts.cons handled rest

end Aliases

/-- What a section holds with the entries for the indicators and aliases of a table. -/
def withEntries (keys : KeycodeContents) (header : Header) (table : KeycodeTable) :
    KeycodeContents :=
  { keys with
    indicators := (List.range 32).filterMap (indicatorEntry header table)
    aliases := table.aliases.map (aliasEntry header) }

theorem accepts_statements (writable : table.Writable) (header : Header) :
    ∃ keys, Written table table.codes keys ∧
      Accepts header table.statements KeycodeContents.empty (keys.withEntries header table) := by
  have ordered := writable.ordered
  have highest := writable.highest
  have lowest := writable.lowest
  have minimum : KeycodeContents.empty.handle header .override _ = _ :=
    handle_minimum lowest (by omega) rfl rfl
  have maximum := @handle_maximum header
    { KeycodeContents.empty with minimum := some table.low, low := table.low } table.high (by omega)
    highest (by rintro low ⟨⟩; exact ordered) rfl
  -- After the bounds no code has a name yet.
  have start : Written table [] { KeycodeContents.empty with
      minimum := some table.low, low := table.low, maximum := some table.high, high := table.high } :=
    { low := rfl, high := rfl, minimum := rfl, maximum := rfl, indicators := rfl, aliases := rfl
      covers := by simp
      names := fun code => by
        by_cases within : code < 256
        · simp [slotAt, KeycodeContents.empty, freeSlot, within]
        · simp [slotAt, KeycodeContents.empty, freeSlot, within] }
  obtain ⟨keys, named, written⟩ := @accepts_codeStatements header table _ highest table.codes [] []
    start (fun _ => KeycodeTable.mem_codes.mp) List.nodup_range' (by simp)
  refine ⟨keys, by simpa using written, .cons minimum (.cons maximum ?_)⟩
  have lights := @accepts_indicatorStatements header table keys writable.indicatorsDistinct
    (List.range 32) List.nodup_range (by simp) (by simp [written.indicators])
  rw [written.indicators, List.nil_append] at lights
  have aliases := @accepts_aliasStatements header
    { keys with indicators := (List.range 32).filterMap (indicatorEntry header table) }
    table.aliases writable.aliasesDistinct (by simp [written.aliases])
  refine (named.append lights).append ?_
  simpa only [withEntries, written.aliases, List.nil_append] using aliases

section Applying

theorem Written.slotName (writable : table.Writable) (written : Written table table.codes contents)
    (code : Nat) : (contents.slotAt code).name = table.nameAt code := by
  rw [written.names code]
  split
  case isTrue => rfl
  case isFalse absent =>
    cases some : (table.nameAt code).isEmpty with
    | true => exact (KeyName.isEmpty_iff.mp some).symm
    | false => exact absurd (KeycodeTable.mem_codes.mpr (writable.inside code some)) absent

theorem getElem?_foldl_setIfInBounds (name : Nat → KeyName) (codes : List Nat)
    (names : Vector KeyName 256) {code : Nat} (within : code < 256) :
    (codes.foldl (fun names code => names.setIfInBounds code (name code)) names)[code]?
      = if code ∈ codes then some (name code) else names[code]? := by
  induction codes generalizing names with
  | nil => simp
  | cons other rest ih =>
    rw [List.foldl_cons, ih]
    by_cases same : other = code
    · subst same
      simp [within]
    · simp [Ne.symm same, Vector.getElem?_setIfInBounds_ne same]

theorem Written.applyNames (writable : table.Writable)
    (written : Written table table.codes contents) :
    contents.applyNames (Vector.replicate 256 KeyName.empty) = table.names := by
  refine Vector.ext fun code within => ?_
  have named : table.nameAt code = table.names[code] := by simp [KeycodeTable.nameAt, within]
  have applied : (contents.applyNames (Vector.replicate 256 KeyName.empty))[code]?
      = some (table.nameAt code) := by
    by_cases inside : ∃ low high, contents.covered = some (low, high) ∧ low ≤ code ∧ code ≤ high
    · obtain ⟨low, high, covered, above, below⟩ := inside
      have listed : code ∈ List.range' low (high + 1 - low) := by
        rw [List.mem_range'_1]
        omega
      simp only [KeycodeContents.applyNames, covered]
      rw [getElem?_foldl_setIfInBounds _ _ _ within, if_pos listed, written.slotName writable]
    · -- What the section does not define is no key of the table.
      have unnamed : table.nameAt code = KeyName.empty := by
        cases some : (table.nameAt code).isEmpty with
        | true => exact KeyName.isEmpty_iff.mp some
        | false =>
          have listed := KeycodeTable.mem_codes.mpr (writable.inside code some)
          exact absurd (written.covers code listed some) inside
      rw [applyNames_defined fun low high covered both => inside ⟨low, high, covered, both⟩, unnamed]
      simp [within]
  rw [named, Vector.getElem?_eq_getElem within] at applied
  exact Option.some.inj applied

theorem applyIndicators (header : Header) (table start : KeycodeTable)
    (unnamed : start.indicatorNames = Vector.replicate 32 none) (dark : start.physical = 0)
    {count : Nat} (few : count ≤ 32) :
    ∃ names physical,
      ((List.range count).filterMap (indicatorEntry header table)).foldl applyIndicator start
        = { start with indicatorNames := names, physical } ∧
      (∀ slot < 32, names[slot]?.join = if slot < count then table.indicatorName slot else none) ∧
      ∀ slot < 32, physical.toBitVec.getLsbD slot
        = (decide (slot < count) && (table.indicatorName slot).isSome
          && table.physical.toBitVec.getLsbD slot) := by
  induction count with
  | zero =>
    refine ⟨start.indicatorNames, start.physical, rfl, fun slot within => ?_, fun slot within => ?_⟩
    · simp [unnamed, within]
    · simp [dark]
  | succ count ih =>
    obtain ⟨names, physical, applied, named, lit⟩ := ih (by omega)
    rw [List.range_succ, List.filterMap_append, List.foldl_append, applied]
    cases here : table.indicatorName count with
    | none =>
      refine ⟨names, physical, by simp [indicatorEntry, here], fun slot within => ?_,
        fun slot within => ?_⟩
      · rw [named slot within]
        by_cases same : slot = count
        · simp [same, here]
        · simp [show slot < count + 1 ↔ slot < count by omega]
      · rw [lit slot within]
        by_cases same : slot = count
        · simp [same, here]
        · simp [show slot < count + 1 ↔ slot < count by omega]
    | some name =>
      refine ⟨names.setIfInBounds count (some name),
        switch32 physical (bit32 count) (meets32 table.physical (bit32 count)), ?_,
        fun slot within => ?_, fun slot within => ?_⟩
      · simp [indicatorEntry, here, applyIndicator]
      · by_cases same : slot = count
        · subst same
          simp [within, here]
        · rw [Vector.getElem?_setIfInBounds_ne (Ne.symm same), named slot within]
          simp [show slot < count + 1 ↔ slot < count by omega]
      · rw [getLsbD_switch32 physical (by omega) _ within]
        by_cases same : slot = count
        · subst same
          simp [here, meets32_eq_getLsbD within]
        · rw [if_neg same, lit slot within]
          simp [show slot < count + 1 ↔ slot < count by omega]

theorem applyAllIndicators (writable : table.Writable) (header : Header) (start : KeycodeTable)
    (unnamed : start.indicatorNames = Vector.replicate 32 none) (dark : start.physical = 0) :
    ((List.range 32).filterMap (indicatorEntry header table)).foldl applyIndicator start
      = { start with indicatorNames := table.indicatorNames, physical := table.physical } := by
  obtain ⟨names, physical, applied, named, lit⟩ :=
    applyIndicators header table start unnamed dark (Nat.le_refl 32)
  have sameNames : names = table.indicatorNames := by
    refine Vector.ext fun slot within => ?_
    have known := named slot within
    rw [KeycodeTable.indicatorName] at known
    simpa [within] using known
  have sameBits : physical = table.physical := by
    apply UInt32.toBitVec_inj.mp
    refine BitVec.eq_of_getLsbD_eq fun slot within => ?_
    rw [lit slot within, decide_eq_true within]
    -- A light without a name is not a physical one.
    cases on : table.physical.toBitVec.getLsbD slot with
    | false => simp
    | true =>
      rw [writable.physicalNamed slot within (by rw [meets32_eq_getLsbD within, on])]
      rfl
  rw [applied, sameNames, sameBits]

theorem resolveAlias_key {isKey : KeyName → Bool} (aliases : List AliasDefinition)
    {known : AliasDefinition} (free : isKey known.name = false) (real : isKey known.real = true) :
    resolveAlias aliases isKey known = pure (some ⟨known.name, known.real⟩) := by
  have differs : known.real ≠ known.name := by
    intro same
    rw [same, free] at real
    exact absurd real (by decide)
  have behind : followAliases aliases isKey (aliases.length + 1) [known.name] known.real
      = some known.real := by
    rw [followAliases, if_pos real]
  have kept : (some known.real).filter (· != known.name) = some known.real := by simp [differs]
  simp only [resolveAlias, free, behind, kept, real]
  rfl

theorem resolveAliases_writable (writable : table.Writable) (header : Header) :
    resolveAliases (table.aliases.map (aliasEntry header))
        (fun name => (table.findNamed name 0).isSome)
      = pure table.aliases := by
  have each : ∀ known ∈ table.aliases,
      resolveAlias (table.aliases.map (aliasEntry header))
          (fun name => (table.findNamed name 0).isSome) (aliasEntry header known)
        = pure (some known) := by
    intro known member
    refine resolveAlias_key _ ?_ ?_
    · -- No code has the name of an alias.
      rw [Option.isSome_eq_false_iff, Option.isNone_iff_eq_none]
      refine List.find?_eq_none.mpr fun code _ found => ?_
      simp only [Bool.and_eq_true, beq_iff_eq] at found
      refine writable.aliasesFree known member code ?_
      rw [KeycodeTable.nameAt, found.2]
      rfl
    · -- The code of the real name is in the range.
      obtain ⟨some, code, named⟩ := writable.aliasesReal known member
      have carried : table.names[code]? = .some known.real := by
        unfold KeycodeTable.nameAt at named
        cases entry : table.names[code]? with
        | none =>
          rw [entry] at named
          rw [← named] at some
          exact absurd some (by decide)
        | some name =>
          rw [entry] at named
          exact congrArg _ named
      have within := writable.inside code (named ▸ some)
      obtain ⟨first, found, -⟩ := KeycodeTable.findNamed_of_named within carried
      exact Option.isSome_iff_exists.mpr ⟨first, found⟩
  have all : ∀ list ⊆ table.aliases, (list.map (aliasEntry header)).mapM
        (resolveAlias (table.aliases.map (aliasEntry header))
          fun name => (table.findNamed name 0).isSome)
      = pure (list.map some) := by
    intro list part
    induction list with
    | nil => rfl
    | cons known list ih =>
      obtain ⟨member, rest⟩ := List.cons_subset.mp part
      rw [List.map_cons, List.mapM_cons, each known member, pure_bind, ih rest, pure_bind]
      rfl
  rw [resolveAliases, all _ (List.Subset.refl _), pure_bind]
  simp

theorem Written.apply {keys : KeycodeContents} (writable : table.Writable)
    (written : Written table table.codes keys) (header : Header) (name : Option String) :
    (keys.withEntries header table).apply name KeycodeTable.empty = pure { table with name } := by
  have range : (keys.withEntries header table).range = (table.low, table.high) := by
    simp [KeycodeContents.range, withEntries, written.minimum, written.maximum]
  have names : (keys.withEntries header table).applyNames KeycodeTable.empty.names = table.names :=
    show keys.applyNames _ = _ from written.applyNames writable
  have lights : (keys.withEntries header table).indicators.foldl applyIndicator _ = _ :=
    applyAllIndicators writable header
      { KeycodeTable.empty with name, low := table.low, high := table.high, names := table.names }
      rfl rfl
  have aliases := resolveAliases_writable writable header
  simp only [KeycodeContents.apply, range, names, lights]
  exact (congrArg (· >>= fun aliases => pure { table with name, aliases }) aliases).trans rfl

end Applying

end KeycodeContents

namespace Assembly

theorem compilePart_of_accepts {part : Section} (kind : part.kind = .keycodes)
    {contents : KeycodeContents} {made : KeycodeTable}
    (accepts : KeycodeContents.Accepts ⟨some part.name, .main, 0⟩ part.statements .empty contents)
    (applied : contents.apply (some part.name) KeycodeTable.empty = pure made) (level : Nat)
    (library : Library) :
    compilePart .override part (.start level library)
      = (some [], { Assembly.start level library with
          keymap := { Keymap.empty with keycodes := made } }) := by
  have read : reading KeycodeContents (.start level library) .override part
      = (⟨⟨some part.name, .main, 0⟩, contents⟩, (Assembly.start level library).workspace) :=
    congrFun (accepts.readStatements_eq rfl part.name) (Assembly.start level library).workspace
  have clean : (reading KeycodeContents (.start level library) .override part).1.isClean = true := by
    rw [read]
    rfl
  have keymap : ((Assembly.start level library).afterReading
      (Assembly.start level library).workspace).keymap = Keymap.empty := rfl
  have added : addKeycodes contents (some part.name) Keymap.empty
      = pure ({ Keymap.empty with keycodes := made }, []) := by
    change contents.apply (some part.name) KeycodeTable.empty >>= _ = _
    rw [applied]
    rfl
  simp only [compilePart, kind]
  rw [applyPart_of_clean addKeycodes clean, read]
  dsimp only
  rw [keymap, added]
  rfl

/-- A section with the statements of a table is compiled to the table. -/
theorem compilePart_statements {table : KeycodeTable} (writable : table.Writable) (level : Nat)
    (library : Library) (title : String) :
    compilePart .override ⟨.keycodes, title, 0, table.statements, []⟩ (.start level library)
      = (some [], { Assembly.start level library with
          keymap := { Keymap.empty with keycodes := { table with name := some title } } }) := by
  obtain ⟨keys, written, accepts⟩ :=
    KeycodeContents.accepts_statements writable ⟨some title, .main, 0⟩
  have applied := written.apply writable ⟨some title, .main, 0⟩ (some title)
  exact @compilePart_of_accepts ⟨.keycodes, title, 0, table.statements, []⟩ rfl _ _ accepts applied
    level library

end Assembly

end Xkb
