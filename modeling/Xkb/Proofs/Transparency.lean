import Xkb.Proofs.Aliases
import Xkb.Proofs.AssemblyAlike
import Xkb.Proofs.Bits
import Xkb.Proofs.Section.CompatSettled
import Xkb.Proofs.Section.SoleInclude
import Xkb.Proofs.Section.TypesAlike
import Xkb.Proofs.Source.Inclusion

/-! A section that only includes another one is compiled to what this other one is compiled to, but
for group masks that the other one leaves empty: these stay as they were. -/

namespace Xkb

open SectionContents (absorb builtin forTerm)

open Library

namespace Keymap

/-- The keymap without the name of the section that a kind was compiled from. -/
def untitled (kind : SectionKind) (keymap : Keymap) : Keymap :=
  match kind with
  | .keycodes => { keymap with keycodes := { keymap.keycodes with name := none } }
  | .types => { keymap with types := { keymap.types with name := none } }
  | .compatibility => { keymap with compat := { keymap.compat with name := none } }
  | .symbols => { keymap with symbols := { keymap.symbols with name := none } }
  | _ => keymap

/-- The masks where each empty one is as it was before. -/
def restoreMasks (earlier masks : Vector ModMask 4) : Vector ModMask 4 :=
  Vector.zipWith (fun old mask => if mask = .empty then old else mask) earlier masks

/-- The keymap where each group mask that is empty is as it was before. -/
def restoring (earlier keymap : Keymap) : Keymap :=
  { keymap with compat := { keymap.compat with
    groupMasks := restoreMasks earlier.compat.groupMasks keymap.compat.groupMasks } }

theorem restoreMasks_self (masks : Vector ModMask 4) : restoreMasks masks masks = masks := by
  refine Vector.ext fun position bound => ?_
  simp [restoreMasks]

theorem restoring_of_masks {earlier keymap : Keymap}
    (same : keymap.compat.groupMasks = earlier.compat.groupMasks) :
    earlier.restoring keymap = keymap := by
  rw [restoring, same, restoreMasks_self, ← same]

end Keymap

theorem CompatContents.applyGroupMasks_readded (contents : CompatContents) (moved : Origin → Origin)
    (mode : MergeMode) (masks : Vector ModMask 4) (taken : CompatContents)
    (readded : taken.groupMasks = (contents.move moved).groupMasks.map (GroupMask.readded mode)) :
    taken.applyGroupMasks masks = Keymap.restoreMasks masks (contents.applyGroupMasks masks) := by
  -- The masks do not depend on each other, so one position is looked at.
  refine Vector.ext fun position bound => ?_
  simp only [applyGroupMasks, Keymap.restoreMasks, readded, move, Vector.getElem_zipWith,
    Vector.getElem_map]
  generalize contents.groupMasks[position] = mask
  generalize masks[position] = known
  by_cases noMods : mask.mods = .empty
  · -- The mask counts for nothing when it is added again.
    have dropped : (mask.move moved).readded mode = .initial := if_pos noMods
    simp only [dropped, GroupMask.initial, noMods]
    cases mask.defined with
    | true => simp [ModMask.isEmpty_iff.mpr]
    | false => simp [ModMask.isEmpty_iff.mpr]
  · -- A mask with modifiers is added as it is, so it is written on both sides.
    have kept : ((mask.move moved).readded mode).mods = mask.mods := by
      simp [GroupMask.readded, GroupMask.move, noMods]
    have counts : mask.mods.isEmpty = false := by
      simpa [← ModMask.isEmpty_iff] using noMods
    simp [kept, counts, noMods]

namespace Assembly

section Applying

variable {γ : Type} [SectionContents γ] {assembly : Assembly} {through part : Section}
  {contents : γ → γ → Prop} {taken : γ → γ}
  {apply : Applying γ}

/-- What compiling a section and compiling one that relays it come to: neither gives a result, or
both do, and the keymaps and the maps that are left over belong together. -/
def Agree (result : Keymap × List IndicatorDraft → Keymap × List IndicatorDraft → Prop)
    (own whole : Option (List IndicatorDraft) × Assembly) : Prop :=
  (own.1 = none ∧ whole.1 = none) ∨ ∃ unbound other, own.1 = some unbound ∧ whole.1 = some other ∧
    result (own.2.keymap, unbound) (whole.2.keymap, other)

theorem applyPart_relay
    (relayed : Relayed contents taken (reading γ assembly .override part)
      (reading γ assembly .override through))
    {result : Keymap × List IndicatorDraft → Keymap × List IndicatorDraft → Prop}
    (applies : ∀ left right, contents left right → ∀ name other modifiers,
      Alike (AtLevels fun _ _ => True) (apply left name { assembly.keymap with modifiers })
        (apply (taken right) other { assembly.keymap with modifiers }) result) :
    Agree result (applyPart .override part apply assembly)
      (applyPart .override through apply assembly) := by
  cases clean : (reading γ assembly .override part).1.isClean with
  | false =>
    -- A section with errors is not applied.
    rw [applyPart_of_errors apply clean, applyPart_of_errors apply (relayed.clean.trans clean)]
    exact .inl ⟨rfl, rfl⟩
  | true =>
    obtain ⟨moved, known, same⟩ := relayed.contents clean
    rw [applyPart_of_clean apply clean, applyPart_of_clean apply (relayed.clean.trans clean)]
    -- Both apply what they hold to the same keymap, with the modifiers that reading left.
    obtain ⟨applied, -⟩ := applies _ _ known (reading γ assembly .override part).1.header.name
      (reading γ assembly .override through).1.header.name
      (reading γ assembly .override part).2.modifiers
      (reading γ assembly .override part).2.diagnostics
      (reading γ assembly .override through).2.diagnostics trivial
    dsimp only [afterReading]
    rw [same, relayed.modifiers clean]
    exact .inr ⟨_, _, rfl, rfl, applied⟩

end Applying

section Kinds

variable {assembly : Assembly} {term : IncludeTerm} {through part : Section} {place : Origin}

/-- The keymap and the maps that are left over, of a section and of one that relays it: the keymaps
are the same but for the name and for masks that are empty, and the maps but for how they were
defined. -/
def SameResult (kind : SectionKind) (start : Keymap) (change : Definition → Definition)
    (own whole : Keymap × List IndicatorDraft) : Prop :=
  whole.1.untitled kind = (start.restoring own.1).untitled kind ∧
    whole.2 = own.2.map (IndicatorDraft.relabel change)

/-- Keymaps with the masks of the start are the same but for the name. -/
theorem SameResult.of_masks {kind : SectionKind} {start : Keymap} {change : Definition → Definition}
    {own whole : Keymap × List IndicatorDraft}
    (masks : own.1.compat.groupMasks = start.compat.groupMasks)
    (keymap : whole.1.untitled kind = own.1.untitled kind)
    (unbound : whole.2 = own.2.map (IndicatorDraft.relabel change)) :
    SameResult kind start change own whole := by
  refine ⟨?_, unbound⟩
  rw [Keymap.restoring_of_masks masks]
  exact keymap

/-- What becomes of a definition that is included in a mode. -/
def asIncluded (place : Origin) (mode : MergeMode) (definition : Definition) : Definition :=
  (definition.move (Origin.relocate place)).inMode mode

theorem asIncluded_fields (place : Origin) (mode : MergeMode) (definition : Definition) :
    (asIncluded place mode definition).fields = definition.fields := by
  simp only [asIncluded, Definition.inMode]
  split <;> rfl

theorem addTypes_included (contents : TypeContents) (place : Origin) (mode : MergeMode)
    (name other : Option String) (keymap : Keymap) :
    Alike (AtLevels fun _ _ => True) (addTypes contents name keymap)
      (addTypes ((contents.move (Origin.relocate place)).readded mode) other keymap)
      (SameResult .types keymap (asIncluded place mode)) := by
  -- A type is finished without a look at where it was defined.
  have sameTypes : ((contents.move (Origin.relocate place)).readded mode).types.map TypeDraft.finish =
      contents.types.map TypeDraft.finish := by
    simp only [TypeContents.readded, TypeContents.move, List.map_map]
    rfl
  refine .pure (SameResult.of_masks rfl ?_ rfl)
  simp only [Keymap.untitled, TypeContents.finish, sameTypes]

theorem addSymbols_included (contents : SymbolContents) (place : Origin) (mode : MergeMode)
    (name other : Option String) (keymap : Keymap) :
    Alike (AtLevels fun _ _ => True) (addSymbols contents name keymap)
      (addSymbols ((contents.move (Origin.relocate place)).readded mode) other keymap)
      (SameResult .symbols keymap (asIncluded place mode)) := by
  -- Including gives each key and each entry a new definition and mode, and nothing else.
  let included := contents.relabel (asIncluded place mode)
    fun merge => if mode == .unspecified then merge else mode
  have sameKeys : ((contents.move (Origin.relocate place)).readded mode).keys = included.keys := by
    simp only [SymbolContents.readded, SymbolContents.inMode, SymbolContents.relabel,
      SymbolContents.move, included, List.map_map]
    rfl
  have sameApply : ((contents.move (Origin.relocate place)).readded mode).apply other keymap =
      included.apply other keymap := by
    simp only [SymbolContents.apply, sameKeys]
    rfl
  have applied : Alike (AtLevels fun _ _ => True) (addSymbols contents name keymap)
      (addSymbols ((contents.move (Origin.relocate place)).readded mode) other keymap)
      fun own whole => whole.1.untitled .symbols = own.1.untitled .symbols ∧ own.2 = [] ∧
        whole.2 = [] := by
    rw [addSymbols, addSymbols, sameApply]
    refine .bind (SymbolContents.apply_alike (asIncluded_fields place mode) _ contents name
      other keymap) ?_
    intro own whole known
    -- Without keys nothing is written, and else the name is all that differs.
    rcases known with same | ⟨-, same⟩
    · exact Alike.pure ⟨by rw [same], rfl, rfl⟩
    · exact Alike.pure ⟨by rw [same]; rfl, rfl, rfl⟩
  refine .mono (applied.gives (addSymbols_writes contents name keymap)) ?_
  intro own whole known
  obtain ⟨⟨sameKeymap, noneLeft, noneOver⟩, written⟩ := known
  -- Symbols write no masks.
  have sameCompat := congrArg Keymap.compat written
  exact .of_masks (by rw [sameCompat]) sameKeymap (by rw [noneLeft, noneOver]; rfl)

/-- Interpretations that were included are added as they are themselves, but for empty masks. -/
theorem compatApply_included (contents : CompatContents) (place : Origin) (mode : MergeMode)
    (name other : Option String) (keymap : Keymap) :
    Alike (AtLevels fun _ _ => True) (contents.apply name keymap)
      (((contents.move (Origin.relocate place)).readded mode).apply other keymap)
      (SameResult .compatibility keymap (asIncluded place mode)) := by
  let included := (contents.move (Origin.relocate place)).readded mode
  -- What is applied of an interpretation does not tell how it was defined; of an indicator map that
  -- is left over it does.
  have sameInterpretations : included.interpretations.map (·.interpretation) =
      contents.interpretations.map (·.interpretation) := by
    simp only [included, CompatContents.readded, CompatContents.move, List.map_map]
    rfl
  have sameIndicators : included.indicators =
      contents.indicators.map (IndicatorDraft.relabel (asIncluded place mode)) := by
    simp only [included, CompatContents.readded, CompatContents.move, List.map_map]
    rfl
  refine .mono (CompatContents.apply_alike sameInterpretations sameIndicators name other
    keymap).alike ?_
  intro own whole known
  obtain ⟨same, -, ownMasks⟩ := known
  have masks := contents.applyGroupMasks_readded (Origin.relocate place) mode
    keymap.compat.groupMasks included rfl
  rw [same, masks]
  refine ⟨?_, rfl⟩
  simp only [Keymap.untitled, Keymap.restoring, ownMasks]
  rfl

variable {γ : Type} [SectionContents γ]

/-- A section of one kind comes to the same result as one that relays it, if what it holds comes
through the include and is applied alike. -/
theorem applyPart_passes (plain : NeedsFiles γ)
    (starts : forTerm term SectionContents.empty = (SectionContents.empty : γ))
    (unparsed : assembly.library.parsed = []) (unused : assembly.library.stack = [])
    (relay : Relay assembly.library (SectionContents.kind γ) term through part place)
    (unique : assembly.library.Unrivalled (SectionContents.kind γ) term part)
    {move readded : γ → γ} {holds : γ → Prop}
    (uniform : Uniform γ assembly.keymap.keycodes (AtLevels Eq) (Origin.relocate place)
      fun left right => right = move left)
    (keeps : Keeps γ assembly.keymap.keycodes holds)
    (takes : ∀ contents, holds contents → ∀ modifiers header,
      Gives (absorb ⟨modifiers, assembly.keymap.keycodes⟩ term.merge header contents
        SectionContents.empty) fun made => made = (readded contents, 0))
    {apply : Applying γ}
    {result : Keymap × List IndicatorDraft → Keymap × List IndicatorDraft → Prop}
    (applies : ∀ contents name other modifiers, Alike (AtLevels fun _ _ => True)
      (apply contents name { assembly.keymap with modifiers })
      (apply (readded (move contents)) other { assembly.keymap with modifiers }) result) :
    Agree result (applyPart .override part apply assembly)
      (applyPart .override through apply assembly) := by
  have relayed := reading_relay unparsed unused plain relay unique starts (uniform.keeping keeps)
    fun left right known => takes right known.2
  refine applyPart_relay relayed ?_
  intro left right known name other modifiers
  rw [known.1]
  exact applies left name other modifiers

theorem compilePart_relay (unparsed : assembly.library.parsed = [])
    (unused : assembly.library.stack = []) (kind : SectionKind)
    (compiled : kind = .types ∨ kind = .compatibility ∨ kind = .symbols)
    (flat : kind = .symbols → assembly.keymap.keycodes.Flat) (ungrouped : term.group = none)
    (relay : Relay assembly.library kind term through part place)
    (unique : assembly.library.Unrivalled kind term part) (isKind : part.kind = kind)
    (sameKind : through.kind = kind) :
    Agree (SameResult kind assembly.keymap (asIncluded place term.merge))
      (compilePart .override part assembly) (compilePart .override through assembly) := by
  simp only [compilePart, isKind, sameKind]
  rcases compiled with rfl | rfl | rfl
  · have plain : NeedsFiles TypeContents := fun _ _ => rfl
    have uniform : Uniform TypeContents assembly.keymap.keycodes (AtLevels Eq)
        (Origin.relocate place) fun left right => right = left.move (Origin.relocate place) :=
      TypeContents.uniform (fun _ _ same => same) _ rfl fun _ _ => rfl
    -- Only the absorbing and the applying are of the kind.
    refine applyPart_passes plain rfl unparsed unused relay unique uniform
      (TypeContents.maintains_sound fun _ => True).keeps ?_
      fun contents name other _ => addTypes_included contents place term.merge name other _
    intro contents sound modifiers header diagnostics
    have added := contents.absorb_empty sound term.merge
    exact congrArg (fun run => (run diagnostics).1) added
  · have plain : NeedsFiles CompatContents := fun _ _ => rfl
    have uniform : Uniform CompatContents assembly.keymap.keycodes (AtLevels Eq)
        (Origin.relocate place) fun left right => right = left.move (Origin.relocate place) :=
      CompatContents.uniform _ rfl fun _ _ => rfl
    refine applyPart_passes plain rfl unparsed unused relay unique uniform
      (CompatContents.keeps_settled _) ?_
      fun contents name other _ => compatApply_included contents place term.merge name other _
    intro contents settled modifiers header
    -- Masks may be reported as defined again, so only the value is known.
    refine .bind (CompatContents.absorb_empty settled term.merge) ?_
    exact fun made same => Gives.pure (by rw [same])
  · have plain : NeedsFiles SymbolContents := fun _ _ => rfl
    -- Without a group of its own, the term starts the section as it starts by itself.
    have starts : forTerm term SectionContents.empty =
        (SectionContents.empty : SymbolContents) := by
      simp only [forTerm, ungrouped]
      rfl
    have uniform : Uniform SymbolContents assembly.keymap.keycodes (AtLevels Eq)
        (Origin.relocate place) fun left right => right = left.move (Origin.relocate place) :=
      SymbolContents.uniform _ rfl fun _ _ => rfl
    refine applyPart_passes plain starts unparsed unused relay unique uniform
      (SymbolContents.keeps_settled (flat rfl)) ?_
      fun contents name other _ => addSymbols_included contents place term.merge name other _
    intro contents settled modifiers header diagnostics
    have added := SymbolContents.absorb_empty settled term.merge
    exact congrArg (fun run => ((run diagnostics).1, 0)) added

/-- A section whose only statement includes a section of a text at hand, by its name, is compiled
to what this section is compiled to: it has a result just when the other one has, the keymap is the
same up to the name of the section, and the indicator maps that are left over are the same up to how
they were defined. The exception are group masks that the section leaves empty, which stay as they
were. -/
theorem compilePart_through_include (assembly : Assembly) (unparsed : assembly.library.parsed = [])
    (unused : assembly.library.stack = []) (file text : String) (sections : List Section)
    (part : Section)
    (compiled : part.kind = .types ∨ part.kind = .compatibility ∨ part.kind = .symbols)
    (flat : part.kind = .symbols → assembly.keymap.keycodes.Flat)
    (atHand : assembly.library.source (scopedPath part.kind file) = some text)
    (parsed : Source.parse text = .ok sections) (distinct : (sections.map (·.name)).Nodup)
    (member : part ∈ sections) (named : file ≠ "") (plainFile : Source.PlainName file)
    (plainMap : Source.PlainName part.name) (merge : MergeMode) :
    ∃ included position,
      Source.includeStatement merge (Source.includeText file part.name) = some included ∧
      sections[position]? = some part ∧
      ∀ through : Section, through.kind = part.kind → through.statements = [.inclusion included] →
        let own := compilePart .override part assembly
        let whole := compilePart .override through assembly
        whole.1 = own.1.map (List.map (IndicatorDraft.relabel
          (asIncluded (.included file position) merge))) ∧
        (own.1.isSome → whole.2.keymap.untitled part.kind =
          (assembly.keymap.restoring own.2.keymap).untitled part.kind) := by
  have read := Source.includeStatement_includeText merge named plainFile plainMap
  have found : assembly.library.text part.kind file = .ok text := by
    simp only [Library.text, atHand]
  have held := sectionsFor_eq_ok.mpr ⟨text, found, parsed⟩
  obtain ⟨position, located, leads⟩ := target_named held distinct member merge none
  refine ⟨_, position, read, located, fun through sameKind only => ?_⟩
  -- The statement has one term, and the names of the sections tell where it leads.
  have relay : Relay assembly.library part.kind ⟨merge, some file, some part.name, none⟩ through part
      (.included file position) := ⟨⟨_, only⟩, rfl, leads⟩
  have agree := compilePart_relay unparsed unused part.kind compiled flat rfl relay
    (unrivalled_of_nodup held distinct leads) rfl sameKind
  rcases agree with ⟨ownNone, wholeNone⟩ | ⟨unbound, other, ownSome, wholeSome, keymap, maps⟩
  · refine ⟨by rw [ownNone, wholeNone]; rfl, fun some => ?_⟩
    rw [ownNone] at some
    cases some
  · refine ⟨?_, fun _ => keymap⟩
    rw [ownSome, wholeSome]
    exact congrArg some maps

end Kinds

theorem parse_eq_sectionsOf {text : String} (some : sectionsOf text ≠ []) :
    Source.parse text = .ok (sectionsOf text) := by
  simp only [sectionsOf] at some ⊢
  cases parsed : Source.parse text with
  | ok sections => rfl
  | error error => simp [parsed] at some

/-- Symbols for a key under its own name and under a second one. -/
def aliasedText : String :=
  "xkb_symbols \"m\" { key <ESC> { [ Escape ] }; key <QUIT> { [ F1, F2 ] }; };"

/-- Keycodes with a key that has two further names, one for the other. -/
def aliasedKeycodes : Section :=
  ⟨.keycodes, "k", 0,
    [.keycode .unspecified (.ofString "ESC") 9,
      .keyAlias .unspecified (.ofString "QUIT") (.ofString "STOP"),
      .keyAlias .unspecified (.ofString "STOP") (.ofString "ESC")], []⟩

/-- A keymap with these keycodes. -/
def aliasedKeymap : Keymap :=
  (compilePart .override aliasedKeycodes (start 0 .empty)).2.keymap

/-- The keymap with the text at hand. -/
def aliased : Assembly :=
  ⟨aliasedKeymap, .atLevel 0, Library.empty.addSource .symbols "f" aliasedText⟩

/-- The section of the text. -/
def aliasedPart : Section :=
  (sectionsOf aliasedText).headD default

/-- The symbols come through an include where keys have second names. -/
theorem compilePart_through_include_aliased :
    aliasedKeymap.keycodes.Flat ∧ sectionsOf aliasedText = [aliasedPart] ∧
      ∃ included position,
        Source.includeStatement .augment "f(m)" = some included ∧
        (sectionsOf aliasedText)[position]? = some aliasedPart ∧
        ∀ through : Section, through.kind = .symbols → through.statements = [.inclusion included] →
          let own := compilePart .override aliasedPart aliased
          let whole := compilePart .override through aliased
          whole.1 = own.1.map (List.map (IndicatorDraft.relabel
            (asIncluded (.included "f" position) .augment))) ∧
          (own.1.isSome → whole.2.keymap.untitled .symbols =
            (aliased.keymap.restoring own.2.keymap).untitled .symbols) := by
  -- The text is read once, and the rest is told from the names of its sections.
  have summary : (sectionsOf aliasedText).map (fun part => (part.kind, part.name)) =
      [(.symbols, "m")] := by
    decide +kernel
  obtain ⟨only, single, known⟩ := List.map_eq_singleton_iff.mp summary
  obtain ⟨isSymbols, isNamed⟩ := Prod.mk.inj known
  have isOnly : aliasedPart = only := by
    rw [aliasedPart, single]
    rfl
  have whole : sectionsOf aliasedText = [aliasedPart] := by rw [single, isOnly]
  rw [← isOnly] at isSymbols isNamed
  have flat : aliasedKeymap.keycodes.Flat := by
    rw [aliasedKeymap]
    exact start_flat 0 .empty .override aliasedKeycodes
  have through := compilePart_through_include aliased rfl rfl "f" aliasedText
    (sectionsOf aliasedText) aliasedPart (.inr (.inr isSymbols)) (fun _ => flat)
    (by rw [isSymbols]; decide) (parse_eq_sectionsOf (by simp [whole])) (by simp [whole])
    (by simp [whole]) (by decide) (by decide +kernel) (by rw [isNamed]; decide +kernel) .augment
  rw [isNamed, isSymbols] at through
  exact ⟨flat, whole, through⟩

/-- Interpretations that set a group mask and empty it again. -/
def emptyingText : String :=
  "xkb_compat \"m\" { group 2 = Mod1; group 2 = none; };"

/-- A keymap with a mask for the group, where the text is at hand. -/
def emptying : Assembly :=
  ⟨{ Keymap.empty with compat := { CompatTable.empty with
    groupMasks := #v[.empty, ⟨8, 0⟩, .empty, .empty] } }, .atLevel 0,
    Library.empty.addSource .compatibility "f" emptyingText⟩

/-- A section that only includes the one of the text. -/
def emptyingThrough : Section :=
  ⟨.compatibility, "t", 0, [.inclusion ⟨.unspecified, "f(m)", [⟨.unspecified, "f", "m", none⟩]⟩], []⟩

/-- A mask that a section sets and empties again is empty where the section is compiled itself, and
as it was before where it is included: adding an empty mask to a group counts for nothing. -/
theorem compilePart_through_include_emptied :
    (sectionsOf emptyingText).map (fun part =>
      (compilePart .override part emptying).2.keymap.compat.groupMasks) =
        [#v[.empty, .empty, .empty, .empty]] ∧
      (compilePart .override emptyingThrough emptying).2.keymap.compat.groupMasks =
        #v[.empty, ⟨8, 0⟩, .empty, .empty] := by
  decide +kernel

end Assembly

end Xkb
