import Xkb.Proofs.Compiler
import Xkb.Proofs.Section.IncludeStack
import Xkb.Proofs.Section.KeyNames
import Xkb.Proofs.Section.RepeatedKeys
import Xkb.Proofs.Tables

/-! All codes of a name get the key of that name. On a later code the key is the same but for the
types of its groups: a type that was picked for a group on the first code counts as given on the
others. -/

namespace Xkb

theorem Keymap.Blank.repeated {keymap : Keymap} (blank : keymap.Blank) (name : KeyName) :
    KeysRepeated keymap.keycodes name keymap.symbols.keys := by
  intro code other _ _ _ _ _ first later found otherFound
  have bare {code : Nat} {key : Key} (found : keymap.symbols.keys[code]? = some key) :
      key = .empty := by
    rw [blank] at found
    obtain ⟨_, same⟩ := Vector.getElem?_eq_some_iff.mp found
    simpa using same.symm
  rw [bare found, bare otherFound]
  exact .refl _

namespace SymbolContents

variable {keymap : Keymap} {name : KeyName}

theorem Remarked.repeated {keycodes : KeycodeTable} {old new : Vector Key 256}
    (remarked : Remarked keycodes old new) (repeated : KeysRepeated keycodes name old) :
    KeysRepeated keycodes name new := by
  intro code other ascends within otherWithin named otherNamed first later found otherFound
  -- A code has the key that it had, maybe with other modifiers.
  obtain ⟨mods, same⟩ := (remarked code).1
  obtain ⟨otherMods, otherSame⟩ := (remarked other).1
  obtain ⟨source, there, rfl⟩ := Option.map_eq_some_iff.mp (same.symm.trans found)
  obtain ⟨otherSource, otherThere, rfl⟩ :=
    Option.map_eq_some_iff.mp (otherSame.symm.trans otherFound)
  exact (repeated code other ascends within otherWithin named otherNamed source otherSource there
    otherThere).withModifiers mods otherMods

/-- Applying a symbols section that gives no key an alias of a name leaves the codes of that name
with one key. -/
theorem apply_repeated {contents : SymbolContents} (canonical : keymap.types.Canonical)
    (blank : keymap.Blank)
    (direct : contents.NamedBy fun given => keymap.keycodes.realName given ≠ some name)
    (label : Option String) :
    Gives (contents.apply label keymap) fun made => made.keycodes = keymap.keycodes ∧
      KeysRepeated keymap.keycodes name made.symbols.keys := by
  have free (code : Nat) (named : keymap.keycodes.names[code]? = some name) :
      keymap.symbols.keys[code]? = some .empty := by
    obtain ⟨inside, _⟩ := Vector.getElem?_eq_some_iff.mp named
    rw [blank]
    simp [inside]
  have sameNames : (contents.keys.map KeyDraft.prepare).map KeyDraft.name =
      contents.keys.map KeyDraft.name := by
    simp [KeyDraft.prepare_name]
  refine (contents.apply_remarked label keymap).mono ?_
  rintro _ (⟨-, rfl⟩ | ⟨keys, groupNames, rfl, remarked⟩)
  · exact ⟨rfl, blank.repeated name⟩
  · refine ⟨rfl, remarked.repeated (KeyDraft.putAll_repeated canonical (sameNames ▸ direct.distinct)
      (fun key member => ?_) free)⟩
    exact direct.each key.name (sameNames ▸ List.mem_map_of_mem member)

end SymbolContents

/-- In a composite section with certain texts at hand, no key is given an alias of a name. -/
def Section.NamesDirectly (texts : Library) (keycodes : KeycodeTable) (name : KeyName)
    (part : Section) : Prop :=
  ∀ symbols ∈ part.parts, symbols.kind = .symbols → ∀ merge given body,
    texts.Contributes .symbols symbols (.keySymbols merge given body) →
      keycodes.realName given ≠ some name

/-- All codes of a name have one key, if no key was given an alias of the name. -/
def Keymap.Alternates (texts : Library) (part : Section) (keymap : Keymap) : Prop :=
  ∀ name, part.NamesDirectly texts keymap.keycodes name →
    KeysRepeated keymap.keycodes name keymap.symbols.keys

theorem Keymap.SameKeys.alternates {texts : Library} {part : Section} {before after : Keymap}
    (same : before.SameKeys after) (shared : before.Alternates texts part) :
    after.Alternates texts part := by
  have range : after.keycodes.inRange = before.keycodes.inRange := by
    funext code
    simp only [KeycodeTable.inRange, same.low, same.high]
  have real : after.keycodes.realName = before.keycodes.realName := by
    funext name
    simp only [KeycodeTable.realName, same.aliases]
  intro name direct
  simp only [Section.NamesDirectly, real] at direct
  simpa only [KeysRepeated, range, same.names, same.symbols] using shared name direct

namespace Assembly

variable {texts : Library}

theorem compilePart_extends (mode : MergeMode) (part : Section) :
    Leads (fun assembly => texts.Extends assembly.library) (compilePart mode part)
      fun _ assembly => texts.Extends assembly.library := by
  have applied {γ : Type} [SectionContents γ] (apply : Applying γ) :
      Leads (fun assembly => texts.Extends assembly.library) (applyPart mode part apply)
        fun _ assembly => texts.Extends assembly.library := by
    have stays (assembly : Assembly) (extended : texts.Extends assembly.library) :
        texts.Extends (reading γ assembly mode part).2.library :=
      (reading_keeps extended maintains_true (by simp) mode).2
    exact applyPart_ends stays fun assembly extended =>
      (Gives.trivial _).mono fun _ _ _ => stays assembly extended
  simp only [compilePart]
  split
  · exact applied _
  · exact applied _
  · exact applied _
  · exact applied _
  · exact .pure fun _ extended => extended

/-- Texts are at hand, and no key has symbols yet. -/
def Ready (texts : Library) (assembly : Assembly) : Prop :=
  texts.Extends assembly.library ∧ assembly.keymap.Blank

variable {part : Section}

theorem compilePart_types_canonical (kind : part.kind = .types) (mode : MergeMode) :
    Turns (fun _ => True) (fun keymap => keymap.types.Canonical)
      (compilePart mode part) := by
  intro assembly _ succeeds
  rw [compilePart_types_eq kind succeeds]
  have sound := reading_holds (TypeContents.maintains_sound (assembly.Supplies .types part)) mode
  exact (TypeContents.finish_wellFormed sound _ _).canonical

/-- Symbols that are added leave the codes of a name with one key, if they give no key an alias of
the name. -/
theorem addSymbols_alternates {contents : SymbolContents} {keymap : Keymap}
    (canonical : keymap.types.Canonical) (blank : keymap.Blank)
    (named : ∀ name, part.NamesDirectly texts keymap.keycodes name →
      contents.NamedBy fun given => keymap.keycodes.realName given ≠ some name)
    (label : Option String) :
    Gives (addSymbols contents label keymap) fun made => made.1.Alternates texts part := by
  intro diagnostics name direct
  have sameCodes := congrArg Keymap.keycodes (addSymbols_writes contents label keymap diagnostics)
  change _ = keymap.keycodes at sameCodes
  rw [sameCodes] at direct ⊢
  exact (SymbolContents.apply_repeated canonical blank (named name direct) label diagnostics).2

theorem compilePart_symbols_alternates {composite : Section} (own : part ∈ composite.parts)
    (kind : part.kind = .symbols) (mode : MergeMode) :
    Leads (fun assembly => Ready texts assembly ∧ assembly.keymap.types.Canonical)
      (compilePart mode part) fun outcome assembly =>
        outcome.isSome → assembly.keymap.Alternates texts composite := by
  rw [compilePart_symbols kind]
  refine applyPart_leads mode part ?_
  intro assembly begins
  obtain ⟨⟨extended, blank⟩, canonical⟩ := begins
  -- Reading changed nothing of the keymap but its modifiers.
  let keymap := (assembly.afterReading (reading SymbolContents assembly mode part).2).keymap
  have blankStill : keymap.Blank := blank
  have canonicalStill : keymap.types.Canonical := canonical
  -- The keys have names that the statements give them which this part leads to.
  have named (name : KeyName) (direct : composite.NamesDirectly texts keymap.keycodes name) :
      (reading SymbolContents assembly mode part).1.contents.NamedBy fun given =>
        keymap.keycodes.realName given ≠ some name := by
    exact (reading_keeps extended (SymbolContents.maintains_namedBy fun merge given body =>
      direct part own kind merge given body) (fun _ leads => leads) mode).1
  exact (addSymbols_alternates canonicalStill blankStill named _).mono fun _ shared _ => shared

/-- The parts of a composite section are compiled to a keymap with one key for all codes of a
name. -/
theorem compileKinds_shares {composite : Section} {chosen : List Section}
    (own : chosen ⊆ composite.parts)
    (typed : (partOf chosen .symbols).isSome → (partOf chosen .types).isSome) :
    Leads (Ready texts) (compileKinds chosen SectionKind.compiled []) fun outcome assembly =>
      outcome.isOk → assembly.keymap.Alternates texts composite := by
  -- Once there are types, the canonical ones are first.
  let prepared (keymap : Keymap) : Prop :=
    keymap.Blank ∧ ((partOf chosen .types).isSome → keymap.types.Canonical)
  let typedReady (assembly : Assembly) : Prop :=
    texts.Extends assembly.library ∧ prepared assembly.keymap
  have keycodes : Stage chosen .keycodes (Ready texts) (Ready texts) :=
    ⟨fun _ _ ready => ready, fun part kind _ assembly ready succeeds =>
      ⟨compilePart_extends .override part assembly ready.1,
        compilePart_keycodes_turns kind .override assembly ready.2 succeeds⟩⟩
  have types : Stage chosen .types (Ready texts) typedReady := by
    refine ⟨fun none assembly ready => ⟨ready.1, ready.2, by simp [none]⟩, ?_⟩
    intro part kind _ assembly ready succeeds
    refine ⟨compilePart_extends .override part assembly ready.1, ?_, fun _ => ?_⟩
    · exact (compilePart_types_turns kind .override assembly ready.2 succeeds).1
    · exact compilePart_types_canonical kind .override assembly trivial succeeds
  have compatibility : Stage chosen .compatibility typedReady typedReady := by
    refine ⟨fun _ _ ready => ready, fun part kind _ assembly ready succeeds => ?_⟩
    refine ⟨compilePart_extends .override part assembly ready.1, ?_⟩
    refine compilePart_compatibility_turns kind .override ?_ assembly ready.2 succeeds
    intro first second same begins
    simpa only [prepared, Keymap.Blank, same.symbols, same.types] using begins
  have symbols : Stage chosen .symbols typedReady fun assembly =>
      assembly.keymap.Alternates texts composite := by
    refine ⟨fun _ assembly ready name _ => ready.2.1.repeated name, ?_⟩
    intro part kind found assembly ready
    have canonical := ready.2.2 (typed (by simp [found]))
    exact compilePart_symbols_alternates (own (List.mem_of_find?_eq_some found)) kind .override
      assembly ⟨⟨ready.1, ready.2.1⟩, canonical⟩
  exact compileKinds_stages keycodes types compatibility symbols

theorem compileComposite_shares (part : Section) :
    Leads (Ready texts) (compileComposite part) fun outcome assembly =>
      outcome.isOk → assembly.keymap.Alternates texts part := by
  refine compileComposite_reaches (fun _ _ ready => ready) (fun chosen own legal complete => ?_)
    fun unbound assembly shared => ?_
  · exact compileKinds_shares own (types_of_symbols legal complete)
  · have same := IndicatorDraft.bindAllFree_sameKeys unbound assembly.keymap assembly.diagnostics
    exact same.alternates shared

/-- In a keymap that is made from a composite section, the codes of a name have one key, if no key
was given an alias of that name. On a later code the key differs at most in its modifiers and in the
types of its groups; where all of those are given, only in its modifiers. -/
theorem compileComposite_alternate_codes (level : Nat) (library : Library) (part : Section)
    (succeeds : (compileComposite part (.start level library)).1.isOk) :
    let keymap := (compileComposite part (.start level library)).2.keymap
    ∀ name, part.NamesDirectly library keymap.keycodes name →
      KeysRepeated keymap.keycodes name keymap.symbols.keys :=
  compileComposite_shares part (.start level library) ⟨Library.Extends.refl library, rfl⟩ succeeds

/-- A key with two codes and a symbol whose type is left to be picked. -/
def twofold : Section :=
  ⟨.keymap, "", 0, [],
    [⟨.keycodes, "", 0,
        [.keycode .unspecified (.ofString "A") 10, .keycode .alternate (.ofString "A") 11], []⟩,
      ⟨.types, "", 0, [], []⟩,
      ⟨.compatibility, "", 0, [], []⟩,
      ⟨.symbols, "", 0,
        [.keySymbols .unspecified (.ofString "A")
          [⟨.unspecified, none, some (.keysyms ["a"])⟩]], []⟩]⟩

/-- The second code of a name repeats the key of the first one. -/
theorem compileComposite_alternate_codes_twofold :
    let run := compileComposite twofold (.start 0 .empty)
    run.1.isOk ∧ run.2.keymap.keycodes.codesNamed (.ofString "A") 0 = [10, 11] ∧
      KeysRepeated run.2.keymap.keycodes (.ofString "A") run.2.keymap.symbols.keys := by
  have checked : let run := compileComposite twofold (.start 0 .empty)
      run.1.isOk ∧ run.2.keymap.keycodes.codesNamed (.ofString "A") 0 = [10, 11] ∧
        run.2.keymap.keycodes.aliases = [] := by
    decide +kernel
  obtain ⟨succeeds, codes, noAlias⟩ := checked
  refine ⟨succeeds, codes, ?_⟩
  refine compileComposite_alternate_codes 0 .empty twofold succeeds _ ?_
  intro symbols _ _ merge given body _
  simp [KeycodeTable.realName, noAlias]

/-- The type of the group was picked on the first code and counts as given on the second. -/
theorem compileComposite_alternate_codes_marked_apart :
    let keymap := (compileComposite twofold (.start 0 .empty)).2.keymap
    (keymap.key? 10).map Key.explicit = some 0 ∧
      (keymap.key? 11).map Key.explicit = some (Explicit.keyType 0) := by
  decide +kernel

end Assembly

end Xkb
