import Xkb.Compiler
import Xkb.Proofs.Section.KeyPlacement
import Xkb.Proofs.Section.KeyTypes

/-! Compiling a composite section: the keys that come out fit the types and the range of codes. -/

namespace Xkb

/-- The keys of a keymap fit its types and its range of codes. -/
def Keymap.KeysFit (keymap : Keymap) : Prop :=
  KeysFormed keymap.types keymap.keycodes keymap.symbols.keys

/-- No key of a keymap has symbols yet. -/
def Keymap.Blank (keymap : Keymap) : Prop :=
  keymap.symbols.keys = Vector.replicate 256 .empty

theorem Keymap.Blank.keysFit {keymap : Keymap} (blank : keymap.Blank) : keymap.KeysFit := by
  rw [Keymap.Blank] at blank
  rw [Keymap.KeysFit, blank]
  exact KeysFormed.empty _ _

/-- No key of a keymap has symbols yet, but there is a type for groups that name none. -/
def Keymap.Typed (keymap : Keymap) : Prop :=
  keymap.Blank ∧ PlacedGroup.twoLevelIndex < keymap.types.types.length

/-- A keymap that differs from another only in what has nothing to do with its keys. -/
structure Keymap.SameKeys (before after : Keymap) : Prop where
  low : after.keycodes.low = before.keycodes.low
  high : after.keycodes.high = before.keycodes.high
  names : after.keycodes.names = before.keycodes.names
  aliases : after.keycodes.aliases = before.keycodes.aliases
  types : after.types = before.types
  symbols : after.symbols = before.symbols

namespace Keymap.SameKeys

variable {first second third : Keymap}

theorem refl (keymap : Keymap) : keymap.SameKeys keymap :=
  ⟨rfl, rfl, rfl, rfl, rfl, rfl⟩

theorem trans (early : first.SameKeys second) (late : second.SameKeys third) :
    first.SameKeys third :=
  ⟨late.low.trans early.low, late.high.trans early.high, late.names.trans early.names,
    late.aliases.trans early.aliases, late.types.trans early.types,
    late.symbols.trans early.symbols⟩

theorem keysFit (same : first.SameKeys second) (fit : first.KeysFit) : second.KeysFit := by
  have range : second.keycodes.inRange = first.keycodes.inRange := by
    funext code
    simp only [KeycodeTable.inRange, same.low, same.high]
  intro code key found
  rw [same.symbols] at found
  obtain ⟨formed, outside⟩ := fit code key found
  rw [same.types, range]
  refine ⟨⟨formed.few, formed.typed, formed.even, formed.acting, formed.paired, formed.beyond,
    formed.explicit, fun overlay target kind => ?_⟩, outside⟩
  rw [range]
  exact formed.overlay overlay target kind

end Keymap.SameKeys

namespace IndicatorDraft

variable (drafts : List IndicatorDraft) (keymap : Keymap)

theorem bindAt_sameKeys (slot : Nat) (draft : IndicatorDraft) :
    keymap.SameKeys (bindAt keymap slot draft) :=
  ⟨rfl, rfl, rfl, rfl, rfl, rfl⟩

theorem bindNamed_sameKeys (draft : IndicatorDraft) :
    Gives (bindNamed keymap draft) fun made => keymap.SameKeys made.1 := by
  simp only [bindNamed]
  refine .ite (fun _ => .pure (.refl keymap)) fun _ => ?_
  split
  · exact .after fun _ => .pure (.refl keymap)
  · exact .pure (bindAt_sameKeys keymap _ draft)

theorem bindAllNamed_sameKeys :
    Gives (bindAllNamed drafts keymap) fun made => keymap.SameKeys made.1 := by
  refine .foldlM (.refl keymap) fun made draft _ known => ?_
  refine .bind (bindNamed_sameKeys made.1 draft) fun next same => ?_
  exact .pure (known.trans same)

/-- Binding maps to indicators without names. -/
theorem bindAllFree_sameKeys :
    Gives (bindAllFree drafts keymap) keymap.SameKeys := by
  refine .foldlM (.refl keymap) fun made draft _ known => ?_
  simp only [bindFree]
  split
  · exact .pure (known.trans (bindAt_sameKeys made _ draft))
  · exact .after fun _ => .pure known

end IndicatorDraft

namespace Assembly

variable {kind : SectionKind} {part : Section} {chosen : List Section}

theorem partOf_kind {parts : List Section} (found : partOf parts kind = some part) :
    part.kind = kind := by
  simpa using List.find?_some found

variable (composite : SectionKind) (parts : List Section)

theorem chooseParts_legal :
    Gives (chooseParts composite parts) fun chosen =>
      ∀ part ∈ chosen, composite.legal.contains part.kind := by
  refine .foldlM (by simp) fun chosen part _ known => ?_
  refine .ite (fun _ => .after fun _ => .pure known) fun legal => ?_
  refine .ite (fun _ => .after fun _ => .pure known) fun _ => ?_
  refine .pure fun other member => ?_
  rcases List.mem_append.mp member with old | last
  · exact known other old
  · rw [List.mem_singleton.mp last]
    simpa using legal

/-- The parts that count are parts of the composite section. -/
theorem chooseParts_subset :
    Gives (chooseParts composite parts) (· ⊆ parts) := by
  refine .foldlM (List.nil_subset _) fun chosen part member known => ?_
  refine .ite (fun _ => .after fun _ => .pure known) fun _ => ?_
  refine .ite (fun _ => .after fun _ => .pure known) fun _ => ?_
  exact .pure (List.append_subset.mpr ⟨known, by simpa using member⟩)

/-- Where keys are compiled, types are too. -/
theorem types_of_symbols {composite : SectionKind}
    (legal : ∀ part ∈ chosen, composite.legal.contains part.kind)
    (complete : missingKind composite chosen = none) (symbols : (partOf chosen .symbols).isSome) :
    (partOf chosen .types).isSome := by
  obtain ⟨part, found⟩ := Option.isSome_iff_exists.mp symbols
  have allowed := legal part (List.mem_of_find?_eq_some found)
  rw [partOf_kind found] at allowed
  -- Only where symbols are not legal may types be missing.
  have required : .types ∈ composite.required := by
    cases composite <;> first | (simp [SectionKind.legal] at allowed; done) | decide
  have present := List.find?_eq_none.mp complete _ required
  simpa [Option.isSome_iff_ne_none] using present

/-- Compiling keycodes leaves the keys without symbols. -/
theorem compilePart_keycodes_turns (kind : part.kind = .keycodes) (mode : MergeMode) :
    Turns Keymap.Blank Keymap.Blank (compilePart mode part) := by
  rw [compilePart_keycodes kind]
  refine applyPart_turns mode part fun assembly blank => ?_
  exact .after fun _ => .pure blank

/-- Compiling types makes the one that groups need which name none. -/
theorem compilePart_types_turns (kind : part.kind = .types) (mode : MergeMode) :
    Turns Keymap.Blank Keymap.Typed (compilePart mode part) := by
  rw [compilePart_types kind]
  refine applyPart_turns mode part fun assembly blank => .pure ⟨blank, ?_⟩
  simp only [TypeContents.finish_eq, List.length_append, List.length_map, List.length_zipIdx,
    canonicalHeads, List.length_cons, PlacedGroup.twoLevelIndex]
  omega

/-- Compiling a compatibility map has nothing to do with the keys. -/
theorem compilePart_compatibility_turns (kind : part.kind = .compatibility) (mode : MergeMode)
    {before : Keymap → Prop}
    (kept : ∀ first second, Keymap.SameKeys first second → before first → before second) :
    Turns before before (compilePart mode part) := by
  rw [compilePart_compatibility kind]
  refine applyPart_turns mode part fun assembly begins => ?_
  refine (IndicatorDraft.bindAllNamed_sameKeys _ _).mono fun made bound => ?_
  have same : assembly.keymap.SameKeys made.1 :=
    ⟨bound.low, bound.high, bound.names, bound.aliases, bound.types, bound.symbols⟩
  exact kept _ _ same begins

theorem compilePart_symbols_turns (kind : part.kind = .symbols) (mode : MergeMode) :
    Turns Keymap.Typed Keymap.KeysFit (compilePart mode part) := by
  rw [compilePart_symbols kind]
  refine applyPart_turns mode part fun assembly typed => ?_
  have reached := reading_holds
    (SymbolContents.maintains_reached (assembly.Supplies .symbols part)) mode
  have formed : KeysFormed assembly.keymap.types assembly.keymap.keycodes
      assembly.keymap.symbols.keys := by
    rw [typed.1]
    exact KeysFormed.empty _ _
  refine .bind (SymbolContents.apply_placed reached.numbered _ typed.2 formed) fun made placed => ?_
  refine .pure ?_
  simp only [Keymap.KeysFit, placed.types, placed.keycodes]
  exact placed.keys

/-- What a kind makes of assemblies, whether its part is compiled or missing. -/
structure Stage (chosen : List Section) (kind : SectionKind) (before after : Assembly → Prop) :
    Prop where
  missing : partOf chosen kind = none → ∀ assembly, before assembly → after assembly
  compiled : ∀ part, part.kind = kind → partOf chosen kind = some part →
    Leads before (compilePart .override part) fun outcome assembly => outcome.isSome → after assembly

theorem Stage.leads {rest : List SectionKind} {before middle after : Assembly → Prop}
    (stage : Stage chosen kind before middle)
    (further : ∀ unbound, Leads middle (compileKinds chosen rest unbound) fun outcome assembly =>
      outcome.isOk → after assembly) (unbound : List IndicatorDraft) :
    Leads before (compileKinds chosen (kind :: rest) unbound)
      fun outcome assembly => outcome.isOk → after assembly := by
  simp only [compileKinds]
  split
  · rename_i none
    exact fun assembly begins => further unbound assembly (stage.missing none _ begins)
  · rename_i part found
    refine .bind (stage.compiled part (partOf_kind found) found) fun outcome => ?_
    cases outcome with
    | none => exact .pure fun assembly _ => nofun
    | some left => exact fun assembly reached => further _ assembly (reached rfl)

/-- The kinds are compiled one after another. -/
theorem compileKinds_stages {before coded typed matched after : Assembly → Prop}
    (keycodes : Stage chosen .keycodes before coded) (types : Stage chosen .types coded typed)
    (compatibility : Stage chosen .compatibility typed matched)
    (symbols : Stage chosen .symbols matched after) :
    Leads before (compileKinds chosen SectionKind.compiled []) fun outcome assembly =>
      outcome.isOk → after assembly :=
  keycodes.leads (types.leads (compatibility.leads (symbols.leads fun _ =>
    .pure fun _ ends _ => ends))) []

theorem compileKinds_fit (typed : (partOf chosen .symbols).isSome → (partOf chosen .types).isSome) :
    Leads (fun assembly => assembly.keymap.Blank) (compileKinds chosen SectionKind.compiled [])
      fun outcome assembly => outcome.isOk → assembly.keymap.KeysFit := by
  -- Without types there are no symbols either, and the keys stay as they are.
  let ready (keymap : Keymap) : Prop :=
    keymap.Blank ∧ ((partOf chosen .types).isSome → keymap.Typed)
  have keycodes : Stage chosen .keycodes (·.keymap.Blank) (·.keymap.Blank) :=
    ⟨fun _ _ blank => blank, fun _ kind _ => compilePart_keycodes_turns kind .override⟩
  have types : Stage chosen .types (·.keymap.Blank) (ready ·.keymap) := by
    refine ⟨fun none _ blank => ⟨blank, by simp [none]⟩, fun part kind _ assembly blank succeeds => ?_⟩
    have enough := compilePart_types_turns kind .override assembly blank succeeds
    exact ⟨enough.1, fun _ => enough⟩
  have compatibility : Stage chosen .compatibility (ready ·.keymap) (ready ·.keymap) := by
    refine ⟨fun _ _ begins => begins, fun part kind _ => ?_⟩
    refine compilePart_compatibility_turns kind .override fun first second same begins => ?_
    simpa only [ready, Keymap.Typed, Keymap.Blank, same.symbols, same.types] using begins
  have symbols : Stage chosen .symbols (ready ·.keymap) (·.keymap.KeysFit) := by
    refine ⟨fun _ _ begins => begins.1.keysFit, fun part kind found assembly begins => ?_⟩
    have enough := begins.2 (typed (by simp [found]))
    exact compilePart_symbols_turns kind .override assembly enough
  exact compileKinds_stages keycodes types compatibility symbols

theorem bindLeftover_fit (unbound : List IndicatorDraft) :
    Leads (fun assembly => assembly.keymap.KeysFit) (bindLeftover unbound)
      fun _ assembly => assembly.keymap.KeysFit := by
  intro assembly fits
  have same := IndicatorDraft.bindAllFree_sameKeys unbound assembly.keymap assembly.diagnostics
  exact same.keysFit fits

/-- Compiling a composite section is compiling the parts that count and binding the indicator maps
that are left over, where reports do not matter. -/
theorem compileComposite_reaches {before after : Assembly → Prop}
    (reported : ∀ assembly diagnostics, before assembly → before { assembly with diagnostics })
    (compiled : ∀ chosen ⊆ part.parts,
      (∀ chosenPart ∈ chosen, part.kind.legal.contains chosenPart.kind) →
      missingKind part.kind chosen = none →
        Leads before (compileKinds chosen SectionKind.compiled []) fun outcome assembly =>
          outcome.isOk → after assembly)
    (bound : ∀ unbound, Leads after (bindLeftover unbound) fun _ => after) :
    Leads before (compileComposite part) fun outcome assembly => outcome.isOk → after assembly := by
  have report_leads {α : Type} {holds : α → Prop} {run : Report α} (given : Gives run holds) :
      Leads before (report run) fun value assembly => holds value ∧ before assembly :=
    fun assembly begins => ⟨given assembly.diagnostics, reported assembly _ begins⟩
  have chosenWell : Gives (chooseParts part.kind part.parts) fun chosen => chosen ⊆ part.parts ∧
      ∀ chosenPart ∈ chosen, part.kind.legal.contains chosenPart.kind := fun diagnostics =>
    ⟨chooseParts_subset part.kind part.parts diagnostics,
      chooseParts_legal part.kind part.parts diagnostics⟩
  simp only [compileComposite]
  refine .ite (fun _ => .pure fun _ _ => nofun) fun _ => ?_
  refine .bind (report_leads chosenWell) fun chosen => ?_
  refine .given fun ⟨subset, legal⟩ => ?_
  split
  · refine .bind (report_leads (.trivial _)) fun _ => ?_
    exact .pure fun _ _ => nofun
  · rename_i complete
    refine .bind (report_leads (.trivial _)) fun _ => .given fun _ => ?_
    refine .bind (compiled chosen subset legal complete) fun outcome => ?_
    cases outcome with
    | error error => exact .pure fun _ _ => nofun
    | ok unbound =>
      intro assembly reached _
      exact bound unbound assembly (reached rfl)

theorem compileComposite_leads (part : Section) :
    Leads (fun assembly => assembly.keymap.Blank) (compileComposite part) fun outcome assembly =>
      outcome.isOk → assembly.keymap.KeysFit := by
  refine compileComposite_reaches (fun _ _ blank => blank) (fun chosen _ legal complete => ?_)
    bindLeftover_fit
  exact compileKinds_fit (types_of_symbols legal complete)

/-- A composite section that is compiled makes a keymap whose keys fit its types and its range of
codes. -/
theorem compileComposite_keys_fit (level : Nat) (library : Library) (part : Section)
    (succeeds : (compileComposite part (.start level library)).1.isOk) :
    (compileComposite part (.start level library)).2.keymap.KeysFit :=
  compileComposite_leads part (.start level library) rfl succeeds

/-- Two keys, one of which acts and becomes the other one while an overlay is on. -/
def overlaid : Section :=
  ⟨.keymap, "overlaid", 0, [],
    [⟨.keycodes, "codes", 0,
        [.assignment ⟨.unspecified, some (.ident "minimum"), some (.integer 24)⟩,
          .assignment ⟨.unspecified, some (.ident "maximum"), some (.integer 25)⟩,
          .keycode .unspecified (.ofString "AD01") 24,
          .keycode .unspecified (.ofString "AD02") 25], []⟩,
      ⟨.types, "types", 0, [], []⟩,
      ⟨.compatibility, "compat", 0, [], []⟩,
      ⟨.symbols, "symbols", 0,
        [.keySymbols .unspecified (.ofString "AD01")
          [⟨.unspecified, none, some (.calls [.call "NoAction" []])⟩,
            ⟨.unspecified, some (.ident "overlay2"), some (.keyName (.ofString "AD02"))⟩]], []⟩]⟩

/-- Keys with actions and overlays are compiled to keys that fit. -/
theorem compileComposite_keys_fit_overlaid :
    (compileComposite overlaid (.start 0 .empty)).1.isOk ∧
      (compileComposite overlaid (.start 0 .empty)).2.keymap.KeysFit := by
  have succeeds : (compileComposite overlaid (.start 0 .empty)).1.isOk := by decide +kernel
  exact ⟨succeeds, compileComposite_keys_fit 0 .empty overlaid succeeds⟩

end Assembly

end Xkb
