import Xkb.Proofs.Section.KeySteps
import Xkb.Proofs.Section.MergeWinners
import Xkb.Proofs.Section.PlacementAlike
import Xkb.Proofs.Section.Settled

/-! The keys of a symbols section are apart from each other, also where keys have second names, so
adding them to a section without keys gives them back. -/

namespace Xkb

namespace KeycodeTable

/-- No alias stands for another alias. -/
def Flat (table : KeycodeTable) : Prop :=
  ∀ known ∈ table.aliases, table.realName known.real = none

instance (table : KeycodeTable) : Decidable table.Flat :=
  inferInstanceAs (Decidable (∀ known ∈ table.aliases, table.realName known.real = none))

/-- The name that an alias stands for is no alias. -/
theorem Flat.realName_eq_none {table : KeycodeTable} (flat : table.Flat) {name real : KeyName}
    (isAlias : table.realName name = some real) : table.realName real = none := by
  simp only [realName, Option.map_eq_some_iff] at isAlias
  obtain ⟨known, located, rfl⟩ := isAlias
  exact flat known (List.mem_of_find?_eq_some located)

end KeycodeTable

namespace KeyDraft

theorem merge_name (old new : KeyDraft) :
    Gives (old.merge new) fun made =>
      new.definition.merge = .replace ∧ made = new ∨ made.name = old.name := by
  by_cases replaces : new.definition.merge = .replace
  · exact (merge_replaces replaces).mono fun made same => .inl ⟨replaces, same⟩
  · refine (merge_joining replaces).mono ?_
    rintro _ ⟨grouped, joining, rfl⟩
    exact .inr joining.name

end KeyDraft

namespace SymbolContents

/-- A key that is added after another one is not merged with it. -/
def Apart (keycodes : KeycodeTable) (old new : KeyName) : Prop :=
  old ≠ new ∧ keycodes.realName new ≠ some old

/-- Contents that were added piece by piece: no key would be merged with an earlier one, and no
target of the modifier map comes twice. -/
structure Settled (keycodes : KeycodeTable) (contents : SymbolContents) : Prop where
  keys : (contents.keys.map KeyDraft.name).Pairwise (Apart keycodes)
  targets : (contents.modifierMap.map ModifierEntry.target).Nodup

variable {keycodes : KeycodeTable} {contents : SymbolContents}

theorem mergeNamed_names (name : KeyName) (new : KeyDraft) (keys : List KeyDraft) :
    Gives (mergeNamed name new keys) fun made =>
      made.map KeyDraft.name = keys.map KeyDraft.name ∨
        new.definition.merge = .replace ∧ made.map KeyDraft.name =
          changeFirst (· == name) (fun _ => new.name) (keys.map KeyDraft.name) := by
  induction keys with
  | nil => exact .pure (.inl rfl)
  | cons old rest ih =>
    simp only [List.map_cons, changeFirst]
    refine .ite (fun found => ?_) fun other => ?_
    · refine .bind (old.merge_name new) fun made known => .pure ?_
      rcases known with ⟨replaces, rfl⟩ | same
      · exact .inr ⟨replaces, by rw [if_pos found, List.map_cons]⟩
      · exact .inl (by rw [List.map_cons, same])
    · refine .bind ih fun made known => .pure ?_
      rcases known with same | ⟨replaces, changed⟩
      · exact .inl (by rw [List.map_cons, same])
      · exact .inr ⟨replaces, by rw [if_neg other, List.map_cons, changed]⟩

theorem mergeNamed_own_names (new : KeyDraft) (keys : List KeyDraft) :
    Gives (mergeNamed new.name new keys) fun made =>
      made.map KeyDraft.name = keys.map KeyDraft.name := by
  refine (mergeNamed_names new.name new keys).mono fun made known => ?_
  rcases known with same | ⟨-, changed⟩
  · exact same
  · -- Putting a name in its own place changes nothing.
    have inPlace : (changeFirst (· == new.name) (fun _ => new.name)
        (keys.map KeyDraft.name)).map id = (keys.map KeyDraft.name).map id :=
      map_changeFirst (by simp) _
    rwa [List.map_id, List.map_id, ← changed] at inPlace

variable {names : List KeyName}

theorem apart_changeFirst (flat : keycodes.Flat) {new real : KeyName}
    (isAlias : keycodes.realName new = some real) (fresh : new ∉ names)
    (pairwise : names.Pairwise (Apart keycodes)) :
    (changeFirst (· == real) (fun _ => new) names).Pairwise (Apart keycodes) := by
  induction names with
  | nil => exact .nil
  | cons first rest ih =>
    rw [List.pairwise_cons] at pairwise
    rw [List.mem_cons, not_or] at fresh
    simp only [changeFirst]
    split
    · refine List.pairwise_cons.mpr ⟨fun later member => ⟨?_, fun leads => ?_⟩, pairwise.2⟩
      · exact fun same => fresh.2 (same ▸ member)
      · -- A later key cannot be an alias of an alias.
        rw [flat.realName_eq_none leads] at isAlias
        cases isAlias
    · rename_i other
      -- The name to be replaced comes later, so the new one has to be apart from this one.
      refine List.pairwise_cons.mpr ⟨fun later member => ?_, ih fresh.2 pairwise.2⟩
      rcases mem_changeFirst member with known | ⟨_, _, _, rfl⟩
      · exact pairwise.1 later known
      · refine ⟨fun same => fresh.1 same.symm, ?_⟩
        rw [isAlias]
        simpa using fun same : real = first => other (by simp [same])

/-- The name of the key that one of a name is merged with, among those that are there: its own or
else the one that it is an alias for. -/
def mergedName (keycodes : KeycodeTable) (names : List KeyName) (new : KeyName) : Option KeyName :=
  if new ∈ names then some new else (keycodes.realName new).filter (· ∈ names)

theorem find_known (new : KeyName) {isKnown : KeyName → Bool}
    (known : ∀ name, isKnown name = true ↔ name ∈ names) :
    ([some new, keycodes.realName new].filterMap id).find? isKnown =
      mergedName keycodes names new := by
  -- The test is written as membership, to tell the cases apart.
  have sameTest : isKnown = fun name => decide (name ∈ names) := by
    funext name
    rw [Bool.eq_iff_iff, known name, decide_eq_true_iff]
  subst sameTest
  rw [mergedName]
  cases keycodes.realName new with
  | none => by_cases here : new ∈ names <;> simp
  | some name =>
    by_cases here : new ∈ names
    · simp [here]
    · by_cases there : name ∈ names <;> simp [here, Option.filter]

/-- A key is merged with one that has its name, else with one that it is an alias for. -/
theorem addKey_eq (keycodes : KeycodeTable) (contents : SymbolContents) (new : KeyDraft) :
    contents.addKey keycodes new =
      match mergedName keycodes (contents.keys.map KeyDraft.name) new.name with
      | some name => do return { contents with keys := ← mergeNamed name new contents.keys }
      | none => pure { contents with keys := contents.keys ++ [new] } := by
  have known (name : KeyName) : contents.keys.any (·.name == name) = true ↔
      name ∈ contents.keys.map KeyDraft.name := by
    simp
  rw [← find_known new.name known]
  rfl

theorem addKey_fresh {new : KeyDraft}
    (fresh : ∀ old ∈ contents.keys, Apart keycodes old.name new.name) :
    contents.addKey keycodes new = pure { contents with keys := contents.keys ++ [new] } := by
  have unknown : new.name ∉ contents.keys.map KeyDraft.name := by
    intro member
    obtain ⟨old, known, same⟩ := List.mem_map.mp member
    exact (fresh old known).1 same
  have noReal : (keycodes.realName new.name).filter (· ∈ contents.keys.map KeyDraft.name) = none := by
    rw [Option.filter_eq_none_iff]
    intro real isAlias member
    obtain ⟨old, known, same⟩ := List.mem_map.mp (of_decide_eq_true member)
    exact (fresh old known).2 (same ▸ isAlias)
  rw [addKey_eq, mergedName, if_neg unknown, noReal]

/-- What becomes of the names of the keys when a key is added: they stay, or a name that the new one
is an alias for is replaced, or the new one comes last. -/
inductive AddedName (keycodes : KeycodeTable) (replaces : Prop) (new : KeyName)
    (names : List KeyName) : List KeyName → Prop where
  | merged (known : new ∈ names ∨ ∃ real ∈ names, keycodes.realName new = some real) :
      AddedName keycodes replaces new names names
  | replaced {real : KeyName} (isAlias : keycodes.realName new = some real) (known : real ∈ names)
      (fresh : new ∉ names) (replacing : replaces) :
      AddedName keycodes replaces new names (changeFirst (· == real) (fun _ => new) names)
  | appended (fresh : ∀ old ∈ names, Apart keycodes old new) :
      AddedName keycodes replaces new names (names ++ [new])

/-- A key that is added changes the names in one of three ways, and the modifier map in none. -/
theorem addKey_names (keycodes : KeycodeTable) (contents : SymbolContents) (new : KeyDraft) :
    Gives (contents.addKey keycodes new) fun made =>
      AddedName keycodes (new.definition.merge = .replace) new.name
        (contents.keys.map KeyDraft.name) (made.keys.map KeyDraft.name) ∧
      made.modifierMap = contents.modifierMap := by
  rw [addKey_eq, mergedName]
  by_cases known : new.name ∈ contents.keys.map KeyDraft.name
  · rw [if_pos known]
    refine .bind (mergeNamed_own_names new contents.keys) fun keys same => .pure ⟨?_, rfl⟩
    rw [same]
    exact .merged (.inl known)
  · rw [if_neg known]
    -- A key that is found under neither of its names is appended.
    have appended (noReal : ∀ real, keycodes.realName new.name = some real →
        real ∉ contents.keys.map KeyDraft.name) :
        AddedName keycodes (new.definition.merge = .replace) new.name
          (contents.keys.map KeyDraft.name) ((contents.keys ++ [new]).map KeyDraft.name) := by
      rw [List.map_append]
      exact .appended fun old member =>
        ⟨fun same => known (same ▸ member), fun isAlias => noReal old isAlias member⟩
    cases isAlias : keycodes.realName new.name with
    | none => exact Gives.pure ⟨appended (by simp [isAlias]), rfl⟩
    | some real =>
      by_cases held : real ∈ contents.keys.map KeyDraft.name
      · rw [Option.filter_some, if_pos (by simpa using held)]
        refine .bind (mergeNamed_names real new contents.keys) fun keys made =>
          .pure ⟨?_, rfl⟩
        rcases made with same | ⟨replaces, changed⟩
        · rw [same]
          exact .merged (.inr ⟨real, held, isAlias⟩)
        · rw [changed]
          exact .replaced isAlias held known replaces
      · rw [Option.filter_some, if_neg (by simpa using held)]
        exact Gives.pure ⟨appended (by simpa [isAlias] using held), rfl⟩

theorem addKey_settled (flat : keycodes.Flat) (settled : contents.Settled keycodes)
    (new : KeyDraft) : Gives (contents.addKey keycodes new) (Settled keycodes) := by
  refine (addKey_names keycodes contents new).mono fun made known => ?_
  obtain ⟨added, sameMap⟩ := known
  refine ⟨?_, sameMap ▸ settled.targets⟩
  have apart := settled.keys
  generalize made.keys.map KeyDraft.name = names at added ⊢
  cases added with
  | merged _ => exact apart
  | replaced isAlias _ fresh _ => exact apart_changeFirst flat isAlias fresh apart
  | appended fresh =>
    refine List.pairwise_append.mpr ⟨apart, List.pairwise_singleton _ _, ?_⟩
    intro old member last same
    cases List.mem_singleton.mp same
    exact fresh old member

theorem addModifier_fresh {new : ModifierEntry}
    (fresh : ∀ old ∈ contents.modifierMap, old.target ≠ new.target) :
    contents.addModifier new =
      pure { contents with modifierMap := contents.modifierMap ++ [new] } := by
  have absent : contents.modifierMap.find? (·.target == new.target) = none := by
    simpa using fresh
  simp only [addModifier, absent]

theorem addModifier_settled (settled : contents.Settled keycodes) (new : ModifierEntry) :
    Gives (contents.addModifier new) (Settled keycodes) := by
  simp only [addModifier]
  split
  · rename_i absent
    refine .pure ⟨settled.keys, nodup_map_concat settled.targets ?_⟩
    simpa using absent
  · refine .ite (fun _ => .pure settled) fun _ => .after fun _ => .pure ?_
    -- The modifier changes, the target does not.
    refine ⟨settled.keys, ?_⟩
    dsimp only
    rw [map_changeFirst]
    · exact settled.targets
    · exact fun _ _ => rfl

theorem keptBySteps_settled (flat : keycodes.Flat) :
    KeptBySteps keycodes (fun _ => True) (Settled keycodes) fun _ => True where
  base settled _ _ := ⟨settled.keys, settled.targets⟩
  others _ _ settled := ⟨settled.keys, settled.targets⟩
  key _ _ := Gives.trivial _
  starts _ _ _ _ := trivial
  moves _ _ _ := Gives.trivial _
  addKey settled _ := addKey_settled flat settled _
  addModifier entry settled := addModifier_settled settled entry

/-- Whatever is read, the keys are apart from each other, as long as no alias stands for another
alias. -/
theorem keeps_settled (flat : keycodes.Flat) :
    Keeps SymbolContents keycodes (Settled keycodes) where
  empty := ⟨.nil, List.nodup_nil⟩
  forTerm _ _ _ := ⟨.nil, List.nodup_nil⟩
  builtin _ _ _ _ built := nomatch built
  handle modifiers header mode _ _ settled :=
    handle_kept (keptBySteps_settled flat) modifiers header mode (fun _ _ _ _ => trivial) settled
  absorb _ mode _ _ _ _ settled :=
    .bind (absorb_kept (keptBySteps_settled flat) mode (fun _ _ => trivial) settled)
      fun _ known => .pure known

theorem mergeGroupNames_none (mode : MergeMode) (names : Vector (Option String) 4) :
    mergeGroupNames mode names empty.groupNames = names := by
  ext group within : 1
  rw [mergeGroupNames]
  cases mode.clobbers <;> simp [empty]

/-- The contents in the mode of an include, if that gives one. -/
def inMode (mode : MergeMode) (contents : SymbolContents) : SymbolContents :=
  contents.relabel (Definition.inMode mode) fun merge => if mode == .unspecified then merge else mode

/-- What becomes of a section that is added to one without contents in a mode. -/
def readded (mode : MergeMode) (contents : SymbolContents) : SymbolContents :=
  { empty with
    keys := (contents.inMode mode).keys
    groupNames := contents.groupNames
    modifierMap := (contents.inMode mode).modifierMap }

/-- What is settled and is added to a section without contents is the same, in the mode of the
include. -/
theorem absorb_empty (settled : contents.Settled keycodes) (mode : MergeMode) :
    absorb keycodes mode contents empty = pure (contents.readded mode) := by
  simp only [absorb, mergeGroupNames_none]
  have keys : contents.keys.foldlM
      (fun made key => made.addKey keycodes { key with definition := key.definition.inMode mode })
      { empty with groupNames := contents.groupNames } =
        (pure { empty with
          groupNames := contents.groupNames
          keys := (contents.inMode mode).keys } : Report SymbolContents) := by
    refine foldlM_appends (fun done => ({ empty with
      groupNames := contents.groupNames
      keys := done.map (KeyDraft.relabel (Definition.inMode mode)) } : SymbolContents))
      (List.pairwise_map.mp settled.keys) ?_
    intro done key _ fresh
    -- Another mode does not change the name of a key.
    rw [List.map_append]
    exact addKey_fresh (by simpa [KeyDraft.relabel] using fresh)
  rw [keys]
  -- An entry keeps its target in another mode.
  refine foldlM_appends (fun done => ({ empty with
    groupNames := contents.groupNames
    keys := (contents.inMode mode).keys
    modifierMap := done.map fun entry =>
      { entry with merge := if mode == .unspecified then entry.merge else mode } } :
        SymbolContents)) (List.pairwise_map.mp settled.targets) ?_
  intro done entry _ fresh
  rw [List.map_append]
  exact addModifier_fresh (by simpa using fresh)

end SymbolContents

end Xkb
