import Xkb.Proofs.Bits
import Xkb.Proofs.Section.KeySymbols
import Xkb.Proofs.Section.PlacedKeys

/-! Keys that are put on codes fit the types and the range of codes of their keymap. -/

namespace Xkb

/-- A key that fits a table of types and a range of codes. -/
structure Key.WellFormed (types : TypeTable) (keycodes : KeycodeTable) (key : Key) : Prop where
  few : key.groups.length ≤ 4
  typed : ∀ group ∈ key.groups, group.typeIndex < types.types.length
  /-- All groups have as many symbols. -/
  even : ∃ width, ∀ group ∈ key.groups, group.syms.length = width
  /-- All groups have actions, or none has. -/
  acting : (∀ group ∈ key.groups, group.actions.isSome) ∨ ∀ group ∈ key.groups, group.actions = none
  paired : ∀ group ∈ key.groups, ∀ actions, group.actions = some actions →
    actions.length = group.syms.length
  /-- Levels that the type of a group does not have are left empty. -/
  beyond : ∀ group ∈ key.groups, ∀ type, types.types[group.typeIndex]? = some type →
    ∀ level, type.levels ≤ level →
      (∀ sym, group.syms[level]? = some sym → sym = .noSymbol) ∧
      ∀ actions, group.actions = some actions →
        ∀ action, actions[level]? = some action → action = .none
  explicit : (∃ group ∈ key.groups, group.actions.isSome) →
    meets8 key.explicit Explicit.interpretation = true
  overlay : ∀ overlay code, key.behavior.kind = .overlay overlay code →
    (overlay = 1 ∨ overlay = 2) ∧ keycodes.inRange code = true

theorem Key.empty_wellFormed (types : TypeTable) (keycodes : KeycodeTable) :
    Key.empty.WellFormed types keycodes := by
  constructor <;> simp [Key.empty, Behavior.default]

section Lists

variable {α : Type}

theorem fitTo_beyond {width level : Nat} {filler item : α} {list : List α}
    (behind : list.length ≤ level) (found : (fitTo width filler list)[level]? = some item) :
    item = filler := by
  simp only [fitTo] at found
  rw [List.getElem?_append_right (by rw [List.length_take]; omega), List.getElem?_replicate] at found
  split at found
  · exact (Option.some.inj found).symm
  · simp at found

end Lists

namespace PlacedGroup

/-- A group that fits its type, which is one of the table. -/
structure Fits (types : TypeTable) (placed : PlacedGroup) : Prop where
  typed : placed.typeIndex < types.types.length
  levels : ∀ type, types.types[placed.typeIndex]? = some type → placed.draft.levels ≤ type.levels

theorem settled_fits {types : TypeTable} (enough : twoLevelIndex < types.types.length)
    (fallback : Option String) (isDefined : Bool) (group : GroupDraft) :
    (settled types fallback isDefined group).Fits types := by
  refine ⟨?_, fun type located => ?_⟩
  · simp only [settled]
    cases found : (chosenType fallback group).1.bind types.find with
    | none => exact enough
    | some index =>
      obtain ⟨name, -, located⟩ := Option.bind_eq_some_iff.mp found
      exact (List.findIdx?_eq_some_iff_getElem.mp located).1
  · have width : (settled types fallback isDefined group).typeLevels = type.levels := by
      simp only [settled, typeAt] at located ⊢
      rw [located]
    rw [← width]
    simp only [settled]
    split
    · assumption
    · exact Nat.le_refl _

theorem toKeyGroup_syms (previous : Key) (width : Nat) (acting : Bool) (placed : PlacedGroup)
    (group : Nat) : (placed.toKeyGroup previous width acting group).syms.length = width :=
  length_fitTo _ _ _

theorem toKeyGroup_actions (previous : Key) (width : Nat) (acting : Bool) (placed : PlacedGroup)
    (group : Nat) :
    (placed.toKeyGroup previous width acting group).actions.map List.length
      = if acting then some width else none := by
  cases acting with
  | true => exact congrArg some (length_fitTo _ _ _)
  | false => rfl

variable {types : TypeTable} {keycodes : KeycodeTable} {previous : Key} {placed : PlacedGroup}

/-- The type of a group is one of the table, also where it is that of the earlier key. -/
theorem toKeyGroup_typed (formed : previous.WellFormed types keycodes) (fits : placed.Fits types)
    (width : Nat) (acting : Bool) (group : Nat) :
    (placed.toKeyGroup previous width acting group).typeIndex < types.types.length := by
  simp only [toKeyGroup]
  split
  · exact fits.typed
  · cases known : previous.groups[group]? with
    | none => exact fits.typed
    | some earlier => exact formed.typed earlier (List.mem_of_getElem? known)

theorem toKeyGroup_beyond (fits : placed.Fits types) (width : Nat) (acting : Bool) (group : Nat)
    {type : KeyType}
    (located : types.types[(placed.toKeyGroup previous width acting group).typeIndex]? = some type)
    {level : Nat} (beyond : type.levels ≤ level) :
    (∀ sym, (placed.toKeyGroup previous width acting group).syms[level]? = some sym →
      sym = .noSymbol) ∧
    ∀ actions, (placed.toKeyGroup previous width acting group).actions = some actions →
      ∀ action, actions[level]? = some action → action = .none := by
  -- The group ends below the level: it has no levels at all, or no more than its type.
  have ends : placed.draft.levels ≤ level := by
    by_cases some : 0 < placed.draft.levels
    · simp only [toKeyGroup, if_pos some] at located
      exact Nat.le_trans (fits.levels type located) beyond
    · omega
  refine ⟨fun sym found => ?_, fun actions acts action found => ?_⟩
  · refine fitTo_beyond ?_ found
    rw [List.length_take]
    omega
  · simp only [toKeyGroup] at acts
    split at acts
    · rw [← Option.some.inj acts] at found
      refine fitTo_beyond ?_ found
      rw [List.length_take]
      omega
    · simp at acts

end PlacedGroup

namespace KeyDraft

variable {types : TypeTable} {keycodes : KeycodeTable} {key : KeyDraft} {previous : Key}

theorem groupCount_le (key : KeyDraft) : key.groupCount ≤ 4 := by
  simp only [groupCount]
  split
  · rename_i last found
    have member := List.mem_of_find?_eq_some found
    simp only [List.mem_reverse, List.mem_range] at member
    omega
  · omega

theorem placeGroups_sources (key : KeyDraft) (previous : Key) (placed : List PlacedGroup) :
    ∃ width, ∀ group ∈ key.placeGroups previous placed, ∃ source ∈ placed, ∃ index,
      group = source.toKeyGroup previous width (placed.any (·.draft.actions.isSome)) index := by
  refine ⟨placed.foldl (fun widest group =>
    max widest (max group.draft.levels group.typeLevels)) 0, fun group member => ?_⟩
  obtain ⟨⟨source, index⟩, listed, rfl⟩ := List.mem_map.mp member
  have known := (List.mem_zipIdx' listed).2
  exact ⟨source, List.mem_of_mem_take (known ▸ List.getElem_mem _), index, rfl⟩

theorem explicitGroups_acting {placed : List PlacedGroup}
    (acting : placed.any (·.draft.actions.isSome) = true) :
    meets8 (explicitGroups placed) Explicit.interpretation = true := by
  simp only [explicitGroups, acting]
  exact meets8_or_iff.mpr (.inr (by decide))

/-- The behavior of a key on a code: an overlay goes to a key of the range. -/
theorem settledBehavior_overlay {behavior : Behavior} (numbered : key.Numbered)
    (settled : key.settledBehavior keycodes = some behavior) {overlay : UInt8} {code : Nat}
    (kind : behavior.kind = .overlay overlay code) :
    (overlay = 1 ∨ overlay = 2) ∧ keycodes.inRange code = true := by
  simp only [settledBehavior] at settled
  split at settled
  · cases settled
  · rename_i known
    obtain ⟨target, found, rfl⟩ := Option.map_eq_some_iff.mp settled
    obtain ⟨name, -, located⟩ := Option.bind_eq_some_iff.mp found
    cases kind
    exact ⟨numbered _ _ known, KeycodeTable.inRange_of_findKey located⟩
  · rename_i other
    cases settled
    exact absurd kind (other overlay code)

theorem placeGroups_length (key : KeyDraft) (previous : Key) (placed : List PlacedGroup) :
    (key.placeGroups previous placed).length ≤ 4 := by
  have few := key.groupCount_le
  simp only [placeGroups, List.length_map, List.length_zipIdx, List.length_take]
  omega

theorem onCode_wellFormed (enough : PlacedGroup.twoLevelIndex < types.types.length)
    (numbered : key.Numbered) (formed : previous.WellFormed types keycodes) :
    (key.onCode types keycodes previous).WellFormed types keycodes := by
  have fits : ∀ placed ∈ key.settledGroups types, placed.Fits types := by
    intro placed member
    obtain ⟨group, -, rfl⟩ := List.mem_map.mp member
    exact PlacedGroup.settled_fits enough _ _ _
  simp only [onCode]
  generalize key.settledGroups types = placed at fits
  obtain ⟨width, sources⟩ := placeGroups_sources key previous placed
  -- Either every group has actions or none has, as the key as a whole.
  have acts : ∀ group ∈ key.placeGroups previous placed, group.actions.map List.length
      = if placed.any (·.draft.actions.isSome) then some width else none := by
    intro group member
    obtain ⟨source, -, index, rfl⟩ := sources group member
    exact source.toKeyGroup_actions previous width _ index
  have lengths : ∀ group ∈ key.placeGroups previous placed, group.syms.length = width := by
    intro group member
    obtain ⟨source, -, index, rfl⟩ := sources group member
    exact source.toKeyGroup_syms previous width _ index
  refine ⟨placeGroups_length key previous placed, ?_, ⟨width, lengths⟩, ?_, ?_, ?_, ?_, ?_⟩
  · intro group member
    obtain ⟨source, known, index, rfl⟩ := sources group member
    exact PlacedGroup.toKeyGroup_typed formed (fits source known) width _ index
  · cases acting : placed.any (·.draft.actions.isSome) with
    | true =>
      refine .inl fun group member => ?_
      have := acts group member
      cases given : group.actions <;> simp_all
    | false =>
      refine .inr fun group member => ?_
      have := acts group member
      simp_all
  · intro group member actions given
    have known := acts group member
    rw [given, Option.map_some] at known
    split at known
    · rw [lengths group member]
      exact Option.some.inj known
    · simp at known
  · intro group member type located level beyond
    obtain ⟨source, known, index, rfl⟩ := sources group member
    exact PlacedGroup.toKeyGroup_beyond (fits source known) width _ index located beyond
  · rintro ⟨group, member, given⟩
    have acting : placed.any (·.draft.actions.isSome) = true := by
      have known := acts group member
      cases acting : placed.any (·.draft.actions.isSome) with
      | true => rfl
      | false => simp_all
    have bit := explicitGroups_acting acting
    simp only [meets8_or_iff, bit, true_or, or_true]
  · intro overlay code kind
    cases settled : key.settledBehavior keycodes with
    | none => exact formed.overlay overlay code (by simpa [settled] using kind)
    | some behavior => exact settledBehavior_overlay numbered settled (by simpa [settled] using kind)

end KeyDraft

/-- Keys that fit a table of types and a range of codes, with none outside of the range. -/
def KeysFormed (types : TypeTable) (keycodes : KeycodeTable) (keys : Vector Key 256) : Prop :=
  ∀ code key, keys[code]? = some key →
    key.WellFormed types keycodes ∧ (keycodes.inRange code = false → key = .empty)

namespace KeysFormed

variable {types : TypeTable} {keycodes : KeycodeTable} {keys : Vector Key 256}

/-- Keys without symbols fit every table and range. -/
theorem empty (types : TypeTable) (keycodes : KeycodeTable) :
    KeysFormed types keycodes (Vector.replicate 256 .empty) := by
  intro code key found
  obtain ⟨_, same⟩ := Vector.getElem?_eq_some_iff.mp found
  rw [Vector.getElem_replicate] at same
  rw [← same]
  exact ⟨Key.empty_wellFormed types keycodes, fun _ => rfl⟩

theorem getD (formed : KeysFormed types keycodes keys) (code : Nat) :
    ((keys[code]?).getD .empty).WellFormed types keycodes := by
  cases found : keys[code]? with
  | none => exact Key.empty_wellFormed types keycodes
  | some key => exact (formed code key found).1

theorem set (formed : KeysFormed types keycodes keys) {code : Nat}
    (within : keycodes.inRange code = true) {new : Key} (newFormed : new.WellFormed types keycodes) :
    KeysFormed types keycodes (keys.setIfInBounds code new) := by
  intro other key found
  rw [Vector.getElem?_setIfInBounds] at found
  by_cases same : code = other
  · subst same
    rw [if_pos rfl] at found
    split at found
    · rw [← Option.some.inj found]
      exact ⟨newFormed, fun outside => by simp [within] at outside⟩
    · simp at found
  · rw [if_neg same] at found
    exact formed other key found

end KeysFormed

namespace KeyDraft

variable {types : TypeTable} {keycodes : KeycodeTable} {keys : Vector Key 256}

theorem putOn_formed (enough : PlacedGroup.twoLevelIndex < types.types.length) {codes : List Nat}
    (within : ∀ code ∈ codes, keycodes.inRange code = true)
    (formed : KeysFormed types keycodes keys) {key : KeyDraft} (numbered : key.Numbered) :
    KeysFormed types keycodes (putOn types keycodes codes key keys) := by
  induction codes generalizing key keys with
  | nil => exact formed
  | cons code rest ih =>
    have fits := onCode_wellFormed enough numbered (formed.getD code)
    have next : (key.typed types).Numbered := numbered
    exact ih (fun code member => within code (by simp [member]))
      (formed.set (within code (by simp)) fits) next

theorem putAll_formed (enough : PlacedGroup.twoLevelIndex < types.types.length)
    {drafts : List KeyDraft} (numbered : ∀ key ∈ drafts, key.Numbered)
    (formed : KeysFormed types keycodes keys) :
    KeysFormed types keycodes (putAll types keycodes drafts keys) := by
  refine List.foldlRecOn drafts _ formed fun keys known key member => ?_
  refine putOn_formed enough (fun code listed => ?_) known (numbered key member)
  -- Every code that the key is put on is in the range.
  simp only [KeycodeTable.codesFor] at listed
  split at listed
  · cases listed
  · rename_i first found
    rcases List.mem_cons.mp listed with rfl | further
    · exact KeycodeTable.inRange_of_findKey found
    · exact KeycodeTable.mem_codes.mp (List.mem_filter.mp further).1

end KeyDraft

namespace SymbolContents

/-- What the keys of a keymap have to be, given what the keymap had before: keys that fit its types
and range, which stay the same. -/
structure Placed (before after : Keymap) : Prop where
  types : after.types = before.types
  keycodes : after.keycodes = before.keycodes
  keys : KeysFormed before.types before.keycodes after.symbols.keys

theorem Remarked.formed {types : TypeTable} {keycodes : KeycodeTable} {old new : Vector Key 256}
    (remarked : Remarked keycodes old new) (formed : KeysFormed types keycodes old) :
    KeysFormed types keycodes new := by
  intro code key found
  obtain ⟨⟨mods, known⟩, outside⟩ := remarked code
  refine ⟨?_, fun beyond => (formed code key ((outside beyond).symm.trans found)).2 beyond⟩
  obtain ⟨source, there, rfl⟩ := Option.map_eq_some_iff.mp (known.symm.trans found)
  have fits := (formed code source there).1
  exact ⟨fits.few, fits.typed, fits.even, fits.acting, fits.paired, fits.beyond, fits.explicit,
    fits.overlay⟩

/-- Applying a symbols section puts keys in place that fit. -/
theorem apply_placed {contents : SymbolContents} (numbered : contents.Numbered)
    (name : Option String) {keymap : Keymap}
    (enough : PlacedGroup.twoLevelIndex < keymap.types.types.length)
    (formed : KeysFormed keymap.types keymap.keycodes keymap.symbols.keys) :
    Gives (contents.apply name keymap) (Placed keymap) := by
  refine (contents.apply_remarked name keymap).mono ?_
  rintro _ (⟨-, rfl⟩ | ⟨keys, groupNames, rfl, remarked⟩)
  · exact ⟨rfl, rfl, formed⟩
  · refine ⟨rfl, rfl, remarked.formed (KeyDraft.putAll_formed enough (fun key member => ?_) formed)⟩
    obtain ⟨source, sourceMember, rfl⟩ := List.mem_map.mp member
    rw [KeyDraft.Numbered, KeyDraft.prepare_behavior]
    exact numbered.keys source sourceMember

end SymbolContents

end Xkb
