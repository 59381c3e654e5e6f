import Xkb.Proofs.Assembly
import Xkb.Proofs.Section.PlacedKeys
import Xkb.Proofs.Section.PreparedKeys

/-! The lists of the groups of a key have an entry for each level, from its first assignment until
it is on its codes. So there is room for whatever is copied into them. -/

namespace Xkb

namespace GroupDraft

/-- Once a group has grown for so many entries, its lists have room for them. -/
def HasRoom (group : GroupDraft) (count : Nat) : Prop :=
  (∃ list ∈ (group.grow count false).syms, count ≤ list.length) ∧
    ∃ list ∈ (group.grow count true).actions, count ≤ list.length

theorem Fits.hasRoom {group : GroupDraft} (fits : group.Fits) (count : Nat) : group.HasRoom count := by
  -- A list that is wanted is there afterwards, and as wide as the group has grown.
  have made {α : Type} (levels width : Nat) (filler : α) (lists : Option (List α)) :
      ∃ list, list ∈ growList true levels width filler lists := by
    cases lists with
    | none => exact ⟨_, rfl⟩
    | some old => exact ⟨_, rfl⟩
  have wide (acting : Bool) : count ≤ (group.grow count acting).levels := Nat.le_max_right _ _
  obtain ⟨syms, symsMade⟩ := made group.levels (max group.levels count) .noSymbol group.syms
  obtain ⟨actions, actionsMade⟩ := made group.levels (max group.levels count) .none group.actions
  exact ⟨⟨syms, symsMade, (fits.grow count false).syms syms symsMade ▸ wide false⟩,
    actions, actionsMade, (fits.grow count true).actions actions actionsMade ▸ wide true⟩

end GroupDraft

namespace KeyDraft

variable {key : KeyDraft}

theorem Fits.typed (fits : key.Fits) (types : TypeTable) : (key.typed types).Fits := by
  intro group inside
  have found : (key.typed types).groupAt group = (key.settledGroup types group).draft := by
    simp [groupAt, KeyDraft.typed, inside]
  -- A type has nothing to do with the lists, unless it has fewer levels.
  have named (typeName : Option String) : GroupDraft.Fits { key.groupAt group with typeName } :=
    ⟨(fits group inside).syms, (fits group inside).actions⟩
  rw [found, settledGroup, PlacedGroup.settled]
  dsimp only
  split
  · exact named _
  · next wide => exact (named _).cut (Nat.le_of_not_le wide)

theorem Fits.passedOn (fits : key.Fits) : key.passedOn.Fits := by
  obtain ⟨syms, actions⟩ := fits 0 (by decide)
  constructor
  · intro list present
    simp only [KeyDraft.passedOn, Option.mem_def, Option.ite_none_right_eq_some] at present
    exact syms list present.2
  · intro list present
    simp only [KeyDraft.passedOn, Option.mem_def, Option.ite_none_right_eq_some] at present
    exact actions list present.2

/-- Groups that are filled in get both lists of the first group with its levels, since nothing was
in them. -/
theorem Reached.filled_fits (reached : key.Reached) {last : Nat} (inside : last < 4) :
    (key.filled last).Fits := by
  intro group within
  rw [(key.filled_fills inside).groups group within]
  split
  · next missing =>
    rw [reached.marked.fillOf within (mem_missingGroups_iff.mp missing).2]
    exact reached.fits.passedOn
  · exact reached.fits group within

theorem Reached.prepare_fits (reached : key.Reached) : key.prepare.Fits := by
  cases found : key.lastGroup with
  | none => simpa [prepare, found] using reached.fits
  | some last =>
    have filled := reached.filled_fits (lastGroup_marked found).1
    rcases prepare_cases found with ⟨_, same⟩ | ⟨_, _, same⟩ | ⟨_, _, same⟩
    · rw [same]
      exact reached.fits
    · rw [same]
      intro group _
      rw [groupAt_collapse]
      split
      · exact filled 0 (by decide)
      · exact GroupDraft.empty_fits
    · rw [same]
      exact filled

/-- The keys at hand while a symbols section is compiled: those that are reached, these when they
are prepared, and what is left of those with each code that they are put on. -/
inductive Held : KeyDraft → Prop where
  | reached {key : KeyDraft} (reached : key.Reached) : Held key
  | prepared {key : KeyDraft} (reached : key.Reached) : Held key.prepare
  | placed {key : KeyDraft} (held : Held key) (types : TypeTable) (keycodes : KeycodeTable)
      (code : Nat) (previous : Key) (log : Diagnostics) :
      Held (key.placeAt types keycodes code previous log).1.1

theorem Held.fits (held : key.Held) : key.Fits := by
  induction held with
  | reached reached => exact reached.fits
  | prepared reached => exact reached.prepare_fits
  | placed _ types keycodes code previous log ih =>
    rw [placeAt_gives _ code previous log]
    exact ih.typed types

/-- Whatever a symbols section reads is reached, and every list of the keys at hand has an entry for
each level of its group. So entries that are copied into a list have room there. -/
theorem lists_match_levels :
    (∀ (assembly : Assembly) (mode : MergeMode) (part : Section),
      (Assembly.reading SymbolContents assembly mode part).1.contents.Reached) ∧
    ∀ key : KeyDraft, key.Held → ∀ group < 4,
      (∀ syms ∈ (key.groupAt group).syms, syms.length = (key.groupAt group).levels) ∧
      (∀ actions ∈ (key.groupAt group).actions, actions.length = (key.groupAt group).levels) ∧
      ∀ count, (key.groupAt group).HasRoom count := by
  refine ⟨fun assembly mode part => ?_, fun key held group inside => ?_⟩
  · exact Assembly.reading_holds
      (SymbolContents.maintains_reached (assembly.Supplies .symbols part)) mode
  · have fits := held.fits group inside
    exact ⟨fits.syms, fits.actions, fits.hasRoom⟩

/-- A group that is filled in with three symbols and then cut off at a type of two levels. -/
theorem lists_match_levels_clipped :
    let key := ((gapped ["a", "A", "b"] ["c"]).prepare.placeAt .empty .empty 9 .empty
      (.atLevel 0)).1.1
    key.Held ∧ (key.groupAt 1).syms = some [97, 65] ∧ (key.groupAt 1).levels = 2 ∧
      (key.groupAt 1).HasRoom 3 := by
  have reached : (gapped ["a", "A", "b"] ["c"]).Reached :=
    Reached.field (Reached.field Reached.base _ _ _ _ _ _) _ _ _ _ _ _
  have held := (Held.prepared reached).placed .empty .empty 9 .empty (.atLevel 0)
  have ⟨syms, _, room⟩ := lists_match_levels.2 _ held 1 (by decide)
  have shown : (((gapped ["a", "A", "b"] ["c"]).prepare.placeAt .empty .empty 9 .empty
      (.atLevel 0)).1.1.groupAt 1).syms = some [97, 65] := by decide +kernel
  exact ⟨held, shown, (syms _ shown).symm, room 3⟩

end KeyDraft

end Xkb
