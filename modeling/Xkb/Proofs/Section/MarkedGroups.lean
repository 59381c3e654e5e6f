import Xkb.Proofs.Section.KeyLook
import Xkb.Proofs.Section.MergeWinners
import Xkb.Proofs.Section.ReachedKeys

/-! The groups of keys that symbols sections come to: their lists fit, and what they hold is
marked. -/

namespace Xkb

theorem getD_fitTo {α : Type} {filler : α} {list : List α}
    (blank : ∀ level : Nat, (list[level]?).getD filler = filler) (width level : Nat) :
    ((fitTo width filler list)[level]?).getD filler = filler := by
  by_cases kept : level < (list.take width).length
  · -- The front is a part of the list.
    rw [fitTo, List.getElem?_append_left kept, List.getElem?_take_of_lt]
    · exact blank level
    · rw [List.length_take] at kept
      omega
  · -- Behind the front there is the filler, and then nothing.
    rw [fitTo, List.getElem?_append_right (by omega), List.getElem?_replicate]
    split <;> rfl

namespace GroupDraft

variable {group : GroupDraft}

theorem usedLevels_le (group : GroupDraft) (levels : Nat) : group.usedLevels levels ≤ levels := by
  induction levels with
  | zero => exact Nat.le_refl 0
  | succ levels ih =>
    rw [usedLevels]
    split
    · omega
    · omega

theorem Fits.cut (fits : group.Fits) {levels : Nat} (below : levels ≤ group.levels) :
    (group.cut levels).Fits := by
  -- Either list loses the entries behind the level.
  have shortened {α : Type} {list : Option (List α)}
      (long : ∀ entries ∈ list, entries.length = group.levels) :
      ∀ entries ∈ list.map (·.take levels), entries.length = levels := by
    intro entries present
    obtain ⟨whole, found, rfl⟩ := Option.map_eq_some_iff.mp present
    rw [List.length_take, long whole found]
    omega
  exact ⟨shortened fits.syms, shortened fits.actions⟩

/-- A list with an entry for each level grows with the levels. -/
theorem length_growList {α : Type} {wanted : Bool} {levels width : Nat} {filler : α}
    {lists : Option (List α)} (long : ∀ list ∈ lists, list.length = levels) (wider : levels ≤ width) :
    ∀ list ∈ growList wanted levels width filler lists, list.length = width := by
  intro list present
  cases lists with
  | none =>
    simp only [growList, Option.mem_def, Option.ite_none_right_eq_some, Option.some.injEq] at present
    simp [← present.2]
  | some old =>
    have same := long old rfl
    cases present
    split
    · exact length_fitTo _ _ _
    · omega

theorem Fits.grow (fits : group.Fits) (levels : Nat) (acting : Bool) :
    (group.grow levels acting).Fits :=
  ⟨length_growList fits.syms (Nat.le_max_left _ _), length_growList fits.actions (Nat.le_max_left _ _)⟩

theorem length_overwrite {α : Type} {entries : List α} {width : Nat} (inside : entries.length ≤ width)
    {lists : Option (List α)} (long : ∀ list ∈ lists, list.length = width) :
    ∀ list ∈ lists.map (overwrite entries), list.length = width := by
  intro list present
  obtain ⟨old, found, rfl⟩ := Option.map_eq_some_iff.mp present
  simp only [overwrite, List.length_append, List.length_drop, long old found]
  omega

theorem fits_kept : KeyDraft.KeptByLists fun _ _ _ group => group.Fits where
  symsMarked fits := fits
  syms {_ _ _ group} list fits := by
    -- Before levels without a symbol are cut off, both lists are as wide as the group has grown.
    have grown := fits.grow list.length false
    have filled : Fits { group.grow list.length false with
        syms := (group.grow list.length false).syms.map (overwrite list) } :=
      ⟨length_overwrite (Nat.le_max_right _ _) grown.syms, grown.actions⟩
    exact filled.cut (usedLevels_le _ _)
  actionsMarked fits := fits
  actions list fits :=
    have grown := fits.grow list.length true
    ⟨grown.syms, length_overwrite (Nat.le_max_right _ _) grown.actions⟩
  types _ fits := ⟨fits.syms, fits.actions⟩

theorem empty_fits : empty.Fits :=
  ⟨nofun, nofun⟩

end GroupDraft

namespace KeyDraft

/-- What a group holds is marked: symbols, a type, or anything at all. -/
structure GroupMarked (lettered acting typed : Bool) (group : GroupDraft) : Prop where
  blank : lettered = false → ∀ level, group.symAt level = .noSymbol
  untyped : typed = false → group.typeName = none
  bare : lettered = false → acting = false → typed = false → group = .empty

/-- What the groups of a key hold is marked. -/
abbrev Marked (key : KeyDraft) : Prop :=
  key.EachGroup GroupMarked

theorem groupMarked_empty (lettered acting typed : Bool) :
    GroupMarked lettered acting typed .empty :=
  ⟨fun _ _ => rfl, fun _ => rfl, fun _ _ _ => rfl⟩

/-- Whatever is put into a group is marked; actions come with levels that have no symbols. -/
theorem groupMarked_kept : KeptByLists GroupMarked where
  symsMarked marked := ⟨nofun, marked.untyped, nofun⟩
  syms _ marked := ⟨nofun, marked.untyped, nofun⟩
  actionsMarked marked := ⟨marked.blank, marked.untyped, fun _ => nofun⟩
  actions {_ _ _ group} list marked := by
    refine ⟨fun unlettered level => ?_, marked.untyped, fun _ => nofun⟩
    -- The symbols that the group had are none, and so are those that it grows by.
    have blank := marked.blank unlettered
    unfold GroupDraft.symAt at blank ⊢
    cases present : group.syms with
    | none =>
      simp only [GroupDraft.putActions, GroupDraft.grow, GroupDraft.growList, present, if_true,
        Option.bind_some, List.getElem?_replicate]
      split <;> rfl
    | some syms =>
      simp only [present] at blank
      simp only [GroupDraft.putActions, GroupDraft.grow, GroupDraft.growList, present]
      split
      · exact getD_fitTo blank _ level
      · exact blank level
  types _ marked := ⟨marked.blank, nofun, fun _ _ => nofun⟩

variable {key : KeyDraft} {group : Nat}

theorem meets8_of_first_only {mask : UInt8} (only : meets8 mask (~~~(bit8 0)) = false)
    (positive : 0 < group) (inside : group < 4) : meets8 mask (bit8 group) = false := by
  -- The bit of the group is one of those that the mask has not.
  have within : bit8 group = ~~~(bit8 0) &&& bit8 group := by
    have all : ∀ group : Fin 4, 0 < group.val →
        bit8 group.val = ~~~(bit8 0) &&& bit8 group.val := by decide
    exact all ⟨group, inside⟩ positive
  have outside : mask &&& ~~~(bit8 0) = 0 := by simpa [meets8] using only
  rw [meets8, within, ← UInt8.and_assoc, outside]
  simp

theorem moveGroup_moves (key : KeyDraft) (group : Nat) (map : String) :
    Gives (key.moveGroup group map) fun made => made.1 = key ∨ group < 4 ∧
      (∀ other < 4, made.1.groupAt other =
        if group = other then key.groupAt 0
        else if meets8 key.definedGroups (~~~(bit8 0)) = true ∨ other = 0 then .empty
        else key.groupAt other) ∧
      made.1.symsDefined = bit8 group ∧ made.1.actionsDefined = bit8 group ∧
        made.1.typesDefined = bit8 group := by
  -- A move to the first group does nothing, and one behind the last is refused.
  refine .ite (fun _ => .pure (.inl rfl)) fun _ => ?_
  refine .ite (fun _ => .after fun _ => .pure (.inl rfl)) fun within => ?_
  have inside : group < 4 := by simpa using within
  refine .after fun level => .noted (.inr ⟨inside, ?_, rfl, rfl, rfl⟩)
  intro other otherInside
  -- With groups after the first all the others are dropped, else only the first place is left.
  simp only [groupAt, Vector.getElem?_setIfInBounds]
  by_cases here : group = other
  · simp [here, otherInside]
  · rw [if_neg here, if_neg here]
    by_cases extra : meets8 key.definedGroups (~~~(bit8 0)) = true
    · simp [extra, otherInside]
    · by_cases first : other = 0
      · simp [extra, first]
      · simp [extra, first, Ne.symm first]

theorem Reached.fits (reached : key.Reached) : key.Fits := by
  refine reached.holds ?_ ?_ ?_ ?_ ?_
  · intro group _
    rw [groupAt_base]
    exact GroupDraft.empty_fits
  · exact fun assigned fits => assigned.eachGroup GroupDraft.fits_kept fits
  · exact fun _ _ _ fits => fits
  · intro key group map fits
    refine (moveGroup_moves key group map).mono fun made moved => ?_
    rcases moved with same | ⟨_, groups, _⟩
    · exact same ▸ fits
    · intro other inside
      rw [groups other inside]
      split
      · exact fits 0 (by decide)
      · split
        · exact GroupDraft.empty_fits
        · exact fits other inside
  · intro old new _ _ oldFits newFits
    by_cases replaces : new.definition.merge = .replace
    · exact (merge_replaces replaces).mono fun made same => same ▸ newFits
    · -- Merging fits the lists of every group anew.
      refine (merge_joining replaces).mono ?_
      rintro _ ⟨grouped, joining, rfl⟩ group inside
      exact (joining.merged oldFits newFits group inside).fits

theorem Joining.marked {old new grouped : KeyDraft} (joining : Joining old new 4 grouped)
    (oldFits : old.Fits) (newFits : new.Fits) (oldMarked : old.Marked) (newMarked : new.Marked) :
    (grouped.mergeFields new).Marked := by
  intro group inside
  have merged := joining.merged oldFits newFits group inside
  have types : meets8 (grouped.mergeFields new).typesDefined (bit8 group)
      = (meets8 old.typesDefined (bit8 group) || meets8 new.typesDefined (bit8 group)) := by
    have same : grouped.typesDefined = old.typesDefined := by rw [joining.rest]
    simp only [mergeFields, meets8_or, same]
  -- Without a mark for symbols nothing came with levels.
  have kept (unlettered : meets8 grouped.symsDefined (bit8 group) = false) :
      meets8 old.symsDefined (bit8 group) = false ∧ (new.groupAt group).levels = 0 := by
    simpa [joining.syms group inside, inside] using unlettered
  have untyped (unmarked : meets8 (grouped.mergeFields new).typesDefined (bit8 group) = false) :
      (grouped.groupAt group).typeName = none := by
    rw [types, Bool.or_eq_false_iff] at unmarked
    rw [merged.typeName, (oldMarked group inside).untyped unmarked.1,
      (newMarked group inside).untyped unmarked.2]
    rfl
  refine ⟨fun unlettered level => ?_, untyped, fun unlettered silent unmarked => ?_⟩
  · obtain ⟨unmarked, flat⟩ := kept unlettered
    have blank := (oldMarked group inside).blank unmarked level
    change (grouped.groupAt group).symAt level = .noSymbol
    simpa only [GroupDraft.symAt, (merged.keeps flat).2.1] using blank
  · -- A group without marks had none before, so it was empty and got nothing.
    obtain ⟨oldUnlettered, flat⟩ := kept unlettered
    obtain ⟨levels, symsSame, actionsSame⟩ := merged.keeps flat
    have oldSilent : meets8 old.actionsDefined (bit8 group) = false := by
      have marks := (joining.actions group inside).symm.trans silent
      exact (Bool.or_eq_false_iff.mp marks).1
    have oldUntyped : meets8 old.typesDefined (bit8 group) = false := by
      rw [types, Bool.or_eq_false_iff] at unmarked
      exact unmarked.1
    have bare := (oldMarked group inside).bare oldUnlettered oldSilent oldUntyped
    rw [bare] at levels symsSame actionsSame
    have typeless := untyped unmarked
    change grouped.groupAt group = .empty
    cases found : grouped.groupAt group
    simp_all [GroupDraft.empty]

/-- A group that nothing was said of is empty. -/
theorem Marked.empty_of_undefined (marked : key.Marked) (inside : group < 4)
    (undefined : meets8 key.definedGroups (bit8 group) = false) : key.groupAt group = .empty := by
  simp only [definedGroups, meets8_or, Bool.or_eq_false_iff] at undefined
  exact (marked group inside).bare undefined.1.1 undefined.1.2 undefined.2

/-- What the groups of keys that are reached hold is marked. -/
theorem Reached.marked (reached : key.Reached) : key.Marked := by
  refine reached.holds ?_ ?_ ?_ ?_ ?_
  · intro group _
    rw [groupAt_base]
    exact groupMarked_empty _ _ _
  · exact fun assigned marked => assigned.eachGroup groupMarked_kept marked
  · exact fun _ _ _ marked => marked
  · intro key group map marked
    refine (moveGroup_moves key group map).mono fun made moved => ?_
    rcases moved with same | ⟨inside, groups, syms, actions, types⟩
    · exact same ▸ marked
    · intro other otherInside
      rw [groups other otherInside, syms, actions, types, meets8_bit8 inside otherInside]
      split
      · -- The group that was moved is marked for everything.
        next here =>
        simp only [here, decide_true]
        exact ⟨nofun, nofun, nofun⟩
      · split
        · exact groupMarked_empty _ _ _
        · next others =>
          -- Nothing was said of the groups after the first one.
          rw [not_or, Bool.not_eq_true] at others
          rw [marked.empty_of_undefined otherInside
            (meets8_of_first_only others.1 (Nat.pos_of_ne_zero others.2) otherInside)]
          exact groupMarked_empty _ _ _
  · intro old new oldReached newReached oldMarked newMarked
    by_cases replaces : new.definition.merge = .replace
    · exact (merge_replaces replaces).mono fun made same => same ▸ newMarked
    · refine (merge_joining replaces).mono ?_
      rintro _ ⟨grouped, joining, rfl⟩
      exact joining.marked oldReached.fits newReached.fits oldMarked newMarked

end KeyDraft

end Xkb
