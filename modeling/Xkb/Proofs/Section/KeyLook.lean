import Xkb.Proofs.Alike
import Xkb.Proofs.Section.KeyRecords
import Xkb.Section.KeyPlacement

/-! What counts of a key when it is put on its codes: which lists its groups were marked for does
not, as long as the same groups were marked. -/

namespace Xkb

variable {mask : UInt8}

theorem meets8_first {group : Nat} (inside : group < 4) :
    meets8 (mask &&& bit8 0) (bit8 group) = (decide (group = 0) && meets8 mask (bit8 0)) := by
  have assoc : mask &&& bit8 0 &&& bit8 group = mask &&& (bit8 0 &&& bit8 group) :=
    UInt8.and_assoc ..
  have shared : bit8 0 &&& bit8 group = if group = 0 then bit8 0 else 0 := by
    have all : ∀ group : Fin 4, bit8 0 &&& bit8 group = if group.val = 0 then bit8 0 else 0 := by
      decide
    exact all ⟨group, inside⟩
  rw [meets8, assoc, shared]
  by_cases first : group = 0
  · simp [first, meets8]
  · simp [first]

theorem meets8_markIf {condition : Bool} {group other : Nat} (inside : group < 4)
    (otherInside : other < 4) :
    meets8 (if condition then mask ||| bit8 group else mask) (bit8 other)
      = (meets8 mask (bit8 other) || (condition && decide (group = other))) := by
  cases condition with
  | false => simp
  | true => simp [meets8_mark inside otherInside]

namespace KeyDraft

/-- Two keys that look the same once they are put together. -/
structure SameLook (left right : KeyDraft) : Prop where
  name : left.name = right.name
  groups : left.groups = right.groups
  defined : ∀ group < 4,
    meets8 left.definedGroups (bit8 group) = meets8 right.definedGroups (bit8 group)
  defaultType : left.defaultType = right.defaultType
  virtualMods : left.virtualMods = right.virtualMods
  autoRepeat : left.autoRepeat = right.autoRepeat
  groupRange : left.groupRange = right.groupRange
  behavior : left.behavior = right.behavior
  overlayKey : left.overlayKey = right.overlayKey
  sets : ∀ field ∈ KeyField.all, left.definition.defines field = right.definition.defines field

namespace SameLook

variable {left right : KeyDraft}

theorem groupAt (look : SameLook left right) (group : Nat) :
    left.groupAt group = right.groupAt group := by
  rw [KeyDraft.groupAt, KeyDraft.groupAt, look.groups]

theorem setGroup (look : SameLook left right) (group : Nat) (draft : GroupDraft) :
    SameLook (left.setGroup group draft) (right.setGroup group draft) :=
  { look with groups := by rw [KeyDraft.setGroup, KeyDraft.setGroup, look.groups] }

theorem lastGroup (look : SameLook left right) : left.lastGroup = right.lastGroup := by
  have order : (List.range 4).reverse = [3, 2, 1, 0] := rfl
  simp only [KeyDraft.lastGroup, order, List.find?, look.defined 0 (by decide),
    look.defined 1 (by decide), look.defined 2 (by decide), look.defined 3 (by decide)]

theorem ofGroup (look : SameLook left right) (types : TypeTable) (code : Nat) {group : Nat}
    (inside : group < 4) :
    PlacedGroup.ofGroup types left code group = PlacedGroup.ofGroup types right code group := by
  simp only [PlacedGroup.ofGroup, PlacedGroup.chooseType, PlacedGroup.findType, PlacedGroup.clip,
    look.groupAt, look.defaultType, look.name, look.defined group inside]

theorem placeBehavior (look : SameLook left right) (keycodes : KeycodeTable) :
    left.placeBehavior keycodes = right.placeBehavior keycodes := by
  simp only [KeyDraft.placeBehavior, look.behavior, look.overlayKey, look.name]

theorem placeAt (look : SameLook left right) (types : TypeTable) (keycodes : KeycodeTable)
    (code : Nat) (previous : Key) :
    Alike Eq (left.placeAt types keycodes code previous) (right.placeAt types keycodes code previous)
      fun made other => SameLook made.1 other.1 ∧ made.2 = other.2 := by
  have typed : Alike Eq ((List.range 4).mapM (PlacedGroup.ofGroup types left code))
      ((List.range 4).mapM (PlacedGroup.ofGroup types right code)) Eq := by
    refine .mapM fun group member => ?_
    rw [look.ofGroup types code (List.mem_range.mp member)]
    exact .refl _
  refine .bindSame typed fun placed => ?_
  rw [look.placeBehavior]
  refine .bindSame (.refl _) fun behavior => ?_
  refine .pure ⟨?_, ?_⟩
  · -- The types that the groups got are written back into both keys.
    dsimp only
    generalize placed.zipIdx = groups
    clear typed
    induction groups generalizing left right with
    | nil => exact look
    | cons head rest ih => exact ih (look.setGroup head.2 head.1.draft)
  · have mods := look.sets KeyField.virtualMods (by decide)
    have range := look.sets KeyField.groupRange (by decide)
    simp only [placeGroups, groupCount, look.lastGroup, mods, range, look.virtualMods,
      look.groupRange, look.autoRepeat]

/-- The keys are put on all codes of their name alike. -/
theorem place (look : SameLook left right) (types : TypeTable) (keycodes : KeycodeTable)
    (keys : Vector Key 256) :
    KeyDraft.place types keycodes keys left = KeyDraft.place types keycodes keys right := by
  have alike : Alike Eq (KeyDraft.place types keycodes keys left)
      (KeyDraft.place types keycodes keys right) Eq := by
    simp only [KeyDraft.place, look.name]
    split
    · exact .refl _
    · refine .bind (?_ : Alike _ _ _ fun (made other : KeyDraft × Vector Key 256) =>
        SameLook made.1 other.1 ∧ made.2 = other.2) fun made other known => ?_
      · refine .foldlM ⟨look, rfl⟩ ?_
        rintro code _ ⟨key, keys⟩ ⟨other, _⟩ ⟨look, rfl⟩
        refine .bind (look.placeAt types keycodes code _) fun placed other known => ?_
        exact Alike.pure ⟨known.1, by rw [known.2]⟩
      · exact .pure known.2
  funext diagnostics
  obtain ⟨value, state⟩ := alike diagnostics diagnostics rfl
  exact Prod.ext value state

end SameLook

/-- Two keys pass on the same parts of their first groups. -/
structure SameFill (left right : KeyDraft) : Prop where
  typed : meets8 left.typesDefined (bit8 0) = meets8 right.typesDefined (bit8 0)
  acting : (meets8 left.actionsDefined (bit8 0) && (left.groupAt 0).actions.isSome)
    = (meets8 right.actionsDefined (bit8 0) && (right.groupAt 0).actions.isSome)
  lettered : (meets8 left.symsDefined (bit8 0) && (left.groupAt 0).syms.isSome)
    = (meets8 right.symsDefined (bit8 0) && (right.groupAt 0).syms.isSome)

variable {group last : Nat} {key : KeyDraft}

/-- A group that is filled in counts as defined if anything was passed on. -/
theorem defined_fillGroup (key : KeyDraft) {other : Nat} (inside : group < 4)
    (otherInside : other < 4) :
    meets8 (key.fillGroup group).definedGroups (bit8 other)
      = (meets8 key.definedGroups (bit8 other)
        || ((meets8 key.typesDefined (bit8 0)
          || (meets8 key.actionsDefined (bit8 0) && (key.groupAt 0).actions.isSome)
          || (meets8 key.symsDefined (bit8 0) && (key.groupAt 0).syms.isSome))
            && decide (group = other))) := by
  simp only [fillGroup, definedGroups, meets8_or, meets8_markIf inside otherInside]
  -- The marks of the group are gathered behind those that were there.
  generalize (meets8 key.symsDefined (bit8 0) && (key.groupAt 0).syms.isSome) = lettered
  generalize (meets8 key.actionsDefined (bit8 0) && (key.groupAt 0).actions.isSome) = acting
  generalize meets8 key.typesDefined (bit8 0) = typed
  generalize meets8 key.symsDefined (bit8 other) = symsThere
  generalize meets8 key.actionsDefined (bit8 other) = actionsThere
  generalize meets8 key.typesDefined (bit8 other) = typesThere
  generalize decide (group = other) = here
  revert lettered acting typed symsThere actionsThere typesThere here
  decide

/-- Filling in a later group leaves the first one and its marks alone. -/
theorem fillGroup_first (key : KeyDraft) (positive : 0 < group) (inside : group < 4) :
    (key.fillGroup group).groupAt 0 = key.groupAt 0
      ∧ meets8 (key.fillGroup group).symsDefined (bit8 0) = meets8 key.symsDefined (bit8 0)
      ∧ meets8 (key.fillGroup group).actionsDefined (bit8 0) = meets8 key.actionsDefined (bit8 0)
      ∧ meets8 (key.fillGroup group).typesDefined (bit8 0) = meets8 key.typesDefined (bit8 0) := by
  have later : group ≠ 0 := by omega
  have unmarked {condition : Bool} {mask : UInt8} :
      meets8 (if condition then mask ||| bit8 group else mask) (bit8 0) = meets8 mask (bit8 0) := by
    simp [meets8_markIf inside (show 0 < 4 by decide), later]
  refine ⟨?_, unmarked, unmarked, unmarked⟩
  change (key.setGroup group _).groupAt 0 = key.groupAt 0
  rw [groupAt_setGroup inside, if_neg later]

theorem SameLook.fillGroup {left right : KeyDraft} (look : SameLook left right)
    (fill : SameFill left right) (positive : 0 < group) (inside : group < 4) :
    SameLook (left.fillGroup group) (right.fillGroup group)
      ∧ SameFill (left.fillGroup group) (right.fillGroup group) := by
  constructor
  · refine { look with groups := ?_, defined := fun other otherInside => ?_ }
    · have acting := fill.acting
      have lettered := fill.lettered
      rw [look.groupAt 0] at acting lettered
      simp only [KeyDraft.fillGroup, KeyDraft.setGroup, look.groups, look.groupAt, fill.typed,
        acting, lettered, look.defined 0 (by decide)]
    · rw [defined_fillGroup left inside otherInside, defined_fillGroup right inside otherInside,
        look.defined other otherInside, fill.typed, fill.acting, fill.lettered]
  · obtain ⟨leftGroup, leftSyms, leftActions, leftTypes⟩ := fillGroup_first left positive inside
    obtain ⟨rightGroup, rightSyms, rightActions, rightTypes⟩ :=
      fillGroup_first right positive inside
    refine ⟨?_, ?_, ?_⟩
    · rw [leftTypes, rightTypes, fill.typed]
    · rw [leftActions, rightActions, leftGroup, rightGroup, fill.acting]
    · rw [leftSyms, rightSyms, leftGroup, rightGroup, fill.lettered]

/-- Of the marks only those of the first group are left when the others are dropped. -/
theorem defined_collapse (key : KeyDraft) (inside : group < 4) :
    meets8 key.collapse.definedGroups (bit8 group)
      = (decide (group = 0) && meets8 key.definedGroups (bit8 0)) := by
  simp only [KeyDraft.collapse, definedGroups, meets8_or, meets8_first inside]
  simp only [Bool.and_or_distrib_left]

/-- Dropping all groups but the first keeps keys that look the same together. -/
theorem SameLook.collapse {left right : KeyDraft} (look : SameLook left right) :
    SameLook left.collapse right.collapse := by
  refine { look with groups := ?_, defined := fun group inside => ?_ }
  · simp only [KeyDraft.collapse, look.groupAt]
  · rw [defined_collapse left inside, defined_collapse right inside, look.defined 0 (by decide)]

/-- Whether a group after the first is not marked and a later one is. -/
def HasGap (groups : UInt8) : Prop :=
  ∃ group < 4, ∃ later < 4, 0 < group ∧ group < later
    ∧ meets8 groups (bit8 group) = false ∧ meets8 groups (bit8 later) = true

instance (groups : UInt8) : Decidable (HasGap groups) :=
  inferInstanceAs (Decidable (∃ group < 4, ∃ later < 4, 0 < group ∧ group < later
    ∧ meets8 groups (bit8 group) = false ∧ meets8 groups (bit8 later) = true))

/-- Masks that mark the same groups have the same gaps. -/
theorem HasGap.congr {left right : UInt8}
    (same : ∀ group < 4, meets8 left (bit8 group) = meets8 right (bit8 group))
    (gap : HasGap left) : HasGap right := by
  obtain ⟨group, inside, later, laterInside, positive, before, unmarked, marked⟩ := gap
  rw [same group inside] at unmarked
  rw [same later laterInside] at marked
  exact ⟨group, inside, later, laterInside, positive, before, unmarked, marked⟩

/-- The last group is marked, and is one of the four. -/
theorem lastGroup_marked (found : key.lastGroup = some last) :
    last < 4 ∧ meets8 key.definedGroups (bit8 last) = true := by
  unfold KeyDraft.lastGroup at found
  have marked := List.find?_some found
  have member := List.mem_of_find?_eq_some found
  exact ⟨by simpa using member, marked⟩

/-- The groups below the last one that nothing was said of. -/
def missingGroups (key : KeyDraft) (last : Nat) : List Nat :=
  (List.range' 1 last).filter fun group => !meets8 key.definedGroups (bit8 group)

/-- The key with the groups below the last one filled in that nothing was said of. -/
def filled (key : KeyDraft) (last : Nat) : KeyDraft :=
  (key.missingGroups last).foldl fillGroup key

/-- With groups after the first one, these are filled in and dropped if they are all alike. -/
theorem prepare_of_lastGroup (found : key.lastGroup = some last) (positive : 0 < last) :
    key.prepare = if (List.range' 1 last).all fun group =>
        (key.filled last).groupAt group == (key.filled last).groupAt 0
      then (key.filled last).collapse else key.filled last := by
  cases last with
  | zero => omega
  | succ last =>
    simp only [prepare, found]
    rfl

theorem mem_missingGroups (inside : last < 4) (missing : group ∈ key.missingGroups last) :
    0 < group ∧ group < 4 := by
  have within := List.mem_range'_1.mp (List.mem_filter.mp missing).1
  omega

theorem missingGroups_of_no_gap (found : key.lastGroup = some last)
    (closed : ¬HasGap key.definedGroups) : key.missingGroups last = [] := by
  obtain ⟨inside, marked⟩ := lastGroup_marked found
  refine List.filter_eq_nil_iff.mpr fun group member => ?_
  have within := List.mem_range'_1.mp member
  cases here : meets8 key.definedGroups (bit8 group) with
  | true => simp
  | false =>
    -- The last group is marked, so an unmarked one would be a gap before it.
    have before : group ≠ last := by
      rintro rfl
      rw [marked] at here
      cases here
    exact absurd ⟨group, by omega, last, inside, by omega, by omega, here, marked⟩ closed

/-- Keys that look the same still do when they are prepared, if they fill in missing groups in the
same way or have none to fill in. -/
theorem SameLook.prepare {left right : KeyDraft} (look : SameLook left right)
    (fill : SameFill left right ∨ ¬HasGap left.definedGroups) : SameLook left.prepare right.prepare := by
  have sameLast := look.lastGroup
  cases found : left.lastGroup with
  | none =>
    rw [found] at sameLast
    simpa only [KeyDraft.prepare, found, ← sameLast] using look
  | some last =>
    rw [found] at sameLast
    have inside := (lastGroup_marked found).1
    have sameMissing : right.missingGroups last = left.missingGroups last := by
      refine List.filter_congr fun group member => ?_
      have within := List.mem_range'_1.mp member
      rw [look.defined group (by omega)]
    -- The groups are filled in one after the other.
    have filled : SameLook ((left.missingGroups last).foldl KeyDraft.fillGroup left)
        ((left.missingGroups last).foldl KeyDraft.fillGroup right) := by
      rcases fill with fill | closed
      · have later : ∀ group ∈ left.missingGroups last, 0 < group ∧ group < 4 :=
          fun group missing => mem_missingGroups inside missing
        clear sameMissing found sameLast
        generalize left.missingGroups last = groups at later
        induction groups generalizing left right with
        | nil => exact look
        | cons group rest ih =>
          obtain ⟨positive, within⟩ := later group (by simp)
          obtain ⟨nextLook, nextFill⟩ := look.fillGroup fill positive within
          exact ih nextLook nextFill fun group member => later group (by simp [member])
      · rw [missingGroups_of_no_gap found closed]
        exact look
    by_cases positive : 0 < last
    · have filled : SameLook (left.filled last) (right.filled last) := by
        rwa [KeyDraft.filled, KeyDraft.filled, sameMissing]
      rw [prepare_of_lastGroup found positive, prepare_of_lastGroup sameLast.symm positive]
      simp only [filled.groupAt]
      split
      · exact filled.collapse
      · exact filled
    · have none : last = 0 := by omega
      subst none
      simpa only [KeyDraft.prepare, found, ← sameLast] using look

end KeyDraft

end Xkb
