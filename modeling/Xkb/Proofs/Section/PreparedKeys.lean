import Xkb.Proofs.Definition
import Xkb.Proofs.Section.MarkedGroups

/-! Keys that are prepared: groups that nothing was said of are filled in from the first one, and
groups that are all alike become one. -/

namespace Xkb

namespace KeyDraft

variable {key made : KeyDraft} {last : Nat}

/-- What becomes of a group that is filled in from the first one. -/
def fillOf (key : KeyDraft) (group : Nat) : GroupDraft where
  levels := if meets8 key.definedGroups (bit8 0) then (key.groupAt 0).levels
    else (key.groupAt group).levels
  syms := if meets8 key.symsDefined (bit8 0) && (key.groupAt 0).syms.isSome
    then (key.groupAt 0).syms else (key.groupAt group).syms
  actions := if meets8 key.actionsDefined (bit8 0) && (key.groupAt 0).actions.isSome
    then (key.groupAt 0).actions else (key.groupAt group).actions
  typeName := if meets8 key.typesDefined (bit8 0) then (key.groupAt 0).typeName
    else (key.groupAt group).typeName

/-- Whether the first group has anything to pass on that is marked. -/
def passesMarks (key : KeyDraft) : Bool :=
  meets8 key.typesDefined (bit8 0)
    || (meets8 key.actionsDefined (bit8 0) && (key.groupAt 0).actions.isSome)
    || (meets8 key.symsDefined (bit8 0) && (key.groupAt 0).syms.isSome)

/-- A key after some groups were filled in. -/
structure Filled (key : KeyDraft) (missing : List Nat) (made : KeyDraft) : Prop where
  groups : ∀ group < 4,
    made.groupAt group = if group ∈ missing then key.fillOf group else key.groupAt group
  defined : ∀ group < 4, meets8 made.definedGroups (bit8 group)
    = (meets8 key.definedGroups (bit8 group) || (key.passesMarks && decide (group ∈ missing)))
  /-- The marks of the first group are as they were. -/
  first : meets8 made.symsDefined (bit8 0) = meets8 key.symsDefined (bit8 0) ∧
    meets8 made.actionsDefined (bit8 0) = meets8 key.actionsDefined (bit8 0) ∧
    meets8 made.typesDefined (bit8 0) = meets8 key.typesDefined (bit8 0)

theorem foldl_fillGroup (key : KeyDraft) {missing : List Nat} (different : missing.Nodup)
    (later : ∀ group ∈ missing, 0 < group ∧ group < 4) :
    Filled key missing (missing.foldl fillGroup key) := by
  -- The key with one group filled in has the same first group, so the rest are filled in alike.
  induction missing generalizing key with
  | nil => exact ⟨fun _ _ => by simp, fun _ _ => by simp, rfl, rfl, rfl⟩
  | cons group rest ih =>
    obtain ⟨positive, inside⟩ := later group (by simp)
    obtain ⟨fresh, restDifferent⟩ := List.nodup_cons.mp different
    obtain ⟨first, syms, actions, types⟩ := fillGroup_first key positive inside
    have filled := ih (key.fillGroup group) restDifferent fun other member =>
      later other (by simp [member])
    have groupAt (other : Nat) : (key.fillGroup group).groupAt other
        = if group = other then key.fillOf group else key.groupAt other :=
      groupAt_setGroup inside _ other
    have passesMarks : (key.fillGroup group).passesMarks = key.passesMarks := by
      simp only [KeyDraft.passesMarks, first, syms, actions, types]
    have defined (other : Nat) (within : other < 4) :
        meets8 (key.fillGroup group).definedGroups (bit8 other)
          = (meets8 key.definedGroups (bit8 other)
            || (key.passesMarks && decide (group = other))) :=
      defined_fillGroup key inside within
    -- The groups that are still to be filled in get what they would have got before.
    have same (other : Nat) (apart : group ≠ other) :
        (key.fillGroup group).fillOf other = key.fillOf other := by
      have here := defined 0 (by decide)
      rw [show decide (group = 0) = false by simpa using by omega, Bool.and_false,
        Bool.or_false] at here
      simp only [fillOf, first, syms, actions, types, here, groupAt other, if_neg apart]
    refine ⟨fun other within => ?_, fun other within => ?_, ?_⟩
    · rw [List.foldl_cons, filled.groups other within]
      -- No later step fills in the group once more.
      by_cases here : group = other
      · subst here
        simp [fresh, groupAt]
      · simp only [List.mem_cons, Ne.symm here, false_or, groupAt, if_neg here, same other here]
    · rw [List.foldl_cons, filled.defined other within, passesMarks, defined other within,
        Bool.or_assoc, ← Bool.and_or_distrib_left]
      congr 2
      simp only [List.mem_cons, Bool.decide_or, eq_comm]
    · rw [List.foldl_cons]
      exact ⟨filled.first.1.trans syms, filled.first.2.1.trans actions,
        filled.first.2.2.trans types⟩

variable {group : Nat}

theorem mem_missingGroups_iff : group ∈ key.missingGroups last ↔
    (0 < group ∧ group ≤ last) ∧ meets8 key.definedGroups (bit8 group) = false := by
  rw [missingGroups, List.mem_filter, List.mem_range'_1, Bool.not_eq_true']
  constructor
  · rintro ⟨within, undefined⟩
    exact ⟨by omega, undefined⟩
  · rintro ⟨within, undefined⟩
    exact ⟨by omega, undefined⟩

theorem filled_fills (key : KeyDraft) (inside : last < 4) :
    Filled key (key.missingGroups last) (key.filled last) :=
  foldl_fillGroup key (List.Pairwise.filter _ (List.nodup_range' 1 (by decide)))
    fun _ missing => mem_missingGroups inside missing

theorem Filled.keeps_first (filled : Filled key (key.missingGroups last) made) :
    made.groupAt 0 = key.groupAt 0 ∧
      meets8 made.definedGroups (bit8 0) = meets8 key.definedGroups (bit8 0) := by
  have kept : 0 ∉ key.missingGroups last := by
    rw [mem_missingGroups_iff]
    omega
  constructor
  · rw [filled.groups 0 (by decide), if_neg kept]
  · simp [filled.defined 0 (by decide), kept]

theorem lastGroup_eq_some : key.lastGroup = some last ↔
    (last < 4 ∧ meets8 key.definedGroups (bit8 last) = true) ∧
      ∀ group, last < group → group < 4 → meets8 key.definedGroups (bit8 group) = false := by
  -- The groups are searched from the highest one down.
  have descending : (List.range 4).reverse.Pairwise (· > ·) := by decide
  have member {group : Nat} (inside : group < 4) : group ∈ (List.range 4).reverse := by
    simpa using inside
  constructor
  · intro found
    refine ⟨lastGroup_marked found, fun group above inside => ?_⟩
    rw [Bool.eq_false_iff]
    intro marked
    rcases rel_of_find? descending found (member inside) marked with same | below
    · omega
    · omega
  · rintro ⟨⟨inside, marked⟩, above⟩
    -- Some group is found, and a later one than this would have to be marked.
    cases found : key.lastGroup with
    | none => exact absurd marked (List.find?_eq_none.mp found last (member inside))
    | some other =>
      obtain ⟨otherInside, otherMarked⟩ := lastGroup_marked found
      rcases rel_of_find? descending found (member inside) marked with same | below
      · rw [same]
      · rw [above other below otherInside] at otherMarked
        cases otherMarked

theorem prepare_of_first_only
    (only : ∀ group, 0 < group → group < 4 → meets8 key.definedGroups (bit8 group) = false) :
    key.prepare = key ∧ key.groupCount ≤ 1 := by
  cases found : key.lastGroup with
  | none => simp [prepare, groupCount, found]
  | some last =>
    -- The last group is marked, so it can only be the first.
    obtain ⟨inside, marked⟩ := lastGroup_marked found
    have first : last = 0 := by
      cases last with
      | zero => rfl
      | succ last =>
        rw [only (last + 1) (by omega) inside] at marked
        cases marked
    subst first
    simp [prepare, groupCount, found]

theorem groupAt_collapse (key : KeyDraft) (group : Nat) :
    key.collapse.groupAt group = if group = 0 then key.groupAt 0 else .empty := by
  change (((Vector.replicate 4 GroupDraft.empty).setIfInBounds 0 (key.groupAt 0))[group]?).getD
    .empty = _
  rw [Vector.getElem?_setIfInBounds, Vector.getElem?_replicate]
  by_cases first : group = 0
  · simp [first]
  · rw [if_neg (Ne.symm first)]
    split <;> rfl

theorem collapse_first_only (key : KeyDraft) :
    ∀ group, 0 < group → group < 4 → meets8 key.collapse.definedGroups (bit8 group) = false := by
  intro group positive inside
  rw [defined_collapse key inside, show decide (group = 0) = false by simpa using by omega,
    Bool.false_and]

theorem lastGroup_filled (found : key.lastGroup = some last) :
    (key.filled last).lastGroup = some last := by
  obtain ⟨⟨inside, marked⟩, above⟩ := lastGroup_eq_some.mp found
  have filled := key.filled_fills inside
  -- Marks are only added, and none of them behind the last group.
  refine lastGroup_eq_some.mpr ⟨⟨inside, ?_⟩, fun group later within => ?_⟩
  · rw [filled.defined last inside, marked, Bool.true_or]
  · have kept : group ∉ key.missingGroups last := by
      rw [mem_missingGroups_iff]
      omega
    simp [filled.defined group within, above group later within, kept]

/-- Prepared keys stay as they are, or become those that are filled in, or lose all groups but the
first. -/
theorem prepare_cases (found : key.lastGroup = some last) :
    last = 0 ∧ key.prepare = key ∨
    0 < last ∧ (∀ group ≤ last, (key.filled last).groupAt group = (key.filled last).groupAt 0) ∧
      key.prepare = (key.filled last).collapse ∨
    0 < last ∧ (¬∀ group ≤ last, (key.filled last).groupAt group = (key.filled last).groupAt 0) ∧
      key.prepare = key.filled last := by
  by_cases positive : 0 < last
  · -- The test starts at the second group, since the first is always like itself.
    have alike : ((List.range' 1 last).all fun group =>
        (key.filled last).groupAt group == (key.filled last).groupAt 0) = true ↔
        ∀ group ≤ last, (key.filled last).groupAt group = (key.filled last).groupAt 0 := by
      simp only [List.all_eq_true, List.mem_range'_1, beq_iff_eq]
      constructor
      · intro same group within
        by_cases first : group = 0
        · rw [first]
        · exact same group (by omega)
      · exact fun same group within => same group (by omega)
    rw [prepare_of_lastGroup found positive]
    by_cases same : ∀ group ≤ last, (key.filled last).groupAt group = (key.filled last).groupAt 0
    · exact .inr (.inl ⟨positive, same, if_pos (alike.mpr same)⟩)
    · exact .inr (.inr ⟨positive, same, if_neg fun all => same (alike.mp all)⟩)
  · have first : last = 0 := by omega
    subst first
    exact .inl ⟨rfl, by simp [prepare, found]⟩

/-- Where no marks are passed on, filling in a group changes nothing but the group. -/
theorem fillGroup_of_not_passesMarks (nothing : key.passesMarks = false) (group : Nat) :
    key.fillGroup group = key.setGroup group (key.fillOf group) := by
  simp only [passesMarks, Bool.or_eq_false_iff] at nothing
  obtain ⟨⟨untyped, idle⟩, unlettered⟩ := nothing
  simp only [fillGroup, fillOf, untyped, idle, unlettered]
  rfl

theorem filled_filled (inside : last < 4) :
    (key.filled last).filled last = key.filled last := by
  have filled := key.filled_fills inside
  obtain ⟨first, defined⟩ := filled.keeps_first
  obtain ⟨syms, actions, types⟩ := filled.first
  have passesMarks : (key.filled last).passesMarks = key.passesMarks := by
    simp only [KeyDraft.passesMarks, first, syms, actions, types]
  have again : ∀ group ∈ (key.filled last).missingGroups last,
      (key.filled last).fillGroup group = key.filled last := by
    intro group missing
    obtain ⟨within, undefined⟩ := mem_missingGroups_iff.mp missing
    rw [filled.defined group (by omega), Bool.or_eq_false_iff] at undefined
    have before : group ∈ key.missingGroups last := mem_missingGroups_iff.mpr ⟨within, undefined.1⟩
    -- A group that is still missing got no marks, so it gets none now.
    have nothing : key.passesMarks = false := by simpa [before] using undefined.2
    have same : (key.filled last).groupAt group = key.fillOf group := by
      rw [filled.groups group (by omega), if_pos before]
    have kept : (key.filled last).fillOf group = (key.filled last).groupAt group := by
      simp only [fillOf, same, first, defined, syms, actions, types]
      simp +contextual
    rw [fillGroup_of_not_passesMarks (passesMarks.trans nothing), kept, setGroup_groupAt]
  -- A fold whose every step changes nothing gives back what it starts from.
  rw [KeyDraft.filled]
  generalize (key.filled last).missingGroups last = missing at again
  induction missing with
  | nil => rfl
  | cons group rest ih =>
    rw [List.foldl_cons, again group (by simp)]
    exact ih fun other member => again other (by simp [member])

theorem prepare_prepare (key : KeyDraft) : key.prepare.prepare = key.prepare := by
  cases found : key.lastGroup with
  | none =>
    have same : key.prepare = key := by simp [prepare, found]
    rw [same, same]
  | some last =>
    obtain ⟨inside, _⟩ := lastGroup_marked found
    rcases prepare_cases found with ⟨_, same⟩ | ⟨_, _, same⟩ | ⟨positive, apart, same⟩
    · rw [same, same]
    · -- Of the groups that were alike only the first is left.
      rw [same]
      exact (prepare_of_first_only (collapse_first_only _)).1
    · rw [same]
      -- The groups are still not alike, so that none are dropped.
      rcases prepare_cases (lastGroup_filled found) with ⟨first, _⟩ | ⟨_, alike, _⟩ | ⟨_, _, again⟩
      · omega
      · rw [filled_filled inside] at alike
        exact absurd alike apart
      · rw [again, filled_filled inside]

/-- What the first group passes on to groups that nothing was said of: lists only if they were
given, and all else. A list that is not there is not the same as one without entries. -/
def passedOn (key : KeyDraft) : GroupDraft :=
  { key.groupAt 0 with
    syms := if meets8 key.symsDefined (bit8 0) = true then (key.groupAt 0).syms else none
    actions := if meets8 key.actionsDefined (bit8 0) = true then (key.groupAt 0).actions else none }

/-- What a group is after the groups that nothing was said of were filled in. -/
def filledGroup (key : KeyDraft) (group : Nat) : GroupDraft :=
  if meets8 key.definedGroups (bit8 group) = true then key.groupAt group else key.passedOn

theorem Marked.passedOn_of_undefined (marked : key.Marked)
    (undefined : meets8 key.definedGroups (bit8 0) = false) : key.passedOn = .empty := by
  simp [passedOn, marked.empty_of_undefined (by decide) undefined, GroupDraft.empty]

theorem Marked.fillOf (marked : key.Marked) (inside : group < 4)
    (undefined : meets8 key.definedGroups (bit8 group) = false) :
    key.fillOf group = key.passedOn := by
  have bare := marked.empty_of_undefined inside undefined
  cases first : meets8 key.definedGroups (bit8 0) with
  | false =>
    -- Without a first group there is nothing to fill in with.
    have unmarked := first
    simp only [definedGroups, meets8_or, Bool.or_eq_false_iff] at unmarked
    simp [KeyDraft.fillOf, marked.passedOn_of_undefined first, bare, first, unmarked.1.1,
      unmarked.1.2, unmarked.2]
  | true =>
    have typeName : (if meets8 key.typesDefined (bit8 0) then (key.groupAt 0).typeName else none)
        = (key.groupAt 0).typeName := by
      cases typed : meets8 key.typesDefined (bit8 0) with
      | true => rfl
      | false => exact ((marked 0 (by decide)).untyped typed).symm
    -- A list that is marked but not there is passed on like one that is not marked.
    have list {α : Type} (given : Bool) (list : Option (List α)) :
        (if given && list.isSome then list else none) = if given = true then list else none := by
      cases list with
      | none => simp
      | some entries => simp
    simp only [KeyDraft.fillOf, passedOn, bare, first, GroupDraft.empty, list, typeName, if_true]

theorem Marked.filled_groupAt (marked : key.Marked) (inside : last < 4) (within : group ≤ last) :
    (key.filled last).groupAt group = key.filledGroup group := by
  have filled := key.filled_fills inside
  rw [filled.groups group (by omega)]
  by_cases missing : group ∈ key.missingGroups last
  · have undefined := (mem_missingGroups_iff.mp missing).2
    rw [if_pos missing, marked.fillOf (by omega) undefined]
    simp [filledGroup, undefined]
  · rw [if_neg missing]
    cases defined : meets8 key.definedGroups (bit8 group) with
    | true => simp [filledGroup, defined]
    | false =>
      -- Only the first group may be left undefined.
      have first : group = 0 := by
        rw [mem_missingGroups_iff] at missing
        simp only [defined, and_true] at missing
        omega
      subst first
      simp [filledGroup, defined, marked.passedOn_of_undefined,
        marked.empty_of_undefined (by decide) defined]

theorem Marked.symAt_filledGroup (marked : key.Marked) (group level : Nat) :
    (key.filledGroup group).symAt level
      = if meets8 key.definedGroups (bit8 group) = true then (key.groupAt group).symAt level
        else (key.groupAt 0).symAt level := by
  unfold filledGroup
  split
  · rfl
  · by_cases lettered : meets8 key.symsDefined (bit8 0) = true
    · simp [passedOn, GroupDraft.symAt, lettered]
    · -- Without a list of its own the first group has no symbols.
      rw [(marked 0 (by decide)).blank (by simpa using lettered) level]
      simp [passedOn, GroupDraft.symAt, lettered]

theorem Marked.filledGroup_eq (marked : key.Marked)
    (first : meets8 key.definedGroups (bit8 0) = false) (inside : group < 4) :
    key.filledGroup group = key.groupAt group := by
  cases defined : meets8 key.definedGroups (bit8 group) with
  | true => simp [filledGroup, defined]
  | false =>
    simp [filledGroup, marked.passedOn_of_undefined first, marked.empty_of_undefined inside defined]

/-- The groups of a key that is prepared. -/
structure Prepared (key : KeyDraft) (last count : Nat) : Prop where
  counted : count = 1 ∨ count = last + 1
  single : count = 1 ↔ ∀ group ≤ last, key.filledGroup group = key.filledGroup 0
  groups : ∀ group ≤ last, key.prepare.groupAt (group % count) = key.filledGroup group
  dropped : count = 1 → ∀ group ≤ last, 0 < group → key.prepare.groupAt group = .empty

theorem Marked.prepared (marked : key.Marked) (found : key.lastGroup = some last) :
    Prepared key last (max 1 key.prepare.groupCount) := by
  -- The three ways of preparing a key: as it is, filled in and dropped, or filled in.
  obtain ⟨inside, defined⟩ := lastGroup_marked found
  have groups {group : Nat} (within : group ≤ last) :
      (key.filled last).groupAt group = key.filledGroup group :=
    marked.filled_groupAt inside within
  rcases prepare_cases found with ⟨rfl, same⟩ | ⟨positive, alike, same⟩ | ⟨positive, apart, same⟩
  · have count : max 1 key.prepare.groupCount = 1 := by simp [same, groupCount, found]
    rw [count]
    refine ⟨.inl rfl, ⟨fun _ group within => ?_, fun _ => rfl⟩, fun group within => ?_,
      fun _ group within positive => ?_⟩
    · rw [Nat.le_zero.mp within]
    · rw [Nat.le_zero.mp within, same, filledGroup, if_pos defined]
    · omega
  · have count : max 1 key.prepare.groupCount = 1 := by
      have only := (prepare_of_first_only (collapse_first_only (key.filled last))).2
      rw [same]
      omega
    rw [count]
    refine ⟨.inl rfl, ⟨fun _ group within => ?_, fun _ => rfl⟩, fun group within => ?_,
      fun _ group _ later => ?_⟩
    · rw [← groups within, ← groups (Nat.zero_le last), alike group within]
    · -- The one group that is left stands for all.
      rw [same, Nat.mod_one, groupAt_collapse, if_pos rfl, ← alike group within, groups within]
    · rw [same, groupAt_collapse, if_neg (by omega)]
  · have count : max 1 key.prepare.groupCount = last + 1 := by
      simp [same, groupCount, lastGroup_filled found]
    rw [count]
    refine ⟨.inr rfl, ⟨fun first => ?_, fun alike => ?_⟩, fun group within => ?_, fun first => ?_⟩
    · omega
    · refine absurd (fun group within => ?_) apart
      rw [groups within, groups (Nat.zero_le last), alike group within]
    · rw [same, Nat.mod_eq_of_lt (by omega), groups within]
    · omega

theorem Prepared.groupAt_of_undefined {count : Nat} (prepared : Prepared key last count)
    (marked : key.Marked) (inside : last < 4)
    (undefined : meets8 key.definedGroups (bit8 0) = false) (within : group ≤ last) :
    key.prepare.groupAt group = key.groupAt group := by
  have kept {group : Nat} (within : group ≤ last) : key.filledGroup group = key.groupAt group :=
    marked.filledGroup_eq undefined (by omega)
  have here := prepared.groups group within
  by_cases single : count = 1
  · -- All groups are like the first one, which is empty.
    have same := prepared.single.mp single group within
    have bare := marked.empty_of_undefined (by decide) undefined
    rw [kept within, kept (Nat.zero_le last), bare] at same
    by_cases first : group = 0
    · subst first
      rw [Nat.zero_mod, kept within] at here
      exact here
    · rw [prepared.dropped single group within (by omega), same]
  · -- As many groups are left as there were, so each is in its own place.
    have counted : count = last + 1 := prepared.counted.resolve_left single
    rw [counted, Nat.mod_eq_of_lt (by omega), kept within] at here
    exact here

/-- Preparing a key keeps its symbols in place. Groups up to the last one show their own symbols, or
those of the first group where nothing was said of them; where only one group is left it stands for
all. Without a first group nothing is filled in. One group is left exactly if, once filled in, all
are the same. Preparing the key again changes nothing. -/
theorem prepare_keeps_symbols (reached : key.Reached) :
    (∀ last, key.lastGroup = some last →
      let count := max 1 key.prepare.groupCount
      (count = 1 ∨ count = last + 1) ∧
      (count = 1 ↔ ∀ group ≤ last, key.filledGroup group = key.filledGroup 0) ∧
      (meets8 key.definedGroups (bit8 0) = true → ∀ group ≤ last, ∀ level,
        (key.prepare.groupAt (group % count)).symAt level
          = if meets8 key.definedGroups (bit8 group) = true then (key.groupAt group).symAt level
            else (key.groupAt 0).symAt level) ∧
      (meets8 key.definedGroups (bit8 0) = false → ∀ group ≤ last,
        key.prepare.groupAt group = key.groupAt group)) ∧
    key.prepare.prepare = key.prepare := by
  -- Keys that are reached have no symbols or types in groups without a mark for them.
  have marked := reached.marked
  refine ⟨fun last found => ?_, prepare_prepare key⟩
  have prepared := marked.prepared found
  refine ⟨prepared.counted, prepared.single, fun _ group within level => ?_,
    fun undefined group within => ?_⟩
  · rw [prepared.groups group within, marked.symAt_filledGroup]
  · exact prepared.groupAt_of_undefined marked (lastGroup_marked found).1 undefined within

/-- A key with symbols in its first and third groups. -/
def gapped (first third : List String) : KeyDraft :=
  let put (key : KeyDraft) (group : Int64) (names : List String) : KeyDraft :=
    (key.setField ⟨.empty, .empty⟩ .empty "symbols" (some (.integer group)) (some (.keysyms names))
      (.atLevel 0)).1.1
  put (put base 1 first) 3 third

/-- The second group of a key is filled in, and three groups that are alike become one. -/
theorem prepare_keeps_symbols_gapped :
    let key := gapped ["a", "A"] ["b"]
    let even := gapped ["a", "A"] ["a", "A"]
    key.Reached ∧ even.Reached ∧
    key.lastGroup = some 2 ∧ even.lastGroup = some 2 ∧
    key.prepare.groupCount = 3 ∧ even.prepare.groupCount = 1 ∧
    ((key.prepare.groupAt (1 % 3)).symAt 1 = (key.groupAt 0).symAt 1 ∧
      (key.groupAt 0).symAt 1 = 65) ∧
    ((even.prepare.groupAt (2 % 1)).symAt 1 = (even.groupAt 2).symAt 1 ∧
      (even.groupAt 2).symAt 1 = 65) ∧
    key.prepare.prepare = key.prepare := by
  have reached (first third : List String) : (gapped first third).Reached :=
    Reached.field (Reached.field Reached.base _ _ _ _ _ _) _ _ _ _ _ _
  have keyLast : (gapped ["a", "A"] ["b"]).lastGroup = some 2 := by decide +kernel
  have evenLast : (gapped ["a", "A"] ["a", "A"]).lastGroup = some 2 := by decide +kernel
  have keyCount : (gapped ["a", "A"] ["b"]).prepare.groupCount = 3 := by decide +kernel
  have evenCount : (gapped ["a", "A"] ["a", "A"]).prepare.groupCount = 1 := by decide +kernel
  obtain ⟨keyGroups, keyAgain⟩ := prepare_keeps_symbols (reached ["a", "A"] ["b"])
  obtain ⟨evenGroups, _⟩ := prepare_keeps_symbols (reached ["a", "A"] ["a", "A"])
  have filled := (keyGroups 2 keyLast).2.2.1 (by decide +kernel) 1 (by decide) 1
  have single := (evenGroups 2 evenLast).2.2.1 (by decide +kernel) 2 (by decide) 1
  rw [keyCount, if_neg (by decide +kernel)] at filled
  rw [evenCount, if_pos (by decide +kernel)] at single
  exact ⟨reached _ _, reached _ _, keyLast, evenLast, keyCount, evenCount,
    ⟨filled, by decide +kernel⟩, ⟨single, by decide +kernel⟩, keyAgain⟩

end KeyDraft

end Xkb
