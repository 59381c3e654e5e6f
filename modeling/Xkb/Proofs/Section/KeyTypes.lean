import Xkb.Proofs.Assembly
import Xkb.Proofs.Definition

/-! The table of key types is well-formed, whatever the types section says and includes. -/

namespace Xkb

namespace ModMask

theorem intersect_subsetOf (left right : ModMask) : (left.intersect right).subsetOf right = true := by
  simp [subsetOf, without, intersect, isEmpty, UInt8.and_assoc, UInt16.and_assoc]

theorem empty_subsetOf (mask : ModMask) : ModMask.empty.subsetOf mask = true := by
  simp [subsetOf, without, empty, isEmpty]

end ModMask

/-- A type whose levels, entries and names fit together. -/
structure KeyType.WellFormed (type : KeyType) : Prop where
  distinct : (type.entries.map TypeEntry.mods).Nodup
  below : ∀ entry ∈ type.entries, entry.level < type.levels
  least : 1 ≤ type.levels
  most : type.levels ≤ 64
  preserved : ∀ entry ∈ type.entries, entry.preserve.subsetOf entry.mods = true
  named : type.levelNames.length = type.levels

namespace TypeDraft

/-- A draft of a type that will be well-formed. -/
structure Sound (draft : TypeDraft) : Prop where
  distinct : (draft.entries.map MapEntry.mods).Nodup
  below : ∀ entry ∈ draft.entries, entry.level < draft.levels
  least : 1 ≤ draft.levels
  most : draft.levels ≤ 64
  preserved : ∀ known ∈ draft.preserves, known.preserve.subsetOf known.mods = true
  named : draft.levelNames.length ≤ draft.levels

theorem start_sound (name : String) (origin : Origin) (mode : MergeMode) :
    (start name origin mode).Sound := by
  constructor <;> simp [start]

variable {draft made : TypeDraft} (modifiers : VirtualModifiers) {level : Nat} {name : String}

theorem Sound.withEntries (sound : draft.Sound) {entries : List MapEntry} (low : level < 64)
    (distinct : (entries.map MapEntry.mods).Nodup)
    (below : ∀ entry ∈ entries, entry.level < draft.levels ∨ entry.level = level) :
    Sound { draft with entries, levels := max draft.levels (level + 1) } := by
  refine ⟨distinct, fun entry member => ?_, ?_, ?_, sound.preserved, ?_⟩
  · rcases below entry member with lower | same <;> simp only <;> omega
  · exact Nat.le_trans sound.least (Nat.le_max_left _ _)
  · exact Nat.max_le.mpr ⟨sound.most, low⟩
  · exact Nat.le_trans sound.named (Nat.le_max_left _ _)

/-- The name of a level, from 0. -/
def nameAt (draft : TypeDraft) (level : Nat) : Option String :=
  (draft.levelNames[level]?).join

/-- A later stage of the same type: still sound and of the same name. -/
structure Grown (old new : TypeDraft) : Prop where
  sound : new.Sound
  name : new.name = old.name

/-- What adding the level of a set of modifiers can make of a type: nothing new, or entries that
were there beside the new one. -/
def AddsEntry (draft : TypeDraft) (new : MapEntry) (made : TypeDraft) : Prop :=
  made = draft ∨ ∃ entries,
    made = { draft with entries, levels := max draft.levels (new.level + 1) } ∧
      ((draft.entries.map MapEntry.mods).Nodup → (entries.map MapEntry.mods).Nodup) ∧
      ∀ entry ∈ entries, entry ∈ draft.entries ∨ entry = new

theorem addEntry_adds (new : MapEntry) (clobber report : Bool) :
    Gives (draft.addEntry modifiers new clobber report) (draft.AddsEntry new) := by
  simp only [addEntry]
  split
  · rename_i missing
    refine .pure (.inr ⟨_, rfl, fun distinct => ?_, fun entry member => by simpa using member⟩)
    -- No entry has the modifiers of the new one.
    have fresh : new.mods ∉ draft.entries.map MapEntry.mods := by
      simpa using missing
    exact nodup_map_concat distinct fresh
  · have changed : draft.AddsEntry new { draft with
        entries := if clobber then
            changeFirst (·.mods == new.mods) ({ · with level := new.level }) draft.entries
          else draft.entries
        levels := max draft.levels (new.level + 1) } := by
      refine .inr ⟨_, rfl, ?_⟩
      cases clobber with
      | false => exact ⟨id, fun _ => .inl⟩
      | true =>
        refine ⟨fun distinct => ?_, fun entry member => ?_⟩
        · rw [if_pos rfl, map_changeFirst]
          · exact distinct
          · exact fun _ _ => rfl
        · rcases mem_changeFirst member with old | ⟨old, -, found, rfl⟩
          · exact .inl old
          · have same : old.mods = new.mods := by simpa using found
            exact .inr (by rw [same])
    split
    · exact .after fun _ => .pure changed
    · refine .after fun level => .ite (fun _ => ?_) fun _ => .pure changed
      exact .after fun _ => .pure (.inl rfl)

theorem AddsEntry.grows (sound : draft.Sound) {new : MapEntry} (low : new.level < 64)
    (adds : draft.AddsEntry new made) : draft.Grown made ∧ made.nameAt = draft.nameAt := by
  rcases adds with rfl | ⟨entries, rfl, distinct, known⟩
  · exact ⟨⟨sound, rfl⟩, rfl⟩
  · refine ⟨⟨sound.withEntries low (distinct sound.distinct) fun entry member => ?_, rfl⟩, rfl⟩
    exact (known entry member).imp (sound.below entry) (congrArg MapEntry.level)

/-- What adding the modifiers that stay in force for a set can make of a type. -/
def AddsPreserve (draft : TypeDraft) (new : PreserveEntry) (made : TypeDraft) : Prop :=
  ∃ preserves, made = { draft with preserves } ∧
    ∀ known ∈ preserves, known ∈ draft.preserves ∨ known = new

theorem addPreserve_adds (new : PreserveEntry) (clobber report : Bool) :
    Gives (draft.addPreserve modifiers new clobber report) (draft.AddsPreserve new) := by
  have unchanged : draft.AddsPreserve new draft := ⟨draft.preserves, rfl, fun _ => .inl⟩
  simp only [addPreserve]
  split
  · exact .pure ⟨_, rfl, fun known member => by simpa using member⟩
  · have changed : draft.AddsPreserve new { draft with
        preserves := changeFirst (·.mods == new.mods) ({ · with preserve := new.preserve })
          draft.preserves } := by
      refine ⟨_, rfl, fun known member => ?_⟩
      rcases mem_changeFirst member with old | ⟨old, -, found, rfl⟩
      · exact .inl old
      · have same : old.mods = new.mods := by simpa using found
        exact .inr (by rw [same])
    refine .after fun level => .ite (fun _ => .noted unchanged) fun _ => ?_
    -- The warning comes first, whichever of the two counts.
    refine .ite (fun _ => .after fun _ => ?_) fun _ => ?_ <;>
      exact .ite (fun _ => .pure changed) fun _ => .pure unchanged

theorem AddsPreserve.grows (sound : draft.Sound) {new : PreserveEntry}
    (inner : new.preserve.subsetOf new.mods = true) (adds : draft.AddsPreserve new made) :
    draft.Grown made ∧ made.nameAt = draft.nameAt := by
  obtain ⟨preserves, rfl, known⟩ := adds
  refine ⟨⟨⟨sound.distinct, sound.below, sound.least, sound.most, fun other member => ?_,
    sound.named⟩, rfl⟩, rfl⟩
  rcases known other member with old | rfl
  · exact sound.preserved other old
  · exact inner

theorem setLevelName_get (names : List (Option String)) (level : Nat) (name : String)
    (other : Nat) :
    ((setLevelName names level name)[other]?).join
      = if other = level then some name else (names[other]?).join := by
  simp only [setLevelName, List.getElem?_set, List.length_append, List.length_replicate]
  by_cases same : level = other
  · subst same
    have long : level < names.length + (level + 1 - names.length) := by omega
    simp [long]
  · rw [if_neg same, if_neg (Ne.symm same), List.getElem?_append]
    split
    · rfl
    · rename_i beyond
      have short : names[other]? = none := List.getElem?_eq_none (by omega)
      rw [short, List.getElem?_replicate]
      split <;> rfl

theorem setLevelName_length (names : List (Option String)) (level : Nat) (name : String) :
    (setLevelName names level name).length = max names.length (level + 1) := by
  simp only [setLevelName, List.length_set, List.length_append, List.length_replicate]
  omega

/-- What adding the name of a level can make of a type: nothing new if the level has a name that
counts, and otherwise a type with the name. -/
def AddsName (draft : TypeDraft) (level : Nat) (name : String) (clobber : Bool)
    (made : TypeDraft) : Prop :=
  (made = draft ∧ ∃ old, draft.nameAt level = some old ∧ (clobber = true → old = name)) ∨
    (made = { draft with
      levelNames := setLevelName draft.levelNames level name
      levels := max draft.levels (level + 1) } ∧ (clobber = true ∨ draft.nameAt level = none))

theorem addLevelName_adds (level : Nat) (name : String) (clobber : Bool) :
    Gives (draft.addLevelName level name clobber) (draft.AddsName level name clobber) := by
  simp only [addLevelName]
  split
  · rename_i missing
    exact .pure (.inr ⟨rfl, .inr missing⟩)
  · rename_i old found
    refine .ite (fun same => ?_) fun _ => ?_
    · have same : old = name := by simpa using same
      exact .after fun _ => .noted (.inl ⟨rfl, old, found, fun _ => same⟩)
    · refine .after fun _ => .ite (fun _ => .after fun _ => ?_) fun _ => ?_ <;>
      · cases clobber with
        | true => exact .pure (.inr ⟨rfl, .inl rfl⟩)
        | false => exact .pure (.inl ⟨rfl, old, found, nofun⟩)

/-- Adding a name of a level keeps a type sound; the name counts if it may replace another or there
is none yet. -/
theorem AddsName.grows (sound : draft.Sound) (low : level < 64) {clobber : Bool}
    (adds : draft.AddsName level name clobber made) :
    draft.Grown made ∧ ∀ other, made.nameAt other =
      if other = level ∧ (clobber ∨ draft.nameAt level = none) then some name
      else draft.nameAt other := by
  rcases adds with ⟨rfl, old, found, fine⟩ | ⟨rfl, counts⟩
  · -- The name that is there stays, so it is the same one or the new one does not count.
    refine ⟨⟨sound, rfl⟩, fun other => ?_⟩
    split
    · rename_i chosen
      obtain ⟨rfl, replaces | missing⟩ := chosen
      · rw [found, fine replaces]
      · simp [found] at missing
    · rfl
  · have wider := sound.withEntries low sound.distinct fun entry known =>
      .inl (sound.below entry known)
    have named := sound.named
    refine ⟨⟨⟨wider.distinct, wider.below, wider.least, wider.most, sound.preserved, ?_⟩, rfl⟩,
      fun other => ?_⟩
    · rw [setLevelName_length]
      simp only
      omega
    · simp only [counts, and_true]
      exact setLevelName_get draft.levelNames level name other

/-- The level, from 0, and the name that an index and a value give it. -/
def levelNaming (index : Option Expr) (value : Expr) : Option (Nat × String) :=
  match index.map (Expr.toInteger Lookup.levels), value.toText with
  | some (.ok level), .ok name =>
    if level < 1 || highestLevel < level then none else some (level.toInt.toNat - 1, name)
  | _, _ => none

/-- The level and the name that an assignment to a field of a type gives it. -/
def naming (field : String) (index : Option Expr) (value : Expr) : Option (Nat × String) :=
  if Text.foldCase field = "levelname" ∨ Text.foldCase field = "level_name" then
    levelNaming index value
  else none

/-- The names of the levels after one of them may be named. -/
def renamed (names : Nat → Option String) (given : Option (Nat × String)) (level : Nat) :
    Option String :=
  match given with
  | some (named, name) => if level = named then some name else names level
  | none => names level

/-- What an assignment to a field has to leave: a sound type, with a level named if that is what the
assignment says. -/
def Assigned (draft : TypeDraft) (given : Option (Nat × String)) (made : TypeDraft × Bool) : Prop :=
  draft.Grown made.1 ∧ (made.2 = true → made.1.nameAt = renamed draft.nameAt given)

theorem level_lt {level : Int64} (within : ¬(level < 1 || highestLevel < level) = true) :
    level.toInt.toNat - 1 < 64 := by
  simp only [Bool.or_eq_true, decide_eq_true_eq, Int64.lt_iff_toInt_lt] at within
  have highest : highestLevel.toInt = 64 := rfl
  omega

/-- What an assignment to a field can make of a type: nothing new, its modifiers if they were not
given yet, a set of modifiers that belongs to those, or the name of a level. -/
inductive Sets (draft : TypeDraft) : String → Option (Nat × String) → TypeDraft × Bool → Prop
  | nothing {field : String} {given : Option (Nat × String)} : Sets draft field given (draft, false)
  | mask (mask : ModMask) (first : draft.definition.defines maskField = false) :
      Sets draft "modifiers" none
        ({ draft with mask, definition := draft.definition.define maskField }, true)
  | entry {new : MapEntry} {made : TypeDraft} (fits : new.mods.subsetOf draft.mask = true)
      (low : new.level < 64) (adds : draft.AddsEntry new made) : Sets draft "map" none (made, true)
  | preserve {new : PreserveEntry} {made : TypeDraft} (fits : new.mods.subsetOf draft.mask = true)
      (inner : new.preserve.subsetOf new.mods = true) (adds : draft.AddsPreserve new made) :
      Sets draft "preserve" none (made, true)
  | name {field : String} {level : Nat} {name : String} {made : TypeDraft} (low : level < 64)
      (adds : draft.AddsName level name true made) :
      Sets draft field (some (level, name)) (made, true)

variable {field : String} {given : Option (Nat × String)} (index : Option Expr) (value : Expr)

theorem refuse_sets (message : String) (actions : List String) :
    Gives (draft.refuse message actions) (draft.Sets field given) :=
  .after fun _ => .pure .nothing

theorem clip_fits (mods : ModMask) (message : String) :
    Gives (draft.clip modifiers mods message) (·.subsetOf draft.mask = true) := by
  simp only [clip]
  refine .ite (fun fits => .pure fits) fun _ => .after fun _ => ?_
  exact .noted (ModMask.intersect_subsetOf mods draft.mask)

theorem setModifiers_sets :
    Gives (draft.setModifiers modifiers index value) (draft.Sets "modifiers" none) := by
  simp only [setModifiers]
  -- The warning about the subscript makes no difference.
  refine .ite (fun _ => .after fun _ => ?_) fun _ => ?_ <;>
  · split
    · exact refuse_sets _ _
    · refine .ite (fun _ => .after fun _ => .pure .nothing) fun first => ?_
      exact .pure (.mask _ (by simpa using first))

theorem setEntry_sets :
    Gives (draft.setEntry modifiers index value) (draft.Sets "map" none) := by
  simp only [setEntry]
  split
  · exact refuse_sets _ _
  · exact refuse_sets _ _
  · refine .bind (clip_fits modifiers _ _) fun mods fits => ?_
    split
    · exact refuse_sets _ _
    · refine .ite (fun _ => refuse_sets _ _) fun within => ?_
      refine .bind (addEntry_adds modifiers _ true true) fun made adds => ?_
      exact .pure (.entry fits (level_lt within) adds)

theorem setPreserve_sets :
    Gives (draft.setPreserve modifiers index value) (draft.Sets "preserve" none) := by
  simp only [setPreserve]
  split
  · exact refuse_sets _ _
  · exact refuse_sets _ _
  · refine .bind (clip_fits modifiers _ _) fun mods fits => ?_
    split
    · exact refuse_sets _ _
    · rename_i preserve _
      have inner := ModMask.intersect_subsetOf preserve mods
      have added : Gives (do
          return (← draft.addPreserve modifiers ⟨mods, preserve.intersect mods⟩ true true, true))
          (draft.Sets "preserve" none) :=
        .bind (addPreserve_adds modifiers _ true true) fun made adds =>
          .pure (.preserve fits inner adds)
      exact .after fun _ => .ite (fun _ => .after fun _ => added) fun _ => added

theorem setName_sets :
    Gives (draft.setName index value) (draft.Sets field (levelNaming index value)) := by
  simp only [setName]
  split
  · exact refuse_sets _ _
  · exact refuse_sets _ _
  · rename_i level indexed
    refine .ite (fun _ => refuse_sets _ _) fun within => ?_
    split
    · exact refuse_sets _ _
    · rename_i name text
      have named : levelNaming index value = some (level.toInt.toNat - 1, name) := by
        simp only [levelNaming, indexed, text, if_neg within]
      rw [named]
      exact .bind (addLevelName_adds _ name true) fun made adds =>
        .pure (.name (level_lt within) adds)

theorem setField_sets (field : String) :
    Gives (draft.setField modifiers field index value)
      (draft.Sets (Text.foldCase field) (naming field index value)) := by
  simp only [setField]
  split
  · rename_i known
    simpa [naming, known] using setModifiers_sets modifiers index value
  · rename_i known
    simpa [naming, known] using setEntry_sets modifiers index value
  · rename_i known
    simpa [naming, known] using setPreserve_sets modifiers index value
  · rename_i known
    simpa [naming, known] using setName_sets index value
  · rename_i known
    simpa [naming, known] using setName_sets index value
  · exact refuse_sets _ _

theorem Sets.assigned (sound : draft.Sound) {made : TypeDraft × Bool}
    (sets : draft.Sets field given made) : draft.Assigned given made := by
  cases sets with
  | nothing => exact ⟨⟨sound, rfl⟩, nofun⟩
  | mask mask =>
    exact ⟨⟨⟨sound.distinct, sound.below, sound.least, sound.most, sound.preserved, sound.named⟩,
      rfl⟩, fun _ => rfl⟩
  | entry _ low adds =>
    obtain ⟨grown, names⟩ := adds.grows sound low
    exact ⟨grown, fun _ => names⟩
  | preserve _ inner adds =>
    obtain ⟨grown, names⟩ := adds.grows sound inner
    exact ⟨grown, fun _ => names⟩
  | name low adds =>
    obtain ⟨grown, names⟩ := adds.grows sound low
    exact ⟨grown, fun _ => funext fun other => by simp [names, renamed]⟩

/-- The entries of a type with some levels that fit together. -/
structure EntriesFit (levels : Nat) (entries : List TypeEntry) : Prop where
  distinct : (entries.map TypeEntry.mods).Nodup
  below : ∀ entry ∈ entries, entry.level < levels
  preserved : ∀ entry ∈ entries, entry.preserve.subsetOf entry.mods = true

theorem attach_fit {levels : Nat} (least : 1 ≤ levels) {entries : List TypeEntry}
    (fit : EntriesFit levels entries) {known : PreserveEntry}
    (subset : known.preserve.subsetOf known.mods = true) :
    EntriesFit levels (attach entries known) := by
  simp only [attach]
  split
  · refine ⟨?_, fun entry member => ?_, fun entry member => ?_⟩
    · rw [map_changeFirst]
      · exact fit.distinct
      · exact fun _ _ => rfl
    · rcases mem_changeFirst member with old | ⟨old, oldMember, -, rfl⟩
      · exact fit.below entry old
      · exact fit.below old oldMember
    · rcases mem_changeFirst member with old | ⟨old, -, found, rfl⟩
      · exact fit.preserved entry old
      · have same : old.mods = known.mods := by simpa using found
        simpa [same] using subset
  · rename_i missing
    have fresh : known.mods ∉ entries.map TypeEntry.mods := by
      intro member
      obtain ⟨entry, here, same⟩ := List.mem_map.mp member
      exact missing (List.any_eq_true.mpr ⟨entry, here, by simpa using same⟩)
    refine ⟨?_, fun entry member => ?_, fun entry member => ?_⟩
    · exact nodup_map_concat fit.distinct fresh
    · rcases List.mem_append.mp member with old | last
      · exact fit.below entry old
      · rw [List.mem_singleton.mp last]
        exact least
    · rcases List.mem_append.mp member with old | last
      · exact fit.preserved entry old
      · rw [List.mem_singleton.mp last]
        exact subset

theorem finish_wellFormed (sound : draft.Sound) : draft.finish.WellFormed := by
  have start : EntriesFit draft.levels ((draft.entries.filter (·.level != 0)).map fun entry =>
      ⟨entry.mods, entry.level, .empty⟩) := by
    refine ⟨?_, ?_, ?_⟩
    · rw [List.map_map]
      exact sound.distinct.sublist (List.filter_sublist.map MapEntry.mods)
    · simp only [List.mem_map, List.mem_filter]
      rintro _ ⟨entry, ⟨member, -⟩, rfl⟩
      exact sound.below entry member
    · simp only [List.mem_map]
      rintro _ ⟨entry, -, rfl⟩
      exact ModMask.empty_subsetOf _
  have attached (preserves : List PreserveEntry) (entries : List TypeEntry)
      (fit : EntriesFit draft.levels entries)
      (subsets : ∀ known ∈ preserves, known.preserve.subsetOf known.mods = true) :
      EntriesFit draft.levels (preserves.foldl attach entries) := by
    induction preserves generalizing entries with
    | nil => exact fit
    | cons known rest ih =>
      have next := attach_fit sound.least fit (subsets known (by simp))
      exact ih _ next fun known member => subsets known (by simp [member])
  have fit := attached draft.preserves _ start sound.preserved
  refine ⟨fit.distinct, fit.below, sound.least, sound.most, fit.preserved, ?_⟩
  simp only [finish, List.length_append, List.length_take, List.length_replicate]
  omega

theorem finish_nameAt (sound : draft.Sound) (named : draft.nameAt level = some name) :
    draft.finish.levelNames[level]? = some (some name) := by
  have found : draft.levelNames[level]? = some (some name) := by
    simpa [nameAt, Option.join_eq_some_iff] using named
  obtain ⟨within, -⟩ := List.getElem?_eq_some_iff.mp found
  have := sound.named
  simp only [finish]
  rw [List.getElem?_append_left (by simp; omega), List.getElem?_take_of_lt (by omega), found]

/-- A later stage of the same type that has all the names of the earlier one. -/
structure Completes (old new : TypeDraft) : Prop extends Grown old new where
  keeps : ∀ level name, old.nameAt level = some name → new.nameAt level = some name

namespace Completes

variable {first second third : TypeDraft}

theorem refl (sound : first.Sound) : first.Completes first :=
  ⟨⟨sound, rfl⟩, fun _ _ found => found⟩

theorem trans (early : first.Completes second) (late : second.Completes third) :
    first.Completes third :=
  ⟨⟨late.sound, late.name.trans early.name⟩, fun level name found =>
    late.keeps level name (early.keeps level name found)⟩

end Completes

end TypeDraft

namespace Assignment

/-- Whether an assignment in a body is for what the body belongs to, and not for what others start
out with. -/
def isOwn (assigned : Assignment) : Bool :=
  match assigned.target with
  | some (.fieldRef ..) => false
  | _ => true

/-- The field of its type that an assignment in a body sets, unless it is about what types start out
with. -/
def ownField (assigned : Assignment) : Option String :=
  match assigned.target with
  | none | some (.fieldRef ..) => none
  | some target =>
    match target.toTarget with
    | .ok target => some (Text.foldCase target.field)
    | .error _ => none

/-- The field that an assignment sets of what types start out with. -/
def defaultField (assigned : Assignment) : Option String :=
  match assigned.target.map Expr.toTarget with
  | some (.ok ⟨some element, field, _⟩) =>
    if Text.sameName element "type" then some (Text.foldCase field) else none
  | _ => none

end Assignment

/-- The level and the name that an assignment in the body of a type gives it. -/
def bodyNaming (assigned : Assignment) : Option (Nat × String) :=
  match assigned.target with
  | none | some (.fieldRef ..) => none
  | some target =>
    match target.toTarget, assigned.value with
    | .ok target, some value => TypeDraft.naming target.field target.index value
    | _, _ => none

/-- The last name that the body of a type gives to a level, from 0. -/
def lastName : List Assignment → Nat → Option String
  | [], _ => none
  | assigned :: rest, level =>
    lastName rest level <|> TypeDraft.renamed (fun _ => none) (bodyNaming assigned) level

namespace TypeContents

/-- A type comes from a definition that is at hand, and has the names that this gives. -/
def Defined (supplied : Statement → Prop) (draft : TypeDraft) : Prop :=
  ∃ merge body, supplied (.keyType merge draft.name body) ∧
    ∀ level name, lastName body level = some name → draft.nameAt level = some name

/-- Contents of a types section from which a well-formed table is made. -/
structure Sound (supplied : Statement → Prop) (contents : TypeContents) : Prop where
  types : ∀ draft ∈ contents.types, draft.Sound
  canonical : ∀ draft ∈ contents.types, ∀ levels, canonicalLevels draft.name = some levels →
    draft.levels = levels
  defined : ∀ draft ∈ contents.types, Defined supplied draft
  distinct : (contents.types.map TypeDraft.name).Nodup
  base : contents.base.Sound

variable {supplied : Statement → Prop} {base new draft : TypeDraft}

/-- A section without types is sound, whatever its types start out with. -/
theorem Sound.ofBase (sound : base.Sound) : Sound supplied ⟨[], base⟩ :=
  ⟨by simp, by simp, by simp, by simp, sound⟩

variable {contents : TypeContents} (modifiers : VirtualModifiers)

theorem Sound.withBase (sound : contents.Sound supplied) (baseSound : base.Sound) :
    Sound supplied { contents with base } :=
  ⟨sound.types, sound.canonical, sound.defined, sound.distinct, baseSound⟩

theorem canonicalLevels_le {name : String} {levels : Nat}
    (canonical : canonicalLevels name = some levels) : levels ≤ 2 := by
  simp only [canonicalLevels] at canonical
  split at canonical <;> simp only [Option.some.injEq, reduceCtorEq] at canonical <;> omega

theorem widen_sound (sound : new.Sound)
    (allowed : (canonicalLevels new.name).filter (· < new.levels) = none) :
    TypeDraft.Sound { new with levels := (canonicalLevels new.name).getD new.levels } := by
  cases canonical : canonicalLevels new.name with
  | none => exact sound
  | some required =>
    have enough : new.levels ≤ required := by simpa [canonical] using allowed
    have few := canonicalLevels_le canonical
    refine ⟨sound.distinct, fun entry member => ?_, ?_, ?_, sound.preserved, ?_⟩
    · exact Nat.lt_of_lt_of_le (sound.below entry member) enough
    · exact Nat.le_trans sound.least enough
    · exact Nat.le_trans few (by decide)
    · exact Nat.le_trans sound.named enough

theorem Sound.withTypes (sound : contents.Sound supplied) {types : List TypeDraft}
    (newSound : new.Sound)
    (canonical : ∀ levels, canonicalLevels new.name = some levels → new.levels = levels)
    (defined : Defined supplied new) (distinct : (types.map TypeDraft.name).Nodup)
    (known : ∀ draft ∈ types, draft ∈ contents.types ∨ draft = new) :
    Sound supplied { contents with types } := by
  refine ⟨fun draft member => ?_, fun draft member => ?_, fun draft member => ?_, distinct,
    sound.base⟩ <;> rcases known draft member with old | rfl
  · exact sound.types draft old
  · exact newSound
  · exact sound.canonical draft old
  · exact canonical
  · exact sound.defined draft old
  · exact defined

/-- What adding a type can make of a section: nothing new, or the types that were there beside the
new one, with the levels that its name asks for. -/
def AddsType (contents : TypeContents) (new : TypeDraft) (made : TypeContents) : Prop :=
  made = contents ∨ (canonicalLevels new.name).filter (· < new.levels) = none ∧ ∃ types,
    made = { contents with types } ∧
      ((contents.types.map TypeDraft.name).Nodup → (types.map TypeDraft.name).Nodup) ∧
      ∀ draft ∈ types, draft ∈ contents.types ∨
        draft = { new with levels := (canonicalLevels new.name).getD new.levels }

theorem addType_adds (contents : TypeContents) (new : TypeDraft) :
    Gives (contents.addType new) fun made => contents.AddsType new made.1 := by
  simp only [addType]
  split
  · exact .after fun _ => .pure (.inl rfl)
  · rename_i allowed
    split
    · -- A new name goes to the end of the list.
      rename_i missing
      refine .pure (.inr ⟨allowed, _, rfl, fun distinct => ?_, fun draft member => ?_⟩)
      · have fresh : new.name ∉ contents.types.map TypeDraft.name := by
          simpa [List.find?_eq_none] using missing
        exact nodup_map_concat distinct fresh
      · simpa using member
    · refine .after fun level => .ite (fun _ => .noted ?_) fun _ => ?_
      · -- A known name keeps its place.
        refine .inr ⟨allowed, _, rfl, fun distinct => ?_, fun draft member => ?_⟩
        · rw [map_changeFirst]
          · exact distinct
          · intro draft named
            exact (by simpa using named : draft.name = new.name).symm
        · rcases mem_changeFirst member with old | ⟨-, -, -, rfl⟩
          · exact .inl old
          · exact .inr rfl
      · exact .noted (.inl rfl)

theorem addType_sound (sound : contents.Sound supplied) (newSound : new.Sound)
    (defined : Defined supplied new) :
    Gives (contents.addType new) fun made => made.1.Sound supplied := by
  refine (addType_adds contents new).mono fun made adds => ?_
  rcases adds with same | ⟨allowed, types, same, distinct, known⟩ <;> rw [same]
  · exact sound
  · have canonical (levels : Nat) (known : canonicalLevels new.name = some levels) :
        (canonicalLevels new.name).getD new.levels = levels := by simp [known]
    exact sound.withTypes (widen_sound newSound allowed) canonical defined
      (distinct sound.distinct) known

/-- What an assignment to what types start out with can make of a section. -/
def SetsBase (contents : TypeContents) (assigned : Assignment) (made : TypeContents) : Prop :=
  made = contents ∨ ∃ field given next, assigned.defaultField = some field ∧
    contents.base.Sets field given next ∧ made = { contents with base := next.1 }

theorem handleAssignment_sets (contents : TypeContents) (assigned : Assignment) :
    Gives (contents.handleAssignment modifiers assigned) fun made =>
      contents.SetsBase assigned made.1 := by
  have refused (message : String) (actions : List String) :
      Gives (do Report.error message actions; return (contents, false) : Report _)
        fun made => contents.SetsBase assigned made.1 :=
    .after fun _ => .pure (.inl rfl)
  simp only [handleAssignment]
  split
  · exact refused _ _
  · exact refused _ _
  · rename_i target targeted
    split
    · exact refused _ _
    · exact refused _ _
    · rename_i value element _ named
      refine .ite (fun same => ?_) fun _ => refused _ _
      have field : assigned.defaultField = some (Text.foldCase target.field) := by
        obtain ⟨_, field, index⟩ := target
        cases named
        simp [Assignment.defaultField, targeted, same]
      refine .bind (TypeDraft.setField_sets modifiers _ _ _) fun made sets => .pure ?_
      exact .inr ⟨_, _, made, field, sets, rfl⟩

theorem SetsBase.sound (sound : contents.Sound supplied) {assigned : Assignment}
    {made : TypeContents} (sets : contents.SetsBase assigned made) : made.Sound supplied := by
  rcases sets with rfl | ⟨field, given, next, -, sets, rfl⟩
  · exact sound
  · exact sound.withBase (sets.assigned sound.base).1.sound

/-- What an assignment in a body can make of a section and of the type. -/
inductive SetsIn (contents : TypeContents) (draft : TypeDraft) (assigned : Assignment) :
    (TypeContents × TypeDraft) × Bool → Prop
  | nothing : SetsIn contents draft assigned ((contents, draft), false)
  | base {made : TypeContents} {right : Bool} (other : assigned.ownField = none)
      (unnamed : bodyNaming assigned = none) (sets : contents.SetsBase assigned made) :
      SetsIn contents draft assigned ((made, draft), right)
  | own {field : String} {made : TypeDraft × Bool} (own : assigned.ownField = some field)
      (sets : draft.Sets field (bodyNaming assigned) made) :
      SetsIn contents draft assigned ((contents, made.1), made.2)

theorem handleBodyAssignment_sets (contents : TypeContents) (draft : TypeDraft)
    (assigned : Assignment) :
    Gives (contents.handleBodyAssignment modifiers draft assigned)
      (contents.SetsIn draft assigned) := by
  have refused (message : String) :
      Gives (do Report.error message []; return ((contents, draft), false) : Report _)
        (contents.SetsIn draft assigned) :=
    .after fun _ => .pure .nothing
  simp only [handleBodyAssignment]
  split
  · exact refused _
  · -- A field of an element is a default, as it is outside of a body.
    rename_i target
    refine .bind (handleAssignment_sets modifiers contents assigned) fun made sets => ?_
    exact Gives.pure (.base (by simp [Assignment.ownField, target]) (by simp [bodyNaming, target])
      sets)
  · rename_i target other targeted
    split
    · exact refused _
    · exact refused _
    · rename_i resolved value resolves valued
      have own : assigned.ownField = some (Text.foldCase resolved.field) := by
        simp only [Assignment.ownField, targeted, resolves]
      have names : bodyNaming assigned
          = TypeDraft.naming resolved.field resolved.index value := by
        simp only [bodyNaming, targeted, resolves, valued]
      refine .bind (TypeDraft.setField_sets modifiers _ _ _) fun made sets => ?_
      exact .pure (.own own (names ▸ sets))

/-- What the body of a type has made: sound contents and a later stage of the type, with the last
names that the body gives if nothing in it is wrong. -/
def Read (supplied : Statement → Prop) (draft : TypeDraft) (names : Nat → Option String)
    (made : (TypeContents × TypeDraft) × Bool) : Prop :=
  made.1.1.Sound supplied ∧ draft.Grown made.1.2 ∧ (made.2 = true → made.1.2.nameAt = names)

theorem SetsIn.read (sound : contents.Sound supplied) (draftSound : draft.Sound)
    {assigned : Assignment} {made : (TypeContents × TypeDraft) × Bool}
    (sets : contents.SetsIn draft assigned made) :
    Read supplied draft (TypeDraft.renamed draft.nameAt (bodyNaming assigned)) made := by
  cases sets with
  | nothing => exact ⟨sound, ⟨draftSound, rfl⟩, nofun⟩
  | base _ unnamed sets =>
    rw [unnamed]
    exact ⟨sets.sound sound, ⟨draftSound, rfl⟩, fun _ => rfl⟩
  | own _ sets => exact ⟨sound, sets.assigned draftSound⟩

theorem renamed_lastName (names : Nat → Option String) (assigned : Assignment)
    (rest : List Assignment) (level : Nat) :
    (lastName rest level).or (TypeDraft.renamed names (bodyNaming assigned) level)
      = (lastName (assigned :: rest) level).or (names level) := by
  simp only [lastName, TypeDraft.renamed]
  cases lastName rest level with
  | some name => rfl
  | none =>
    cases bodyNaming assigned with
    | none => rfl
    | some given =>
      dsimp only
      split <;> rfl

theorem handleBody_read (body : List Assignment) (sound : contents.Sound supplied)
    (draftSound : draft.Sound) :
    Gives (handleBody modifiers body contents draft)
      (Read supplied draft fun level => (lastName body level).or (draft.nameAt level)) := by
  induction body generalizing contents draft with
  | nil => exact .pure ⟨sound, ⟨draftSound, rfl⟩, fun _ => rfl⟩
  | cons assigned rest ih =>
    refine .bind (handleBodyAssignment_sets modifiers contents draft assigned) ?_
    rintro ⟨⟨contents, next⟩, right⟩ sets
    obtain ⟨nextSound, grown, named⟩ := sets.read sound draftSound
    refine .ite (fun _ => .pure ⟨nextSound, grown, nofun⟩) fun wrong => ?_
    have right : right = true := by simpa using wrong
    -- The names so far are what the rest of the body may replace.
    refine (ih nextSound grown.sound).mono fun made read => ?_
    refine ⟨read.1, ⟨read.2.1.sound, read.2.1.name.trans grown.name⟩, fun fine => ?_⟩
    rw [read.2.2 fine, named right]
    exact funext (renamed_lastName draft.nameAt assigned rest)

/-- What holds of a type before it is completed and is kept by each addition holds in the end. -/
theorem complete_keeps {holds : TypeDraft → Prop} (start : holds draft)
    (entries : ∀ made next, ∀ new ∈ base.entries, holds made → made.mask = draft.mask →
      new.mods.subsetOf draft.mask = true → made.AddsEntry new next → holds next)
    (preserves : ∀ made next, ∀ new ∈ base.preserves, holds made → made.mask = draft.mask →
      new.mods.subsetOf draft.mask = true → made.AddsPreserve new next → holds next)
    (names : ∀ made next level name, holds made → level < made.levels →
      made.AddsName level name false next → holds next) :
    Gives (complete modifiers base draft) holds := by
  -- What is to be added is chosen by the mask, which is carried along since it never changes.
  have first : Gives ((base.entries.filter (·.mods.subsetOf draft.mask)).foldlM
      (fun draft entry => draft.addEntry modifiers entry false false) draft)
      fun made => holds made ∧ made.mask = draft.mask := by
    refine .foldlM ⟨start, rfl⟩ fun made new member ⟨known, same⟩ => ?_
    obtain ⟨listed, fits⟩ := List.mem_filter.mp member
    refine (TypeDraft.addEntry_adds modifiers new false false).mono fun next adds => ?_
    refine ⟨entries made next new listed known same fits adds, ?_⟩
    rcases adds with rfl | ⟨_, rfl, -⟩ <;> exact same
  refine .bind first fun second ⟨early, masked⟩ => ?_
  rw [masked]
  have later : Gives ((base.preserves.filter (·.mods.subsetOf draft.mask)).foldlM
      (fun draft known => draft.addPreserve modifiers known false false) second)
      fun made => holds made ∧ made.mask = draft.mask := by
    refine .foldlM ⟨early, masked⟩ fun made new member ⟨known, same⟩ => ?_
    obtain ⟨listed, fits⟩ := List.mem_filter.mp member
    refine (TypeDraft.addPreserve_adds modifiers new false false).mono fun next adds => ?_
    refine ⟨preserves made next new listed known same fits adds, ?_⟩
    obtain ⟨_, rfl, -⟩ := adds
    exact same
  refine .bind later fun third ⟨most, _⟩ => ?_
  refine .foldlM most fun made named _ known => ?_
  obtain ⟨name, level⟩ := named
  cases name with
  | none => exact .pure known
  | some name =>
    refine .ite (fun within => ?_) fun _ => .pure known
    exact (TypeDraft.addLevelName_adds level name false).mono fun next =>
      names made next level name known within

theorem complete_completes (baseSound : base.Sound) (sound : draft.Sound) :
    Gives (complete modifiers base draft) draft.Completes := by
  refine complete_keeps modifiers (.refl sound) ?_ ?_ ?_
  · intro made next new listed known _ _ adds
    have low := Nat.lt_of_lt_of_le (baseSound.below new listed) baseSound.most
    obtain ⟨grown, names⟩ := adds.grows known.sound low
    exact known.trans ⟨grown, fun level name found => names ▸ found⟩
  · intro made next new listed known _ _ adds
    obtain ⟨grown, names⟩ := adds.grows known.sound (baseSound.preserved new listed)
    exact known.trans ⟨grown, fun level name found => names ▸ found⟩
  · intro made next level name known within adds
    obtain ⟨grown, names⟩ := adds.grows known.sound (Nat.lt_of_lt_of_le within known.sound.most)
    refine known.trans ⟨grown, fun other old found => ?_⟩
    -- A name that was there stays, since this one may not replace it.
    rw [names, if_neg]
    · exact found
    · rintro ⟨rfl, replaces | missing⟩
      · simp at replaces
      · simp [found] at missing

theorem handleType_sound (sound : contents.Sound supplied) (header : Header)
    (mode merge : MergeMode) (name : String) (body : List Assignment)
    (known : supplied (.keyType merge name body)) :
    Gives (contents.handleType modifiers header mode name body)
      fun made => made.1.Sound supplied := by
  have fresh : TypeDraft.Sound
      { TypeDraft.start name header.origin mode with mask := contents.base.mask } := by
    constructor <;> simp [TypeDraft.start]
  refine .bind (handleBody_read modifiers body sound fresh) ?_
  rintro ⟨⟨contents, draft⟩, right⟩ ⟨nextSound, grown, named⟩
  refine .ite (fun _ => .pure nextSound) fun wrong => ?_
  have right : right = true := by simpa using wrong
  refine .bind (complete_completes modifiers nextSound.base grown.sound) fun made late => ?_
  refine addType_sound nextSound late.sound ⟨merge, body, ?_, fun level given last => ?_⟩
  · rw [late.name, grown.name]
    exact known
  · have names := congrFun (named right) level
    simp only [last] at names
    exact late.keeps level given names

theorem handle_sound (sound : contents.Sound supplied) (header : Header) (mode : MergeMode)
    {statement : Statement} (known : supplied statement) :
    Gives (contents.handle modifiers header mode statement)
      fun made => made.1.Sound supplied := by
  cases statement with
  | keyType merge name body =>
    exact handleType_sound modifiers sound header (merge.or mode) merge name body known
  | assignment assigned =>
    exact (handleAssignment_sets modifiers contents assigned).mono fun _ sets => sets.sound sound
  | _ => exact .after fun _ => .pure sound

theorem absorb_sound (mode : MergeMode) {new old : TypeContents} (newSound : new.Sound supplied)
    (oldSound : old.Sound supplied) :
    Gives (absorb mode new old) fun made => made.1.Sound supplied := by
  refine .foldlM oldSound fun made draft member sound => ?_
  have known := newSound.types draft member
  have remade : TypeDraft.Sound { draft with definition := draft.definition.inMode mode } :=
    ⟨known.distinct, known.below, known.least, known.most, known.preserved, known.named⟩
  exact .bind (addType_sound sound remade (newSound.defined draft member)) fun next nextSound =>
    .pure nextSound

/-- Whatever is read, the contents of a types section stay sound. -/
theorem maintains_sound (supplied : Statement → Prop) :
    Maintains TypeContents supplied (Sound supplied) where
  empty := .ofBase (TypeDraft.start_sound _ _ _)
  forTerm _ _ sound := .ofBase sound.base
  builtin _ _ _ _ built := nomatch built
  handle scope header mode _ _ known sound := handle_sound scope.modifiers sound header mode known
  absorb _ mode _ _ _ newSound oldSound := absorb_sound mode newSound oldSound

end TypeContents

/-- The names and levels of the types that every table starts with. -/
def canonicalHeads : List (String × Nat) :=
  [("ONE_LEVEL", 1), ("TWO_LEVEL", 2), ("ALPHABETIC", 2), ("KEYPAD", 2)]

/-- A table of key types that starts with the canonical ones and in which each name stands for one
well-formed type. -/
structure TypeTable.WellFormed (table : TypeTable) : Prop where
  canonical : (table.types.take 4).map (fun type => (type.name, type.levels)) = canonicalHeads
  distinct : (table.types.map KeyType.name).Nodup
  each : ∀ type ∈ table.types, type.WellFormed

variable {head : (String × Nat) × Nat}

theorem canonicalType_wellFormed (modifiers : VirtualModifiers)
    (member : head ∈ canonicalHeads.zipIdx) :
    (canonicalType head.2 modifiers).WellFormed ∧
      ((canonicalType head.2 modifiers).name, (canonicalType head.2 modifiers).levels) = head.1 := by
  simp only [canonicalHeads, List.zipIdx_cons, List.zipIdx_nil, List.mem_cons, List.not_mem_nil,
    or_false] at member
  rcases member with rfl | rfl | rfl | rfl
  · refine ⟨?_, rfl⟩
    constructor <;> simp [canonicalType]
  · refine ⟨?_, rfl⟩
    constructor <;> simp [canonicalType, ModMask.empty_subsetOf]
  · refine ⟨?_, rfl⟩
    constructor <;> simp [canonicalType, ModMask.empty_subsetOf] <;> decide
  · simp only [canonicalType]
    split
    · refine ⟨?_, rfl⟩
      constructor <;> simp [ModMask.empty_subsetOf]
    · -- The virtual modifier is not `Shift`, whichever slot it has.
      refine ⟨?_, rfl⟩
      constructor <;> simp [ModMask.empty_subsetOf, ModMask.shift, bit8]

theorem canonicalLevels_head (member : head ∈ canonicalHeads.zipIdx) :
    canonicalLevels head.1.1 = some head.1.2 := by
  simp only [canonicalHeads, List.zipIdx_cons, List.zipIdx_nil, List.mem_cons, List.not_mem_nil,
    or_false] at member
  rcases member with rfl | rfl | rfl | rfl <;> rfl

namespace TypeContents

variable {supplied : Statement → Prop} {contents : TypeContents}

/-- The type in the place of a canonical one: the one that is defined, else one that is made up. -/
def slot (contents : TypeContents) (modifiers : VirtualModifiers)
    (head : (String × Nat) × Nat) : KeyType :=
  ((contents.types.map TypeDraft.finish).find? (·.name == head.1.1)).getD
    (canonicalType head.2 modifiers)

/-- The types beside the canonical ones, in order. -/
def others (contents : TypeContents) : List KeyType :=
  (contents.types.filter fun draft => !canonicalTypeNames.contains draft.name).map TypeDraft.finish

/-- A table is made of the canonical types and the others. -/
theorem finish_eq (contents : TypeContents) (modifiers : VirtualModifiers) :
    contents.finish modifiers
      = canonicalHeads.zipIdx.map (contents.slot modifiers) ++ contents.others := by
  have filtered : (contents.types.map TypeDraft.finish).filter
      (fun type => !canonicalTypeNames.contains type.name) = contents.others := by
    rw [List.filter_map]
    rfl
  rw [← filtered]
  rfl

theorem slot_wellFormed (sound : contents.Sound supplied) (modifiers : VirtualModifiers)
    {head : (String × Nat) × Nat} (member : head ∈ canonicalHeads.zipIdx) :
    (contents.slot modifiers head).WellFormed ∧
      ((contents.slot modifiers head).name, (contents.slot modifiers head).levels) = head.1 := by
  simp only [slot]
  cases found : (contents.types.map TypeDraft.finish).find? (·.name == head.1.1) with
  | none => exact canonicalType_wellFormed modifiers member
  | some type =>
    have named : type.name = head.1.1 := by simpa using List.find?_some found
    obtain ⟨draft, known, rfl⟩ := List.mem_map.mp (List.mem_of_find?_eq_some found)
    have levels := sound.canonical draft known head.1.2
      (named ▸ canonicalLevels_head member : canonicalLevels draft.finish.name = _)
    exact ⟨draft.finish_wellFormed (sound.types draft known), Prod.ext named levels⟩

/-- The table that is made of sound contents is well-formed. -/
theorem finish_wellFormed (sound : contents.Sound supplied) (modifiers : VirtualModifiers)
    (name : Option String) : TypeTable.WellFormed ⟨name, contents.finish modifiers⟩ := by
  have heads : (canonicalHeads.zipIdx.map (contents.slot modifiers)).map
      (fun type => (type.name, type.levels)) = canonicalHeads := by
    rw [List.map_map]
    calc canonicalHeads.zipIdx.map _
        = canonicalHeads.zipIdx.map Prod.fst := List.map_congr_left fun head member =>
          (slot_wellFormed sound modifiers member).2
      _ = canonicalHeads := rfl
  have names : (canonicalHeads.zipIdx.map (contents.slot modifiers)).map KeyType.name
      = canonicalTypeNames := by
    have firsts := congrArg (List.map Prod.fst) heads
    rw [List.map_map] at firsts
    exact firsts
  refine ⟨?_, ?_, ?_⟩
  · rw [finish_eq, List.take_append_of_le_length (by simp [canonicalHeads]),
      List.take_of_length_le (by simp [canonicalHeads])]
    exact heads
  · rw [finish_eq, List.map_append, names, List.nodup_append]
    refine ⟨by decide, ?_, ?_⟩
    · simp only [others, List.map_map]
      exact sound.distinct.sublist (List.filter_sublist.map TypeDraft.name)
    · -- The other types are those that have no canonical name.
      rintro known canonical other member rfl
      obtain ⟨type, listed, rfl⟩ := List.mem_map.mp member
      obtain ⟨draft, kept, rfl⟩ := List.mem_map.mp listed
      have apart := (List.mem_filter.mp kept).2
      simp only [Bool.not_eq_true', List.contains_eq_mem, decide_eq_false_iff_not] at apart
      exact apart canonical
  · intro type member
    rw [finish_eq] at member
    rcases List.mem_append.mp member with first | other
    · obtain ⟨head, known, rfl⟩ := List.mem_map.mp first
      exact (slot_wellFormed sound modifiers known).1
    · obtain ⟨draft, kept, rfl⟩ := List.mem_map.mp other
      exact draft.finish_wellFormed (sound.types draft (List.mem_filter.mp kept).1)

theorem mem_finish (sound : contents.Sound supplied) (modifiers : VirtualModifiers)
    {draft : TypeDraft} (member : draft ∈ contents.types) :
    draft.finish ∈ contents.finish modifiers := by
  rw [finish_eq, List.mem_append]
  by_cases canonical : canonicalTypeNames.contains draft.name
  · -- The place of a canonical type goes to the one that has its name.
    left
    obtain ⟨head, known, named⟩ : ∃ head ∈ canonicalHeads.zipIdx, head.1.1 = draft.name := by
      have names : canonicalTypeNames = canonicalHeads.zipIdx.map (·.1.1) := rfl
      rw [names, List.contains_iff_mem] at canonical
      exact List.mem_map.mp canonical
    refine List.mem_map.mpr ⟨head, known, ?_⟩
    have finished : draft.finish ∈ contents.types.map TypeDraft.finish := List.mem_map_of_mem member
    cases found : (contents.types.map TypeDraft.finish).find? (·.name == head.1.1) with
    | none =>
      have missing := List.find?_eq_none.mp found _ finished
      simp [named, TypeDraft.finish] at missing
    | some type =>
      have typeNamed : type.name = head.1.1 := by simpa using List.find?_some found
      obtain ⟨other, otherMember, rfl⟩ := List.mem_map.mp (List.mem_of_find?_eq_some found)
      have same : other = draft :=
        eq_of_key_eq sound.distinct otherMember member (typeNamed.trans named)
      simp [slot, found, same]
  · right
    exact List.mem_map_of_mem (List.mem_filter.mpr ⟨member, by simpa using canonical⟩)

end TypeContents

namespace Assembly

/-- The table of a types section that is compiled is made of what was read. -/
theorem compilePart_types_eq {assembly : Assembly} {mode : MergeMode} {part : Section}
    (kind : part.kind = .types) (succeeds : (compilePart mode part assembly).1.isSome) :
    let read := reading TypeContents assembly mode part
    (compilePart mode part assembly).2.keymap.types
      = ⟨read.1.header.name, read.1.contents.finish read.2.modifiers⟩ := by
  rw [compilePart_types kind] at succeeds ⊢
  rw [applyPart_of_clean addTypes (clean_of_applyPart succeeds)]
  rfl

/-- A types section with one type of two levels, the second of which has a name. -/
def shiftedPart : Section :=
  ⟨.types, "basic", 0,
    [.keyType .unspecified "SHIFTED"
      [⟨.unspecified, some (.ident "modifiers"), some (.ident "Shift")⟩,
        ⟨.unspecified, some (.arrayRef none "map" (.ident "Shift")), some (.integer 2)⟩,
        ⟨.unspecified, some (.arrayRef none "level_name" (.integer 2)), some (.text "Up")⟩]], []⟩

end Assembly

end Xkb
