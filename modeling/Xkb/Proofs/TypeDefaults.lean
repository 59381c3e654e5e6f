import Xkb.Proofs.Section.TypeMasks
import Xkb.Proofs.Section.TypesAlike

/-! What types start out with beside what the body of a type says: an entry for modifiers that the
body has an entry for leaves the type as it is, unless it selects a level that the type does not
have. -/

namespace Xkb

/-- At a level of warnings, which stays as it is, a computation comes to a value with a property. -/
def AtLevel {α : Type} (level : Nat) (run : Report α) (holds : α → Prop) : Prop :=
  Leads (·.level = level) run fun value diagnostics => holds value ∧ diagnostics.level = level

namespace AtLevel

variable {α : Type} {level : Nat} {holds : α → Prop}

theorem look {next : Nat → Report α} (rest : AtLevel level (next level) holds) :
    AtLevel level (Report.level >>= next) holds := by
  rintro diagnostics rfl
  exact rest diagnostics rfl

theorem foldlM {β : Type} {step : β → α → Report β} {next : β → α → β}
    (each : ∀ value item, AtLevel level (step value item) (· = next value item)) (list : List α)
    (start : β) : AtLevel level (list.foldlM step start) (· = list.foldl next start) := by
  induction list generalizing start with
  | nil => exact fun diagnostics same => ⟨rfl, same⟩
  | cons item rest ih =>
    rw [List.foldlM_cons, List.foldl_cons]
    refine .bind (each start item) fun value => .given fun known => ?_
    rw [known]
    exact ih _

end AtLevel

namespace TypeDraft

variable {mods : ModMask} {draft : TypeDraft} {verbose : Bool} {new : MapEntry} {levels : Nat}

/-- The type with room for so many levels. -/
def raise (levels : Nat) (draft : TypeDraft) : TypeDraft :=
  { draft with levels := max draft.levels levels }

/-- The type with an entry that types start out with. For modifiers that have an entry already its
level is only made room for, and not even that where repetitions are reported. -/
def withDefault (verbose : Bool) (draft : TypeDraft) (new : MapEntry) : TypeDraft :=
  if draft.entries.any (·.mods == new.mods) then
    if verbose then draft else draft.raise (new.level + 1)
  else { draft.raise (new.level + 1) with entries := draft.entries ++ [new] }

theorem addEntry_default (modifiers : VirtualModifiers) (draft : TypeDraft) (new : MapEntry)
    (level : Nat) :
    AtLevel level (draft.addEntry modifiers new false false)
      (· = draft.withDefault (9 < level) new) := by
  cases found : draft.entries.find? (·.mods == new.mods) with
  | none =>
    have absent : draft.entries.any (·.mods == new.mods) = false := by
      simpa [List.find?_eq_none] using found
    simp only [addEntry, found, withDefault, absent]
    exact fun diagnostics same => ⟨rfl, same⟩
  | some old =>
    have present : draft.entries.any (·.mods == new.mods) = true := by
      have same := List.find?_some found
      exact List.any_eq_true.mpr ⟨old, List.mem_of_find?_eq_some found, same⟩
    simp only [addEntry, found, withDefault, present, if_true, Bool.false_and, Bool.false_eq_true,
      if_false]
    refine AtLevel.look (.ite (fun loud => ?_) fun quiet => ?_)
    · exact fun diagnostics same => ⟨(if_pos (decide_eq_true loud)).symm, same⟩
    · exact fun diagnostics same => ⟨(if_neg (by simpa using quiet)).symm, same⟩

/-- The levels that entries for some modifiers ask for, where they are not reported. -/
def neededLevels (verbose : Bool) (mods : ModMask) : List MapEntry → Nat
  | [] => 0
  | entry :: rest =>
    max (if entry.mods = mods ∧ verbose = false then entry.level + 1 else 0)
      (neededLevels verbose mods rest)

theorem neededLevels_le {list : List MapEntry} :
    neededLevels verbose mods list ≤ levels ↔
      verbose = true ∨ ∀ entry ∈ list, entry.mods = mods → entry.level < levels := by
  induction list with
  | nil => simp [neededLevels]
  | cons entry rest ih =>
    rw [neededLevels, Nat.max_le, ih, List.forall_mem_cons]
    cases verbose with
    | true => simp
    | false =>
      simp only [and_true, Bool.false_eq_true, false_or]
      refine and_congr_left fun _ => ?_
      split
      · next same => simp [same, Nat.add_one_le_iff]
      · next other => simp [other]

theorem raise_raise (more : Nat) : (draft.raise levels).raise more = draft.raise (max levels more) := by
  simp [raise, Nat.max_assoc]

theorem withDefault_raise : (draft.raise levels).withDefault verbose new
    = (draft.withDefault verbose new).raise levels := by
  have swap : ∀ more, max (max draft.levels levels) more = max (max draft.levels more) levels := by omega
  unfold withDefault raise
  split
  · cases verbose <;> simp [swap]
  · simp [swap]

/-- Entries for modifiers that have an entry already come to no more than their levels. -/
theorem foldl_withDefault (verbose : Bool) (levels : Nat) (list : List MapEntry)
    (entered : ∃ entry ∈ draft.entries, entry.mods = mods) :
    list.foldl (withDefault verbose) (draft.raise levels) =
      ((list.filter (·.mods != mods)).foldl (withDefault verbose) draft).raise
        (max levels (neededLevels verbose mods list)) := by
  induction list generalizing draft levels with
  | nil => simp [neededLevels]
  | cons new rest ih =>
    obtain ⟨entry, member, rfl⟩ := entered
    rw [List.foldl_cons, withDefault_raise, neededLevels, ← Nat.max_assoc]
    by_cases same : new.mods = entry.mods
    · have present : draft.entries.any (·.mods == new.mods) = true :=
        List.any_eq_true.mpr ⟨entry, member, by simp [same]⟩
      have filtered : (new :: rest).filter (·.mods != entry.mods) =
          rest.filter (·.mods != entry.mods) := List.filter_cons_of_neg (by simp [same])
      rw [filtered, ← ih _ ⟨entry, member, rfl⟩, withDefault, if_pos present]
      cases verbose with
      | true => simp
      | false => simp [same, raise_raise, Nat.max_comm]
    · have kept : ∃ known ∈ (draft.withDefault verbose new).entries, known.mods = entry.mods := by
        refine ⟨entry, ?_, rfl⟩
        unfold withDefault raise
        split
        · cases verbose <;> exact member
        · exact List.mem_append_left _ member
      have filtered : (new :: rest).filter (·.mods != entry.mods) =
          new :: rest.filter (·.mods != entry.mods) := List.filter_cons_of_pos (by simpa using same)
      rw [filtered, List.foldl_cons, ih _ kept, if_neg (fun both => same both.1), Nat.max_zero]

theorem raise_eq_self : draft.raise levels = draft ↔ levels ≤ draft.levels := by
  constructor
  · intro same
    have levels := congrArg TypeDraft.levels same
    simp only [raise] at levels
    omega
  · intro enough
    simp only [raise, Nat.max_eq_left enough]

end TypeDraft

namespace TypeContents

variable (modifiers : VirtualModifiers)

/-- First come the entries, at the level of warnings that all goes on at. -/
theorem complete_entries (base draft : TypeDraft) (diagnostics : Diagnostics) :
    ∃ later : Diagnostics, later.level = diagnostics.level ∧
      (complete modifiers base draft diagnostics).1 = (complete modifiers { base with entries := [] }
        ((base.entries.filter (·.mods.subsetOf draft.mask)).foldl
          (TypeDraft.withDefault (9 < diagnostics.level)) draft) later).1 := by
  obtain ⟨added, level⟩ := AtLevel.foldlM
    (fun draft new => TypeDraft.addEntry_default modifiers draft new diagnostics.level)
    (base.entries.filter (·.mods.subsetOf draft.mask)) draft diagnostics rfl
  refine ⟨_, level, ?_⟩
  rw [← added]
  rfl

/-- The names of levels and the modifiers that stay in force ask for no more levels. -/
theorem complete_levels {base draft : TypeDraft} (none : base.entries = []) :
    Gives (complete modifiers base draft) (·.levels = draft.levels) := by
  refine complete_keeps modifiers rfl ?_ ?_ ?_
  · intro made next new listed
    simp [none] at listed
  · rintro made _ new - known - - ⟨preserves, rfl, -⟩
    exact known
  · rintro made next level name known within (⟨rfl, -⟩ | ⟨rfl, -⟩)
    · exact known
    · exact (Nat.max_eq_left within).trans known

/-- Without the entries that types start out with for some modifiers a type is the same just if
they select none but levels that it has. -/
theorem complete_withoutDefault (base : TypeDraft) {draft : TypeDraft} {mods : ModMask}
    (entered : ∃ entry ∈ draft.entries, entry.mods = mods) (diagnostics : Diagnostics) :
    let plain := (complete modifiers { base with
      entries := base.entries.filter (·.mods != mods) } draft diagnostics).1
    (complete modifiers base draft diagnostics).1 = plain ↔ 9 < diagnostics.level ∨
      ∀ entry ∈ base.entries, entry.mods = mods → entry.mods.subsetOf plain.mask = true →
        entry.level < plain.levels := by
  intro plain
  have mask : plain.mask = draft.mask := (complete_extends modifiers _ draft diagnostics).mask
  let within := base.entries.filter (·.mods.subsetOf draft.mask)
  let others := (within.filter (·.mods != mods)).foldl
    (TypeDraft.withDefault (9 < diagnostics.level)) draft
  let needed := TypeDraft.neededLevels (9 < diagnostics.level) mods within
  -- The entries come to types that differ in their levels at most.
  have all : (base.entries.filter (·.mods.subsetOf draft.mask)).foldl
      (TypeDraft.withDefault (9 < diagnostics.level)) draft = others.raise needed := by
    have raised := TypeDraft.foldl_withDefault (9 < diagnostics.level) 0 within entered
    rwa [Nat.zero_max, TypeDraft.raise_eq_self.mpr (Nat.zero_le _)] at raised
  have swapped : (base.entries.filter (·.mods != mods)).filter (·.mods.subsetOf draft.mask) =
      within.filter (·.mods != mods) := List.filter_comm ..
  obtain ⟨early, earlyLevel, made⟩ := complete_entries modifiers base draft diagnostics
  obtain ⟨late, lateLevel, alone⟩ := complete_entries modifiers
    { base with entries := base.entries.filter (·.mods != mods) } draft diagnostics
  rw [all] at made
  dsimp only at alone
  rw [swapped] at alone
  have levels : plain.levels = others.levels :=
    (congrArg TypeDraft.levels alone).trans (complete_levels modifiers rfl late)
  have enough : (9 < diagnostics.level ∨ ∀ entry ∈ base.entries, entry.mods = mods →
      entry.mods.subsetOf plain.mask = true → entry.level < plain.levels) ↔
      needed ≤ others.levels := by
    rw [TypeDraft.neededLevels_le, decide_eq_true_eq, levels, mask]
    simp only [within, List.mem_filter, and_imp]
    exact or_congr_right (forall₂_congr fun _ _ => forall_comm)
  rw [enough]
  constructor
  · intro same
    have raised : plain.levels = max others.levels needed :=
      (congrArg TypeDraft.levels (same.symm.trans made)).trans (complete_levels modifiers rfl early)
    omega
  · intro fits
    rw [TypeDraft.raise_eq_self.mpr fits] at made
    -- The rest of what types start out with makes the same of one type.
    have alike : TypeDraft.MadeAlike Eq id _ _ :=
      complete_alike (fun _ _ known => known) modifiers { base with entries := [] } others
    rw [made]
    exact (alike late early (lateLevel.trans earlyLevel.symm)).1.1.trans alone.symm

variable (contents : TypeContents) (header : Header) (mode : MergeMode) (name : String)
  {body : List Assignment}

theorem handleBodyAssignment_own {assigned : Assignment} (own : assigned.isOwn = true)
    (other : TypeContents) (draft : TypeDraft) :
    contents.handleBodyAssignment modifiers draft assigned =
      (fun made => ((contents, made.1.2), made.2)) <$>
        other.handleBodyAssignment modifiers draft assigned := by
  simp only [handleBodyAssignment]
  split
  · rfl
  · next target => simp [Assignment.isOwn, target] at own
  · split <;> rfl

/-- The body of a type that is only about the type leaves the section as it was and makes the same
of the type in every section. -/
theorem handleBody_own (own : ∀ assigned ∈ body, assigned.isOwn = true) (other : TypeContents)
    (draft : TypeDraft) :
    handleBody modifiers body contents draft =
      (fun made => ((contents, made.1.2), made.2)) <$> handleBody modifiers body other draft := by
  induction body generalizing draft with
  | nil => rfl
  | cons assigned rest ih =>
    simp only [handleBody]
    rw [handleBodyAssignment_own modifiers contents (own assigned List.mem_cons_self) other]
    rw [handleBodyAssignment_own modifiers other (own assigned List.mem_cons_self) other]
    simp only [bind_map_left, map_bind]
    refine bind_congr fun made => ?_
    split
    · rfl
    · exact ih (fun assigned member => own assigned (List.mem_cons_of_mem _ member)) _

/-- The type that a body leaves, if nothing in it is wrong. -/
def bodyType (body : List Assignment) : Report (Option TypeDraft) := do
  let draft := { TypeDraft.start name header.origin mode with mask := contents.base.mask }
  let made ← handleBody modifiers body contents draft
  return if made.2 then some made.1.2 else none

/-- The type that a body makes together with what types start out with. -/
def madeType (body : List Assignment) : Report (Option TypeDraft) := do
  let draft ← contents.bodyType modifiers header mode name body
  draft.mapM (complete modifiers contents.base)

/-- Adds a type that was made. -/
def store : Option TypeDraft → Report (TypeContents × Bool)
  | none => return (contents, false)
  | some made => contents.addType made

theorem handleType_own (own : ∀ assigned ∈ body, assigned.isOwn = true) :
    contents.handleType modifiers header mode name body =
      contents.madeType modifiers header mode name body >>= contents.store := by
  simp only [handleType, madeType, bodyType]
  rw [handleBody_own modifiers contents own contents]
  simp only [bind_map_left, bind_assoc, pure_bind]
  refine bind_congr fun made => ?_
  cases made.2 <;> simp [store]

/-- A type is added to the same types in the same way, whatever the types start out with. -/
theorem addType_alone {contents other : TypeContents} (types : contents.types = other.types)
    (new : TypeDraft) :
    Alike (AtLevels fun _ _ => True) (contents.addType new) (other.addType new)
      fun made alone => made.2 = alone.2 ∧ made.1.types = alone.1.types := by
  simp only [addType, types]
  split
  · exact AtLevels.error (.pure ⟨rfl, types⟩)
  · split
    · exact .pure ⟨rfl, rfl⟩
    · refine AtLevels.level fun _ _ _ => .ite (fun _ => ?_) fun _ => ?_
      · exact AtLevels.warnIf (.pure ⟨rfl, rfl⟩)
      · exact AtLevels.warnIf (.pure ⟨rfl, types⟩)

/-- The contents without what types start out with for some modifiers. -/
def withoutDefault (mods : ModMask) : TypeContents :=
  { contents with base := { contents.base with
    entries := contents.base.entries.filter (·.mods != mods) } }

theorem bodyType_withoutDefault (own : ∀ assigned ∈ body, assigned.isOwn = true) (mods : ModMask) :
    (contents.withoutDefault mods).bodyType modifiers header mode name body =
      contents.bodyType modifiers header mode name body := by
  simp only [bodyType]
  rw [handleBody_own modifiers (contents.withoutDefault mods) own contents]
  simp only [bind_map_left]
  rfl

theorem bodyType_level (body : List Assignment) (diagnostics : Diagnostics) :
    (contents.bodyType modifiers header mode name body diagnostics).2.level = diagnostics.level := by
  have kept : Answers diagnostics.level (handleBody modifiers body contents _) _ :=
    (@handleBody_alike _ id (fun _ _ known => known.1.trans known.2.symm) modifiers body contents
      { TypeDraft.start name header.origin mode with mask := contents.base.mask }).answers
  exact (kept diagnostics rfl).1

theorem madeType_eq (body : List Assignment) (diagnostics : Diagnostics) :
    let read := contents.bodyType modifiers header mode name body diagnostics
    (contents.madeType modifiers header mode name body diagnostics).1 =
      read.1.map fun draft => (complete modifiers contents.base draft read.2).1 := by
  intro read
  change (read.1.mapM (complete modifiers contents.base) read.2).1 = _
  cases read.1 <;> rfl

/-- Where the body of a type has an entry for some modifiers, what types start out with for them
leaves the type as it is just if it selects no level beyond those that the type has without it, or if
repetitions are reported. Only then is the type sure to be accepted and stored alike. -/
theorem handleType_default_entries (own : ∀ assigned ∈ body, assigned.isOwn = true) (mods : ModMask)
    (diagnostics : Diagnostics)
    (entered : ∀ draft ∈ (contents.bodyType modifiers header mode name body diagnostics).1,
      ∃ entry ∈ draft.entries, entry.mods = mods) :
    let other := contents.withoutDefault mods
    let made := (contents.madeType modifiers header mode name body diagnostics).1
    let alone := (other.madeType modifiers header mode name body diagnostics).1
    (made = alone ↔ ∀ type ∈ alone, 9 < diagnostics.level ∨ ∀ entry ∈ contents.base.entries,
      entry.mods = mods → entry.mods.subsetOf type.mask = true → entry.level < type.levels) ∧
    (made = alone →
      let handled := (contents.handleType modifiers header mode name body diagnostics).1
      let handledAlone := (other.handleType modifiers header mode name body diagnostics).1
      handled.2 = handledAlone.2 ∧ handled.1.types = handledAlone.1.types) := by
  intro other made alone
  have level := contents.bodyType_level modifiers header mode name body diagnostics
  constructor
  · have madeEq : made = _ := contents.madeType_eq modifiers header mode name body diagnostics
    have aloneEq : alone = _ := other.madeType_eq modifiers header mode name body diagnostics
    rw [contents.bodyType_withoutDefault modifiers header mode name own mods] at aloneEq
    rw [madeEq, aloneEq]
    cases read : (contents.bodyType modifiers header mode name body diagnostics).1 with
    | none => simp
    | some draft =>
      have completed := complete_withoutDefault modifiers contents.base (entered draft read)
        (contents.bodyType modifiers header mode name body diagnostics).2
      rw [level] at completed
      simp only [Option.map_some, Option.some.injEq, Option.mem_def, forall_eq']
      exact completed
  · intro same
    have stored : ∀ type plain, type = plain → ∀ early late,
        (contents.store type early).1.2 = (other.store plain late).1.2 ∧
          (contents.store type early).1.1.types = (other.store plain late).1.1.types := by
      rintro type _ rfl early late
      cases type with
      | none => exact ⟨rfl, rfl⟩
      | some type =>
        have types : contents.types = other.types := rfl
        exact (addType_alone types type early late True.intro).1
    rw [handleType_own modifiers contents header mode name own,
      handleType_own modifiers other header mode name own]
    exact stored made alone same _ _

/-- A section whose types look at `Shift`, which selects a level by default. -/
def shiftSelects (level : Nat) : TypeContents :=
  { empty with base := { empty.base with
    mask := .shift, levels := level + 1, entries := [⟨.shift, level⟩] } }

/-- A body that lets `Shift` select the second level. -/
def shiftBody : List Assignment :=
  [⟨.override, some (.arrayRef none "map" (.ident "Shift")), some (.ident "Level2")⟩]

/-- A default for the second level changes nothing of a type that has this level. -/
theorem handleType_default_entries_second :
    let run (contents : TypeContents) :=
      (contents.handleType .empty .empty .override "TWO_LEVEL" shiftBody (.atLevel 0)).1
    (run (shiftSelects 1)).2 = true ∧
      (run (shiftSelects 1)).2 = (run ((shiftSelects 1).withoutDefault .shift)).2 ∧
      (run (shiftSelects 1)).1.types = (run ((shiftSelects 1).withoutDefault .shift)).1.types := by
  have both := handleType_default_entries .empty (shiftSelects 1) .empty .override "TWO_LEVEL"
    (show ∀ assigned ∈ shiftBody, assigned.isOwn = true by decide) .shift (.atLevel 0) (by decide)
  exact ⟨by decide, both.2 (both.1.mpr (by decide))⟩

/-- A default for the third level makes a type wrong that has two levels and sets its own entry. -/
theorem handleType_default_beyond :
    let run (contents : TypeContents) :=
      (contents.handleType .empty .empty .override "TWO_LEVEL" shiftBody (.atLevel 0)).1
    (run (shiftSelects 2)).2 = false ∧ (run ((shiftSelects 2).withoutDefault .shift)).2 = true := by
  decide +kernel

end TypeContents

end Xkb
