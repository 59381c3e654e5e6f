import Xkb.Proofs.Section.NamedCodes

/-! Keycodes that augment others: which names stay where two sections name the same code. -/

namespace Xkb

/-- What the step for one item reaches and the steps for the others keep holds at the end of a fold,
given what holds of all the values on the way. -/
theorem Gives.foldlM_reaches {σ α β : Type} {step : β → α → StateM σ β} (holds reached : β → Prop)
    {list : List α} {start : β} {item : α} (begins : holds start) (member : item ∈ list)
    (keeps : ∀ value other, holds value → Gives (step value other) holds)
    (reaches : ∀ value, holds value → Gives (step value item) reached)
    (stays : ∀ value other, other ≠ item → reached value → Gives (step value other) reached) :
    Gives (list.foldlM step start) reached := by
  -- The steps before the item keep what holds, and those behind it keep what it has reached.
  obtain ⟨before, after, rfl⟩ := List.append_of_mem member
  rw [List.foldlM_append]
  refine .bind (.foldlM begins fun value other _ => keeps value other) ?_
  intro value known
  rw [List.foldlM_cons]
  have both : Gives (step value item) fun next => holds next ∧ reached next :=
    fun state => ⟨keeps value item known state, reaches value known state⟩
  refine .bind both fun next held => ?_
  have rest : Gives (after.foldlM step next) fun last => holds last ∧ reached last := by
    refine .foldlM held ?_
    rintro value other - ⟨holding, reaching⟩ state
    refine ⟨keeps value other holding state, ?_⟩
    -- The item may come up again, which reaches the same.
    by_cases again : other = item
    · exact again ▸ reaches value holding state
    · exact stays value other again reaching state
  exact rest.mono fun _ now => now.2

namespace KeycodeContents

variable {contents new old : KeycodeContents} {code : Nat} {name : KeyName} {mode : MergeMode}

/-- The codes that a section names as alternate ones. -/
structure NamesAlternate (contents : KeycodeContents) (code : Nat) : Prop where
  covers : contents.Covers code
  named : contents.nameAt code ≠ .empty
  alternate : (contents.slotAt code).alternate = true

section Names

theorem widen_slots (new old : KeycodeContents) : (widen new old).slots = old.slots := by
  unfold widen
  extract_lets lowered
  -- Each end of the range is taken over or left, one after the other.
  have first : lowered.slots = old.slots := by
    unfold lowered
    cases new.minimum with
    | none => rfl
    | some low =>
      dsimp only
      split <;> rfl
  cases new.maximum with
  | none => exact first
  | some high =>
    dsimp only
    split <;> exact first

theorem nameAt_eq_of_slots {first second : KeycodeContents} (slots : second.slots = first.slots) :
    second.nameAt = first.nameAt := by
  funext code
  rw [nameAt, nameAt, slotAt, slotAt, slots]

theorem absorb_nameAt (mode : MergeMode) (header : Header) (new old : KeycodeContents)
    (log : Diagnostics) :
    (absorb mode header new old log).1.nameAt
      = (absorbKeys mode header.origin new old log).1.nameAt := by
  -- Behind the keys comes nothing that is about codes.
  obtain ⟨indicators, aliases, same⟩ := absorb_eq mode header new old log
  rw [same]
  exact nameAt_eq_of_slots (widen_slots new _)

theorem addKey_inBounds (small : code < 256) (name : KeyName) (mode : MergeMode) (origin : Origin)
    (mayReport : Bool) :
    Gives (contents.addKey code name mode origin mayReport) fun made =>
      made.InBounds = contents.InBounds := by
  refine addKey_of_defines rfl (fun _ => small) fun made _ extent _ => ?_
  have low : made.low = contents.low := congrArg Extent.low extent
  have high : made.high = contents.high := congrArg Extent.high extent
  funext other
  rw [InBounds, InBounds, low, high]

/-- A definition that does not override changes the name of no code but its own. -/
theorem addKey_others (small : code < 256) (keeps : mode ≠ .override) (origin : Origin)
    (mayReport : Bool) {other : Nat} (apart : other ≠ code) :
    Gives (contents.addKey code name mode origin mayReport) fun made =>
      made.nameAt other = contents.nameAt other := by
  refine addKey_of_defines rfl (fun _ => small) fun made _ _ defines => ?_
  generalize made.nameAt = names at defines
  cases defines with
  | keeps => rfl
  | takes => exact Function.update_of_ne apart _ _
  | moves _ _ overrides => exact absurd overrides keeps
  | drops => exact Function.update_of_ne apart _ _

theorem addKey_augment (small : code < 256) (named : contents.nameAt code ≠ .empty)
    (origin : Origin) (mayReport : Bool) :
    Gives (contents.addKey code name .augment origin mayReport) fun made =>
      made.nameAt code = contents.nameAt code := by
  -- The code does not give way, so there is nothing else to do.
  have stays : ¬contents.GivesWay code name .augment := by
    rintro (free | ⟨-, clobbers⟩)
    · exact named free
    · exact clobbers rfl
  refine addKey_of_defines rfl (fun _ => small) fun made _ _ defines => ?_
  generalize made.nameAt = names at defines
  cases defines with
  | keeps => rfl
  | takes givesWay => exact absurd givesWay stays
  | moves _ givesWay => exact absurd givesWay stays
  | drops _ givesWay => exact absurd givesWay stays

theorem addKey_alternate (accepted : contents.InBounds code) (small : code < 256)
    (origin : Origin) (mayReport : Bool) :
    Gives (contents.addKey code name .alternate origin mayReport) fun made =>
      made.nameAt code = name := by
  refine (addKey_defines accepted small name .alternate origin mayReport).mono ?_
  rintro made ⟨-, defines⟩
  generalize made.nameAt = names at defines
  cases defines with
  | keeps _ settled => exact settled.resolve_right MergeMode.noConfusion
  | takes => exact Function.update_self _ _ _
  | moves _ _ overrides => cases overrides
  | drops _ _ plain => exact absurd rfl plain.2

end Names

section Augmenting

variable (origin : Origin)

/-- One step of adding a section that augments: the key that it has on a code, if any. -/
def augmentKey (new contents : KeycodeContents) (code : Nat) : Report KeycodeContents :=
  if (new.slotAt code).name.isEmpty then return contents
  else
    contents.addKey code (new.slotAt code).name
      (if (new.slotAt code).alternate then .alternate else .augment) origin false

theorem absorbKeys_augment {lowest highest : Nat} (covered : new.covered = some (lowest, highest)) :
    absorbKeys .augment origin new old
      = (List.range' lowest (highest + 1 - lowest)).foldlM (augmentKey origin new) old := by
  simp only [absorbKeys, covered]
  rfl

theorem augmentKey_of_addKey {holds : KeycodeContents → Prop} (skips : holds contents)
    (adds : new.nameAt code ≠ .empty → code < 256 →
      Gives (contents.addKey code (new.nameAt code)
        (if (new.slotAt code).alternate then .alternate else .augment) origin false) holds) :
    Gives (augmentKey origin new contents code) holds := by
  refine .ite (fun _ => .pure skips) fun some => ?_
  have named : new.nameAt code ≠ .empty := fun free => some (KeyName.isEmpty_iff.mpr free)
  exact adds named (lt_of_nameAt named)

theorem augmentKey_inBounds :
    Gives (augmentKey origin new contents code) fun made => made.InBounds = contents.InBounds :=
  augmentKey_of_addKey origin rfl fun _ small => addKey_inBounds small _ _ _ _

theorem augmentKey_others {other : Nat} (apart : other ≠ code) :
    Gives (augmentKey origin new contents code) fun made =>
      made.nameAt other = contents.nameAt other := by
  refine augmentKey_of_addKey origin rfl fun _ small => ?_
  refine addKey_others small ?_ origin false apart
  split <;> exact MergeMode.noConfusion

/-- A step leaves a code the name that it has, unless an alternate one is accepted for it. -/
theorem augmentKey_keeps (named : contents.nameAt code ≠ .empty)
    (safe : (new.slotAt code).alternate = true → new.nameAt code ≠ .empty →
      ¬contents.InBounds code) :
    Gives (augmentKey origin new contents code) fun made =>
      made.nameAt code = contents.nameAt code := by
  refine augmentKey_of_addKey origin rfl fun some small => ?_
  split
  · -- The definition is out of bounds and does nothing.
    rename_i alternate
    refine (addKey_outside (safe alternate some) _ _ _ _).mono ?_
    rintro made rfl
    rfl
  · exact addKey_augment small named origin false

theorem augmentKey_brings (accepted : contents.InBounds code) (brought : new.NamesAlternate code) :
    Gives (augmentKey origin new contents code) fun made => made.nameAt code = new.nameAt code := by
  refine .ite (fun free => absurd (KeyName.isEmpty_iff.mp free) brought.named) fun _ => ?_
  rw [if_pos brought.alternate]
  exact addKey_alternate accepted (lt_of_nameAt brought.named) origin false

/-- The keys of a section that augments leave a code the name that it has, unless the section names
it as an alternate one. -/
theorem absorbKeys_keeps (named : old.nameAt code ≠ .empty)
    (safe : ¬(old.InBounds code ∧ new.NamesAlternate code)) :
    Gives (absorbKeys .augment origin new old) fun made => made.nameAt code = old.nameAt code := by
  cases covered : new.covered with
  | none =>
    simp only [absorbKeys, covered]
    exact .pure rfl
  | some ends =>
    obtain ⟨lowest, highest⟩ := ends
    rw [absorbKeys_augment origin covered]
    -- The bounds are carried along, since they tell which definitions do anything.
    have run : Gives
        ((List.range' lowest (highest + 1 - lowest)).foldlM (augmentKey origin new) old)
        fun made => made.InBounds = old.InBounds ∧ made.nameAt code = old.nameAt code := by
      refine .foldlM ⟨rfl, rfl⟩ ?_
      rintro contents other member ⟨bounds, kept⟩ log
      refine ⟨(augmentKey_inBounds origin log).trans bounds, ?_⟩
      by_cases apart : code = other
      · -- An alternate name on this code would have to be out of bounds, then as before.
        subst apart
        refine (augmentKey_keeps origin (kept.symm ▸ named) ?_ log).trans kept
        intro alternate some accepted
        rw [List.mem_range'_1] at member
        have covers : new.Covers code := ⟨lowest, highest, covered, member.1, by omega⟩
        exact safe ⟨bounds ▸ accepted, covers, some, alternate⟩
      · exact (augmentKey_others origin apart log).trans kept
    exact run.mono fun _ known => known.2

/-- The keys of a section that augments give a code the name that they have for it as an alternate
one. -/
theorem absorbKeys_brings (accepted : old.InBounds code) (brought : new.NamesAlternate code) :
    Gives (absorbKeys .augment origin new old) fun made => made.nameAt code = new.nameAt code := by
  obtain ⟨lowest, highest, covered, above, below⟩ := brought.covers
  rw [absorbKeys_augment origin covered]
  have member : code ∈ List.range' lowest (highest + 1 - lowest) := by
    rw [List.mem_range'_1]
    omega
  refine .foldlM_reaches (fun made => made.InBounds = old.InBounds) _ rfl member ?_ ?_ ?_
  · intro contents other bounds
    exact (augmentKey_inBounds origin).mono fun _ same => same.trans bounds
  · intro contents bounds
    exact augmentKey_brings origin (bounds ▸ accepted) brought
  · -- The steps for other codes are too late to change the name.
    intro contents other apart reached
    exact (augmentKey_others origin (Ne.symm apart)).mono fun _ same => same.trans reached

end Augmenting

/--
What becomes of the names of codes when a section is added that augments.

A code that has a name keeps it, unless the section names the code as an alternate one.
An alternate name counts all the same: it is given to every accepted code, whatever name that has.
-/
theorem absorb_augment_names (header : Header) (new old : KeycodeContents) :
    Gives (absorb .augment header new old) fun made =>
      (∀ code, old.nameAt code ≠ .empty → ¬(old.InBounds code ∧ new.NamesAlternate code) →
        made.nameAt code = old.nameAt code) ∧
      ∀ code, old.InBounds code → new.NamesAlternate code →
        made.nameAt code = new.nameAt code := by
  intro log
  rw [absorb_nameAt]
  constructor
  · intro code named safe
    exact absorbKeys_keeps header.origin named safe log
  · intro code accepted brought
    exact absorbKeys_brings header.origin accepted brought log

/-- A keycodes section that accepts two codes only, with the keys of a list, each with its mode. -/
def pairPart (keys : List (MergeMode × String × Int64)) : Section :=
  ⟨.keycodes, "pair", 0,
    .assignment ⟨.unspecified, some (.ident "minimum"), some (.integer 30)⟩
      :: .assignment ⟨.unspecified, some (.ident "maximum"), some (.integer 31)⟩
      :: keys.map fun (mode, name, code) => .keycode mode (.ofString name) code, []⟩

/-- What such a section is read to. -/
def pairContents (keys : List (MergeMode × String × Int64)) : KeycodeContents :=
  (Assembly.reading KeycodeContents (.start 0 .empty) .override (pairPart keys)).1.contents

/-- Of two codes that both sections name, the one that the second names as an alternate one gets
another name. -/
theorem absorb_augment_names_mixed :
    let old := pairContents [(.unspecified, "A", 30), (.unspecified, "B", 31)]
    let new := pairContents [(.unspecified, "C", 30), (.alternate, "D", 31)]
    let made := (absorb .augment .empty new old (.atLevel 0)).1
    (old.nameAt 30 ≠ .empty ∧ ¬(old.InBounds 30 ∧ new.NamesAlternate 30) ∧
        made.nameAt 30 = .ofString "A") ∧
      old.InBounds 31 ∧ new.NamesAlternate 31 ∧ made.nameAt 31 = .ofString "D" := by
  intro old new made
  obtain ⟨keeps, brings⟩ := absorb_augment_names .empty new old (.atLevel 0)
  have held : old.nameAt 30 = .ofString "A" ∧ old.InBounds 31 := by decide +kernel
  have some : old.nameAt 30 ≠ .empty := by
    rw [held.1]
    decide
  have given : (new.slotAt 30).alternate = false ∧ new.covered = .some (30, 31) ∧
      (new.slotAt 31).alternate = true ∧ new.nameAt 31 = .ofString "D" := by decide +kernel
  obtain ⟨plain, covered, alternate, other⟩ := given
  have apart : ¬(old.InBounds 30 ∧ new.NamesAlternate 30) := by
    rintro ⟨-, brought⟩
    rw [brought.alternate] at plain
    cases plain
  have brought : new.NamesAlternate 31 := by
    refine ⟨⟨30, 31, covered, by decide, by decide⟩, ?_, alternate⟩
    rw [other]
    decide
  exact ⟨⟨some, apart, (keeps 30 some apart).trans held.1⟩, held.2, brought,
    (brings 31 held.2 brought).trans other⟩

/-- The name of a code is replaced by an alternate one of a section that augments. -/
theorem absorb_augment_renames :
    let old := pairContents [(.unspecified, "A", 30)]
    let new := pairContents [(.alternate, "B", 30)]
    old.nameAt 30 = .ofString "A" ∧
      (absorb .augment .empty new old (.atLevel 0)).1.nameAt 30 = .ofString "B" := by
  decide +kernel

end KeycodeContents

end Xkb
