import Xkb.Proofs.Section.NamedCodes

/-! The names of codes over a whole run of definitions: where a name goes that overrides, and what
a definition leaves behind that is not taken. -/

namespace Xkb

/-- The definition of a key: its code and name, how it is combined with earlier ones, where it is
from, and whether clashes may be reported. -/
structure KeyDefinition where
  code : Nat
  name : KeyName
  mode : MergeMode
  origin : Origin
  mayReport : Bool

namespace KeycodeContents

variable {contents : KeycodeContents}

/-- The contents after a definition. -/
def define (contents : KeycodeContents) (new : KeyDefinition) : Report KeycodeContents :=
  contents.addKey new.code new.name new.mode new.origin new.mayReport

/-- The contents after some definitions, one after the other, of a section with nothing else. -/
def defineAll (definitions : List KeyDefinition) : Report KeycodeContents :=
  definitions.foldlM define empty

/-- The codes that a section accepts as long as it sets no bounds. -/
def IsLegal (code : Nat) : Prop :=
  lowestKeycode ≤ code ∧ code ≤ highestKeycode

instance (code : Nat) : Decidable (IsLegal code) :=
  inferInstanceAs (Decidable (_ ∧ _))

/-- At most one code carries a name. -/
def Single (contents : KeycodeContents) (name : KeyName) : Prop :=
  ∀ one other, contents.nameAt one = name → contents.nameAt other = name → one = other

section Runs

/-- Contents that definitions of keys alone come to: all legal codes are accepted, no bounds were
set, and the codes with names are among those that were defined. -/
structure Tidy (contents : KeycodeContents) : Prop where
  whole : contents.extent.Whole
  minimum : contents.minimum = none
  maximum : contents.maximum = none
  covered : ∀ code, contents.nameAt code ≠ .empty → contents.Covers code

theorem Tidy.inBounds_iff (tidy : contents.Tidy) (code : Nat) :
    contents.InBounds code ↔ IsLegal code := by
  have low : contents.low = lowestKeycode := tidy.whole.low
  have high : contents.high = highestKeycode := tidy.whole.high
  rw [InBounds, low, high]
  rfl

variable {code : Nat}

theorem IsLegal.small (legal : IsLegal code) : code < 256 :=
  Nat.lt_succ_of_le legal.2

theorem Tidy.small (tidy : contents.Tidy) (accepted : contents.InBounds code) :
    code < 256 :=
  ((tidy.inBounds_iff code).mp accepted).small

theorem Tidy.inBounds (tidy : contents.Tidy) (covers : contents.Covers code) :
    contents.InBounds code := by
  obtain ⟨lowest, highest, covered, above, below⟩ := covers
  have inside := tidy.whole.consistent.inside lowest highest covered
  exact ⟨Nat.le_trans inside.1 above, Nat.le_trans below inside.2⟩

theorem Tidy.inBounds_named (tidy : contents.Tidy) (named : contents.nameAt code ≠ .empty) :
    contents.InBounds code :=
  tidy.inBounds (tidy.covered code named)

theorem Defines.known {name : KeyName} {mode : MergeMode} {names : Nat → KeyName}
    (defines : contents.Defines code name mode names) {other : Nat} (apart : other ≠ code) :
    names other = contents.nameAt other ∨ names other = .empty := by
  cases defines with
  | keeps => exact .inl rfl
  | takes => exact .inl (Function.update_of_ne apart _ _)
  | moves old =>
    -- Only the code that loses the name is another one.
    rw [Function.update_of_ne apart]
    by_cases loser : other = old
    · rw [loser, Function.update_self]
      exact .inr rfl
    · exact .inl (Function.update_of_ne loser _ _)
  | drops => exact .inl (Function.update_of_ne apart _ _)

theorem nameAt_empty (code : Nat) : empty.nameAt code = .empty := by
  simp only [nameAt, slotAt, empty, Vector.getElem?_replicate]
  split <;> rfl

theorem empty_tidy : empty.Tidy :=
  ⟨empty_whole, rfl, rfl, fun code named => absurd (nameAt_empty code) named⟩

theorem define_tidy (tidy : contents.Tidy) (new : KeyDefinition) :
    Gives (contents.define new) Tidy := by
  refine addKey_of_defines tidy tidy.small fun made accepted extent defines => ?_
  have covered : made.covered = (contents.cover new.code).covered :=
    congrArg Extent.covered extent
  refine ⟨?_, ?_, ?_, ?_⟩
  · -- Only the extent of the codes counts here, which is extended by an accepted one.
    have step : Extent.Step false contents.extent (contents.cover new.code).extent :=
      .covers new.code accepted.1 accepted.2
    rw [extent]
    exact step.whole tidy.whole
  · exact (congrArg Extent.minimum extent).trans tidy.minimum
  · exact (congrArg Extent.maximum extent).trans tidy.maximum
  · -- A name is on the code of the definition, or was there before.
    intro code named
    have covers : (contents.cover new.code).Covers code := by
      by_cases here : code = new.code
      · exact covers_cover (.inl here)
      · rcases defines.known here with same | blank
        · exact covers_cover (.inr (tidy.covered code (same ▸ named)))
        · exact absurd blank named
    rwa [Covers, ← covered] at covers

theorem defineAll_tidy (definitions : List KeyDefinition) : Gives (defineAll definitions) Tidy :=
  .foldlM empty_tidy fun _ new _ tidy => define_tidy tidy new

theorem define_single (tidy : contents.Tidy) {new : KeyDefinition} (plain : new.mode ≠ .alternate)
    (single : ∀ name, name ≠ .empty → contents.Single name) :
    Gives (contents.define new) fun made => ∀ name, name ≠ .empty → made.Single name := by
  refine addKey_of_defines single tidy.small fun made _ _ defines => ?_
  intro name some one other first second
  -- Two codes that keep their names are one; so it comes down to the code of the definition.
  suffices alone : ∀ code, code ≠ new.code → made.nameAt code = name →
      made.nameAt new.code ≠ name by
    by_cases oneHere : one = new.code
    · by_cases otherHere : other = new.code
      · exact oneHere.trans otherHere.symm
      · exact absurd (oneHere ▸ first) (alone other otherHere second)
    · by_cases otherHere : other = new.code
      · exact absurd (otherHere ▸ second) (alone one oneHere first)
      · have kept {code : Nat} (apart : code ≠ new.code) (carries : made.nameAt code = name) :
            contents.nameAt code = name := by
          rcases defines.known apart with same | blank
          · rw [← same, carries]
          · exact absurd (carries.symm.trans blank) some
        exact single name some one other (kept oneHere first) (kept otherHere second)
  intro code apart carries here
  generalize made.nameAt = names at defines carries here
  cases defines with
  | keeps => exact apart (single name some code new.code carries here)
  | takes _ free =>
    rw [Function.update_self] at here
    rw [Function.update_of_ne apart] at carries
    rcases free with alternate | blank | elsewhere
    · exact plain alternate
    · exact some (here.symm.trans blank)
    · have accepted := tidy.inBounds_named (carries.symm ▸ some)
      exact elsewhere code apart accepted (carries.trans here.symm)
  | moves old _ _ found =>
    rw [Function.update_self] at here
    rw [Function.update_of_ne apart] at carries
    by_cases loser : code = old
    · rw [loser, Function.update_self] at carries
      exact some carries.symm
    · -- The name was on this code and on the one that loses it.
      rw [Function.update_of_ne loser] at carries
      exact loser (single name some code old carries (found.carries.trans here))
  | drops =>
    rw [Function.update_self] at here
    exact some here.symm

theorem defineAll_single {definitions : List KeyDefinition}
    (plain : ∀ new ∈ definitions, new.mode ≠ .alternate) :
    Gives (defineAll definitions) fun made => ∀ name, name ≠ .empty → made.Single name := by
  have start : ∀ name, name ≠ .empty → empty.Single name := by
    intro name some one other carries
    exact absurd (carries.symm.trans (nameAt_empty one)) some
  -- A code that has the name elsewhere is found only if it is accepted, so both are carried along.
  have run : Gives (defineAll definitions) fun made =>
      made.Tidy ∧ ∀ name, name ≠ .empty → made.Single name := by
    refine .foldlM ⟨empty_tidy, start⟩ ?_
    rintro contents new member ⟨tidy, single⟩ log
    exact ⟨define_tidy tidy new log, define_single tidy (plain new member) single log⟩
  exact run.mono fun _ known => known.2

end Runs

section Overriding

variable {code : Nat} {name : KeyName} {names : Nat → KeyName}

/-- A name that overrides is on the code afterwards; unless it was there before, the first code that
had it has lost it. -/
theorem overrides_names (some : name ≠ .empty)
    (defines : contents.Defines code name .override names) :
    names code = name ∧ ∀ other, other ≠ code → names other =
      if contents.nameAt code ≠ name ∧ contents.find name = .some other then .empty
      else contents.nameAt other := by
  -- A code without this name is not where it is found, so the first one is another.
  have unfound {old : Nat} (apart : contents.nameAt code ≠ name)
      (found : contents.FirstOther code name old) : contents.find name = .some old := by
    cases located : contents.find name with
    | none => exact absurd found.carries (of_find_eq_none located found.accepted)
    | some first =>
      obtain ⟨accepted, carries, before⟩ := of_find_eq_some located
      have other : first ≠ code := fun same => apart (same ▸ carries)
      rcases Nat.lt_trichotomy first old with less | same | greater
      · exact absurd carries (found.first first less other accepted)
      · rw [same]
      · exact absurd found.carries (before old greater found.accepted)
  cases defines with
  | keeps _ settled =>
    have same : contents.nameAt code = name := by simpa using settled
    exact ⟨same, fun other _ => by simp [same]⟩
  | takes _ free =>
    refine ⟨Function.update_self _ _ _, fun other apart => ?_⟩
    rw [Function.update_of_ne apart, if_neg]
    rintro ⟨-, found⟩
    obtain ⟨accepted, carries, -⟩ := of_find_eq_some found
    -- The mode is not that of alternate codes, so the name was on no other code.
    have elsewhere := (free.resolve_left MergeMode.noConfusion).resolve_left some
    exact elsewhere other apart accepted carries
  | moves old givesWay _ found =>
    have apart : contents.nameAt code ≠ name := by
      rcases givesWay with free | ⟨other, -⟩
      · exact fun same => some (same.symm.trans free)
      · exact other
    refine ⟨Function.update_self _ _ _, fun other different => ?_⟩
    rw [Function.update_of_ne different, unfound apart found, Function.update_apply]
    by_cases loser : other = old
    · rw [if_pos loser, if_pos ⟨apart, by rw [loser]⟩]
    · rw [if_neg loser, if_neg fun both => loser (Option.some.inj both.2).symm]
  | drops _ _ plain => exact absurd rfl plain.1

theorem overrides_alone_iff (tidy : contents.Tidy) (some : name ≠ .empty)
    (others : ∀ other, other ≠ code → names other =
      if contents.nameAt code ≠ name ∧ contents.find name = .some other then .empty
      else contents.nameAt other) :
    (∀ other, other ≠ code → names other ≠ name) ↔ contents.Single name := by
  constructor
  · intro alone
    -- Whatever had the name is the code itself or the first that is found.
    have located {other : Nat} (carries : contents.nameAt other = name) :
        other = code ∨ contents.nameAt code ≠ name ∧ contents.find name = .some other := by
      refine Classical.or_iff_not_imp_left.mpr fun apart => ?_
      refine Classical.byContradiction fun unfound => alone other apart ?_
      rw [others other apart, if_neg unfound, carries]
    intro one other first second
    rcases located first with oneHere | ⟨apart, oneFound⟩
    · rcases located second with otherHere | ⟨apart, -⟩
      · exact oneHere.trans otherHere.symm
      · exact absurd (oneHere ▸ first) apart
    · rcases located second with otherHere | ⟨-, otherFound⟩
      · exact absurd (otherHere ▸ second) apart
      · exact Option.some.inj (oneFound.symm.trans otherFound)
  · intro single other apart carries
    rw [others other apart] at carries
    split at carries
    · exact some carries.symm
    · rename_i unfound
      -- The name was on this code alone, which is accepted, so the search stops here.
      refine unfound ⟨fun here => apart (single other code carries here), ?_⟩
      have accepted := tidy.inBounds_named (carries.symm ▸ some)
      cases located : contents.find name with
      | none => exact absurd carries (of_find_eq_none located accepted)
      | some first => rw [single other first carries (of_find_eq_some located).2.1]

end Overriding

/--
Where a name goes that overrides, whatever was defined before.

The code carries the name.
Every other code keeps its name, but for the first one that had the name where the code did not have
it.
So no other code carries the name exactly if it was on one code at most, as it is without alternate
codes.
-/
theorem define_override_moves (definitions : List KeyDefinition) (log : Diagnostics) (code : Nat)
    (name : KeyName) (origin : Origin) (mayReport : Bool) (legal : IsLegal code)
    (some : name ≠ .empty) :
    let before := (defineAll definitions log).1
    Gives (before.define ⟨code, name, .override, origin, mayReport⟩) fun after =>
      after.nameAt code = name ∧
        (∀ other, other ≠ code → after.nameAt other =
          if before.nameAt code ≠ name ∧ before.find name = .some other then .empty
          else before.nameAt other) ∧
        ((∀ other, other ≠ code → after.nameAt other ≠ name) ↔ before.Single name) ∧
        ((∀ new ∈ definitions, new.mode ≠ .alternate) →
          ∀ other, other ≠ code → after.nameAt other ≠ name) := by
  intro before
  have tidy : before.Tidy := defineAll_tidy definitions log
  have accepted : before.InBounds code := (tidy.inBounds_iff code).mpr legal
  refine (addKey_defines accepted legal.small name .override origin mayReport).mono ?_
  rintro after ⟨-, defines⟩
  obtain ⟨here, others⟩ := overrides_names some defines
  have alone := overrides_alone_iff tidy some others
  refine ⟨here, others, alone, fun plain => alone.mpr ?_⟩
  exact defineAll_single plain log name some

/-- A definition of a key that the compiled section itself gives. -/
def keyDefined (mode : MergeMode) (code : Nat) (name : String) : KeyDefinition :=
  ⟨code, .ofString name, mode, .main, true⟩

/-- A name moves to a code with another name, past a definition that was not taken. -/
theorem define_override_moves_renamed :
    let definitions := [keyDefined .override 30 "A", keyDefined .augment 31 "B",
      keyDefined .unspecified 32 "A"]
    let after := ((defineAll definitions (.atLevel 0)).1.define (keyDefined .override 31 "A")
      (.atLevel 0)).1
    IsLegal 31 ∧ KeyName.ofString "A" ≠ .empty ∧ after.nameAt 31 = .ofString "A" ∧
      ∀ other, other ≠ 31 → after.nameAt other ≠ .ofString "A" := by
  intro definitions after
  have legal : IsLegal 31 := by decide
  have some : KeyName.ofString "A" ≠ .empty := by decide
  have plain : ∀ new ∈ definitions, new.mode ≠ .alternate := by decide
  obtain ⟨here, -, -, alone⟩ := define_override_moves definitions (.atLevel 0) 31 (.ofString "A")
    .main true legal some (.atLevel 0)
  exact ⟨legal, some, here, alone plain⟩

/-- A name that is on two codes moves from the first one only. -/
theorem define_override_leaves_alternate :
    let definitions := [keyDefined .override 30 "A", keyDefined .alternate 31 "A"]
    let after := ((defineAll definitions (.atLevel 0)).1.define (keyDefined .override 32 "A")
      (.atLevel 0)).1
    after.nameAt 30 = .empty ∧ after.nameAt 31 = .ofString "A" ∧ after.nameAt 32 = .ofString "A" := by
  decide +kernel

section Ignored

variable {code : Nat} {name : KeyName} {mode : MergeMode} {names : Nat → KeyName}

/-- The names after a definition that is not taken: at most its code has lost the one it had. -/
theorem ignored_names (defines : contents.Defines code name mode names)
    (ignored : names code ≠ name) (other : Nat) : names other =
      if other = code ∧ contents.nameAt code ≠ .empty ∧ mode ≠ .augment then .empty
      else contents.nameAt other := by
  cases defines with
  | keeps named settled =>
    -- The code has another name, so that the mode protects it.
    have augments := settled.resolve_left ignored
    rw [if_neg fun all => all.2.2 augments]
  | takes => exact absurd (Function.update_self _ _ _) ignored
  | moves => exact absurd (Function.update_self _ _ _) ignored
  | drops old givesWay =>
    rw [Function.update_apply]
    by_cases here : other = code
    · rcases givesWay with free | ⟨-, clobbers⟩
      · -- There was nothing to lose.
        rw [if_pos here, here, free, ite_self]
      · by_cases free : contents.nameAt code = .empty
        · rw [if_pos here, here, free, ite_self]
        · rw [if_pos here, if_pos ⟨here, free, clobbers⟩]
    · rw [if_neg here, if_neg fun all => here all.1]

theorem ignored_covers (tidy : contents.Tidy) (defines : contents.Defines code name mode names)
    (ignored : names code ≠ name) :
    ∃ other, contents.Covers other := by
  cases defines with
  | keeps named => exact ⟨code, tidy.covered code named⟩
  | takes => exact absurd (Function.update_self _ _ _) ignored
  | moves => exact absurd (Function.update_self _ _ _) ignored
  | drops old _ _ found =>
    -- The name is not that of no key, since the code is left with that one.
    refine ⟨old, tidy.covered old fun free => ignored ?_⟩
    rw [Function.update_self, ← free, found.carries]

/-- Without bounds the range reaches as far as the codes that were defined. -/
theorem Tidy.range_eq (tidy : contents.Tidy) {lowest highest : Nat}
    (covered : contents.covered = some (lowest, highest)) : contents.range = (lowest, highest) := by
  simp [range, tidy.minimum, tidy.maximum, covered]

/-- A further code extends the range as far as needed. -/
theorem Tidy.range_cover (tidy : contents.Tidy) (covers : ∃ other, contents.Covers other)
    {made : KeycodeContents} (madeTidy : made.Tidy)
    (extent : made.extent = (contents.cover code).extent) :
    made.range = (min contents.range.1 code, max contents.range.2 code) := by
  obtain ⟨_, lowest, highest, covered, -⟩ := covers
  have extended : made.covered = some (min lowest code, max highest code) := by
    have same : made.covered = (contents.cover code).covered := congrArg Extent.covered extent
    rw [same]
    simp [cover, covered]
  rw [madeTidy.range_eq extended, tidy.range_eq covered]

end Ignored

/--
What a definition leaves behind that is not taken, whatever was defined before.

A legal code that had another name has lost it unless the definition augments, and the range reaches
to the code all the same.
So nothing has changed exactly if the code is not legal, or lies in the range and has no name to
lose or one that is protected.
-/
theorem define_ignored (definitions : List KeyDefinition) (log later : Diagnostics)
    (new : KeyDefinition) :
    let before := (defineAll definitions log).1
    let after := (before.define new later).1
    after.nameAt new.code ≠ new.name →
      (∀ other, after.nameAt other =
        if other = new.code ∧ IsLegal new.code ∧ before.nameAt new.code ≠ .empty ∧
          new.mode ≠ .augment then .empty
        else before.nameAt other) ∧
      (after.range = if IsLegal new.code then
          (min before.range.1 new.code, max before.range.2 new.code)
        else before.range) ∧
      ((∀ other, after.nameAt other = before.nameAt other) ∧ after.range = before.range ↔
        (IsLegal new.code → (before.nameAt new.code = .empty ∨ new.mode = .augment) ∧
          before.range.1 ≤ new.code ∧ new.code ≤ before.range.2)) := by
  intro before after ignored
  have tidy : before.Tidy := defineAll_tidy definitions log
  by_cases legal : IsLegal new.code
  · obtain ⟨extent, defines⟩ := addKey_defines ((tidy.inBounds_iff new.code).mpr legal) legal.small
      new.name new.mode new.origin new.mayReport later
    have names : ∀ other, after.nameAt other = _ := ignored_names defines ignored
    have range : after.range = _ :=
      tidy.range_cover (ignored_covers tidy defines ignored) (define_tidy tidy new later) extent
    simp only [legal, true_and, if_true, true_imp_iff]
    refine ⟨names, range, ?_⟩
    constructor
    · -- The code has its name still, and the range is not extended by it.
      rintro ⟨kept, same⟩
      constructor
      · refine Classical.byContradiction fun lost => ?_
        obtain ⟨named, clobbers⟩ := not_or.mp lost
        have own := kept new.code
        rw [names, if_pos ⟨rfl, named, clobbers⟩] at own
        exact named own.symm
      · rw [range] at same
        have lowest := congrArg Prod.fst same
        have highest := congrArg Prod.snd same
        simp only at lowest highest
        omega
    · rintro ⟨safe, above, below⟩
      constructor
      · intro other
        rw [names, if_neg]
        rintro ⟨-, named, clobbers⟩
        exact safe.elim named clobbers
      · rw [range, Nat.min_eq_left above, Nat.max_eq_left below]
  · -- Nothing is done about a code that is not legal.
    have outside : ¬before.InBounds new.code := fun accepted =>
      legal ((tidy.inBounds_iff new.code).mp accepted)
    have same : after = before := addKey_outside outside _ _ _ _ later
    simp [same, legal]

/-- A definition is not taken and leaves all as it was, where its code lies between two others. -/
theorem define_ignored_between :
    let definitions := [keyDefined .override 30 "A", keyDefined .alternate 40 "A"]
    let before := (defineAll definitions (.atLevel 0)).1
    let after := (before.define (keyDefined .augment 35 "A") (.atLevel 0)).1
    after.nameAt 35 ≠ .ofString "A" ∧ (∀ other, after.nameAt other = before.nameAt other) ∧
      after.range = before.range := by
  intro definitions before after
  have found : after.nameAt 35 ≠ .ofString "A" ∧ before.range.1 ≤ 35 ∧ 35 ≤ before.range.2 := by
    decide +kernel
  obtain ⟨ignored, between⟩ := found
  obtain ⟨-, -, same⟩ := define_ignored definitions (.atLevel 0) (.atLevel 0)
    (keyDefined .augment 35 "A") ignored
  exact ⟨ignored, same.mpr fun _ => ⟨.inr rfl, between⟩⟩

/-- A definition that is not taken takes away the name of its code, and another one extends the
range. -/
theorem define_ignored_loses_name :
    let before := (defineAll [keyDefined .override 30 "A", keyDefined .override 40 "B"]
      (.atLevel 0)).1
    let lost := (before.define (keyDefined .unspecified 40 "A") (.atLevel 0)).1
    let extended := (before.define (keyDefined .augment 50 "A") (.atLevel 0)).1
    before.nameAt 40 = .ofString "B" ∧ lost.nameAt 40 = .empty ∧
      extended.nameAt 50 ≠ .ofString "A" ∧ before.range = (30, 40) ∧ extended.range = (30, 50) := by
  decide +kernel

end KeycodeContents

end Xkb
