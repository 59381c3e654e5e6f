import Xkb.Proofs.Assembly
import Xkb.Proofs.IndicatorNames
import Xkb.Proofs.Targets

/-! The range of a keycodes section: which codes it can come to, and that the keys lie in it. -/

namespace Xkb

/-- What the range of a keycodes section depends on. -/
structure Extent where
  covered : Option (Nat × Nat)
  minimum : Option Nat
  maximum : Option Nat
  low : Nat
  high : Nat

/-- What the range of a section depends on, taken from all that the section holds. -/
def KeycodeContents.extent (contents : KeycodeContents) : Extent :=
  ⟨contents.covered, contents.minimum, contents.maximum, contents.low, contents.high⟩

/-- Whether a statement gives a bound that leaves out some of the legal codes. -/
def Statement.narrowsRange : Statement → Bool
  | .assignment ⟨_, some target, some value⟩ =>
    match target.toTarget, value.toInteger Lookup.none with
    | .ok target, .ok value =>
      lowestKeycode ≤ value.toInt && value.toInt ≤ highestKeycode
        && (Text.sameName target.field "minimum" && value.toInt != lowestKeycode
          || Text.sameName target.field "maximum" && value.toInt != highestKeycode)
    | _, _ => false
  | _ => false

/-- Whether a statement includes its own section behind something else. -/
def Statement.comesBack : Statement → Bool
  | .inclusion included => included.terms.tail.any IncludeTerm.isSelf
  | _ => false

namespace Extent

/-- The bounds are legal and are those that were given, and so are the codes that were defined. -/
structure Legal (extent : Extent) : Prop where
  low_eq : extent.low = extent.minimum.getD lowestKeycode
  high_eq : extent.high = extent.maximum.getD highestKeycode
  minimum : ∀ value, extent.minimum = some value → lowestKeycode ≤ value ∧ value ≤ highestKeycode
  maximum : ∀ value, extent.maximum = some value → lowestKeycode ≤ value ∧ value ≤ highestKeycode
  covered : ∀ lowest highest, extent.covered = some (lowest, highest) →
    lowestKeycode ≤ lowest ∧ lowest ≤ highest ∧ highest ≤ highestKeycode

/-- The bounds are in order, and the codes that were defined lie between them. -/
structure Consistent (extent : Extent) : Prop where
  legal : extent.Legal
  ordered : extent.low ≤ extent.high
  inside : ∀ lowest highest, extent.covered = some (lowest, highest) →
    extent.low ≤ lowest ∧ highest ≤ extent.high

/-- All legal codes are accepted. -/
structure Whole (extent : Extent) : Prop where
  legal : extent.Legal
  low : extent.low = lowestKeycode
  high : extent.high = highestKeycode

/-- After a code was defined. -/
def cover (extent : Extent) (code : Nat) : Extent :=
  { extent with covered := some (match extent.covered with
      | some (low, high) => (min low code, max high code)
      | none => (code, code)) }

/-- What one statement can do to the range; only one that narrows it may give a bound that leaves
out legal codes. -/
inductive Step (narrows : Bool) (extent : Extent) : Extent → Prop
  | stays : Step narrows extent extent
  | covers (code : Nat) : extent.low ≤ code → code ≤ extent.high →
      Step narrows extent (extent.cover code)
  | minimum (value : Nat) : lowestKeycode ≤ value → value ≤ highestKeycode →
      (∀ high, extent.maximum = some high → value ≤ high) →
      (∀ lowest highest, extent.covered = some (lowest, highest) → value ≤ lowest) →
      (value ≠ lowestKeycode → narrows = true) →
      Step narrows extent { extent with minimum := some value, low := value }
  | maximum (value : Nat) : lowestKeycode ≤ value → value ≤ highestKeycode →
      (∀ low, extent.minimum = some low → low ≤ value) →
      (∀ lowest highest, extent.covered = some (lowest, highest) → highest ≤ value) →
      (value ≠ highestKeycode → narrows = true) →
      Step narrows extent { extent with maximum := some value, high := value }
  | clips : Step narrows extent
      { extent with maximum := some highestKeycode, high := highestKeycode }

variable {extent : Extent}

theorem Legal.low_legal (legal : extent.Legal) :
    lowestKeycode ≤ extent.low ∧ extent.low ≤ highestKeycode := by
  rw [legal.low_eq]
  cases given : extent.minimum with
  | none => decide
  | some value => exact legal.minimum value given

theorem Legal.high_legal (legal : extent.Legal) :
    lowestKeycode ≤ extent.high ∧ extent.high ≤ highestKeycode := by
  rw [legal.high_eq]
  cases given : extent.maximum with
  | none => decide
  | some value => exact legal.maximum value given

/-- Where all legal codes are accepted, the keys lie in the range. -/
theorem Whole.consistent (whole : extent.Whole) : extent.Consistent := by
  refine ⟨whole.legal, ?_, fun lowest highest known => ?_⟩
  · rw [whole.low, whole.high]
    decide
  · have legal := whole.legal.covered lowest highest known
    rw [whole.low, whole.high]
    exact ⟨legal.1, legal.2.2⟩

theorem covered_cover {code lowest highest : Nat}
    (known : (extent.cover code).covered = some (lowest, highest)) :
    (lowest = code ∨ ∃ high, extent.covered = some (lowest, high) ∧ lowest ≤ code)
      ∧ (highest = code ∨ ∃ low, extent.covered = some (low, highest) ∧ code ≤ highest) := by
  simp only [cover, Option.some.injEq] at known
  split at known
  · next low high before =>
    obtain ⟨rfl, rfl⟩ := Prod.mk.inj known
    rw [before]
    constructor
    · rcases Nat.le_total low code with below | above
      · exact .inr ⟨high, by rw [Nat.min_eq_left below], by omega⟩
      · exact .inl (Nat.min_eq_right above)
    · rcases Nat.le_total high code with below | above
      · exact .inl (Nat.max_eq_right below)
      · exact .inr ⟨low, by rw [Nat.max_eq_left above], by omega⟩
  · obtain ⟨rfl, rfl⟩ := Prod.mk.inj known
    exact ⟨.inl rfl, .inl rfl⟩

namespace Step

variable {narrows : Bool} {before after : Extent}

theorem legal (step : Step narrows before after) (legal : before.Legal) : after.Legal := by
  cases step with
  | stays => exact legal
  | covers code above below =>
    refine ⟨legal.low_eq, legal.high_eq, legal.minimum, legal.maximum, ?_⟩
    intro lowest highest known
    have lowLegal := legal.low_legal
    have highLegal := legal.high_legal
    -- Either end is the new code or an end of what was covered before.
    obtain ⟨lower, upper⟩ := covered_cover known
    rcases lower with rfl | ⟨high, beforeLow, belowCode⟩
      <;> rcases upper with rfl | ⟨low, beforeHigh, aboveCode⟩
    · exact ⟨by omega, by omega, by omega⟩
    · have old := legal.covered low highest beforeHigh
      exact ⟨by omega, by omega, by omega⟩
    · have old := legal.covered lowest high beforeLow
      exact ⟨by omega, by omega, by omega⟩
    · have old := legal.covered lowest high beforeLow
      have other := legal.covered low highest beforeHigh
      exact ⟨by omega, by omega, by omega⟩
  | minimum value above below =>
    refine ⟨rfl, legal.high_eq, ?_, legal.maximum, legal.covered⟩
    rintro _ ⟨⟩
    exact ⟨above, below⟩
  | maximum value above below =>
    refine ⟨legal.low_eq, rfl, legal.minimum, ?_, legal.covered⟩
    rintro _ ⟨⟩
    exact ⟨above, below⟩
  | clips =>
    refine ⟨legal.low_eq, rfl, legal.minimum, ?_, legal.covered⟩
    rintro _ ⟨⟩
    decide

theorem consistent (step : Step narrows before after) (consistent : before.Consistent) :
    after.Consistent := by
  have legal := consistent.legal
  have afterLegal := step.legal legal
  cases step with
  | stays => exact consistent
  | covers code above below =>
    refine ⟨afterLegal, consistent.ordered, fun lowest highest known => ?_⟩
    obtain ⟨lower, upper⟩ := covered_cover known
    constructor
    · rcases lower with rfl | ⟨high, beforeLow, _⟩
      · exact above
      · exact (consistent.inside lowest high beforeLow).1
    · rcases upper with rfl | ⟨low, beforeHigh, _⟩
      · exact below
      · exact (consistent.inside low highest beforeHigh).2
  | minimum value above below notAbove notOver =>
    refine ⟨afterLegal, ?_, fun lowest highest known => ?_⟩
    · -- The highest code is the one that was given, or the highest legal one.
      show value ≤ before.high
      rw [legal.high_eq]
      cases given : before.maximum with
      | none => exact below
      | some high => exact notAbove high given
    · exact ⟨notOver lowest highest known, (consistent.inside lowest highest known).2⟩
  | maximum value above below notBelow notUnder =>
    refine ⟨afterLegal, ?_, fun lowest highest known => ?_⟩
    · show before.low ≤ value
      rw [legal.low_eq]
      cases given : before.minimum with
      | none => exact above
      | some low => exact notBelow low given
    · exact ⟨(consistent.inside lowest highest known).1, notUnder lowest highest known⟩
  | clips =>
    refine ⟨afterLegal, legal.low_legal.2, fun lowest highest known => ?_⟩
    exact ⟨(consistent.inside lowest highest known).1, (legal.covered lowest highest known).2.2⟩

/-- A statement that does not narrow the range leaves all legal codes accepted. -/
theorem whole (step : Step false before after) (whole : before.Whole) : after.Whole := by
  have afterLegal := step.legal whole.legal
  cases step with
  | stays => exact whole
  | covers code above below => exact ⟨afterLegal, whole.low, whole.high⟩
  | minimum value _ _ _ _ narrow =>
    refine ⟨afterLegal, ?_, whole.high⟩
    by_cases same : value = lowestKeycode
    · exact same
    · cases narrow same
  | maximum value _ _ _ _ narrow =>
    refine ⟨afterLegal, whole.low, ?_⟩
    by_cases same : value = highestKeycode
    · exact same
    · cases narrow same
  | clips => exact ⟨afterLegal, whole.low, rfl⟩

end Step

end Extent

namespace KeycodeContents

open Extent

/-- A name is put on a code without a change to the range. -/
theorem placeKey_extent (contents : KeycodeContents) (code : Nat) (name : KeyName)
    (mode : MergeMode) (origin : Origin) (report : Bool) :
    Gives (contents.placeKey code name mode origin report) fun made =>
      made.extent = contents.extent := by
  simp only [placeKey]
  split
  · exact .pure rfl
  · split
    · exact .after fun _ => .pure rfl
    · exact .pure rfl
    · exact .after fun _ => .after fun _ => .pure rfl

theorem addKey_steps (contents : KeycodeContents) (code : Nat) (name : KeyName)
    (mode : MergeMode) (origin : Origin) (mayReport : Bool) (narrows : Bool) :
    Gives (contents.addKey code name mode origin mayReport) fun made =>
      Step narrows contents.extent made.extent := by
  simp only [addKey]
  refine .ite (fun _ => .after fun _ => .pure .stays) fun accepted => ?_
  have inside : contents.low ≤ code ∧ code ≤ contents.high := by
    simp only [isOutside, Bool.or_eq_true, decide_eq_true_eq, not_or] at accepted
    omega
  have covers {made : KeycodeContents} (same : made.extent = (contents.cover code).extent) :
      Step narrows contents.extent made.extent := by
    rw [same]
    exact .covers code inside.1 inside.2
  refine .after fun level => ?_
  -- Whatever becomes of the names, the code is covered and the bounds stay.
  refine .ite (fun _ => .mono (placeKey_extent _ _ _ _ _ _) fun _ => covers) fun _ => ?_
  refine .ite (fun _ => ?_) fun _ => ?_
  · refine .ite (fun _ => .pure (covers rfl)) fun _ => ?_
    refine .ite (fun _ => ?_) fun _ => .pure (covers rfl)
    exact .after fun _ => .pure (covers rfl)
  · refine .ite (fun _ => .after fun _ => .pure (covers rfl)) fun _ => ?_
    exact .after fun _ => .mono (placeKey_extent _ _ _ _ _ _) fun _ => covers

/-- The name of an indicator touches nothing else. -/
theorem addIndicator_frame (contents : KeycodeContents) (new : IndicatorName) :
    Gives (contents.addIndicator new) fun made =>
      made = { contents with indicators := made.indicators } := by
  intro log
  rw [addIndicator_eq log.level contents new log rfl]

/-- The second name of a key touches nothing else. -/
theorem addAlias_frame (contents : KeycodeContents) (new : AliasDefinition) :
    Gives (contents.addAlias new) fun made =>
      made = { contents with aliases := made.aliases } := by
  simp only [addAlias]
  split
  · exact .pure rfl
  · refine .after fun level => ?_
    refine .ite (fun _ => .ite (fun _ => ?_) fun _ => ?_) fun _ => .pure rfl
    · exact .after fun _ => .pure rfl
    · exact .after fun _ => .pure rfl

variable (mode : MergeMode) (header : Header)

/-- Behind the keys of another section come its names of indicators, its second names of keys and
its range. -/
theorem absorb_eq (new old : KeycodeContents) (log : Diagnostics) :
    ∃ indicators aliases, (absorb mode header new old log).1 =
      widen new { (absorbKeys mode header.origin new old log).1 with indicators, aliases } := by
  have rest (first : KeycodeContents) : Gives (do
      let second ← new.indicators.foldlM (fun contents indicator => contents.addIndicator
        { indicator with definition := indicator.definition.inMode mode }) first
      let third ← new.aliases.foldlM (fun contents known => contents.addAlias
        { known with definition := known.definition.inMode mode }) second
      return widen new third) fun made =>
        ∃ indicators aliases, made = widen new { first with indicators, aliases } := by
    refine .bind (?_ : Gives _ fun second =>
      second = { first with indicators := second.indicators }) fun second early => ?_
    · refine .foldlM rfl fun made _ _ known => ?_
      refine (addIndicator_frame made _).mono fun next same => ?_
      rw [same, known]
    refine .bind (?_ : Gives _ fun third =>
      third = { second with aliases := third.aliases }) fun third late => ?_
    · refine .foldlM rfl fun made _ _ known => ?_
      refine (addAlias_frame made _).mono fun next same => ?_
      rw [same, known]
    rw [late, early]
    exact .pure ⟨_, _, rfl⟩
  exact rest _ _

variable {contents : KeycodeContents} {holds : Extent → Prop} {new old : KeycodeContents}
  {value : Nat} {narrows : Bool}

theorem setMinimum_steps (above : lowestKeycode ≤ value) (below : value ≤ highestKeycode)
    (narrow : value ≠ lowestKeycode → narrows = true) :
    Gives (contents.setMinimum value) fun made => Step narrows contents.extent made.1.extent := by
  simp only [setMinimum]
  split
  · exact .after fun _ => .pure .stays
  · exact .after fun _ => .pure .stays
  · next freeAbove freeBelow =>
    refine .pure (.minimum value above below (fun high given => ?_)
      (fun lowest highest given => ?_) narrow)
    · have kept : contents.maximum = some high := given
      simpa [kept] using freeAbove
    · have kept : contents.covered = some (lowest, highest) := given
      simpa [kept] using freeBelow

theorem setMaximum_steps (above : lowestKeycode ≤ value) (below : value ≤ highestKeycode)
    (narrow : value ≠ highestKeycode → narrows = true) :
    Gives (contents.setMaximum value) fun made => Step narrows contents.extent made.1.extent := by
  simp only [setMaximum]
  split
  · exact .after fun _ => .pure .stays
  · exact .after fun _ => .pure .stays
  · next freeBelow freeAbove =>
    refine .pure (.maximum value above below (fun low given => ?_)
      (fun lowest highest given => ?_) narrow)
    · have kept : contents.minimum = some low := given
      simpa [kept] using freeBelow
    · have kept : contents.covered = some (lowest, highest) := given
      simpa [kept] using freeAbove

/-- A bound is a legal code; one that is too high counts as the highest legal code. -/
theorem setBound_steps {isMinimum : Bool} {field : String} {value : Int64}
    (narrow : lowestKeycode ≤ value.toInt → value.toInt ≤ highestKeycode →
      value.toInt ≠ (if isMinimum then lowestKeycode else highestKeycode) → narrows = true) :
    Gives (contents.setBound isMinimum field value) fun made =>
      Step narrows contents.extent made.1.extent := by
  simp only [setBound]
  refine .ite (fun _ => .after fun _ => .pure .stays) fun notBelow => ?_
  refine .ite (fun _ => .after fun _ => .pure .clips) fun notAbove => ?_
  have above : lowestKeycode ≤ value.toInt.toNat := by omega
  have below : value.toInt.toNat ≤ highestKeycode := by omega
  have narrower := narrow (by omega) (by omega)
  refine .ite (fun isLow => ?_) fun isHigh => ?_
  · refine setMinimum_steps above below fun other => narrower ?_
    simp only [isLow, if_true]
    omega
  · refine setMaximum_steps above below fun other => narrower ?_
    simp only [isHigh]
    simp only [Bool.false_eq_true, if_false]
    omega

theorem handleField_steps (contents : KeycodeContents) (merge : MergeMode) {name : Expr}
    {target : Target} (named : name.toTarget = .ok target) (value : Option Expr) :
    Gives (contents.handleField target value) fun made =>
      Step (Statement.assignment ⟨merge, some name, value⟩).narrowsRange contents.extent
        made.1.extent := by
  have refused (message : String) (actions : List String) :
      Gives (do Report.error message actions; return (contents, false)) fun made =>
        Step (Statement.assignment ⟨merge, some name, value⟩).narrowsRange contents.extent
          made.1.extent :=
    .after fun _ => .pure .stays
  simp only [handleField]
  split
  · exact refused _ _
  refine .ite (fun isBound => ?_) fun _ => refused _ _
  refine .ite (fun _ => refused _ _) fun _ => ?_
  split
  · exact refused _ _
  · exact refused _ _
  · next _ number given =>
    obtain ⟨expr, rfl, known⟩ := Option.map_eq_some_iff.mp given
    refine setBound_steps fun above below other => ?_
    -- The field is one of the two, and the number is not the one that leaves all codes in.
    simp only [Statement.narrowsRange, named, known, above, below]
    cases isMinimum : Text.sameName target.field "minimum" with
    | true => simp [show number.toInt ≠ lowestKeycode by simpa [isMinimum] using other]
    | false =>
      have isMaximum : Text.sameName target.field "maximum" = true := by
        simpa [isMinimum] using isBound
      simpa [isMinimum, isMaximum] using other

theorem handle_steps (mode : MergeMode) (statement : Statement) (contents : KeycodeContents) :
    Gives (handle header mode statement contents) fun made =>
      Step statement.narrowsRange contents.extent made.1.extent := by
  simp only [handle]
  split
  · next merge name value =>
    have given : Gives (contents.handleKey header mode merge name value) fun made =>
        Step false contents.extent made.extent := by
      unfold handleKey
      refine .ite (fun _ => .after fun _ => .pure .stays) fun _ => ?_
      exact addKey_steps _ _ _ _ _ _ _
    exact .bind given fun made known => .pure known
  · refine .bind (addAlias_frame contents _) fun made same => .pure ?_
    rw [same]
    exact .stays
  · next assigned =>
    obtain ⟨merge, target, value⟩ := assigned
    simp only [handleAssignment]
    cases target with
    | none => exact .after fun _ => .pure .stays
    | some name =>
      simp only [Option.map_some]
      cases named : name.toTarget with
      | error error => exact .after fun _ => .pure .stays
      | ok target => exact handleField_steps contents merge named value
  · simp only [handleIndicator]
    refine .ite (fun _ => .after fun _ => .pure .stays) fun _ => ?_
    split
    · exact .after fun _ => .pure .stays
    · refine .bind (addIndicator_frame contents _) fun made same => .pure ?_
      rw [same]
      exact .stays
  · exact .after fun _ => .pure .stays

theorem widen_holds (starts : holds old.extent)
    (lower : ∀ extent low, new.minimum = some low → holds extent →
      holds { extent with minimum := some low, low })
    (upper : ∀ extent high, new.maximum = some high → holds extent →
      holds { extent with maximum := some high, high }) : holds (widen new old).extent := by
  unfold widen
  extract_lets lowered
  -- The lowest code is settled first, and the highest one on top of that.
  have known : holds lowered.extent := by
    unfold lowered
    cases given : new.minimum with
    | none => exact starts
    | some low =>
      dsimp only
      split
      · exact lower old.extent low given starts
      · exact starts
  cases given : new.maximum with
  | none => exact known
  | some high =>
    dsimp only
    split
    · exact upper lowered.extent high given known
    · exact known

theorem absorb_holds (starts : holds old.extent)
    (keys : ∀ before after, Step false before after → holds before → holds after)
    (lower : ∀ extent low, new.minimum = some low → holds extent →
      holds { extent with minimum := some low, low })
    (upper : ∀ extent high, new.maximum = some high → holds extent →
      holds { extent with maximum := some high, high }) :
    Gives (absorb mode header new old) fun made => holds made.extent := by
  -- The keys come first, each as if a statement had given it.
  have added : Gives (absorbKeys mode header.origin new old) fun made => holds made.extent := by
    simp only [absorbKeys]
    split
    · exact .pure starts
    · refine .foldlM starts fun made code _ before => ?_
      refine .ite (fun _ => .pure before) fun _ => ?_
      exact .mono (addKey_steps _ _ _ _ _ _ _) fun next step => keys _ _ step before
  -- The names of indicators and the second names of keys change nothing here.
  intro log
  obtain ⟨indicators, aliases, same⟩ := absorb_eq mode header new old log
  rw [same]
  exact widen_holds (added log) lower upper

theorem includeWholeRange_whole (legal : contents.extent.Legal) :
    contents.includeWholeRange.extent.Whole := by
  refine ⟨⟨rfl, rfl, ?_, ?_, legal.covered⟩, rfl, rfl⟩
  · rintro _ ⟨⟩
    decide
  · rintro _ ⟨⟩
    decide

theorem eq_of_builtin {term : IncludeTerm} {made : KeycodeContents}
    (built : SectionContents.builtin term contents = some made) :
    made = contents.includeWholeRange := by
  change (if term.file == some "computed" then some contents.includeWholeRange else none)
    = some made at built
  split at built
  · exact (Option.some.inj built).symm
  · cases built

theorem empty_whole : KeycodeContents.empty.extent.Whole :=
  ⟨⟨rfl, rfl, nofun, nofun, nofun⟩, rfl, rfl⟩

theorem maintains_legal (supplied : Statement → Prop) :
    Maintains KeycodeContents supplied fun contents => contents.extent.Legal := by
  refine ⟨empty_whole.legal, fun _ _ _ => empty_whole.legal, ?builtin, ?handle, ?absorb⟩
  case builtin =>
    intro term contents made legal built
    rw [eq_of_builtin built]
    exact (includeWholeRange_whole legal).legal
  case handle =>
    intro _ header mode statement contents _ legal
    exact .mono (handle_steps header mode statement contents) fun _ step => step.legal legal
  case absorb =>
    intro _ mode header new old newLegal oldLegal
    refine .bind (absorb_holds mode header oldLegal (fun _ _ step => step.legal) ?_ ?_)
      fun made known => .pure known
    · intro extent low given legal
      refine ⟨rfl, legal.high_eq, ?_, legal.maximum, legal.covered⟩
      rintro _ ⟨⟩
      exact newLegal.minimum low given
    · intro extent high given legal
      refine ⟨legal.low_eq, rfl, legal.minimum, ?_, legal.covered⟩
      rintro _ ⟨⟩
      exact newLegal.maximum high given

theorem absorb_whole (newWhole : new.extent.Whole) (starts : holds old.extent)
    (keeps : ∀ before after, Step false before after → holds before → holds after)
    (legal : ∀ extent, holds extent → extent.Legal) :
    Gives (absorb mode header new old) fun made => holds made.extent := by
  refine absorb_holds mode header starts keeps ?_ ?_
  · -- The bound that is taken over is the lowest legal code, which is as a statement may give it.
    intro extent low given known
    have lowest : low = lowestKeycode := by
      have same := newWhole.legal.low_eq.symm.trans newWhole.low
      simpa [KeycodeContents.extent, given] using same
    subst lowest
    refine keeps _ _ (.minimum lowestKeycode (Nat.le_refl _) (by decide) ?_ ?_ (by simp)) known
    · exact fun high given => ((legal extent known).maximum high given).1
    · exact fun lowest highest given => ((legal extent known).covered lowest highest given).1
  · intro extent high given known
    have highest : high = highestKeycode := by
      have same := newWhole.legal.high_eq.symm.trans newWhole.high
      simpa [KeycodeContents.extent, given] using same
    subst highest
    exact keeps _ _ .clips known

theorem maintains_whole {supplied : Statement → Prop}
    (wide : ∀ statement, supplied statement → statement.narrowsRange = false) :
    Maintains KeycodeContents supplied fun contents => contents.extent.Whole := by
  refine ⟨empty_whole, fun _ _ _ => empty_whole, ?builtin, ?handle, ?absorb⟩
  case builtin =>
    intro term contents made whole built
    rw [eq_of_builtin built]
    exact includeWholeRange_whole whole.legal
  case handle =>
    intro _ header mode statement contents known whole
    refine .mono (handle_steps header mode statement contents) fun _ step => ?_
    rw [wide statement known] at step
    exact step.whole whole
  case absorb =>
    intro _ mode header new old newWhole oldWhole
    exact .bind (absorb_whole mode header newWhole oldWhole (fun _ _ step => step.whole)
      fun _ => Whole.legal) fun made known => .pure known

/-- A section lies in its range as long as what it includes accepts all legal codes. -/
theorem inclusive_consistent (keycodes : KeycodeTable) :
    Inclusive KeycodeContents keycodes Eq id (Same fun contents => contents.extent.Whole)
      (Same fun contents => contents.extent.Consistent) where
  initial := rfl
  empty := ⟨rfl, empty_whole⟩
  builtinGuest := builtin_same (maintains_whole (fun _ : Statement => False.elim)).builtin
  builtinHost := builtin_same fun term contents made consistent built => by
    rw [eq_of_builtin built]
    exact (includeWholeRange_whole consistent.legal).consistent
  meet := .same (maintains_whole (fun _ : Statement => False.elim)).absorb
  welcome := .same fun _ mode header new old whole consistent =>
    .bind (absorb_whole mode header whole consistent (fun _ _ step => step.consistent)
      fun _ => Consistent.legal) fun made known => .pure known

theorem range_legal (legal : contents.extent.Legal) :
    (lowestKeycode ≤ contents.range.1 ∧ contents.range.1 ≤ highestKeycode)
      ∧ lowestKeycode ≤ contents.range.2 ∧ contents.range.2 ≤ highestKeycode := by
  simp only [range]
  constructor
  · cases given : contents.minimum with
    | some low => exact legal.minimum low given
    | none =>
      cases covered : contents.covered with
      | none => decide
      | some ends =>
        have inside := legal.covered ends.1 ends.2 covered
        exact ⟨inside.1, Nat.le_trans inside.2.1 inside.2.2⟩
  · cases given : contents.maximum with
    | some high => exact legal.maximum high given
    | none =>
      cases covered : contents.covered with
      | none => decide
      | some ends =>
        have inside := legal.covered ends.1 ends.2 covered
        exact ⟨Nat.le_trans inside.1 inside.2.1, inside.2.2⟩

theorem range_covers (consistent : contents.extent.Consistent) {lowest highest : Nat}
    (covered : contents.covered = some (lowest, highest)) :
    contents.range.1 ≤ lowest ∧ highest ≤ contents.range.2 := by
  obtain ⟨above, below⟩ := consistent.inside lowest highest covered
  have low := consistent.legal.low_eq
  have high := consistent.legal.high_eq
  simp only [KeycodeContents.extent] at above below low high
  simp only [range, covered]
  constructor
  · cases given : contents.minimum with
    | some known => simpa [given, low] using above
    | none => simp
  · cases given : contents.maximum with
    | some known => simpa [given, high] using below
    | none => simp

theorem range_ordered (consistent : contents.extent.Consistent) :
    contents.range.1 ≤ contents.range.2 := by
  cases covered : contents.covered with
  | some ends =>
    -- Between the bounds lie the codes that were defined.
    have inside := range_covers consistent covered
    have ordered := (consistent.legal.covered ends.1 ends.2 covered).2.1
    omega
  | none =>
    have ordered := consistent.ordered
    rw [consistent.legal.low_eq, consistent.legal.high_eq] at ordered
    simpa [range, covered, KeycodeContents.extent] using ordered

/-- A code has a name only if it was defined, or had one before. -/
theorem applyNames_defined {names : Vector KeyName 256} {code : Nat}
    (outside : ∀ lowest highest, contents.covered = some (lowest, highest) →
      ¬(lowest ≤ code ∧ code ≤ highest)) : (contents.applyNames names)[code]? = names[code]? := by
  simp only [applyNames]
  cases covered : contents.covered with
  | none => rfl
  | some ends =>
    obtain ⟨lowest, highest⟩ := ends
    have apart := outside lowest highest covered
    have absent : code ∉ List.range' lowest (highest + 1 - lowest) := by
      rw [List.mem_range'_1]
      omega
    dsimp only
    -- Each step sets the name of another code.
    generalize List.range' lowest (highest + 1 - lowest) = codes at absent
    induction codes generalizing names with
    | nil => rfl
    | cons other rest ih =>
      simp only [List.mem_cons, not_or] at absent
      rw [List.foldl_cons, ih absent.2, Vector.getElem?_setIfInBounds_ne (Ne.symm absent.1)]

/-- What the table has after a section is applied, as far as the range goes. -/
theorem apply_range (contents : KeycodeContents) (name : Option String) (table : KeycodeTable) :
    Gives (contents.apply name table) fun made =>
      (made.low, made.high) = contents.range ∧ made.names = contents.applyNames table.names := by
  simp only [apply]
  refine .after fun aliases => .pure ?_
  -- Naming the indicators leaves the range and the keys alone.
  have named (indicators : List IndicatorName) (start : KeycodeTable) :
      ((indicators.foldl applyIndicator start).low, (indicators.foldl applyIndicator start).high)
        = (start.low, start.high)
      ∧ (indicators.foldl applyIndicator start).names = start.names := by
    induction indicators generalizing start with
    | nil => exact ⟨rfl, rfl⟩
    | cons indicator rest ih => exact ih (applyIndicator start indicator)
  exact named contents.indicators _

end KeycodeContents

/-- No bound that leaves out legal codes comes into a section by an include: neither from a section
of the library nor, behind another term, from the section itself. -/
def Library.BoundsStay (library : Library) (part : Section) : Prop :=
  (∀ file sections included, library.Holds .keycodes file sections → included ∈ sections →
      ∀ statement ∈ included.statements, statement.narrowsRange = false)
    ∧ ((∀ statement ∈ part.statements, statement.narrowsRange = false)
      ∨ ∀ statement ∈ part.statements, statement.comesBack = false)

namespace Assembly

variable {part : Section}

/-- A keycodes section is read to contents whose keys lie in the range, if no bound comes in by an
include. -/
theorem reading_consistent {assembly : Assembly} (stays : assembly.library.BoundsStay part)
    (mode : MergeMode) :
    (reading KeycodeContents assembly mode part).1.contents.extent.Consistent := by
  obtain ⟨wide, own⟩ := stays
  rcases own with own | others
  · -- Nothing at all narrows the range.
    refine Extent.Whole.consistent (reading_holds (KeycodeContents.maintains_whole ?_) mode)
    rintro statement (known | ⟨file, sections, included, held, member, known⟩)
    · exact own statement known
    · exact wide file sections included held member statement known
  · -- What is included narrows nothing, so the statements of the section keep to their range.
    have within (term : IncludeTerm) : Within plainly assembly.library assembly.library.stack
        (fun contents : KeycodeContents => contents.extent.Whole)
        (readSection assembly.keymap.keycodes
          (Library.termCount part + assembly.library.reach) .override)
        (readSection assembly.keymap.keycodes
          (Library.termCount part + assembly.library.reach) .override) term := by
      intro found offered _ origin draft starts
      obtain ⟨sections, held, member⟩ := offered.held
      exact readSection_keeps (KeycodeContents.maintains_whole fun _ known => known)
        assembly.library _ _ _ (fun statement leads => leads.elim (wide _ sections found held member)
          wide) origin draft starts _
    have start : AtStack assembly.library assembly.library.stack assembly.workspace :=
      ⟨Library.Extends.refl _, rfl⟩
    have read := readStatements_alike Lenient.refl (Admits.anything KeycodeContents)
      (KeycodeContents.inclusive_consistent assembly.keymap.keycodes)
      (fun _ _ same => ⟨same.1, same.2.consistent⟩) mode part.name
      (fun statement _ => .same fun _ header mode contents consistent =>
        (KeycodeContents.handle_steps header mode statement contents).mono fun _ step =>
          step.consistent consistent)
      (fun _ _ => Within.terms (fun _ _ _ => KeycodeContents.empty_whole)
        (fun _ whole => whole.consistent) fun term _ _ => within term)
      (fun included stands term behind isSelf => by
        have first : included.terms.tail.any IncludeTerm.isSelf = false :=
          others (.inclusion included) stands
        exact absurd isSelf (List.any_eq_false.mp first term behind))
      (@Draft.matched_same _ _ (Draft.empty.begin part.name .main)
        KeycodeContents.empty_whole.consistent)
    exact (read _ _ start.both).1.contents.2

/-- The keycodes after a section was compiled from scratch: its range, and its names. -/
theorem compilePart_range {level : Nat} {library : Library} {mode : MergeMode}
    (isKeycodes : part.kind = .keycodes)
    (compiled : (compilePart mode part (.start level library)).1.isSome) :
    let contents := (reading KeycodeContents (.start level library) mode part).1.contents
    let table := (compilePart mode part (.start level library)).2.keymap.keycodes
    (table.low, table.high) = contents.range
      ∧ ∀ code, (table.nameAt code).isEmpty = false → ∃ lowest highest,
        contents.covered = some (lowest, highest) ∧ lowest ≤ code ∧ code ≤ highest := by
  intro contents table
  rw [compilePart_keycodes isKeycodes] at compiled
  have applied : table = (contents.apply
      (reading KeycodeContents (.start level library) mode part).1.header.name .empty
      (reading KeycodeContents (.start level library) mode part).2.diagnostics).1 := by
    simp only [table, compilePart_keycodes isKeycodes,
      applyPart_of_clean _ (clean_of_applyPart compiled)]
    rfl
  rw [applied]
  obtain ⟨range, names⟩ := contents.apply_range _ .empty _
  refine ⟨range, fun code named => ?_⟩
  -- No code has a name at the start, so one that has a name was defined.
  refine Classical.byContradiction fun undefined => ?_
  have outside : ∀ lowest highest, contents.covered = some (lowest, highest) →
      ¬(lowest ≤ code ∧ code ≤ highest) :=
    fun lowest highest covered inside => undefined ⟨lowest, highest, covered, inside⟩
  rw [KeycodeTable.nameAt, names, KeycodeContents.applyNames_defined outside] at named
  have blank : (KeycodeTable.empty.names[code]?).getD KeyName.empty = KeyName.empty := by
    simp only [KeycodeTable.empty, Vector.getElem?_replicate]
    split <;> rfl
  rw [blank] at named
  exact absurd named (by decide)

/-- A keycodes section that is compiled from scratch, whatever it includes, has legal bounds and
names legal codes; if no bound comes in by an include, the bounds are in order and every code with
a name lies between them. -/
theorem compilePart_keys_in_range (level : Nat) (library : Library) (mode : MergeMode)
    (part : Section) (isKeycodes : part.kind = .keycodes)
    (compiled : (compilePart mode part (.start level library)).1.isSome) :
    let table := (compilePart mode part (.start level library)).2.keymap.keycodes
    ((lowestKeycode ≤ table.low ∧ table.low ≤ highestKeycode)
        ∧ (lowestKeycode ≤ table.high ∧ table.high ≤ highestKeycode)
        ∧ ∀ code, (table.nameAt code).isEmpty = false →
          lowestKeycode ≤ code ∧ code ≤ highestKeycode)
      ∧ (library.BoundsStay part → table.low ≤ table.high
        ∧ ∀ code, (table.nameAt code).isEmpty = false → table.low ≤ code ∧ code ≤ table.high) := by
  intro table
  obtain ⟨range, named⟩ := compilePart_range isKeycodes compiled
  have low : table.low = _ := congrArg Prod.fst range
  have high : table.high = _ := congrArg Prod.snd range
  rw [low, high]
  constructor
  · have legal := reading_holds (KeycodeContents.maintains_legal
      ((start level library).Supplies .keycodes part)) mode
    obtain ⟨lowLegal, highLegal⟩ := KeycodeContents.range_legal legal
    refine ⟨lowLegal, highLegal, fun code hasName => ?_⟩
    obtain ⟨lowest, highest, covered, above, below⟩ := named code hasName
    have inside := legal.covered lowest highest covered
    exact ⟨Nat.le_trans inside.1 above, Nat.le_trans below inside.2.2⟩
  · intro stays
    have consistent : (reading KeycodeContents (start level library) mode
        part).1.contents.extent.Consistent := reading_consistent stays mode
    refine ⟨KeycodeContents.range_ordered consistent, fun code hasName => ?_⟩
    obtain ⟨lowest, highest, covered, above, below⟩ := named code hasName
    have inside := KeycodeContents.range_covers consistent covered
    exact ⟨Nat.le_trans inside.1 above, Nat.le_trans below inside.2⟩

/-- Keycodes whose highest code is the highest legal one. -/
def widestText : String :=
  "xkb_keycodes \"f\" { maximum = 255; alias <Q> = <A>; };"

/-- A library with these keycodes. -/
def widestLibrary : Library :=
  Library.empty.addSource .keycodes "f" widestText

/-- An include of the file `f`. -/
def includesFile : Statement :=
  .inclusion ⟨.unspecified, "f", [⟨.unspecified, some "f", none, none⟩]⟩

/-- Keycodes that include others behind their own bounds, and a key below the lowest code. -/
def narrowed : Section :=
  ⟨.keycodes, "k", 0,
    [.assignment ⟨.unspecified, some (.ident "minimum"), some (.integer 20)⟩,
      .assignment ⟨.unspecified, some (.ident "maximum"), some (.integer 40)⟩,
      .keycode .unspecified (.ofString "A") 30, .keycode .unspecified (.ofString "C") 10,
      includesFile], []⟩

/-- The keys lie in the range where the bound of an included section leaves nothing out. -/
theorem compilePart_keys_in_range_narrowed :
    let outcome := compilePart .override narrowed (.start 0 widestLibrary)
    let table := outcome.2.keymap.keycodes
    narrowed.kind = .keycodes ∧ outcome.1.isSome ∧ widestLibrary.BoundsStay narrowed
      ∧ table.low ≤ table.high
      ∧ ∀ code, (table.nameAt code).isEmpty = false → table.low ≤ code ∧ code ≤ table.high := by
  have compiled : (compilePart .override narrowed (.start 0 widestLibrary)).1.isSome := by
    decide +kernel
  have wide : ∀ part ∈ widestLibrary.allSections, ∀ statement ∈ part.statements,
      statement.narrowsRange = false := by
    decide +kernel
  have others : ∀ statement ∈ narrowed.statements, statement.comesBack = false := by
    decide +kernel
  have stays : widestLibrary.BoundsStay narrowed :=
    ⟨fun file sections included held member =>
      wide included (held.subset_allSections rfl member), .inr others⟩
  have both := compilePart_keys_in_range 0 widestLibrary .override narrowed rfl compiled
  exact ⟨rfl, compiled, stays, both.2 stays⟩

/-- Keycodes whose lowest code is not the lowest legal one. -/
def raisingText : String :=
  "xkb_keycodes \"f\" { minimum = 35; };"

/-- Keycodes that include these behind a key of their own. -/
def raised : Section :=
  ⟨.keycodes, "k", 0,
    [.assignment ⟨.unspecified, some (.ident "maximum"), some (.integer 40)⟩,
      .keycode .unspecified (.ofString "A") 30, includesFile], []⟩

/-- A key is left outside the range where an included section has a lowest code above it: the bound
is taken over without a look at the keys. -/
theorem compilePart_raised_leaves_out_key :
    let outcome := compilePart .override raised
      (.start 0 (Library.empty.addSource .keycodes "f" raisingText))
    let table := outcome.2.keymap.keycodes
    outcome.1.isSome ∧ (table.low, table.high) = (35, 40) ∧ table.nameAt 30 = .ofString "A" := by
  decide +kernel

end Assembly

end Xkb
