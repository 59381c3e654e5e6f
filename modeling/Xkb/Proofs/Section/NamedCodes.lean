import Mathlib.Logic.Function.Basic
import Xkb.Proofs.Section.KeycodeRange

/-! The names of codes: all that one definition of a key can do to them. -/

namespace Xkb

theorem KeyName.isEmpty_iff {name : KeyName} : name.isEmpty = true ↔ name = KeyName.empty := by
  rw [isEmpty, beq_iff_eq, empty, KeyName.mk.injEq]

namespace KeycodeContents

variable {contents : KeycodeContents} {code : Nat} {name : KeyName} {mode : MergeMode}

/-- What is said of the other codes stays. -/
theorem slotAt_setSlot (contents : KeycodeContents) (code : Nat) (slot : CodeSlot) (other : Nat) :
    (contents.setSlot code slot).slotAt other
      = if other = code ∧ code < 256 then slot else contents.slotAt other := by
  unfold slotAt setSlot
  by_cases same : other = code
  · subst same
    by_cases within : other < 256
    · simp [within]
    · simp [within]
  · rw [if_neg fun both => same both.1, Vector.getElem?_setIfInBounds_ne (Ne.symm same)]

/-- The name that a code carries. -/
def nameAt (contents : KeycodeContents) (code : Nat) : KeyName :=
  (contents.slotAt code).name

/-- The codes for which definitions are accepted. -/
def InBounds (contents : KeycodeContents) (code : Nat) : Prop :=
  contents.low ≤ code ∧ code ≤ contents.high

instance (contents : KeycodeContents) (code : Nat) : Decidable (contents.InBounds code) :=
  inferInstanceAs (Decidable (_ ∧ _))

/-- The codes from the lowest that was defined to the highest. -/
def Covers (contents : KeycodeContents) (code : Nat) : Prop :=
  ∃ lowest highest, contents.covered = some (lowest, highest) ∧ lowest ≤ code ∧ code ≤ highest

section Views

theorem isOutside_iff (contents : KeycodeContents) (code : Nat) :
    contents.isOutside code = true ↔ ¬contents.InBounds code := by
  -- The bounds are compared as integers on the one side and as naturals on the other.
  simp only [isOutside, InBounds, Bool.or_eq_true, decide_eq_true_eq]
  omega

theorem nameAt_beyond (contents : KeycodeContents) (beyond : 256 ≤ code) :
    contents.nameAt code = .empty := by
  have absent : contents.slots[code]? = none := Vector.getElem?_eq_none beyond
  simp only [nameAt, slotAt, absent]
  rfl

theorem lt_of_nameAt (named : contents.nameAt code ≠ .empty) : code < 256 := by
  refine Nat.lt_of_not_le fun beyond => named ?_
  exact contents.nameAt_beyond beyond

theorem nameAt_setSlot (contents : KeycodeContents) (slot : CodeSlot)
    (room : code < 256 ∨ slot.name = contents.nameAt code) :
    (contents.setSlot code slot).nameAt = Function.update contents.nameAt code slot.name := by
  funext other
  rw [nameAt, slotAt_setSlot, Function.update_apply]
  by_cases same : other = code
  · subst same
    rw [if_pos rfl]
    rcases room with within | kept
    · rw [if_pos ⟨rfl, within⟩]
    · -- Without room the slot stays, which has this name already.
      split
      · rfl
      · exact kept.symm
  · rw [if_neg fun both => same both.1, if_neg same]
    rfl

theorem nameAt_mark (contents : KeycodeContents) (code : Nat) (alternate : Bool) :
    (contents.setSlot code { contents.slotAt code with alternate }).nameAt = contents.nameAt := by
  have set := contents.nameAt_setSlot { contents.slotAt code with alternate } (.inr rfl)
  exact set.trans (Function.update_eq_self code contents.nameAt)

theorem nameAt_free (contents : KeycodeContents) (code : Nat) (alternate : Bool) :
    (contents.setSlot code { freeSlot with alternate }).nameAt
      = Function.update contents.nameAt code .empty := by
  refine contents.nameAt_setSlot _ ?_
  -- Where there is no room, there is no name to be taken away.
  rcases Nat.lt_or_ge code 256 with within | beyond
  · exact .inl within
  · exact .inr (contents.nameAt_beyond beyond).symm

/-- A name that is found is on an accepted code, and on no accepted code before it. -/
theorem of_find_eq_some {old : Nat} (found : contents.find name = some old) :
    contents.InBounds old ∧ contents.nameAt old = name ∧
      ∀ other < old, contents.InBounds other → contents.nameAt other ≠ name := by
  unfold find at found
  obtain ⟨here, member, before⟩ := List.find?_range'_eq_some.mp found
  rw [List.mem_range'_1] at member
  refine ⟨⟨member.1, by omega⟩, eq_of_beq here, ?_⟩
  intro other earlier accepted
  have passed := before other accepted.1 earlier
  simpa [nameAt] using passed

variable {other : Nat}

/-- A name that is not found is on no accepted code. -/
theorem of_find_eq_none (missing : contents.find name = none) (accepted : contents.InBounds other) :
    contents.nameAt other ≠ name := by
  unfold find at missing
  have passed := List.find?_range'_eq_none.mp missing other accepted.1 (by
    have below := accepted.2
    omega)
  simpa [nameAt] using passed

/-- A code that is defined is covered, and so are those that were. -/
theorem covers_cover (known : other = code ∨ contents.Covers other) :
    (contents.cover code).Covers other := by
  rcases known with rfl | ⟨lowest, highest, covered, above, below⟩
  · -- The range either starts with this code or is extended to it.
    cases covered : contents.covered with
    | none => exact ⟨other, other, by simp [cover, covered], by omega, by omega⟩
    | some ends =>
      exact ⟨min ends.1 other, max ends.2 other, by simp [cover, covered], by omega, by omega⟩
  · exact ⟨min lowest code, max highest code, by simp [cover, covered], by omega, by omega⟩

end Views

/-- A code gives way to a name if it has none, or has another one that the mode does not protect. -/
def GivesWay (contents : KeycodeContents) (code : Nat) (name : KeyName) (mode : MergeMode) : Prop :=
  contents.nameAt code = .empty ∨ contents.nameAt code ≠ name ∧ mode ≠ .augment

/-- The first accepted code, other than a certain one, that carries a name. -/
structure FirstOther (contents : KeycodeContents) (code : Nat) (name : KeyName) (old : Nat) :
    Prop where
  other : old ≠ code
  accepted : contents.InBounds old
  carries : contents.nameAt old = name
  first : ∀ earlier < old, earlier ≠ code → contents.InBounds earlier →
    contents.nameAt earlier ≠ name

/--
All that the definition of an accepted code can do to the names.

What becomes of the code is told first by the name it has.
Only if it gives way does it matter where else the new name is.
-/
inductive Defines (contents : KeycodeContents) (code : Nat) (name : KeyName) (mode : MergeMode) :
    (Nat → KeyName) → Prop where
  /-- The code has this name already, or is protected. -/
  | keeps (named : contents.nameAt code ≠ .empty)
      (settled : contents.nameAt code = name ∨ mode = .augment) :
      Defines contents code name mode contents.nameAt
  /-- The code takes the name, which may be on other codes only if it is an alternate one. -/
  | takes (givesWay : contents.GivesWay code name mode)
      (free : mode = .alternate ∨ name = .empty ∨
        ∀ other, other ≠ code → contents.InBounds other → contents.nameAt other ≠ name) :
      Defines contents code name mode (Function.update contents.nameAt code name)
  /-- The code takes the name from the first other code that has it. -/
  | moves (old : Nat) (givesWay : contents.GivesWay code name mode) (overrides : mode = .override)
      (found : contents.FirstOther code name old) :
      Defines contents code name mode
        (Function.update (Function.update contents.nameAt old .empty) code name)
  /-- The other code keeps the name, and this one is left without any. -/
  | drops (old : Nat) (givesWay : contents.GivesWay code name mode)
      (plain : mode ≠ .override ∧ mode ≠ .alternate) (found : contents.FirstOther code name old) :
      Defines contents code name mode (Function.update contents.nameAt code .empty)

variable {cleared : KeycodeContents}

theorem firstOther_of_find {old : Nat}
    (names : cleared.nameAt = Function.update contents.nameAt code .empty)
    (bounds : cleared.InBounds = contents.InBounds)
    (found : (cleared.find name).filter (· != code) = some old) :
    contents.FirstOther code name old := by
  -- The cleared contents differ in the code alone, and that is not where the name is found.
  obtain ⟨located, different⟩ := Option.filter_eq_some_iff.mp found
  have other : old ≠ code := by simpa using different
  obtain ⟨accepted, carries, before⟩ := of_find_eq_some located
  rw [names] at carries before
  rw [bounds] at accepted before
  refine ⟨other, accepted, ?_, ?_⟩
  · rwa [Function.update_of_ne other] at carries
  · intro earlier less apart within
    have passed := before earlier less within
    rwa [Function.update_of_ne apart] at passed

/-- A name that is not found on another code of the cleared contents is on none, unless it is the
name of no key. -/
theorem free_of_find (names : cleared.nameAt = Function.update contents.nameAt code .empty)
    (bounds : cleared.InBounds = contents.InBounds)
    (missing : (cleared.find name).filter (· != code) = none) :
    name = .empty ∨ ∀ other, other ≠ code → contents.InBounds other →
      contents.nameAt other ≠ name := by
  cases located : cleared.find name with
  | none =>
    right
    intro other apart accepted
    have passed := of_find_eq_none located (bounds ▸ accepted)
    rwa [names, Function.update_of_ne apart] at passed
  | some old =>
    -- The search stopped at the code itself, which was cleared before.
    left
    have same : old = code := by simpa [located] using missing
    have carries := (of_find_eq_some located).2.1
    rw [names, same, Function.update_self] at carries
    exact carries.symm

theorem placeKey_defines (small : code < 256)
    (names : cleared.nameAt = Function.update contents.nameAt code .empty)
    (bounds : cleared.InBounds = contents.InBounds) (givesWay : contents.GivesWay code name mode)
    (origin : Origin) (report : Bool) :
    Gives (cleared.placeKey code name mode origin report) fun made =>
      contents.Defines code name mode made.nameAt := by
  -- The slot is set over whatever names the codes are left with.
  have placed {kept : KeycodeContents} {others : Nat → KeyName} (alternate : Bool)
      (same : kept.nameAt = Function.update others code .empty) :
      (kept.setSlot code ⟨name, origin, alternate⟩).nameAt = Function.update others code name := by
    rw [nameAt_setSlot kept _ (.inl small), same, Function.update_idem]
  simp only [placeKey]
  split
  · rename_i missing
    refine .pure ?_
    rw [placed _ names]
    exact .takes givesWay (.inr (free_of_find names bounds missing))
  · rename_i old located
    have found := firstOther_of_find names bounds located
    split
    · -- The other code is freed, which is not the one that was cleared.
      have freed : (cleared.setSlot old { freeSlot with alternate := true }).nameAt
          = Function.update (Function.update contents.nameAt old .empty) code .empty := by
        rw [nameAt_free, names, Function.update_comm found.other]
      refine .after fun _ => .pure ?_
      rw [placed _ freed]
      exact .moves old givesWay rfl found
    · -- The other code is marked as well, and both carry the name.
      refine .pure ?_
      rw [placed _ ((cleared.nameAt_mark old true).trans names)]
      exact .takes givesWay (.inl rfl)
    · rename_i notOverride notAlternate
      refine .after fun _ => .after fun _ => .pure ?_
      rw [names]
      exact .drops old givesWay ⟨notOverride, notAlternate⟩ found

/-- A definition outside the accepted codes does nothing. -/
theorem addKey_outside (outside : ¬contents.InBounds code) (name : KeyName) (mode : MergeMode)
    (origin : Origin) (mayReport : Bool) :
    Gives (contents.addKey code name mode origin mayReport) (· = contents) := by
  simp only [addKey, (contents.isOutside_iff code).mpr outside]
  exact .after fun _ => .pure rfl

/-- A definition of an accepted code covers the code, and does one of the things that definitions
can do to the names. -/
theorem addKey_defines (accepted : contents.InBounds code) (small : code < 256) (name : KeyName)
    (mode : MergeMode) (origin : Origin) (mayReport : Bool) :
    Gives (contents.addKey code name mode origin mayReport) fun made =>
      made.extent = (contents.cover code).extent ∧ contents.Defines code name mode made.nameAt := by
  have inside : ¬contents.isOutside code = true := by
    rw [isOutside_iff]
    exact not_not_intro accepted
  -- The names are those before the code was covered.
  have placed {cleared : KeycodeContents}
      (names : cleared.nameAt = Function.update contents.nameAt code .empty)
      (same : cleared.extent = (contents.cover code).extent)
      (bounds : cleared.InBounds = contents.InBounds) (givesWay : contents.GivesWay code name mode)
      (report : Bool) :
      Gives (cleared.placeKey code name mode origin report) fun made =>
        made.extent = (contents.cover code).extent ∧
          contents.Defines code name mode made.nameAt := by
    intro log
    have extent := cleared.placeKey_extent code name mode origin report log
    exact ⟨extent.trans same, placeKey_defines small names bounds givesWay origin report log⟩
  simp only [addKey, if_neg inside]
  refine .after fun level => ?_
  refine .ite (fun blank => ?_) fun named => ?_
  · -- A code without a name is as good as cleared.
    have free : contents.nameAt code = .empty := KeyName.isEmpty_iff.mp blank
    have names : (contents.cover code).nameAt = Function.update contents.nameAt code .empty := by
      rw [← free, Function.update_eq_self]
      rfl
    exact placed names rfl rfl (.inl free) _
  have named : contents.nameAt code ≠ .empty := fun free => named (KeyName.isEmpty_iff.mpr free)
  refine .ite (fun same => ?_) fun other => ?_
  · -- The name stays where it is, and at most the mark changes.
    have same : contents.nameAt code = name := eq_of_beq same
    have keeps : contents.Defines code name mode contents.nameAt := .keeps named (.inl same)
    refine .ite (fun _ => .pure ⟨rfl, ?_⟩) fun _ => .noted ⟨rfl, keeps⟩
    rw [nameAt_mark]
    exact keeps
  have other : contents.nameAt code ≠ name := fun same => other (beq_iff_eq.mpr same)
  refine .ite (fun protects => ?_) fun unprotected => ?_
  · have augments : mode = .augment := eq_of_beq protects
    exact .after fun _ => .pure ⟨rfl, .keeps named (.inr augments)⟩
  · have clobbers : mode ≠ .augment := by simpa using unprotected
    refine .after fun _ => ?_
    have names := (contents.cover code).nameAt_free code (contents.slotAt code).alternate
    exact placed names rfl rfl (.inr ⟨other, clobbers⟩) _

/-- What holds before a definition, and after all that one can do to an accepted code, holds after
every definition. -/
theorem addKey_of_defines {origin : Origin} {mayReport : Bool} {holds : KeycodeContents → Prop}
    (outside : holds contents) (small : contents.InBounds code → code < 256)
    (inside : ∀ made, contents.InBounds code → made.extent = (contents.cover code).extent →
      contents.Defines code name mode made.nameAt → holds made) :
    Gives (contents.addKey code name mode origin mayReport) holds := by
  by_cases accepted : contents.InBounds code
  · refine (addKey_defines accepted (small accepted) name mode origin mayReport).mono ?_
    rintro made ⟨extent, defines⟩
    exact inside made accepted extent defines
  · refine (addKey_outside accepted name mode origin mayReport).mono ?_
    rintro made rfl
    exact outside

end KeycodeContents

end Xkb
