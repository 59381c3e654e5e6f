import Xkb.Proofs.Computation
import Xkb.VirtualModifier

/-! Calls for virtual modifiers: all that a definition or a declaration can come to. -/

namespace Xkb.VirtualModifiers

variable {modifiers : VirtualModifiers} {known : VirtualModifier} {slot : Nat}

section Slots

variable {name : String}

theorem lt_of_get? (taken : modifiers.get? slot = some known) : slot < 16 := by
  refine Nat.lt_of_not_le fun beyond => ?_
  simp [get?, Vector.getElem?_eq_none beyond] at taken

theorem getElem?_of_get? (taken : modifiers.get? slot = some known) :
    modifiers.slots.toList[slot]? = some (some known) := by
  rw [Vector.getElem?_toList]
  exact Option.join_eq_some_iff.mp taken

/-- What is found under a name has that name. -/
theorem index_eq_some (found : modifiers.index name = some slot) :
    ∃ known, modifiers.get? slot = some known ∧ Text.sameName known.name name = true := by
  obtain ⟨within, fits, -⟩ := List.findIdx?_eq_some_iff_getElem.mp found
  obtain ⟨known, taken, same⟩ := (Option.any_eq_true _ _).mp fits
  refine ⟨known, ?_, same⟩
  rw [Vector.getElem_toList] at taken
  rw [get?, Vector.getElem?_eq_getElem (by simpa using within), taken]
  rfl

/-- A name under which nothing is found is the name of no modifier. -/
theorem sameName_of_index_none (absent : modifiers.index name = none)
    (taken : modifiers.get? slot = some known) : Text.sameName known.name name = false := by
  have member := List.mem_of_getElem? (getElem?_of_get? taken)
  simpa using List.findIdx?_eq_none_iff.mp absent _ member

theorem get?_empty (slot : Nat) : VirtualModifiers.empty.get? slot = none := by
  rw [get?, VirtualModifiers.empty, Vector.getElem?_replicate]
  split <;> rfl

theorem get?_set (slot : Nat) (new : VirtualModifier) (within : slot < 16) (other : Nat) :
    (modifiers.set slot new).get? other
      = if slot = other then some new else modifiers.get? other := by
  by_cases here : slot = other
  · subst here
    simp [set, get?, within]
  · simp [set, get?, here]

theorem set_of_get? (taken : modifiers.get? slot = some known) :
    modifiers.set slot known = modifiers := by
  -- The two tables are compared slot by slot.
  have same : modifiers.slots.setIfInBounds slot (some known) = modifiers.slots := by
    ext1 index within
    rw [Vector.getElem_setIfInBounds]
    split
    · next here =>
      subst here
      simpa [get?, within] using taken.symm
    · rfl
  rw [set, same]

theorem findIdx?_isNone (free : modifiers.slots.toList.findIdx? Option.isNone = some slot) :
    slot < 16 ∧ modifiers.get? slot = none ∧ ∀ earlier < slot, (modifiers.get? earlier).isSome := by
  -- The search stops at the first slot that passes, and the slots are sixteen.
  obtain ⟨within, empty, before⟩ := List.findIdx?_eq_some_iff_getElem.mp free
  have inside : slot < 16 := by simpa using within
  refine ⟨inside, ?_, ?_⟩
  · simpa [get?, inside] using empty
  · intro earlier below
    have taken := before earlier below
    have earlierInside : earlier < 16 := by omega
    simpa [get?, earlierInside, Option.isSome_iff_ne_none] using taken

theorem isSome_of_no_free (full : modifiers.slots.toList.findIdx? Option.isNone = none)
    (within : slot < 16) : (modifiers.get? slot).isSome := by
  have taken := List.findIdx?_eq_none_iff.mp full (modifiers.slots[slot])
    (by simp [Vector.mem_toList_iff])
  simpa [get?, within, Option.isSome_iff_ne_none] using taken

end Slots

/-- A call for a virtual modifier: a definition with the real modifiers, or a declaration with an
expression for them. -/
inductive Call where
  | define (name : String) (real : Option UInt8) (merge : MergeMode)
  | declare (name : String) (value : Option Expr) (merge : MergeMode)

namespace Call

/-- The name that a call is for. -/
def name : Call → String
  | define name _ _ => name
  | declare name _ _ => name

/-- The mode of a call. -/
def merge : Call → MergeMode
  | define _ _ merge => merge
  | declare _ _ merge => merge

/-- The real modifiers that a call gives, unless they cannot be made out. -/
def binding : Call → Except VirtualModifierError (Option UInt8)
  | define _ real _ => .ok real
  | declare name value _ => bindingOf name value

/-- What a call comes to: the modifiers after it and the slot of its name, or why it fails. -/
def answer (modifiers : VirtualModifiers) :
    Call → Report (Except VirtualModifierError (VirtualModifiers × Nat))
  | define name real merge => modifiers.define name real merge
  | declare name value merge => modifiers.declare name value merge

/-- The binding that a call puts in the place of the one that a name has. -/
def rebinds (name : String) (call : Call) : Option UInt8 :=
  match call.binding with
  | .ok real =>
    if Text.sameName call.name name && call.merge.replacesEntity then real else none
  | .error _ => none

end Call

/-- What an answer leaves: other modifiers, or after a failure those that were there. -/
def after (modifiers : VirtualModifiers) :
    Except VirtualModifierError (VirtualModifiers × Nat) → VirtualModifiers
  | .ok (made, _) => made
  | .error _ => modifiers

/-- The binding of a known modifier after a call. -/
def rebound (old : UInt8) (real : Option UInt8) (merge : MergeMode) : UInt8 :=
  if merge.replacesEntity then real.getD old else old

/-- All that a call can come to. -/
inductive Answered (modifiers : VirtualModifiers) (call : Call) :
    Except VirtualModifierError (VirtualModifiers × Nat) → Prop
  | unbound {cause : VirtualModifierError} (fails : call.binding = .error cause) :
      Answered modifiers call (.error cause)
  | full {real : Option UInt8} (binds : call.binding = .ok real)
      (unknown : modifiers.index call.name = none)
      (taken : ∀ slot < 16, (modifiers.get? slot).isSome) :
      Answered modifiers call (.error .tooMany)
  | known {real : Option UInt8} {slot : Nat} {known : VirtualModifier}
      (binds : call.binding = .ok real) (found : modifiers.index call.name = some slot)
      (taken : modifiers.get? slot = some known) :
      Answered modifiers call
        (.ok (modifiers.set slot ⟨known.name, rebound known.real real call.merge⟩, slot))
  | added {real : Option UInt8} {slot : Nat} (binds : call.binding = .ok real)
      (unknown : modifiers.index call.name = none) (within : slot < 16)
      (free : modifiers.get? slot = none)
      (before : ∀ earlier < slot, (modifiers.get? earlier).isSome) :
      Answered modifiers call (.ok (modifiers.set slot ⟨call.name, real.getD 0⟩, slot))

theorem rebind_gives (taken : modifiers.get? slot = some known) (name : String) (real : UInt8)
    (merge : MergeMode) :
    Gives (modifiers.rebind slot name real merge)
      (· = modifiers.set slot ⟨known.name, rebound known.real (some real) merge⟩) := by
  have stays := set_of_get? taken
  simp only [rebind, taken]
  refine .ite (fun same => .pure ?_) fun _ => .after fun _ => .pure ?_
  · -- The same binding again is the old one, whatever the mode.
    have same : known.real = real := by simpa using same
    have kept : rebound known.real (some real) merge = known.real := by simp [rebound, same]
    rw [kept]
    exact stays.symm
  · -- Two bindings are reported as a clash, and the mode says which one is left.
    unfold rebound
    split
    · rfl
    · exact stays.symm

variable {call : Call}

theorem define_answered {real : Option UInt8} (binds : call.binding = .ok real) :
    Gives (modifiers.define call.name real call.merge) (Answered modifiers call) := by
  -- Known names keep their slot, and other names need a free one.
  simp only [define]
  cases found : modifiers.index call.name with
  | some slot =>
    obtain ⟨known, taken, -⟩ := index_eq_some found
    cases real with
    | none =>
      -- Without real modifiers the old binding stays.
      refine .pure ?_
      have answered := Answered.known binds found taken
      have kept : rebound known.real none call.merge = known.real := by simp [rebound]
      rwa [kept, set_of_get? taken] at answered
    | some real =>
      refine .bind (rebind_gives taken call.name real call.merge) ?_
      rintro _ rfl
      exact .pure (.known binds found taken)
  | none =>
    dsimp only
    split
    · next full =>
      exact .pure (.full binds found fun _ within => isSome_of_no_free full within)
    · next slot free =>
      obtain ⟨within, empty, before⟩ := findIdx?_isNone free
      exact .pure (.added binds found within empty before)

/-- A call comes to one of these answers, whatever was reported before. -/
theorem answer_answered (modifiers : VirtualModifiers) (call : Call) :
    Gives (call.answer modifiers) (Answered modifiers call) := by
  cases call with
  | define name real merge => exact @define_answered modifiers (.define name real merge) real rfl
  | declare name value merge =>
    simp only [Call.answer, declare]
    cases binds : bindingOf name value with
    | error cause =>
      -- Nothing is defined where the expression has no value.
      exact .after fun _ => .pure (.unbound binds)
    | ok real =>
      -- An error of the definition is reported once more and passed on.
      refine .bind (@define_answered modifiers (.declare name value merge) real binds) ?_
      intro outcome answered
      cases outcome with
      | error cause => exact .after fun _ => .pure answered
      | ok made => exact .pure answered

/-- A declaration in a section is such a call: it leaves the modifiers as the call does, and is right
if the call has an answer. -/
theorem declareModifier_eq (name : String) (value : Option Expr) (merge : MergeMode)
    (workspace : Workspace) :
    let call := Call.declare name value merge
    let answer := call.answer workspace.modifiers workspace.diagnostics
    (Reading.declareModifier name value merge : Reading Bool) workspace
      = (answer.1.isOk,
        { workspace with modifiers := workspace.modifiers.after answer.1, diagnostics := answer.2 }) := by
  intro call answer
  -- What is done with the answer is all that is left of the reading.
  have opened : (Reading.declareModifier name value merge : Reading Bool) workspace
      = (match answer.1 with
        | .ok (modifiers, _) => do
          modify ({ · with modifiers })
          return true
        | .error _ => return false : Reading Bool) { workspace with diagnostics := answer.2 } := rfl
  rw [opened]
  cases answer.1 <;> rfl

/-- Every modifier stays in its slot under its name, whatever it is bound to. -/
def KeepsNames (before after : VirtualModifiers) : Prop :=
  ∀ slot known, before.get? slot = some known →
    ∃ now, after.get? slot = some now ∧ now.name = known.name

theorem KeepsNames.refl (modifiers : VirtualModifiers) : KeepsNames modifiers modifiers :=
  fun _ known taken => ⟨known, taken, rfl⟩

theorem KeepsNames.trans {first second third : VirtualModifiers}
    (start : KeepsNames first second) (rest : KeepsNames second third) :
    KeepsNames first third := by
  intro slot known taken
  obtain ⟨middle, stays, sameName⟩ := start slot known taken
  obtain ⟨now, ends, lastName⟩ := rest slot middle stays
  exact ⟨now, ends, lastName.trans sameName⟩

theorem Answered.keeps {outcome : Except VirtualModifierError (VirtualModifiers × Nat)}
    (answered : Answered modifiers call outcome) :
    KeepsNames modifiers (modifiers.after outcome) := by
  intro slot known taken
  cases answered with
  | unbound _ => exact ⟨known, taken, rfl⟩
  | full _ _ _ => exact ⟨known, taken, rfl⟩
  | known _ _ present =>
    -- The one slot that changes keeps its name.
    rw [after, get?_set _ _ (lt_of_get? present)]
    split
    · next here =>
      subst here
      rw [taken] at present
      cases present
      exact ⟨_, rfl, rfl⟩
    · exact ⟨known, taken, rfl⟩
  | added _ _ within free _ =>
    -- The new name is in a slot that was free.
    rw [after, get?_set _ _ within, if_neg]
    · exact ⟨known, taken, rfl⟩
    · rintro rfl
      rw [free] at taken
      cases taken

end Xkb.VirtualModifiers
