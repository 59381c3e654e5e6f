import Xkb.Proofs.MaskText

/-! The virtual modifiers over a whole run of calls: slots are taken in turn, a name keeps its slot,
and a slot has the binding that it was taken with or the last one put in its place. -/

namespace Xkb.VirtualModifiers

/-- The modifiers after a call. -/
def perform (modifiers : VirtualModifiers) (call : Call) : Report VirtualModifiers :=
  return modifiers.after (← call.answer modifiers)

/-- The modifiers after some calls, one after the other. -/
def run (modifiers : VirtualModifiers) (calls : List Call) : Report VirtualModifiers :=
  calls.foldlM perform modifiers

/-- The taken slots are the first ones. -/
def InTurn (modifiers : VirtualModifiers) : Prop :=
  ∃ count ≤ 16, ∀ slot, (modifiers.get? slot).isSome ↔ slot < count

/-- No two slots have the same name, whatever the case of its letters. -/
def DistinctNames (modifiers : VirtualModifiers) : Prop :=
  ∀ slot known other same, modifiers.get? slot = some known → modifiers.get? other = some same →
    Text.sameName known.name same.name = true → slot = other

/-- All sixteen slots have other names. -/
def FullOfOthers (modifiers : VirtualModifiers) (name : String) : Prop :=
  ∀ slot < 16, ∃ known, modifiers.get? slot = some known ∧ Text.sameName known.name name = false

/-- A slot was taken by one of the calls, and has the binding of that call or the last one that a
later call put in its place. -/
def TakenBy (calls : List Call) (log : Diagnostics) (slot : Nat) (known : VirtualModifier) : Prop :=
  ∃ before creation later real, calls = before ++ creation :: later ∧ creation.binding = .ok real ∧
    (empty.run before log).1.get? slot = none ∧
    (empty.run (before ++ [creation]) log).1.get? slot = some ⟨known.name, real.getD 0⟩ ∧
    known.real = (later.filterMap (Call.rebinds known.name)).getLastD (real.getD 0)

variable {modifiers : VirtualModifiers} {known : VirtualModifier} {slot : Nat} {name : String}

theorem DistinctNames.index_eq (distinct : modifiers.DistinctNames)
    (taken : modifiers.get? slot = some known) (same : Text.sameName known.name name = true) :
    modifiers.index name = some slot := by
  cases found : modifiers.index name with
  | none =>
    -- A name that is not found is the name of no slot.
    rw [sameName_of_index_none found taken] at same
    cases same
  | some other =>
    -- The slot that is found has the name too, so it is this one.
    obtain ⟨rival, takenToo, sameToo⟩ := index_eq_some found
    rw [Text.sameName_comm] at sameToo
    rw [distinct slot known other rival taken takenToo (Text.sameName_trans same sameToo)]

theorem Call.rebinds_of_other {call : Call} (other : Text.sameName call.name name = false) :
    call.rebinds name = none := by
  unfold Call.rebinds
  split <;> simp [other]

namespace Answered

variable {call : Call} {outcome : Except VirtualModifierError (VirtualModifiers × Nat)}

theorem inTurn (answered : Answered modifiers call outcome) (inTurn : modifiers.InTurn) :
    (modifiers.after outcome).InTurn := by
  -- Only a new name makes one more slot taken.
  obtain ⟨count, few, first⟩ := inTurn
  cases answered with
  | unbound _ => exact ⟨count, few, first⟩
  | full _ _ _ => exact ⟨count, few, first⟩
  | known _ _ present =>
    refine ⟨count, few, fun slot => ?_⟩
    rw [after, get?_set _ _ (lt_of_get? present), ← first slot]
    split
    · next here =>
      subst here
      simp [present]
    · rfl
  | @added _ place _ _ within free before =>
    -- The first free slot is the one behind the taken ones.
    have behind : place = count := by
      have notBelow : ¬place < count := by simp [← first place, free]
      have notAbove : ¬count < place := by
        intro above
        have taken := (first count).mp (before count above)
        omega
      omega
    refine ⟨count + 1, by omega, fun slot => ?_⟩
    rw [after, get?_set _ _ within]
    split
    · simp only [Option.isSome_some, true_iff]
      omega
    · rw [first slot]
      omega

theorem distinctNames (answered : Answered modifiers call outcome)
    (distinct : modifiers.DistinctNames) : (modifiers.after outcome).DistinctNames := by
  -- Every name of the table afterwards was in its slot before, or is the new one.
  intro slot known other same taken takenToo alike
  cases answered with
  | unbound _ => exact distinct slot known other same taken takenToo alike
  | full _ _ _ => exact distinct slot known other same taken takenToo alike
  | @known real place bound _ _ present =>
    have nameBefore {slot : Nat} {known : VirtualModifier}
        (taken : (modifiers.set place ⟨bound.name, rebound bound.real real call.merge⟩).get? slot
          = some known) : ∃ old, modifiers.get? slot = some old ∧ old.name = known.name := by
      rw [get?_set _ _ (lt_of_get? present)] at taken
      split at taken
      · next here =>
        cases taken
        exact ⟨bound, here ▸ present, rfl⟩
      · exact ⟨known, taken, rfl⟩
    obtain ⟨old, oldTaken, oldName⟩ := nameBefore taken
    obtain ⟨older, olderTaken, olderName⟩ := nameBefore takenToo
    rw [← oldName, ← olderName] at alike
    exact distinct slot old other older oldTaken olderTaken alike
  | added _ unknown within _ _ =>
    rw [after, get?_set _ _ within] at taken takenToo
    -- The new name was not found, so it is the name of no slot that was taken before.
    split at taken <;> split at takenToo
    · next here hereToo => exact here.symm.trans hereToo
    · cases taken
      rw [Text.sameName_comm, sameName_of_index_none unknown takenToo] at alike
      cases alike
    · cases takenToo
      rw [sameName_of_index_none unknown taken] at alike
      cases alike
    · exact distinct slot known other same taken takenToo alike

/-- What is in a slot after a call: a new modifier in a free slot, or the one that was there with the
binding that the call puts in its place, if any. -/
theorem get?_after (answered : Answered modifiers call outcome) (distinct : modifiers.DistinctNames)
    (taken : (modifiers.after outcome).get? slot = some known) :
    (modifiers.get? slot = none ∧ ∃ real, call.binding = .ok real ∧ known = ⟨call.name, real.getD 0⟩) ∨
      ∃ old, modifiers.get? slot = some old ∧
        known = ⟨old.name, (call.rebinds old.name).getD old.real⟩ := by
  -- Where the call has nothing to do with the slot, it has another name.
  have untouched (taken : modifiers.get? slot = some known)
      (other : call.rebinds known.name = none) :
      ∃ old, modifiers.get? slot = some old ∧
        known = ⟨old.name, (call.rebinds old.name).getD old.real⟩ :=
    ⟨known, taken, by rw [other]; rfl⟩
  have unnamed (unknown : modifiers.index call.name = none) (taken : modifiers.get? slot = some known) :
      call.rebinds known.name = none := by
    refine Call.rebinds_of_other ?_
    rw [Text.sameName_comm]
    exact sameName_of_index_none unknown taken
  cases answered with
  | unbound fails => exact .inr (untouched taken (by rw [Call.rebinds, fails]))
  | full _ unknown _ => exact .inr (untouched taken (unnamed unknown taken))
  | @known real place bound binds found present =>
    rw [after, get?_set _ _ (lt_of_get? present)] at taken
    split at taken
    · next here =>
      subst here
      cases taken
      obtain ⟨same, presentToo, named⟩ := index_eq_some found
      rw [present] at presentToo
      cases presentToo
      -- The call is for this name, so its mode alone decides.
      refine .inr ⟨bound, present, ?_⟩
      rw [Text.sameName_comm] at named
      simp only [Call.rebinds, binds, named, Bool.true_and, rebound]
      split <;> rfl
    · next apart =>
      refine .inr (untouched taken (Call.rebinds_of_other ?_))
      cases same : Text.sameName call.name known.name with
      | false => rfl
      | true =>
        -- The name would be found in two slots.
        rw [Text.sameName_comm] at same
        rw [distinct.index_eq taken same] at found
        exact absurd (Option.some.inj found).symm apart
  | added binds unknown within free _ =>
    rw [after, get?_set _ _ within] at taken
    split at taken
    · next here =>
      cases taken
      exact .inl ⟨here ▸ free, _, binds, rfl⟩
    · exact .inr (untouched taken (unnamed unknown taken))

theorem isOk_eq_false_iff (answered : Answered modifiers call outcome)
    (binds : call.binding.isOk = true) : outcome.isOk = false ↔ modifiers.FullOfOthers call.name := by
  cases answered with
  | unbound fails => simp [fails, Except.toBool] at binds
  | full _ unknown taken =>
    -- Every slot is taken, and not by the name, which was not found.
    refine ⟨fun _ slot within => ?_, fun _ => rfl⟩
    obtain ⟨known, present⟩ := Option.isSome_iff_exists.mp (taken slot within)
    exact ⟨known, present, sameName_of_index_none unknown present⟩
  | @known _ slot _ _ found present =>
    refine ⟨nofun, fun others => ?_⟩
    -- The slot of the name itself has no other name.
    obtain ⟨known, taken, differs⟩ := others slot (lt_of_get? present)
    obtain ⟨same, takenToo, named⟩ := index_eq_some found
    rw [taken] at takenToo
    cases takenToo
    rw [named] at differs
    cases differs
  | @added _ slot _ _ within free _ =>
    refine ⟨nofun, fun others => ?_⟩
    -- The slot that the name got was free.
    obtain ⟨known, taken, -⟩ := others slot within
    rw [free] at taken
    cases taken

end Answered

theorem perform_answered (modifiers : VirtualModifiers) (call : Call) :
    Gives (modifiers.perform call) fun made =>
      ∃ outcome, Answered modifiers call outcome ∧ made = modifiers.after outcome :=
  .bind (answer_answered modifiers call) fun outcome answered =>
    .pure ⟨outcome, answered, rfl⟩

theorem run_keeps (modifiers : VirtualModifiers) (calls : List Call) :
    Gives (modifiers.run calls) (KeepsNames modifiers) := by
  -- What every call keeps, a run keeps.
  refine .foldlM (.refl modifiers) fun value call _ kept => ?_
  refine (perform_answered value call).mono fun made performed => ?_
  obtain ⟨outcome, answered, rfl⟩ := performed
  exact kept.trans answered.keeps

theorem run_orderly (calls : List Call) :
    Gives (empty.run calls) fun made => made.InTurn ∧ made.DistinctNames := by
  -- Both hold of sixteen free slots, and every call keeps both.
  refine .foldlM ⟨⟨0, by omega, ?_⟩, ?_⟩ fun value call _ orderly => ?_
  · intro slot
    simp [get?_empty]
  · intro slot known other same taken
    simp [get?_empty] at taken
  · refine (perform_answered value call).mono fun made performed => ?_
    obtain ⟨outcome, answered, rfl⟩ := performed
    exact ⟨answered.inTurn orderly.1, answered.distinctNames orderly.2⟩

theorem run_concat (modifiers : VirtualModifiers) (calls : List Call) (call : Call)
    (log : Diagnostics) :
    modifiers.run (calls ++ [call]) log
      = (modifiers.run calls log).1.perform call (modifiers.run calls log).2 := by
  simp only [run, List.foldlM_append]
  rfl

/-- After a further call a slot is still taken by the same one, and has the binding of the further
call if that puts one in its place. -/
theorem TakenBy.concat {calls : List Call} {log : Diagnostics}
    (taken : TakenBy calls log slot known) (call : Call) :
    TakenBy (calls ++ [call]) log slot
      ⟨known.name, (call.rebinds known.name).getD known.real⟩ := by
  obtain ⟨before, creation, later, real, rfl, binds, free, created, bound⟩ := taken
  refine ⟨before, creation, later ++ [call], real, by simp, binds, free, created, ?_⟩
  -- The further call is the last of the later ones, so its binding counts if it has one.
  rw [bound]
  cases rebinds : call.rebinds known.name with
  | none => simp [rebinds]
  | some other => simp [rebinds]

theorem run_takenBy (calls : List Call) (log : Diagnostics)
    (taken : (empty.run calls log).1.get? slot = some known) : TakenBy calls log slot known := by
  -- The last call is split off, so that the run before it is one of the same kind.
  induction calls using List.reverseRecOn generalizing slot known with
  | nil =>
    have free := get?_empty slot
    rw [show (empty.run [] log).1 = empty from rfl, free] at taken
    cases taken
  | append_singleton calls call ih =>
    rw [run_concat] at taken
    obtain ⟨outcome, answered, same⟩ :=
      perform_answered (empty.run calls log).1 call (empty.run calls log).2
    rw [same] at taken
    have distinct := (run_orderly calls log).2
    rcases answered.get?_after distinct taken with ⟨free, real, binds, rfl⟩ | ⟨old, present, rfl⟩
    · -- The slot was free until the last call took it.
      refine ⟨calls, call, [], real, rfl, binds, free, ?_, rfl⟩
      rw [run_concat, same]
      exact taken
    · exact (ih present).concat call

/-- In every run of calls from sixteen free slots on, the taken slots are the first ones, no two have
the same name, a name that has a slot keeps it, and the name in a slot stays. A call whose binding
can be made out fails exactly if all slots have other names, and neither a call nor a declaration in
a section changes a slot if it fails. A slot has the binding of the call that took it, or the last
one that a later call put in its place. -/
theorem run_registers (calls : List Call) (log : Diagnostics) :
    let registry := (empty.run calls log).1
    registry.InTurn ∧ registry.DistinctNames ∧
    (∀ name slot, registry.index name = some slot → ∀ later,
      (empty.run (calls ++ later) log).1.index name = some slot ∧
      ((empty.run (calls ++ later) log).1.get? slot).map (·.name)
        = (registry.get? slot).map (·.name)) ∧
    (∀ (call : Call) report, call.binding.isOk = true →
      ((call.answer registry report).1.isOk = false ↔ registry.FullOfOthers call.name)) ∧
    (∀ (call : Call) report, (call.answer registry report).1.isOk = false →
      (registry.perform call report).1 = registry) ∧
    (∀ name value merge (workspace : Workspace), workspace.modifiers = registry →
      ((Reading.declareModifier name value merge : Reading Bool) workspace).1 = false →
      ((Reading.declareModifier name value merge : Reading Bool) workspace).2.modifiers = registry) ∧
    ∀ slot known, registry.get? slot = some known → TakenBy calls log slot known := by
  -- A failure leaves the table that was there.
  have failed {modifiers : VirtualModifiers}
      {outcome : Except VirtualModifierError (VirtualModifiers × Nat)}
      (fails : outcome.isOk = false) : modifiers.after outcome = modifiers := by
    cases outcome with
    | error cause => rfl
    | ok made => cases fails
  obtain ⟨inTurn, distinct⟩ := run_orderly calls log
  refine ⟨inTurn, distinct, ?_, ?_, ?_, ?_, fun slot known taken => run_takenBy calls log taken⟩
  · intro name slot found later
    -- The later calls go on from the registry that the earlier ones leave.
    have split : empty.run (calls ++ later) log
        = (empty.run calls log).1.run later (empty.run calls log).2 := by
      simp only [run, List.foldlM_append]
      rfl
    obtain ⟨known, taken, named⟩ := index_eq_some found
    obtain ⟨same, present, sameName⟩ :=
      run_keeps (empty.run calls log).1 later (empty.run calls log).2 slot known taken
    have laterDistinct := (run_orderly (calls ++ later) log).2
    rw [← split] at present
    refine ⟨laterDistinct.index_eq present (sameName ▸ named), ?_⟩
    rw [present, taken, Option.map_some, Option.map_some, sameName]
  · intro call report binds
    exact (answer_answered _ call report).isOk_eq_false_iff binds
  · intro call report fails
    exact failed fails
  · intro name value merge workspace same fails
    -- A declaration in a section is wrong exactly if its call fails.
    rw [declareModifier_eq] at fails ⊢
    rw [← same]
    exact failed fails

end Xkb.VirtualModifiers
